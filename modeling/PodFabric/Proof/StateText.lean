import PodFabric.Lib.Documents
import PodFabric.Proof.DecisionText
import PodFabric.Proof.TextLines

/-!
# What the text of a state tells

The text of a state is a document: a line for each value, and for each verdict a line with further
lines under it. What it shows is read back from it (`PodState.Presented.toText_eq_iff`). Of a reason
that is the detail without control characters, of a domain how many racks are effective, of a claim
on capacity neither its link nor its provenance, and of an aggregate by domain neither its claims
nor its reasons.
-/

namespace PodFabric

/-! ## Spellings -/

/-- Values are spelt in visible bytes, each in its own way. -/
structure Spelling {α : Type} (spell : α → Text) : Prop where
  plain : ∀ a, Plain (spell a)
  injective : Function.Injective spell

namespace Spelling

/-- A spelling of finitely many values. -/
theorem of_values {α : Type} {spell : α → Text} (values : List α) (hall : ∀ a, a ∈ values)
    (hplain : ∀ a ∈ values, Plain (spell a)) (hnodup : (values.map spell).Nodup) : Spelling spell :=
  ⟨fun a => hplain a (hall a), fun a b h => List.inj_on_of_nodup_map hnodup (hall a) (hall b) h⟩

/-- A spelling of what a value determines spells the value. -/
theorem comp {α β : Type} {spell : β → Text} (h : Spelling spell) {f : α → β}
    (hf : Function.Injective f) : Spelling fun a => spell (f a) :=
  ⟨fun a => h.plain (f a), h.injective.comp hf⟩

/-- Spellings are equal when the values are. -/
theorem eq_iff {α : Type} {spell : α → Text} (h : Spelling spell) {a b : α} :
    spell a = spell b ↔ a = b := h.injective.eq_iff

/-- Numbers are spelt in decimal digits. -/
theorem natural : Spelling decimal :=
  ⟨.decimal, fun m n h => by rw [← (decimal_spec m).2.2, h, (decimal_spec n).2.2]⟩

/-- Words of 32 bits are spelt in decimal digits. -/
theorem word32 : Spelling fun n : UInt32 => decimal n.toNat := natural.comp fun _ _ =>
    UInt32.toNat_inj.1

/-- Words of 64 bits are spelt in decimal digits. -/
theorem word64 : Spelling fun n : UInt64 => decimal n.toNat := natural.comp fun _ _ =>
    UInt64.toNat_inj.1

/-- Sequences are spelt in decimal digits. -/
theorem sequence {tag : SequenceTag} : Spelling fun s : Sequence tag => decimal s.value.toNat :=
  word64.comp Sequence.value_injective

/-- Times are spelt in decimal digits, with a sign. -/
theorem nanos : Spelling fun t : Nanos => decimalInt t.toInt := by
  refine ⟨fun t => .decimalInt _, fun s t h => ?_⟩
  have hread := @parseI64_decimalInt [] s
  rw [h, parseI64_decimalInt] at hread
  exact (Except.ok.inj hread).symm

/-- Flags are spelt as a digit. -/
theorem flag : Spelling flagText :=
  .of_values [true, false] (by decide) (by decide) (by decide)

/-- Identifiers are spelt as their tokens. -/
theorem ident {tag : IdTag} : Spelling fun id : BasicId tag => id.toText := by
  refine ⟨.ident, fun id id' h => BasicId.token_injective ?_⟩
  rw [← blankToEmpty_toText, h, blankToEmpty_toText]

/-- Digests are spelt in hexadecimal digits. -/
theorem digest : Spelling Digest.toHex := by
  refine ⟨.toHex, fun d d' h => ?_⟩
  have hread := parse_toHex d
  rw [h, parse_toHex] at hread
  exact (Except.ok.inj hread).symm

/-- Bytes are told by their hexadecimal digits. -/
theorem hexBytes_injective : Function.Injective hexBytes := fun bytes bytes' h => by
  have hread := hexPairs_hexBytes bytes
  rw [h, hexPairs_hexBytes] at hread
  exact (Option.some.inj hread).symm

/-- Identifiers of bytes are spelt in hexadecimal digits. -/
theorem uuid : Spelling Uuid.toText := by
  constructor
  · intro id
    constructor
    · simp [Uuid.toText]
    · intro c hc
      simp only [Uuid.toText, List.mem_append, List.mem_singleton] at hc
      rcases hc with (((((((hc | rfl) | hc) | rfl) | hc) | rfl) | hc) | rfl) | hc
      all_goals first | exact hexBytes_visible c hc | decide
  · intro id id' h
    have hlength : ∀ (id : Uuid) (i n : ℕ), i + n ≤ 16 →
        (hexBytes ((id.bytes.drop i).take n)).length = 2 * n := by
      intro id i n hle
      rw [length_hexBytes, List.length_take, List.length_drop, id.size]
      omega
    have hcut : ∀ (i n : ℕ) (t t' : Text), i + n ≤ 16 →
        t ++ hexBytes ((id.bytes.drop i).take n) = t' ++ hexBytes ((id'.bytes.drop i).take n) →
          t = t' ∧ (id.bytes.drop i).take n = (id'.bytes.drop i).take n := by
      intro i n t t' hle h
      obtain ⟨ht, hgroup⟩ := List.append_inj' h (by rw [hlength id i n hle, hlength id' i n hle])
      exact ⟨ht, hexBytes_injective hgroup⟩
    obtain ⟨h, hlast⟩ := hcut 10 6 _ _ (by omega) h
    obtain ⟨h, hfourth⟩ := hcut 8 2 _ _ (by omega) (List.append_cancel_right h)
    obtain ⟨h, hthird⟩ := hcut 6 2 _ _ (by omega) (List.append_cancel_right h)
    obtain ⟨h, hsecond⟩ := hcut 4 2 _ _ (by omega) (List.append_cancel_right h)
    have hfirst := hexBytes_injective (List.append_cancel_right h)
    have hwhole : ∀ id : Uuid, id.bytes = (id.bytes.drop 0).take 4 ++ ((id.bytes.drop 4).take 2 ++
        ((id.bytes.drop 6).take 2 ++ ((id.bytes.drop 8).take 2 ++ (id.bytes.drop 10).take 6))) := by
      intro id
      have hend : (id.bytes.drop 10).take 6 = id.bytes.drop 10 :=
        List.take_of_length_le (by rw [List.length_drop, id.size])
      have hstep : ∀ i n : ℕ, (id.bytes.drop i).take n ++
          id.bytes.drop (i + n) = id.bytes.drop i := by
        intro i n
        rw [← List.drop_drop, List.take_append_drop]
      rw [hend, hstep 8 2, hstep 6 2, hstep 4 2, hstep 0 4, List.drop_zero]
    refine Uuid.ext ?_
    rw [hwhole id, hwhole id', hfirst, hsecond, hthird, hfourth, hlast]

/-- Incarnations are spelt as their identifiers. -/
theorem incarnation : Spelling Incarnation.toText := uuid.comp fun _ _ h => Incarnation.ext h

/-- Lifecycle states are spelt as their names. -/
theorem lifecycle : Spelling LifecycleState.toText :=
  .of_values [.constructing, .active, .degraded, .partitioned, .recovering, .maintenance, .draining,
    .retired] (by intro a; cases a <;> decide) (by decide) (by decide)

/-- The statuses of racks are spelt as their names. -/
theorem memberStatus : Spelling MemberStatus.toText :=
  .of_values [.established, .joining, .stale, .fenced, .conflicting, .retiring,
    .unsupported, .missing]
    (by intro a; cases a <;> decide) (by decide) (by decide)

/-- The statuses of links are spelt as their names. -/
theorem linkStatus : Spelling LinkStatus.toText :=
  .of_values [.usable, .degraded, .blocked, .conflicting, .stale, .indeterminate, .unsupported]
    (by intro a; cases a <;> decide) (by decide) (by decide)

/-- The statuses of domains are spelt as their names. -/
theorem domainStatus : Spelling DomainStatus.toText :=
  .of_values [.ok, .degraded, .conflicting, .incomplete, .indeterminate]
    (by intro a; cases a <;> decide) (by decide) (by decide)

/-- The statuses of capacity are spelt as their names. -/
theorem capacityStatus : Spelling CapacityStatus.toText :=
  .of_values [.ok, .deduplicated, .conflicting, .incomplete, .indeterminate, .exhausted,
    .unsupported]
    (by intro a; cases a <;> decide) (by decide) (by decide)

/-- The statuses of obligations are spelt as their names. -/
theorem obligationStatus : Spelling ObligationStatus.toText :=
  .of_values [.satisfied, .atRisk, .violated, .indeterminate, .unsupported]
    (by intro a; cases a <;> decide) (by decide) (by decide)

/-- Membership states are spelt as their names. -/
theorem membership : Spelling MembershipState.toText :=
  .of_values [.joining, .established, .leaving, .fenced, .retired]
    (by intro a; cases a <;> decide) (by decide) (by decide)

/-- Administrative states are spelt as their names. -/
theorem admin : Spelling AdminState.toText :=
  .of_values [.enabled, .disabled, .maintenance, .draining]
    (by intro a; cases a <;> decide) (by decide) (by decide)

/-- Health states are spelt as their names. -/
theorem health : Spelling HealthState.toText :=
  .of_values [.ok, .impaired, .critical, .unknown]
    (by intro a; cases a <;> decide) (by decide) (by decide)

/-- Kinds of domains are spelt as their names. -/
theorem domainKind : Spelling DomainKind.toText :=
  .of_values [.rack, .power, .switchPlane, .row, .site, .unknown]
    (by intro a; cases a <;> decide) (by decide) (by decide)

/-- Kinds of obligations are spelt as their names. -/
theorem obligationKind : Spelling ObligationKind.toText :=
  .of_values [.protectedPath, .capacityFloor, .domainDiversity, .maintenanceWindow]
    (by intro a; cases a <;> decide) (by decide) (by decide)

/-- Kinds of fences are spelt as their names. -/
theorem fenceKind : Spelling FenceKind.toText :=
  .of_values [.member, .link, .route, .token, .capacity, .pod]
    (by intro a; cases a <;> decide) (by decide) (by decide)

/-- Codes are spelt as their names. -/
theorem code : Spelling Code.toText :=
  ⟨fun a => by cases a <;> exact plain_iff.2 rfl, code_injective⟩

/-- Reason codes are spelt as their names. -/
theorem reasonCode : Spelling ReasonCode.toText :=
  ⟨fun a => by cases a <;> exact plain_iff.2 rfl, reasonCode_injective⟩

end Spelling

/-! ## Lines -/

section Lines
variable {w w' : Text} {fields fields' rest rest' front front' : List Text}

/-- A plain field holds no space and no line end. -/
theorem Plain.unbroken {t : Text} (h : Plain t) : 32 ∉ t ∧ 10 ∉ t :=
  ⟨fun hin => absurd (h.visible _ hin) (by decide), fun hin => absurd (h.visible _ hin) (by decide)⟩

/-- The first word of a line. -/
def keywordOf (line : Text) : Text := line.takeWhile (· ≠ 32)

/-- The first field of a line, a space, and the others. -/
theorem lineOf_cons (hrest : rest ≠ []) : lineOf (w :: rest) = w ++ 32 :: lineOf rest := by
  obtain ⟨f, fs, rfl⟩ := List.exists_cons_of_ne_nil hrest
  simp [lineOf]

/-- The keyword of a line is its first field. -/
theorem keywordOf_lineOf (hw : 32 ∉ w) : keywordOf (lineOf (w :: rest)) = w := by
  have hall : ∀ c ∈ w, decide (c ≠ 32) = true := fun c hc =>
    decide_eq_true fun heq => hw (heq ▸ hc)
  unfold keywordOf
  cases rest with
  | nil =>
    rw [lineOf, List.intercalate_singleton]
    exact List.takeWhile_eq_self_iff.2 hall
  | cons f fs =>
    rw [lineOf_cons (List.cons_ne_nil _ _), List.takeWhile_append_of_pos hall]
    simp

/-- Plain fields are read back from their line. -/
theorem lineOf_inj (h : ∀ f ∈ fields, Plain f) (h' : ∀ f ∈ fields', Plain f)
    (heq : lineOf fields = lineOf fields') : fields = fields' := by
  have hread := @letters_lineOf fields 0 h
  rw [heq, letters_lineOf h'] at hread
  exact hread.symm

/-- As many fields without blanks are read back from the front of a line. -/
theorem front_inj (hlength : front.length = front'.length) (hfront : ∀ f ∈ front, 32 ∉ f)
    (hfront' : ∀ f ∈ front', 32 ∉ f) (hrest : rest ≠ []) (hrest' : rest' ≠ [])
    (h : lineOf (front ++ rest) = lineOf (front' ++ rest')) :
    front = front' ∧ lineOf rest = lineOf rest' := by
  induction front generalizing front' with
  | nil =>
    obtain rfl := List.length_eq_zero_iff.1 hlength.symm
    exact ⟨rfl, h⟩
  | cons f front ih =>
    cases front' with
    | nil => cases hlength
    | cons f' front' =>
      rw [List.forall_mem_cons] at hfront hfront'
      rw [List.cons_append, List.cons_append, lineOf_cons
        (List.append_ne_nil_of_right_ne_nil _ hrest),
        lineOf_cons (List.append_ne_nil_of_right_ne_nil _ hrest')] at h
      obtain ⟨hfirst, hline⟩ := piece_inj_sep hfront.1 hfront'.1 h
      obtain ⟨hothers, hlast⟩ := ih (Nat.succ.inj hlength) hfront.2 hfront'.2 hline
      exact ⟨by rw [hfirst, hothers], hlast⟩

/-- Fields without line ends make a line without any. -/
theorem newline_lineOf (h : ∀ f ∈ fields, 10 ∉ f) : 10 ∉ lineOf fields := by
  induction fields with
  | nil => simp [lineOf]
  | cons f fields ih =>
    rw [List.forall_mem_cons] at h
    cases fields with
    | nil => simpa [lineOf] using h.1
    | cons g fields =>
      rw [lineOf_cons (List.cons_ne_nil _ _), List.mem_append, List.mem_cons]
      have hrest := ih h.2
      rintro (hin | hin | hin)
      · exact h.1 hin
      · cases hin
      · exact hrest hin

/-! ## Reasons -/

/-- What a line shows of a reason. -/
def Reason.visible (r : Reason) : Reason := { r with detail := escapeText r.detail }

variable {r r' : Reason}

/-- A reason has fields. -/
theorem fields_ne_nil : r.fields ≠ [] := by
  unfold Reason.fields
  split <;> exact List.cons_ne_nil _ _

/-- No field of a reason holds a line end. -/
theorem fields_unbroken : ∀ f ∈ r.fields, 10 ∉ f := by
  have hcode := (Spelling.reasonCode.plain r.code).unbroken.2
  have hdetail : 10 ∉ escapeText r.detail := by
    intro hin
    obtain ⟨c, -, hc⟩ := List.mem_map.1 hin
    split at hc
    · cases hc
    · next hvisible =>
      subst hc
      exact hvisible (.inl (by decide))
  unfold Reason.fields
  split
  · simpa using hcode
  · simpa using ⟨hcode, hdetail⟩

/-- The line of a reason: its code, and its detail if there is one. -/
theorem lineOf_fields : lineOf r.fields =
    r.code.toText ++ if r.detail = [] then [] else 32 :: escapeText r.detail := by
  unfold Reason.fields
  cases hdetail : r.detail with
  | nil => simp [lineOf]
  | cons c t => simp [lineOf]

/-- What a line shows of a reason is read back from it. -/
theorem reason_inj (h : lineOf r.fields = lineOf r'.fields) : r.visible = r'.visible := by
  have hhead : ∀ (t : Text) (d : Text), ∀ c ∈ (if d = [] then [] else 32 :: t :
      Text).head?, c = 32 := by
    intro t d c hc
    split at hc
    · cases hc
    · exact (Option.some.inj hc).symm
  rw [lineOf_fields, lineOf_fields] at h
  obtain ⟨hcode, hdetail⟩ := piece_inj (Spelling.reasonCode.plain _).unbroken.1
    (Spelling.reasonCode.plain _).unbroken.1 (hhead _ _) (hhead _ _) h
  refine Reason.ext (reasonCode_injective hcode) ?_
  change escapeText r.detail = escapeText r'.detail
  split at hdetail
  · next hempty =>
    split at hdetail
    · next hempty' => rw [hempty, hempty']
    · cases hdetail
  · split at hdetail
    · cases hdetail
    · exact (List.cons.inj hdetail).2

end Lines

/-! ## Passages -/

/-- A line with the lines under it, in parts, each with the keyword that its lines begin with. -/
structure Passage where
  head : List Text
  under : List (Text × List (List Text))

/-- The fields of a line begin with its keyword, and none has a newline. -/
structure Keyed (keyword : Text) (fields : List Text) : Prop where
  first : ∃ rest, fields = keyword :: rest
  inline : ∀ f ∈ fields, 10 ∉ f

/-- The lines of a part are marked, and each begins with its keyword. -/
structure ClearPart (part : Text × List (List Text)) : Prop where
  mark : part.1.head? = some 43
  blankless : 32 ∉ part.1
  keyed : ∀ fields ∈ part.2, Keyed part.1 fields

namespace Passage

/-- The text of a passage: its head, then the lines under it. -/
def toText (p : Passage) : Text := textLine p.head ++ (p.under.flatMap Prod.snd).flatMap textLine

/-- The parts of the lines under a passage, as they are printed. -/
def parts (p : Passage) : List (Text × List Text) := p.under.map fun part =>
    (part.1, part.2.map lineOf)

/-- The line of a passage and the lines under it, as they are printed. -/
def lines (p : Passage) : Text × List Text := (lineOf p.head, p.parts.flatMap Prod.snd)

/-- The lines under a passage are marked as such, and their keywords are different. -/
structure Clear (p : Passage) (k : Text) : Prop where
  keyword : k ≠ [] ∧ k.head? ≠ some 43 ∧ 32 ∉ k
  head : Keyed k p.head
  under : ∀ part ∈ p.under, ClearPart part
  nodup : (p.under.map Prod.fst).Nodup

end Passage

section Passages
variable {p p' : Passage} {k k' : Text} {passages passages' : List Passage} {fields : List Text}

/-- A line begins as its first field does. -/
theorem lineOf_head {w : Text} {rest : List Text} (hw : w ≠ []) :
    (lineOf (w :: rest)).head? = w.head? := by
  obtain ⟨c, t, rfl⟩ := List.exists_cons_of_ne_nil hw
  cases rest with
  | nil => simp [lineOf]
  | cons f fs =>
    rw [lineOf_cons (List.cons_ne_nil _ _)]
    rfl

/-- The keyword of a keyed line. -/
theorem Keyed.keywordOf (h : Keyed k fields) (hk : 32 ∉ k) : keywordOf (lineOf fields) = k := by
  obtain ⟨rest, rfl⟩ := h.first
  exact keywordOf_lineOf hk

/-- A keyed line begins as its keyword does. -/
theorem Keyed.head (h : Keyed k fields) (hk : k ≠ []) : (lineOf fields).head? = k.head? := by
  obtain ⟨rest, rfl⟩ := h.first
  exact lineOf_head hk

/-- The line of a passage is not marked, and those under it are. -/
theorem Passage.Clear.marked (h : p.Clear k) : ¬ p.lines.1.head? = some 43 ∧
    ∀ line ∈ p.lines.2, line.head? = some 43 := by
  constructor
  · change (lineOf p.head).head? ≠ some 43
    rw [h.head.head h.keyword.1]
    exact h.keyword.2.1
  · intro line hline
    obtain ⟨part, hpart, hin⟩ := List.mem_flatMap.1 hline
    obtain ⟨part, hmem, rfl⟩ := List.mem_map.1 hpart
    obtain ⟨fields, hfields, rfl⟩ := List.mem_map.1 hin
    have hmark := (h.under part hmem).mark
    rw [((h.under part hmem).keyed fields hfields).head, hmark]
    rintro heq
    rw [heq] at hmark
    cases hmark

/-- No line of a clear passage holds a line end. -/
theorem Passage.Clear.unbroken (h : p.Clear k) : ∀ line ∈ p.lines.1 :: p.lines.2, 10 ∉ line := by
  refine List.forall_mem_cons.2 ⟨newline_lineOf h.head.inline, fun line hline => ?_⟩
  obtain ⟨part, hpart, hin⟩ := List.mem_flatMap.1 hline
  obtain ⟨part, hmem, rfl⟩ := List.mem_map.1 hpart
  obtain ⟨fields, hfields, rfl⟩ := List.mem_map.1 hin
  exact newline_lineOf ((h.under part hmem).keyed fields hfields).inline

/-- The text of a passage is its lines, joined. -/
theorem Passage.toText_lines : p.toText = joinLines 10 (p.lines.1 :: p.lines.2) := by
  have hlines : p.lines.2 = (p.under.flatMap Prod.snd).map lineOf := by
    simp [Passage.lines, Passage.parts, List.flatMap_map, List.map_flatMap]
  rw [hlines, joinLines, List.flatMap_cons, List.flatMap_map]
  rfl

/-- The lines of some passages are read back from their text. -/
theorem passages_inj (h : ∀ p ∈ passages, ∃ k, p.Clear k) (h' : ∀ p ∈ passages', ∃ k, p.Clear k)
    (heq : passages.flatMap Passage.toText = passages'.flatMap Passage.toText) :
    passages.map Passage.lines = passages'.map Passage.lines := by
  have htext : ∀ passages : List Passage, passages.flatMap Passage.toText =
      joinLines 10 ((passages.map Passage.lines).flatMap fun group => group.1 :: group.2) := by
    intro passages
    rw [joinLines, List.flatMap_assoc, List.flatMap_map]
    exact List.flatMap_congr fun p _ => Passage.toText_lines
  have hunbroken : ∀ passages : List Passage, (∀ p ∈ passages, ∃ k, p.Clear k) →
      ∀ line ∈ (passages.map Passage.lines).flatMap (fun group => group.1 :: group.2),
        10 ∉ line := by
    intro passages h line hline
    obtain ⟨group, hgroup, hin⟩ := List.mem_flatMap.1 hline
    obtain ⟨p, hp, rfl⟩ := List.mem_map.1 hgroup
    obtain ⟨k, hclear⟩ := h p hp
    exact hclear.unbroken line hin
  have hmarked : ∀ passages : List Passage, (∀ p ∈ passages, ∃ k, p.Clear k) →
      ∀ group ∈ passages.map Passage.lines, ¬ group.1.head? = some 43 ∧
        ∀ line ∈ group.2, line.head? = some 43 := by
    intro passages h group hgroup
    obtain ⟨p, hp, rfl⟩ := List.mem_map.1 hgroup
    obtain ⟨k, hclear⟩ := h p hp
    exact hclear.marked
  rw [htext, htext] at heq
  exact @groups_inj _ (fun line => line.head? = some 43) _ _ (hmarked passages h)
    (hmarked passages' h')
    (joinLines_inj (hunbroken passages h) (hunbroken passages' h') heq)

/-- The parts under a passage are read back from its lines. -/
theorem Passage.Clear.parts_inj (h : p.Clear k) (h' : p'.Clear k')
    (hkeys : p.under.map Prod.fst = p'.under.map Prod.fst) (heq : p.lines = p'.lines) :
    p.parts = p'.parts := by
  have hfst : ∀ p : Passage, p.parts.map Prod.fst = p.under.map Prod.fst := fun p => by
    simp [Passage.parts]
  have hkeyed : ∀ {p : Passage} {k : Text}, p.Clear k →
      ∀ part ∈ p.parts, ∀ line ∈ part.2, keywordOf line = part.1 := by
    intro p k h part hpart line hline
    obtain ⟨part, hmem, rfl⟩ := List.mem_map.1 hpart
    obtain ⟨fields, hfields, rfl⟩ := List.mem_map.1 hline
    exact ((h.under part hmem).keyed fields hfields).keywordOf (h.under part hmem).blankless
  refine sections_inj ?_ ?_ (hkeyed h) (hkeyed h') (congrArg Prod.snd heq)
  · rw [hfst, hfst, hkeys]
  · rw [hfst]
    exact h.nodup

end Passages

/-! ## The parts under a verdict -/

/-- The lines of some reasons. -/
def reasonPart (reasons : List Reason) : Text × List (List Text) :=
  ("+reason", reasons.map fun r => "+reason" :: r.fields)

/-- The lines of some identities. -/
def identPart {tag : IdTag} (k : Text) (ids : List (BasicId tag)) : Text × List (List Text) :=
  (k, ids.map fun id => [k, id.toText])

section Parts
variable {tag : IdTag} {k : Text} {ids ids' : List (BasicId tag)} {reasons reasons' : List Reason}

/-- The reasons of a passage are a clear part. -/
theorem reasonPart_clear : ClearPart (reasonPart reasons) := by
  have hblankless : 32 ∉ text "+reason" := by decide
  refine ⟨rfl, hblankless, fun fields hfields => ?_⟩
  obtain ⟨r, -, rfl⟩ := List.mem_map.1 hfields
  exact ⟨⟨_, rfl⟩, List.forall_mem_cons.2 ⟨by decide, fields_unbroken⟩⟩

/-- The lines of reasons tell what of them is visible. -/
theorem reasonPart_inj (h : (reasonPart reasons).2.map lineOf =
    (reasonPart reasons').2.map lineOf) :
    reasons.map Reason.visible = reasons'.map Reason.visible := by
  rw [reasonPart, reasonPart, List.map_map, List.map_map] at h
  refine map_eq_of_view (fun r _ r' _ hline => ?_) h
  exact reason_inj (@front_inj r.fields r'.fields ["+reason"] ["+reason"]
    rfl (by decide) (by decide)
    fields_ne_nil fields_ne_nil hline).2

/-- A list of identifiers is a clear part. -/
theorem identPart_clear (hk : Plain k) (hmark : k.head? = some 43) :
    ClearPart (identPart k ids) := by
  refine ⟨hmark, hk.unbroken.1, fun fields hfields => ?_⟩
  obtain ⟨id, -, rfl⟩ := List.mem_map.1 hfields
  exact ⟨⟨_, rfl⟩, List.forall_mem_cons.2 ⟨hk.unbroken.2,
    List.forall_mem_singleton.2 (Spelling.ident.plain id).unbroken.2⟩⟩

/-- The lines of a list of identifiers tell the list. -/
theorem identPart_inj (hk : Plain k)
    (h : (identPart k ids).2.map lineOf = (identPart k ids').2.map lineOf) : ids = ids' := by
  have hplain : ∀ id : BasicId tag, ∀ f ∈ [k, id.toText], Plain f := fun id =>
    List.forall_mem_cons.2 ⟨hk, List.forall_mem_singleton.2 (Spelling.ident.plain id)⟩
  rw [identPart, identPart, List.map_map, List.map_map] at h
  have hids := @map_eq_of_view _ _ _ _ id _ _ (fun a _ b _ hline => ?_) h
  · rwa [List.map_id, List.map_id] at hids
  · have hfields := lineOf_inj (hplain a) (hplain b) hline
    exact Spelling.ident.injective (List.cons.inj (List.cons.inj hfields).2).1

end Parts

/-! ## Verdicts -/

section Verdicts

/-- The passage of a verdict on a rack. -/
def MemberVerdict.passage (m : MemberVerdict) : Passage where
  head := ["member", m.rack.toText, "status", m.status.toText, "gen",
    decimal m.generation.value.toNat, "digest", m.digest.toHex, "membership",
    m.membership.toText, "admin", m.admin.toText, "health", m.health.toText]
  under := [reasonPart m.reasons, identPart "+domain" m.domains]

/-- What the text shows of a verdict. -/
def MemberVerdict.visible (m : MemberVerdict) : MemberVerdict :=
  { m with reasons := m.reasons.map Reason.visible }

/-- The lines of a verdict are those of its passage. -/
theorem MemberVerdict.toLines_eq (m : MemberVerdict) : m.toLines = m.passage.toText := by
  simp [MemberVerdict.toLines, Passage.toText, passage, reasonPart, identPart, reasonLines,
    List.flatMap_map]

/-- The head of the passage has plain fields. -/
theorem MemberVerdict.plain (m : MemberVerdict) : ∀ f ∈ m.passage.head, Plain f := by
  simp +decide [passage, Spelling.ident.plain, Spelling.memberStatus.plain, Spelling.natural.plain,
    Spelling.digest.plain, Spelling.membership.plain, Spelling.admin.plain, Spelling.health.plain]

/-- The passage is clear. -/
theorem MemberVerdict.clear (m : MemberVerdict) : m.passage.Clear "member" where
  keyword := by decide
  head := ⟨⟨_, rfl⟩, fun f hf => (m.plain f hf).unbroken.2⟩
  under := by
    simp only [passage, List.forall_mem_cons]
    exact ⟨reasonPart_clear, identPart_clear (by decide) rfl, by simp⟩
  nodup := by
    change [text "+reason", text "+domain"].Nodup
    decide

/-- The passage tells what of the verdict is visible. -/
theorem MemberVerdict.told {m m' : MemberVerdict} (h : m.passage.lines = m'.passage.lines) :
    m.visible = m'.visible := by
  have hhead := lineOf_inj m.plain m'.plain (congrArg Prod.fst h)
  have hparts := m.clear.parts_inj m'.clear rfl h
  simp only [passage, List.cons.injEq, true_and, and_true, Spelling.ident.eq_iff,
    Spelling.memberStatus.eq_iff, Spelling.sequence.eq_iff, Spelling.digest.eq_iff,
    Spelling.membership.eq_iff, Spelling.admin.eq_iff, Spelling.health.eq_iff] at hhead
  obtain ⟨hrack, hstatus, hgeneration, hdigest, hmembership, hadmin, hhealth⟩ := hhead
  simp only [Passage.parts, passage, List.map_cons, List.map_nil, List.cons.injEq, Prod.mk.injEq]
    at hparts
  obtain ⟨⟨-, hreasons⟩, ⟨-, hdomains⟩, -⟩ := hparts
  exact MemberVerdict.ext hrack hstatus hgeneration hdigest hmembership hadmin hhealth
    (identPart_inj (by decide) hdomains) (reasonPart_inj hreasons)

/-- The passage of a verdict on a pair. -/
def ConnectivityVerdict.passage (c : ConnectivityVerdict) : Passage where
  head := ["connectivity", c.source.toText, c.target.toText, "status", c.status.toText, "resource",
    c.resource.toText, "capacity", decimal c.usableCapacity.toNat]
  under := [identPart "+link" c.links, identPart "+route" c.routes, reasonPart c.reasons]

/-- What of the verdict is visible in its lines. -/
def ConnectivityVerdict.visible (c : ConnectivityVerdict) : ConnectivityVerdict :=
  { c with reasons := c.reasons.map Reason.visible }

/-- The lines of a verdict are those of its passage. -/
theorem ConnectivityVerdict.toLines_eq (c : ConnectivityVerdict) :
    c.toLines = c.passage.toText := by
  simp [ConnectivityVerdict.toLines, Passage.toText, passage, reasonPart, identPart, reasonLines,
    List.flatMap_map]

/-- The head of the passage has plain fields. -/
theorem ConnectivityVerdict.plain (c : ConnectivityVerdict) : ∀ f ∈ c.passage.head, Plain f := by
  simp +decide [passage, Spelling.ident.plain, Spelling.linkStatus.plain, Spelling.natural.plain]

/-- The passage is clear. -/
theorem ConnectivityVerdict.clear (c : ConnectivityVerdict) : c.passage.Clear "connectivity" where
  keyword := by decide
  head := ⟨⟨_, rfl⟩, fun f hf => (c.plain f hf).unbroken.2⟩
  under := by
    simp only [passage, List.forall_mem_cons]
    exact ⟨identPart_clear (by decide) rfl, identPart_clear (by decide) rfl,
      reasonPart_clear, by simp⟩
  nodup := by
    change [text "+link", text "+route", text "+reason"].Nodup
    decide

/-- The passage tells what of the verdict is visible. -/
theorem ConnectivityVerdict.told {c c' : ConnectivityVerdict}
    (h : c.passage.lines = c'.passage.lines) :
    c.visible = c'.visible := by
  have hhead := lineOf_inj c.plain c'.plain (congrArg Prod.fst h)
  have hparts := c.clear.parts_inj c'.clear rfl h
  simp only [passage, List.cons.injEq, true_and, and_true, Spelling.ident.eq_iff,
    Spelling.linkStatus.eq_iff, Spelling.word64.eq_iff] at hhead
  obtain ⟨hsource, htarget, hstatus, hresource, hcapacity⟩ := hhead
  simp only [Passage.parts, passage, List.map_cons, List.map_nil, List.cons.injEq, Prod.mk.injEq]
    at hparts
  obtain ⟨⟨-, hlinks⟩, ⟨-, hroutes⟩, ⟨-, hreasons⟩, -⟩ := hparts
  exact ConnectivityVerdict.ext hsource htarget hstatus hresource hcapacity
    (identPart_inj (by decide) hlinks) (identPart_inj (by decide) hroutes) (reasonPart_inj hreasons)

/-- The passage of a verdict on a domain. -/
def DomainVerdict.passage (d : DomainVerdict) : Passage where
  head := ["domain", d.id.toText, "kind", d.kind.toText, "status", d.status.toText, "declared",
    decimal d.declaredMembers.length, "effective", decimal d.effectiveMembers.length]
  under := [identPart "+member" d.declaredMembers, reasonPart d.reasons]

/-- Of the effective members the text shows how many there are. -/
def DomainVerdict.visible (d : DomainVerdict) : DomainVerdict :=
  { d with
    effectiveMembers := List.replicate d.effectiveMembers.length .nil
    reasons := d.reasons.map Reason.visible }

/-- The lines of a verdict are those of its passage. -/
theorem DomainVerdict.toLines_eq (d : DomainVerdict) : d.toLines = d.passage.toText := by
  simp [DomainVerdict.toLines, Passage.toText, passage, reasonPart, identPart, reasonLines,
    List.flatMap_map]

/-- The head of the passage has plain fields. -/
theorem DomainVerdict.plain (d : DomainVerdict) : ∀ f ∈ d.passage.head, Plain f := by
  simp +decide [passage, Spelling.ident.plain, Spelling.domainKind.plain,
    Spelling.domainStatus.plain,
    Spelling.natural.plain]

/-- The passage is clear. -/
theorem DomainVerdict.clear (d : DomainVerdict) : d.passage.Clear "domain" where
  keyword := by decide
  head := ⟨⟨_, rfl⟩, fun f hf => (d.plain f hf).unbroken.2⟩
  under := by
    simp only [passage, List.forall_mem_cons]
    exact ⟨identPart_clear (by decide) rfl, reasonPart_clear, by simp⟩
  nodup := by
    change [text "+member", text "+reason"].Nodup
    decide

/-- The passage tells what of the verdict is visible. -/
theorem DomainVerdict.told {d d' : DomainVerdict} (h : d.passage.lines = d'.passage.lines) :
    d.visible = d'.visible := by
  have hhead := lineOf_inj d.plain d'.plain (congrArg Prod.fst h)
  have hparts := d.clear.parts_inj d'.clear rfl h
  simp only [passage, List.cons.injEq, true_and, and_true, Spelling.ident.eq_iff,
    Spelling.domainKind.eq_iff, Spelling.domainStatus.eq_iff, Spelling.natural.eq_iff] at hhead
  obtain ⟨hid, hkind, hstatus, -, heffective⟩ := hhead
  simp only [Passage.parts, passage, List.map_cons, List.map_nil, List.cons.injEq, Prod.mk.injEq]
    at hparts
  obtain ⟨⟨-, hdeclared⟩, ⟨-, hreasons⟩, -⟩ := hparts
  exact DomainVerdict.ext hid hkind hstatus (identPart_inj (by decide) hdeclared)
    (congrArg (List.replicate · BasicId.nil) heffective) (reasonPart_inj hreasons)

/-- The passage of a verdict on an obligation. -/
def ObligationVerdict.passage (o : ObligationVerdict) : Passage where
  head := ["obligation", o.id.toText, "kind", o.kind.toText, "status", o.status.toText,
    "satisfied-domains", decimal o.satisfiedDomains.toNat]
  under := [reasonPart o.reasons]

/-- What of the verdict is visible in its lines. -/
def ObligationVerdict.visible (o : ObligationVerdict) : ObligationVerdict :=
  { o with reasons := o.reasons.map Reason.visible }

/-- The lines of a verdict are those of its passage. -/
theorem ObligationVerdict.toLines_eq (o : ObligationVerdict) : o.toLines = o.passage.toText := by
  simp [ObligationVerdict.toLines, Passage.toText, passage, reasonPart, reasonLines,
    List.flatMap_map]

/-- The head of the passage has plain fields. -/
theorem ObligationVerdict.plain (o : ObligationVerdict) : ∀ f ∈ o.passage.head, Plain f := by
  simp +decide [passage, Spelling.ident.plain, Spelling.obligationKind.plain,
    Spelling.obligationStatus.plain, Spelling.natural.plain]

/-- The passage is clear. -/
theorem ObligationVerdict.clear (o : ObligationVerdict) : o.passage.Clear "obligation" where
  keyword := by decide
  head := ⟨⟨_, rfl⟩, fun f hf => (o.plain f hf).unbroken.2⟩
  under := List.forall_mem_singleton.2 reasonPart_clear
  nodup := List.nodup_singleton _

/-- The passage tells what of the verdict is visible. -/
theorem ObligationVerdict.told {o o' : ObligationVerdict} (h : o.passage.lines = o'.passage.lines) :
    o.visible = o'.visible := by
  have hhead := lineOf_inj o.plain o'.plain (congrArg Prod.fst h)
  have hparts := o.clear.parts_inj o'.clear rfl h
  simp only [passage, List.cons.injEq, true_and, and_true, Spelling.ident.eq_iff,
    Spelling.obligationKind.eq_iff, Spelling.obligationStatus.eq_iff,
      Spelling.word32.eq_iff] at hhead
  obtain ⟨hid, hkind, hstatus, hsatisfied⟩ := hhead
  simp only [Passage.parts, passage, List.map_cons, List.map_nil, List.cons.injEq, Prod.mk.injEq]
    at hparts
  obtain ⟨⟨-, hreasons⟩, -⟩ := hparts
  exact ObligationVerdict.ext hid hkind hstatus hsatisfied (reasonPart_inj hreasons)

/-- The passage of the pod's authority. -/
def PodAuthority.passage (a : PodAuthority) : Passage where
  head := ["authority", a.status.toText, "established", decimal a.establishedMembers.toNat,
    "fenced", decimal a.fencedMembers.toNat, "conflicting", decimal a.conflictingMembers.toNat,
    "stale", decimal a.staleMembers.toNat, "recovered", flagText a.recovered]
  under := [reasonPart a.reasons]

/-- The epoch and the incarnation have their own lines. -/
def PodAuthority.visible (a : PodAuthority) : PodAuthority :=
  { a with epoch := {}, incarnation := {}, reasons := a.reasons.map Reason.visible }

/-- The lines of the authority are those of its passage. -/
theorem PodAuthority.toLines_eq (a : PodAuthority) : a.toLines = a.passage.toText := by
  simp [PodAuthority.toLines, Passage.toText, passage, reasonPart, reasonLines, List.flatMap_map]

/-- The head of the passage has plain fields. -/
theorem PodAuthority.plain (a : PodAuthority) : ∀ f ∈ a.passage.head, Plain f := by
  simp +decide [passage, Spelling.code.plain, Spelling.natural.plain, Spelling.flag.plain]

/-- The passage is clear. -/
theorem PodAuthority.clear (a : PodAuthority) : a.passage.Clear "authority" where
  keyword := by decide
  head := ⟨⟨_, rfl⟩, fun f hf => (a.plain f hf).unbroken.2⟩
  under := List.forall_mem_singleton.2 reasonPart_clear
  nodup := List.nodup_singleton _

/-- The passage tells what of the authority is visible. -/
theorem PodAuthority.told {a a' : PodAuthority} (h : a.passage.lines = a'.passage.lines) :
    a.visible = a'.visible := by
  have hhead := lineOf_inj a.plain a'.plain (congrArg Prod.fst h)
  have hparts := a.clear.parts_inj a'.clear rfl h
  simp only [passage, List.cons.injEq, true_and, and_true, Spelling.code.eq_iff,
    Spelling.word32.eq_iff, Spelling.flag.eq_iff] at hhead
  obtain ⟨hstatus, hestablished, hfenced, hconflicting, hstale, hrecovered⟩ := hhead
  simp only [Passage.parts, passage, List.map_cons, List.map_nil, List.cons.injEq, Prod.mk.injEq]
    at hparts
  obtain ⟨⟨-, hreasons⟩, -⟩ := hparts
  exact PodAuthority.ext hstatus rfl rfl hestablished hfenced hconflicting hstale hrecovered
    (reasonPart_inj hreasons)

/-! ## Capacity -/

/-- Of a claim the text shows neither the link nor the provenance nor why it is not counted. -/
def CapacityContribution.visible (c : CapacityContribution) : CapacityContribution :=
  { c with viaLink := .nil, provenance := {}, notCountedReason := {} }

/-- The fields of a contribution's line. -/
def CapacityContribution.fields (c : CapacityContribution) : List Text :=
  ["+contribution", c.owner.toText, c.exclusivity.toText, decimal c.amount.toNat,
    decimal c.reserved.toNat, c.domain.toText, "counted", flagText c.counted]

/-- The fields of a contribution are plain. -/
theorem CapacityContribution.plain (c : CapacityContribution) : ∀ f ∈ c.fields, Plain f := by
  simp +decide [fields, Spelling.ident.plain, Spelling.natural.plain, Spelling.flag.plain]

/-- The line of a contribution tells what of it is visible. -/
theorem CapacityContribution.told {c c' : CapacityContribution}
    (h : lineOf c.fields = lineOf c'.fields) :
    c.visible = c'.visible := by
  have hfields := lineOf_inj c.plain c'.plain h
  simp only [fields, List.cons.injEq, true_and, and_true, Spelling.ident.eq_iff,
    Spelling.word64.eq_iff, Spelling.flag.eq_iff] at hfields
  obtain ⟨howner, hexclusivity, hamount, hreserved, hdomain, hcounted⟩ := hfields
  exact CapacityContribution.ext howner rfl hexclusivity hamount hreserved hdomain rfl hcounted rfl

/-- The passage of a pod aggregate. -/
def CapacityAggregate.passage (a : CapacityAggregate) : Passage where
  head := ["capacity", a.resource.toText, "total", decimal a.total.toNat, "reserved",
    decimal a.reserved.toNat, "headroom", decimal a.headroom.toNat, "status", a.status.toText]
  under := [("+contribution", a.contributions.map CapacityContribution.fields),
    reasonPart a.reasons]

/-- What the text shows of an aggregate by resource. -/
def CapacityAggregate.visible (a : CapacityAggregate) : CapacityAggregate :=
  { a with
    domain := .nil
    contributions := a.contributions.map CapacityContribution.visible
    reasons := a.reasons.map Reason.visible }

/-- The lines of an aggregate are those of its passage. -/
theorem CapacityAggregate.toLines_eq (a : CapacityAggregate) : a.toLines = a.passage.toText := by
  have hlines : a.contributions.flatMap CapacityContribution.toLine =
      (a.contributions.map CapacityContribution.fields).flatMap textLine := by
    rw [List.flatMap_map]
    rfl
  simp [CapacityAggregate.toLines, Passage.toText, passage, reasonPart, reasonLines, hlines,
    List.flatMap_map]

/-- The head of the passage has plain fields. -/
theorem CapacityAggregate.plain (a : CapacityAggregate) : ∀ f ∈ a.passage.head, Plain f := by
  simp +decide [passage, Spelling.ident.plain, Spelling.capacityStatus.plain,
    Spelling.natural.plain]

/-- The passage is clear. -/
theorem CapacityAggregate.clear (a : CapacityAggregate) : a.passage.Clear "capacity" where
  keyword := by decide
  head := ⟨⟨_, rfl⟩, fun f hf => (a.plain f hf).unbroken.2⟩
  under := by
    have hblankless : 32 ∉ text "+contribution" := by decide
    simp only [passage, List.forall_mem_cons]
    refine ⟨⟨rfl, hblankless, fun fields hfields => ?_⟩, reasonPart_clear, by simp⟩
    obtain ⟨c, -, rfl⟩ := List.mem_map.1 hfields
    exact ⟨⟨_, rfl⟩, fun f hf => (c.plain f hf).unbroken.2⟩
  nodup := by
    change [text "+contribution", text "+reason"].Nodup
    decide

/-- The passage tells what of the aggregate is visible. -/
theorem CapacityAggregate.told {a a' : CapacityAggregate} (h : a.passage.lines = a'.passage.lines) :
    a.visible = a'.visible := by
  have hhead := lineOf_inj a.plain a'.plain (congrArg Prod.fst h)
  have hparts := a.clear.parts_inj a'.clear rfl h
  simp only [passage, List.cons.injEq, true_and, and_true, Spelling.ident.eq_iff,
    Spelling.capacityStatus.eq_iff, Spelling.word64.eq_iff] at hhead
  obtain ⟨hresource, htotal, hreserved, hheadroom, hstatus⟩ := hhead
  simp only [Passage.parts, passage, List.map_cons, List.map_nil, List.cons.injEq, Prod.mk.injEq,
    List.map_map] at hparts
  obtain ⟨⟨-, hcontributions⟩, ⟨-, hreasons⟩, -⟩ := hparts
  exact CapacityAggregate.ext hresource rfl htotal hreserved hheadroom hstatus
    (map_eq_of_view (fun c _ c' _ hline => CapacityContribution.told hline) hcontributions)
    (reasonPart_inj hreasons)

/-- The passage of a domain's aggregate. -/
def CapacityAggregate.domainPassage (a : CapacityAggregate) : Passage where
  head := ["domain-capacity", a.resource.toText, a.domain.toText, "total", decimal a.total.toNat,
    "reserved", decimal a.reserved.toNat, "headroom", decimal a.headroom.toNat, "status",
    a.status.toText]
  under := []

/-- What the text shows of an aggregate by domain. -/
def CapacityAggregate.domainVisible (a : CapacityAggregate) : CapacityAggregate :=
  { a with contributions := [], reasons := [] }

/-- The line of a domain's aggregate is that of its passage. -/
theorem CapacityAggregate.toDomainLine_eq (a : CapacityAggregate) :
    a.toDomainLine = a.domainPassage.toText := by
  simp [CapacityAggregate.toDomainLine, Passage.toText, domainPassage]

/-- The head of the passage has plain fields. -/
theorem CapacityAggregate.domain_plain (a : CapacityAggregate) :
    ∀ f ∈ a.domainPassage.head, Plain f := by
  simp +decide [domainPassage, Spelling.ident.plain, Spelling.capacityStatus.plain,
    Spelling.natural.plain]

/-- The passage is clear. -/
theorem CapacityAggregate.domain_clear (a : CapacityAggregate) :
    a.domainPassage.Clear "domain-capacity" where
  keyword := by decide
  head := ⟨⟨_, rfl⟩, fun f hf => (a.domain_plain f hf).unbroken.2⟩
  under := by simp [domainPassage]
  nodup := .nil

/-- The passage tells what of the aggregate is visible. -/
theorem CapacityAggregate.domain_told {a a' : CapacityAggregate}
    (h : a.domainPassage.lines = a'.domainPassage.lines) : a.domainVisible = a'.domainVisible := by
  have hhead := lineOf_inj a.domain_plain a'.domain_plain (congrArg Prod.fst h)
  simp only [domainPassage, List.cons.injEq, true_and, and_true, Spelling.ident.eq_iff,
    Spelling.capacityStatus.eq_iff, Spelling.word64.eq_iff] at hhead
  obtain ⟨hresource, hdomain, htotal, hreserved, hheadroom, hstatus⟩ := hhead
  exact CapacityAggregate.ext hresource hdomain htotal hreserved hheadroom hstatus rfl rfl

/-! ## Fences and degradations -/

/-- The subject as it stands on the line of a fence. -/
def FenceAction.subjectField (f : FenceAction) : Text :=
  if f.subject.isEmpty then [45] else f.subject

/-- The subject of a fence can be told from the fields around it, and from an absent one. -/
def FenceAction.Tellable (f : FenceAction) : Prop :=
  f.subject = [] ∨ (Plain f.subject ∧ f.subject ≠ [45])

/-- The passage of a fence. -/
def FenceAction.passage (f : FenceAction) : Passage where
  head := "fence" :: f.kind.toText :: f.subjectField :: f.reason.fields
  under := []

/-- What of a fence is visible in its line. -/
def FenceAction.visible (f : FenceAction) : FenceAction := { f with reason := f.reason.visible }

/-- The line of a fence is that of its passage. -/
theorem FenceAction.toLine_eq (f : FenceAction) : f.toLine = f.passage.toText := by
  simp [FenceAction.toLine, Passage.toText, passage, subjectField]

/-- The subject of a fence that can be told is a plain field. -/
theorem FenceAction.Tellable.plain {f : FenceAction} (h : f.Tellable) : Plain f.subjectField := by
  unfold subjectField
  rcases h with hempty | ⟨hplain, -⟩
  · rw [hempty]
    decide
  · rwa [if_neg (by simpa using hplain.nonempty)]

/-- The subject of a fence that can be told is read off its field. -/
theorem FenceAction.Tellable.subject_eq {f : FenceAction} (h : f.Tellable) :
    f.subject = blankToEmpty f.subjectField := by
  unfold subjectField
  rcases h with hempty | ⟨hplain, hne⟩
  · rw [hempty]
    rfl
  · rw [if_neg (by simpa using hplain.nonempty), blankToEmpty, if_neg hne]

/-- The fields of a fence in front of its reason. -/
def FenceAction.front (f : FenceAction) : List Text := ["fence", f.kind.toText, f.subjectField]

/-- The fields in front of a fence's reason are plain. -/
theorem FenceAction.Tellable.front {f : FenceAction} (h : f.Tellable) : ∀ t ∈ f.front, Plain t :=
  List.forall_mem_cons.2 ⟨by decide, List.forall_mem_cons.2 ⟨Spelling.fenceKind.plain _,
    List.forall_mem_singleton.2 h.plain⟩⟩

/-- The passage of a fence that can be told is clear. -/
theorem FenceAction.clear {f : FenceAction} (h : f.Tellable) : f.passage.Clear "fence" where
  keyword := by decide
  head := by
    refine ⟨⟨_, rfl⟩, fun t ht => ?_⟩
    have hfields : t ∈ f.front ++ f.reason.fields := ht
    rcases List.mem_append.1 hfields with hfront | hreason
    · exact (h.front t hfront).unbroken.2
    · exact fields_unbroken t hreason
  under := by simp [passage]
  nodup := .nil

/-- The passage tells what of a fence is visible. -/
theorem FenceAction.told {f f' : FenceAction} (h : f.Tellable) (h' : f'.Tellable)
    (heq : f.passage.lines = f'.passage.lines) : f.visible = f'.visible := by
  obtain ⟨hfront, hreason⟩ := @front_inj f.reason.fields f'.reason.fields f.front f'.front rfl
    (fun t ht => (h.front t ht).unbroken.1) (fun t ht => (h'.front t ht).unbroken.1)
    fields_ne_nil fields_ne_nil (congrArg Prod.fst heq)
  simp only [front, List.cons.injEq, true_and, and_true, Spelling.fenceKind.eq_iff] at hfront
  have hsubject : f.subject = f'.subject := by
    rw [h.subject_eq, hfront.2, h'.subject_eq]
  exact FenceAction.ext hfront.1 hsubject (reason_inj hreason)

/-- The line of a degradation. -/
def Reason.degradation (r : Reason) : Passage where
  head := "degradation" :: r.fields
  under := []

/-- The passage of a degradation is clear. -/
theorem Reason.degradation_clear (r : Reason) : r.degradation.Clear "degradation" where
  keyword := by decide
  head := ⟨⟨_, rfl⟩, List.forall_mem_cons.2 ⟨by decide, fields_unbroken⟩⟩
  under := by simp [degradation]
  nodup := .nil

/-- The passage tells what of a degradation is visible. -/
theorem Reason.degradation_told {r r' : Reason} (h : r.degradation.lines = r'.degradation.lines) :
    r.visible = r'.visible :=
  reason_inj (@front_inj r.fields r'.fields ["degradation"] ["degradation"]
    rfl (by decide) (by decide)
    fields_ne_nil fields_ne_nil (congrArg Prod.fst h)).2

end Verdicts

/-! ## States -/

/-- The state before its digests are taken. -/
def PodState.undigested (st : PodState) : PodState :=
  { st with stateDigest := .zero, decisionDigest := .zero }

/-- What the text of a state without its decisions shows of it. -/
def PodState.visible (st : PodState) : PodState :=
  { st with
    members := st.members.map MemberVerdict.visible
    connectivity := st.connectivity.map ConnectivityVerdict.visible
    capacity := st.capacity.map CapacityAggregate.visible
    domainCapacity := st.domainCapacity.map CapacityAggregate.domainVisible
    domains := st.domains.map DomainVerdict.visible
    obligations := st.obligations.map ObligationVerdict.visible
    decisions := []
    authority := st.authority.visible
    fences := st.fences.map FenceAction.visible
    degradations := st.degradations.map Reason.visible
    stateDigest := .zero
    decisionDigest := .zero
    provenance := {} }

/-- The passages of the text, in parts, each with the keyword of its passages. -/
def PodState.passages (st : PodState) : List (Text × List Passage) :=
  [(podStateSchema, [⟨[podStateSchema], []⟩]),
    ("pod", [⟨["pod", st.pod.toText], []⟩]),
    ("epoch", [⟨["epoch", decimal st.epoch.value.toNat], []⟩]),
    ("incarnation", [⟨["incarnation", st.incarnation.toText], []⟩]),
    ("lifecycle", [⟨["lifecycle", st.lifecycle.toText], []⟩]),
    ("authority", [st.authority.passage]),
    ("member", st.members.map MemberVerdict.passage),
    ("connectivity", st.connectivity.map ConnectivityVerdict.passage),
    ("domain", st.domains.map DomainVerdict.passage),
    ("capacity", st.capacity.map CapacityAggregate.passage),
    ("domain-capacity", st.domainCapacity.map CapacityAggregate.domainPassage),
    ("obligation", st.obligations.map ObligationVerdict.passage),
    ("fence", st.fences.map FenceAction.passage),
    ("degradation", st.degradations.map Reason.degradation),
    ("composed-at", [⟨["composed-at", decimalInt st.composedAt.toInt], []⟩]),
    ("digest", [⟨["digest", Digest.zero.toHex], []⟩]),
    ("decision-digest", [⟨["decision-digest", Digest.zero.toHex], []⟩]),
    ("end", [⟨["end"], []⟩])]

/-- A state of the current schema, with fences whose subjects can be told. -/
structure PodState.Presented (st : PodState) : Prop where
  schema : st.schema = podStateSchema
  fences : ∀ f ∈ st.fences, f.Tellable

section States
variable {st st' : PodState} {k : Text} {rest : List Text}

/-- The texts of a list are those of its passages. -/
theorem flatMap_passage {α : Type} {print : α → Text} {passage : α → Passage}
    (h : ∀ a, print a = (passage a).toText) (l : List α) :
    l.flatMap print = (l.map passage).flatMap Passage.toText := by
  rw [List.flatMap_map]
  exact List.flatMap_congr fun a _ => h a

/-- The text of a state is that of its passages. -/
theorem PodState.toText_passages (h : st.schema = podStateSchema) : st.undigested.toText false =
    (st.passages.flatMap Prod.snd).flatMap Passage.toText := by
  have hline : ∀ fields, textLine fields = (⟨fields, []⟩ : Passage).toText := fun fields => by
    simp [Passage.toText]
  have hdegradations : (st.degradations.flatMap fun r =>
      (⟨"degradation" :: r.fields, []⟩ : Passage).toText) =
        (st.degradations.map Reason.degradation).flatMap Passage.toText :=
    flatMap_passage (fun _ => rfl) _
  have hschema : ¬ podStateSchema.isEmpty := by decide
  delta PodState.toText
  simp only [undigested, h, if_neg hschema, Bool.false_eq_true, if_false, hline,
    PodAuthority.toLines_eq, flatMap_passage MemberVerdict.toLines_eq,
    flatMap_passage ConnectivityVerdict.toLines_eq, flatMap_passage DomainVerdict.toLines_eq,
    flatMap_passage CapacityAggregate.toLines_eq, flatMap_passage CapacityAggregate.toDomainLine_eq,
    flatMap_passage ObligationVerdict.toLines_eq, flatMap_passage FenceAction.toLine_eq]
  simp [passages, hdegradations]

/-- A line with a keyword that marks nothing is a clear passage. -/
theorem line_clear (hk : Plain k) (hmark : k.head? ≠ some 43) (hrest : ∀ f ∈ rest, Plain f) :
    (⟨k :: rest, []⟩ : Passage).Clear k where
  keyword := ⟨hk.nonempty, hmark, hk.unbroken.1⟩
  head := ⟨⟨_, rfl⟩, List.forall_mem_cons.2 ⟨hk.unbroken.2, fun f hf => (hrest f hf).unbroken.2⟩⟩
  under := by simp
  nodup := .nil

/-- The passages of a presented state are clear, each with its part's keyword. -/
theorem PodState.Presented.clear (h : st.Presented) :
    ∀ part ∈ st.passages, ∀ p ∈ part.2, p.Clear part.1 := by
  have hmap : ∀ {α : Type} {l : List α} {passage : α → Passage} {k : Text},
      (∀ a ∈ l, (passage a).Clear k) → ∀ p ∈ l.map passage, p.Clear k := by
    intro α l passage k hall p hp
    obtain ⟨a, ha, rfl⟩ := List.mem_map.1 hp
    exact hall a ha
  have hone : ∀ {k f : Text}, Plain k → k.head? ≠ some 43 → Plain f →
      (⟨[k, f], []⟩ : Passage).Clear k := fun hk hmark hf =>
    line_clear hk hmark (List.forall_mem_singleton.2 hf)
  simp only [passages, List.forall_mem_cons, List.not_mem_nil, false_imp_iff,
    implies_true, and_true]
  exact ⟨line_clear (by decide) (by decide) (by simp),
    hone (by decide) (by decide) (Spelling.ident.plain _),
      hone (by decide) (by decide) (.decimal _),
    hone (by decide) (by decide) (Spelling.incarnation.plain _),
    hone (by decide) (by decide) (Spelling.lifecycle.plain _), st.authority.clear,
    hmap fun m _ => m.clear, hmap fun c _ => c.clear, hmap fun d _ => d.clear,
    hmap fun a _ => a.clear, hmap fun a _ => a.domain_clear, hmap fun o _ => o.clear,
    hmap fun f hf => FenceAction.clear (h.fences f hf), hmap fun r _ => r.degradation_clear,
    hone (by decide) (by decide) (.decimalInt _),
    hone (by decide) (by decide) (Spelling.digest.plain _),
    hone (by decide) (by decide) (Spelling.digest.plain _),
    line_clear (by decide) (by decide) (by simp)⟩

/-- The lines of the text are read back from it, part by part. -/
theorem PodState.Presented.lines_inj (h : st.Presented) (h' : st'.Presented)
    (heq : st.undigested.toText false = st'.undigested.toText false) :
    st.passages.map (fun part => (part.1, part.2.map Passage.lines)) =
      st'.passages.map fun part => (part.1, part.2.map Passage.lines) := by
  have hclear : ∀ {st : PodState}, st.Presented →
      ∀ p ∈ st.passages.flatMap Prod.snd, ∃ k, p.Clear k := by
    intro st h p hp
    obtain ⟨part, hpart, hin⟩ := List.mem_flatMap.1 hp
    exact ⟨_, h.clear part hpart p hin⟩
  have hkeyed : ∀ {st : PodState}, st.Presented →
      ∀ part ∈ st.passages.map (fun part => (part.1, part.2.map Passage.lines)),
        ∀ group ∈ part.2, keywordOf group.1 = part.1 := by
    intro st h part hpart group hgroup
    obtain ⟨part, hmem, rfl⟩ := List.mem_map.1 hpart
    obtain ⟨p, hp, rfl⟩ := List.mem_map.1 hgroup
    have hclear := h.clear part hmem p hp
    exact hclear.head.keywordOf hclear.keyword.2.2
  have hflat : ∀ st : PodState, (st.passages.map fun part =>
      (part.1, part.2.map Passage.lines)).flatMap Prod.snd =
        (st.passages.flatMap Prod.snd).map Passage.lines := fun st => by
    rw [List.flatMap_map, List.map_flatMap]
  rw [PodState.toText_passages h.schema, PodState.toText_passages h'.schema] at heq
  refine @sections_inj _ _ (fun group => keywordOf group.1) _ _ rfl ?_ (hkeyed h) (hkeyed h') ?_
  · rw [List.map_map]
    change [podStateSchema, "pod", "epoch", "incarnation", "lifecycle", "authority", "member",
      "connectivity", "domain", "capacity", "domain-capacity", "obligation", "fence", "degradation",
      "composed-at", "digest", "decision-digest", "end"].Nodup
    decide
  · rw [hflat, hflat]
    exact passages_inj (hclear h) (hclear h') heq

/-- What the text shows is read back from it. -/
theorem PodState.Presented.visible_eq (h : st.Presented) (h' : st'.Presented)
    (heq : st.undigested.toText false = st'.undigested.toText false) :
      st.visible = st'.visible := by
  have hlines := h.lines_inj h' heq
  simp only [passages, List.map_cons, List.map_nil, List.cons.injEq, Prod.mk.injEq, true_and,
    and_true, List.map_map] at hlines
  obtain ⟨hpod, hepoch, hincarnation, hlifecycle, hauthority, hmembers, hconnectivity, hdomains,
    hcapacity, hdomainCapacity, hobligations, hfences, hdegradations, hcomposedAt⟩ := hlines
  have hfield : ∀ {α : Type} {spell : α → Text} {k : Text} {a b : α}, Spelling spell → Plain k →
      (⟨[k, spell a], []⟩ : Passage).lines = (⟨[k, spell b], []⟩ : Passage).lines → a = b := by
    intro α spell k a b hspell hk hline
    have hplain : ∀ a, ∀ f ∈ [k, spell a], Plain f := fun a =>
      List.forall_mem_cons.2 ⟨hk, List.forall_mem_singleton.2 (hspell.plain a)⟩
    have hfields := lineOf_inj (hplain a) (hplain b) (congrArg Prod.fst hline)
    exact hspell.injective (List.cons.inj (List.cons.inj hfields).2).1
  refine PodState.ext (hfield .ident (by decide) hpod) (h.schema.trans h'.schema.symm)
    (hfield .sequence (by decide) hepoch) (hfield .incarnation (by decide) hincarnation)
    (hfield .lifecycle (by decide) hlifecycle)
    (map_eq_of_view (fun m _ m' _ hline => MemberVerdict.told hline) hmembers)
    (map_eq_of_view (fun c _ c' _ hline => ConnectivityVerdict.told hline) hconnectivity)
    (map_eq_of_view (fun a _ a' _ hline => CapacityAggregate.told hline) hcapacity)
    (map_eq_of_view (fun a _ a' _ hline => CapacityAggregate.domain_told hline) hdomainCapacity)
    (map_eq_of_view (fun d _ d' _ hline => DomainVerdict.told hline) hdomains)
    (map_eq_of_view (fun o _ o' _ hline => ObligationVerdict.told hline) hobligations) rfl
    (PodAuthority.told hauthority)
    (map_eq_of_view (fun f hf f' hf' hline => FenceAction.told (h.fences f hf)
      (h'.fences f' hf') hline)
      hfences)
    (map_eq_of_view (fun r _ r' _ hline => Reason.degradation_told hline) hdegradations) rfl rfl
    (hfield .nanos (by decide) hcomposedAt) rfl

/-- An escaped text is not escaped again. -/
theorem escapeText_idem (t : Text) : escapeText (escapeText t) = escapeText t := by
  unfold escapeText
  rw [List.map_map]
  refine List.map_congr_left fun c _ => ?_
  change (if (if c < 0x20 ∨ c = 0x7F then 32 else c) < 0x20 ∨
    (if c < 0x20 ∨ c = 0x7F then 32 else c) = 0x7F
    then 32 else (if c < 0x20 ∨ c = 0x7F then 32 else c)) = if c < 0x20 ∨ c = 0x7F then 32 else c
  split <;> rfl

/-- What is visible of a reason has the reason's fields. -/
theorem visible_fields (r : Reason) : r.visible.fields = r.fields := by
  unfold Reason.fields Reason.visible
  dsimp only
  rw [escapeText_idem]
  cases hdetail : r.detail with
  | nil => rfl
  | cons c t => rfl

/-- What is visible of reasons has the reasons' lines. -/
theorem reasonLines_visible (reasons : List Reason) :
    reasonLines (reasons.map Reason.visible) = reasonLines reasons := by
  unfold reasonLines
  rw [List.flatMap_map]
  exact List.flatMap_congr fun r _ => by rw [visible_fields]

/-- What is visible of a list has the list's text. -/
theorem flatMap_visible {α : Type} {print : α → Text} {visible : α → α}
    (h : ∀ a, print (visible a) = print a) (l : List α) :
      (l.map visible).flatMap print = l.flatMap print := by
  rw [List.flatMap_map]
  exact List.flatMap_congr fun a _ => h a

/-- The text shows no more of a state. -/
theorem PodState.toText_visible (st : PodState) :
    st.visible.toText false = st.undigested.toText false := by
  have hauthority : st.authority.visible.toLines = st.authority.toLines := by
    simp [PodAuthority.toLines, PodAuthority.visible, reasonLines_visible]
  have hmembers : ∀ m : MemberVerdict, m.visible.toLines = m.toLines := fun m => by
    simp [MemberVerdict.toLines, MemberVerdict.visible, reasonLines_visible]
  have hconnectivity : ∀ c : ConnectivityVerdict, c.visible.toLines = c.toLines := fun c => by
    simp [ConnectivityVerdict.toLines, ConnectivityVerdict.visible, reasonLines_visible]
  have hdomains : ∀ d : DomainVerdict, d.visible.toLines = d.toLines := fun d => by
    simp [DomainVerdict.toLines, DomainVerdict.visible, reasonLines_visible]
  have hclaims : ∀ c : CapacityContribution, c.visible.toLine = c.toLine := fun c => rfl
  have hcapacity : ∀ a : CapacityAggregate, a.visible.toLines = a.toLines := fun a => by
    simp only [CapacityAggregate.toLines, CapacityAggregate.visible, reasonLines_visible,
      flatMap_visible hclaims]
  have hdomainCapacity : ∀ a : CapacityAggregate, a.domainVisible.toDomainLine = a.toDomainLine :=
    fun a => rfl
  have hobligations : ∀ o : ObligationVerdict, o.visible.toLines = o.toLines := fun o => by
    simp [ObligationVerdict.toLines, ObligationVerdict.visible, reasonLines_visible]
  have hfences : ∀ f : FenceAction, f.visible.toLine = f.toLine := fun f => by
    simp [FenceAction.toLine, FenceAction.visible, visible_fields]
  have hdegradations : ∀ r : Reason, textLine ("degradation" :: r.visible.fields) =
      textLine ("degradation" :: r.fields) := fun r => by rw [visible_fields]
  have hlines := @flatMap_visible Reason (fun r => textLine ("degradation" :: r.fields)) _
    hdegradations
  delta PodState.toText
  simp only [visible, undigested, hauthority, flatMap_visible hmembers,
    flatMap_visible hconnectivity, flatMap_visible hdomains, flatMap_visible hcapacity,
    flatMap_visible hdomainCapacity, flatMap_visible hobligations, flatMap_visible hfences, hlines,
    Bool.false_eq_true, if_false]
  rfl

/-- The texts of two states are equal just when they show the same of them. -/
theorem PodState.Presented.toText_eq_iff (h : st.Presented) (h' : st'.Presented) :
    st.undigested.toText false = st'.undigested.toText false ↔ st.visible = st'.visible := by
  refine ⟨h.visible_eq h', fun hvisible => ?_⟩
  rw [← st.toText_visible, hvisible, st'.toText_visible]

end States

end PodFabric
