import PodFabric.Proof.Injection
import PodFabric.Proof.Utf8

/-!
# Snapshots are read back

A snapshot whose strings the text format can carry is read back from its text just when it has no
route and its members list no failure domain and no claim without a name (`text_round_trip_iff`).
What is written is read record by record; the lines keep to the parser's limits because the text
does.
-/

namespace PodFabric

/-! ## What the format can carry -/

/-- A token of visible characters that is not the one of an absent value. -/
structure PrintableToken (t : Text) : Prop where
  plain : Plain t
  present : t ≠ [45]
  utf8 : isValidUtf8 t = true

/-- Valid UTF-8 without control characters and without whitespace at its ends. -/
structure FreeText (t : Text) : Prop where
  utf8 : isValidUtf8 t = true
  printable : ∀ c ∈ t, 32 ≤ c.toNat ∧ c.toNat ≠ 127
  front : t.head? ≠ some 32
  back : t.getLast? ≠ some 32

/-- The free texts of a snapshot. -/
def PodSnapshot.freeTexts (s : PodSnapshot) : List Text :=
  s.provenance.detail ::
    ((s.members.flatMap fun m =>
      m.provenance.detail :: m.capacity.map fun claim => claim.provenance.detail) ++
    (s.links.map fun l => l.provenance.detail) ++ (s.routes.map fun r => r.provenance.detail) ++
    (s.domains.flatMap fun d => [d.description, d.provenance.detail]) ++
    s.obligations.flatMap fun o => [o.description, o.provenance.detail])

/-- The strings of a snapshot are ones the text format can carry, and its ports and the racks it
lists have names. -/
structure PodSnapshot.Printable (s : PodSnapshot) : Prop where
  revisions : ∀ m ∈ s.members, PrintableToken m.rnfSchema
  free : ∀ t ∈ s.freeTexts, FreeText t
  ports : ∀ m ∈ s.members, ∀ port ∈ m.ports, port ≠ .nil
  linkPorts : ∀ l ∈ s.links, l.a.port ≠ .nil ∧ l.b.port ≠ .nil
  domainRacks : ∀ d ∈ s.domains, ∀ rack ∈ d.members, rack ≠ .nil
  obligationRacks : ∀ o ∈ s.obligations, ∀ rack ∈ o.protectedRacks, rack ≠ .nil

/-- The text of a snapshot keeps to the limits of the parser. -/
structure PodSnapshot.WithinLimits (s : PodSnapshot) : Prop where
  lines : s.toText.count 10 ≤ maxLines
  bytes : ∀ line ∈ s.toText.splitOn 10, line.length ≤ maxLineBytes

/-- The failure domains and the claims of a member have names. -/
def MemberRecord.NamesLists (m : MemberRecord) : Prop :=
  (∀ id ∈ m.failureDomains, id ≠ .nil) ∧ ∀ claim ∈ m.capacity, claim.Named

/-! ### The conditions are decidable -/

instance (t : Text) : Decidable (PrintableToken t) :=
  decidable_of_iff (Plain t ∧ t ≠ [45] ∧ isValidUtf8 t = true)
    ⟨fun ⟨plain, present, utf8⟩ => ⟨plain, present, utf8⟩, fun h => ⟨h.plain, h.present, h.utf8⟩⟩

instance (t : Text) : Decidable (FreeText t) :=
  decidable_of_iff (isValidUtf8 t = true ∧ (∀ c ∈ t, 32 ≤ c.toNat ∧ c.toNat ≠ 127) ∧
      t.head? ≠ some 32 ∧ t.getLast? ≠ some 32)
    ⟨fun ⟨utf8, printable, front, back⟩ => ⟨utf8, printable, front, back⟩,
      fun h => ⟨h.utf8, h.printable, h.front, h.back⟩⟩

instance CapacityClaim.decidableNamed (claim : CapacityClaim) : Decidable claim.Named := by
  unfold CapacityClaim.Named
  infer_instance

instance (m : MemberRecord) : Decidable m.NamesLists := by
  unfold MemberRecord.NamesLists
  infer_instance

/-! ## Free text is read back -/

section Free
variable {t : Text}

/-- Free text is not escaped. -/
theorem escapeText_eq (h : FreeText t) : escapeText t = t := by
  rw [escapeText]
  refine (List.map_congr_left fun c hc => ?_).trans (List.map_id t)
  obtain ⟨hlow, hdelete⟩ := h.printable c hc
  refine if_neg ?_
  rintro (hcontrol | rfl)
  · have hlt := UInt8.lt_iff_toNat_lt.1 hcontrol
    change c.toNat < 32 at hlt
    omega
  · exact hdelete rfl

/-- Without control characters a blank is a space. -/
theorem FreeText.isBlank_iff (h : FreeText t) : ∀ c ∈ t, isBlank c = true → c = 32 := by
  intro c hc hblank
  rw [isBlank, Bool.or_eq_true, decide_eq_true_eq, decide_eq_true_eq] at hblank
  refine hblank.resolve_right ?_
  rintro rfl
  exact absurd (h.printable 9 hc).1 (by decide)

/-- Free text is read back. -/
theorem reread_eq (h : FreeText t) : reread t = t := by
  rw [reread, escapeText_eq h, trim]
  cases t with
  | nil => rfl
  | cons c t =>
    have hfront : ¬ isBlank c = true := fun hblank =>
      h.front (congrArg some (h.isBlank_iff c List.mem_cons_self hblank))
    rw [List.dropWhile_cons_of_neg hfront, List.rdropWhile_eq_self_iff]
    intro hne hblank
    refine h.back ?_
    rw [List.getLast?_eq_some_getLast hne, h.isBlank_iff _ (List.getLast_mem hne) hblank]

/-- Free text stays within its line. -/
theorem FreeText.inline (h : FreeText t) : Inline t := by
  intro c hc
  obtain ⟨hlow, -⟩ := h.printable c hc
  constructor <;> rintro rfl <;> exact absurd hlow (by decide)

end Free

/-! ## Lines of valid fields -/

section Fields
variable {w : Text} {fields front : List Text} {t : Text}

/-- A field of a line that the parser reads: valid UTF-8 without line ends. -/
structure Legible (t : Text) : Prop where
  utf8 : isValidUtf8 t = true
  inline : Inline t

/-- A plain field of ASCII characters is legible. -/
theorem Legible.of_ascii (hplain : Plain t) (h : ∀ c ∈ t, c < 0x80) : Legible t :=
  ⟨isValidUtf8_ascii h, hplain.inline⟩

/-- A printable token is legible. -/
theorem Legible.of_token (h : PrintableToken t) : Legible t := ⟨h.utf8, h.plain.inline⟩

/-- Free text is legible. -/
theorem Legible.of_free (h : FreeText t) : Legible t := ⟨h.utf8, h.inline⟩

/-- A word of the format. -/
theorem Legible.word (h : (!t.isEmpty && t.all fun c => 32 < c.toNat && c < 0x80) = true) :
    Legible t := by
  simp only [Bool.and_eq_true, Bool.not_eq_true', List.isEmpty_eq_false_iff, List.all_eq_true,
    decide_eq_true_eq] at h
  exact .of_ascii ⟨h.1, fun c hc => (h.2 c hc).1⟩ fun c hc => (h.2 c hc).2

/-- Decimal digits are legible. -/
theorem Legible.decimal (n : ℕ) : Legible (decimal n) := by
  refine .of_ascii (Plain.decimal n) fun c hc => ?_
  have hdigit := (decimal_spec n).2.1 c hc
  rw [UInt8.lt_iff_toNat_lt]
  change c.toNat < 128
  omega

/-- Decimal digits with a sign are legible. -/
theorem Legible.decimalInt (i : ℤ) : Legible (decimalInt i) := by
  cases i with
  | ofNat n => exact Legible.decimal n
  | negSucc n =>
    refine ⟨?_, (Plain.decimalInt _).inline⟩
    exact (Legible.decimal (n + 1)).utf8

/-- Hexadecimal digits are legible. -/
theorem Legible.toHex (d : Digest) : Legible d.toHex := by
  refine .of_ascii (Plain.toHex d) fun c hc => ?_
  have hall : ∀ k : Fin 256, hexDigit (UInt8.ofFin k >>> 4) < 0x80 ∧
      hexDigit (UInt8.ofFin k &&& 0x0F) < 0x80 := by decide +kernel
  rw [Digest.toHex, hexBytes, List.mem_flatMap] at hc
  obtain ⟨b, -, hc⟩ := hc
  simp only [List.mem_cons, List.not_mem_nil, or_false] at hc
  rcases hc with rfl | rfl
  · exact (hall b.toFin).1
  · exact (hall b.toFin).2

/-- The text of an identifier is legible. -/
theorem Legible.ident {tag : IdTag} (id : BasicId tag) : Legible id.toText := by
  refine ⟨?_, (Plain.ident id).inline⟩
  rw [BasicId.toText]
  split
  · rfl
  · exact isValidUtf8_token id

/-- The text of a flag is legible. -/
theorem Legible.flagText (b : Bool) : Legible (flagText b) := by
  cases b <;> exact .word rfl

/-- The name of a quality is legible. -/
theorem EvidenceQuality.legible (q : EvidenceQuality) : Legible q.toText := by
  cases q <;> exact .word rfl

/-- The name of a class of evidence is legible. -/
theorem EvidenceClass.legible (k : EvidenceClass) : Legible k.toText := by
  cases k <;> exact .word rfl

/-- The name of a membership state is legible. -/
theorem MembershipState.legible (m : MembershipState) : Legible m.toText := by
  cases m <;> exact .word rfl

/-- The name of an administrative state is legible. -/
theorem AdminState.legible (a : AdminState) : Legible a.toText := by
  cases a <;> exact .word rfl

/-- The name of a health state is legible. -/
theorem HealthState.legible (h : HealthState) : Legible h.toText := by
  cases h <;> exact .word rfl

/-- The name of an operational state is legible. -/
theorem OperationalState.legible (o : OperationalState) : Legible o.toText := by
  cases o <;> exact .word rfl

/-- The name of a kind of domain is legible. -/
theorem DomainKind.legible (k : DomainKind) : Legible k.toText := by
  cases k <;> exact .word rfl

/-- The name of a kind of obligation is legible. -/
theorem ObligationKind.legible (k : ObligationKind) : Legible k.toText := by
  cases k <;> exact .word rfl

/-- The fields of a provenance are legible. -/
theorem Provenance.legible (prov : Provenance) : ∀ f ∈ prov.fields, Legible f := by
  simp [Provenance.fields, prov.quality.legible, prov.klass.legible, Legible.ident, Legible.decimal]

/-- Well-formed fields make a well-formed line. Induction on the fields. -/
theorem valid_lineOf : ∀ {fields : List Text}, (∀ f ∈ fields, isValidUtf8 f = true) →
    isValidUtf8 (lineOf fields) = true
  | [], _ => rfl
  | [f], h => by
    rw [lineOf, List.intercalate_singleton]
    exact h f List.mem_cons_self
  | f :: g :: fields, h => by
    have hrest := @valid_lineOf (g :: fields) fun f hf => h f (List.mem_cons_of_mem _ hf)
    rw [lineOf, List.intercalate_cons_cons, List.append_assoc,
      isValidUtf8_append (h f List.mem_cons_self)]
    exact hrest

/-- A line that the parser reads, and that is not taken for the end marker. -/
structure Readable (line : Text) : Prop extends Legible line where
  other : ((words isBlank 0 line).map Word.letters).head? ≠ some (text "end")

/-- The first word of a line is its first field. -/
theorem head_words (hw : Plain w) :
    ((words isBlank 0 (lineOf (w :: fields))).map Word.letters).head? = some w := by
  have hword : ∀ {position : ℕ}, words isBlank position w = [⟨position, w⟩] :=
    words_letters hw.nonempty hw.letters
  cases fields with
  | nil => rw [lineOf, List.intercalate_singleton, hword]; rfl
  | cons f fields =>
    rw [lineOf, List.intercalate_cons_cons, List.append_assoc, List.singleton_append,
      words_append_blank rfl, hword]
    rfl

/-- A line of legible fields that is no end marker is readable. -/
theorem Readable.of_fields (hw : Plain w) (hend : w ≠ text "end")
    (h : ∀ f ∈ w :: fields, Legible f) : Readable (lineOf (w :: fields)) where
  utf8 := valid_lineOf fun f hf => (h f hf).utf8
  inline := inline_lineOf fun f hf => (h f hf).inline
  other := by
    rw [head_words hw, Ne, Option.some.injEq]
    exact hend

/-- A field of free text is legible. -/
theorem legible_freeField (h : FreeText t) : ∀ f ∈ freeField t, Legible f := by
  intro f hf
  rw [freeField] at hf
  split at hf
  · cases hf
  · rw [List.mem_singleton.1 hf, escapeText_eq h]
    exact .of_free h

/-- Lines of free text are readable. -/
theorem readable_freeLines (hw : Plain w) (hend : w ≠ text "end") (hlegible : Legible w)
    (h : FreeText t) : ∀ line ∈ freeLines w t, Readable line := by
  intro line hline
  rw [freeLines] at hline
  split at hline
  · cases hline
  · rw [List.mem_singleton.1 hline, escapeText_eq h]
    exact .of_fields hw hend (by simp [hlegible, Legible.of_free h])

end Fields

/-! ## The lines of the records -/

section Lines
variable {m : MemberRecord} {l : LinkRecord} {d : FailureDomainRecord} {o : Obligation}

/-- The fields of a rack that has a revision. -/
theorem MemberRecord.fields_with (h : m.rnfSchema ≠ []) : m.fields = m.fieldsWith m.rnfSchema := by
  rw [m.fields_eq, m.fieldsWith_eq, MemberRecord.revision, if_neg (by simpa using h)]

/-- The fields of a rack are legible. -/
theorem MemberRecord.legible (h : PrintableToken m.rnfSchema) :
    ∀ f ∈ m.fieldsWith m.rnfSchema, Legible f := by
  simp only [MemberRecord.fieldsWith, List.forall_mem_append, List.forall_mem_cons,
    List.not_mem_nil, false_imp_iff, implies_true, and_true, Legible.ident, Legible.decimal,
    Legible.decimalInt, Legible.toHex, m.membership.legible, m.admin.legible, m.health.legible,
    Legible.of_token h, true_and]
  refine ⟨?_, m.provenance.legible⟩
  and_intros <;> exact .word rfl

/-- The fields of a link are legible. -/
theorem LinkRecord.legible (l : LinkRecord) : ∀ f ∈ l.fields, Legible f := by
  simp only [LinkRecord.fields, List.forall_mem_append, List.forall_mem_cons, List.not_mem_nil,
    false_imp_iff, implies_true, and_true, Legible.ident, Legible.decimal, Legible.decimalInt,
    l.admin.legible, l.oper.legible, true_and]
  refine ⟨?_, l.provenance.legible⟩
  and_intros <;> exact .word rfl

/-- The fields of a domain are legible. -/
theorem FailureDomainRecord.legible (h : FreeText d.provenance.detail) :
    ∀ f ∈ d.fields, Legible f := by
  simp only [FailureDomainRecord.fields, List.forall_mem_append, List.forall_mem_cons,
    List.not_mem_nil, false_imp_iff, implies_true, and_true, Legible.ident, d.kind.legible,
    true_and]
  refine ⟨⟨?_, d.provenance.legible⟩, legible_freeField h⟩
  and_intros <;> exact .word rfl

/-- The fields of an obligation are legible. -/
theorem Obligation.legible (h : FreeText o.provenance.detail) : ∀ f ∈ o.fields, Legible f := by
  simp only [Obligation.fields, List.forall_mem_append, List.forall_mem_cons, List.not_mem_nil,
    false_imp_iff, implies_true, and_true, Legible.ident, Legible.decimal, Legible.flagText,
    o.kind.legible, o.diversityKind.legible, true_and]
  refine ⟨⟨?_, o.provenance.legible⟩, legible_freeField h⟩
  and_intros <;> exact .word rfl

/-- The fields of a claim are legible. -/
theorem CapacityClaim.legible {claim : CapacityClaim} (h : FreeText claim.provenance.detail) :
    ∀ f ∈ claim.fields, Legible f := by
  simp only [CapacityClaim.fields, List.forall_mem_append, List.forall_mem_cons, List.not_mem_nil,
    false_imp_iff, implies_true, and_true, Legible.ident, Legible.decimal]
  exact ⟨⟨.word rfl, claim.provenance.legible⟩, legible_freeField h⟩

/-- The lines of listed identifiers are readable. -/
theorem readable_listed {tag : IdTag} {w : Text} (hw : Plain w) (hend : w ≠ text "end")
    (hlegible : Legible w) (ids : List (BasicId tag)) :
    ∀ line ∈ ids.map fun id => lineOf [w, id.toText], Readable line := by
  rw [List.forall_mem_map]
  exact fun id _ => .of_fields hw hend (by simp [hlegible, Legible.ident])

/-- The lines of a description are readable. -/
theorem readable_desc {t : Text} (h : FreeText t) : ∀ line ∈ freeLines "+desc" t, Readable line :=
  readable_freeLines (plain_iff.2 (by rfl)) (by decide) (.word rfl) h

/-- The lines of a rack with a printable revision: one for its fields, then the further ones. -/
theorem MemberRecord.lines_with (h : PrintableToken m.rnfSchema) :
    m.lines = lineOf (m.fieldsWith m.rnfSchema) :: m.tailLines := by
  have hinline : Inline (lineOf (m.fieldsWith m.rnfSchema)) :=
    inline_lineOf fun f hf => (m.plain_fields h.plain f hf).inline
  rw [MemberRecord.lines, m.fields_with h.plain.nonempty,
    List.splitOn_eq_singleton fun hmem => (hinline 10 hmem).1 rfl, List.singleton_append]

/-- The lines of a rack are readable. -/
theorem MemberRecord.readable (h : PrintableToken m.rnfSchema)
    (hdetail : FreeText m.provenance.detail)
    (hclaims : ∀ claim ∈ m.capacity, FreeText claim.provenance.detail) :
    ∀ line ∈ m.lines, Readable line := by
  rw [MemberRecord.lines_with h, MemberRecord.tailLines]
  simp only [List.forall_mem_cons, List.forall_mem_append]
  refine ⟨.of_fields (plain_iff.2 (by rfl)) (by decide) (m.legible h),
    ⟨⟨readable_desc hdetail, ?_⟩, ?_⟩, ?_⟩
  · exact readable_listed (plain_iff.2 (by rfl)) (by decide) (.word rfl) _
  · exact readable_listed (plain_iff.2 (by rfl)) (by decide) (.word rfl) _
  · rw [List.forall_mem_map]
    exact fun claim hclaim => .of_fields (plain_iff.2 (by rfl)) (by decide)
      (CapacityClaim.legible (hclaims claim hclaim))

/-- The lines of a link are readable. -/
theorem LinkRecord.readable (h : FreeText l.provenance.detail) : ∀ line ∈ l.lines, Readable line :=
  List.forall_mem_cons.2 ⟨.of_fields (plain_iff.2 (by rfl)) (by decide) l.legible, readable_desc h⟩

/-- The lines of a domain are readable. -/
theorem FailureDomainRecord.readable (hdescription : FreeText d.description)
    (hdetail : FreeText d.provenance.detail) : ∀ line ∈ d.lines, Readable line := by
  simp only [FailureDomainRecord.lines, List.forall_mem_cons, List.forall_mem_append]
  refine ⟨⟨.of_fields (plain_iff.2 (by rfl)) (by decide) (d.legible hdetail),
    readable_desc hdescription⟩, ?_⟩
  exact readable_listed (plain_iff.2 (by rfl)) (by decide) (.word rfl) _

/-- The lines of an obligation are readable. -/
theorem Obligation.readable (hdescription : FreeText o.description)
    (hdetail : FreeText o.provenance.detail) : ∀ line ∈ o.lines, Readable line := by
  simp only [Obligation.lines, List.forall_mem_cons, List.forall_mem_append]
  refine ⟨⟨⟨.of_fields (plain_iff.2 (by rfl)) (by decide) (o.legible hdetail),
    readable_desc hdescription⟩, ?_⟩, ?_⟩
  · exact readable_listed (plain_iff.2 (by rfl)) (by decide) (.word rfl) _
  · rw [List.forall_mem_map]
    exact fun requirement _ => .of_fields (plain_iff.2 (by rfl)) (by decide) (by
      simp [Legible.ident, Legible.decimal, (.word rfl : Legible (text "+require"))])

end Lines

/-! ## The lines before the records -/

section Head
variable {p q : TextParser} {s : PodSnapshot}

/-- The parser behind the lines before the first record. -/
def TextParser.headed (s : PodSnapshot) : TextParser where
  snapshot :=
    { pod := s.pod, schema := snapshotSchema, provenance := s.provenance
      observedAt := s.observedAt }
  current := .snapshot

/-- A line of plain fields is handled with these fields as its words. -/
theorem take_words {w : Text} {fields : List Text} (hplain : ∀ f ∈ w :: fields, Plain f) :
    ∃ tokens : List Token, tokens.map Word.letters = w :: fields ∧
      p.take (lineOf (w :: fields)) = p.handleLine (lineOf (w :: fields)) tokens :=
  ⟨_, letters_lineOf hplain, take_eq (inline_lineOf fun f hf => (hplain f hf).inline)
    (letters_lineOf hplain)⟩

/-- The line of the schema sets it. -/
theorem take_schema : p.take (lineOf [text "schema", snapshotSchema]) =
    .ok { p with snapshot := { p.snapshot with schema := snapshotSchema } } := by
  have hplain : ∀ f ∈ [text "schema", snapshotSchema], Plain f := by
    simp only [List.forall_mem_cons, List.not_mem_nil, false_imp_iff, implies_true, and_true]
    exact ⟨plain_iff.2 (by rfl), plain_iff.2 (by rfl)⟩
  obtain ⟨tokens, htokens, hline⟩ := @take_words p _ _ hplain
  have hlength : tokens.length = 2 := by rw [← List.length_map Word.letters, htokens]; rfl
  rw [hline, TextParser.handleLine, handleLine_eq (by rw [htokens]; rfl),
    if_neg (by decide), if_pos rfl]
  simp only [bind_eq_ok, ensure_eq_ok, exists_const, tokenAt_eq_ok, htokens, hlength,
    List.getElem?_cons_succ, List.getElem?_cons_zero, Option.some.injEq, exists_eq_left', true_and]
  rfl

/-- The line of the pod sets it. -/
theorem take_pod {pod : PodId} (h : pod ≠ .nil) : p.take (lineOf [text "pod", pod.toText]) =
    .ok { p with snapshot := { p.snapshot with pod } } := by
  have hplain : ∀ f ∈ [text "pod", pod.toText], Plain f :=
    plain_listed (plain_iff.2 (by rfl)) pod
  obtain ⟨tokens, htokens, hline⟩ := @take_words p _ _ hplain
  have hlength : tokens.length = 2 := by rw [← List.length_map Word.letters, htokens]; rfl
  rw [hline, TextParser.handleLine, handleLine_eq (by rw [htokens]; rfl), if_pos rfl]
  simp only [bind_eq_ok, ensure_eq_ok, exists_const, readId, readField_eq_ok, htokens, hlength,
    List.getElem?_cons_succ, List.getElem?_cons_zero, Option.some.injEq, exists_eq_left',
    blankToEmpty_toText, parse_token_eq_ok, true_and, exists_eq_left, h, ne_eq, not_false_eq_true]
  rfl

/-- The line of the observation time sets it. -/
theorem take_observedAt {t : Nanos} : p.take (lineOf [text "observed-at", decimalInt t.toInt]) =
    .ok { p with snapshot := { p.snapshot with observedAt := t } } := by
  have hplain : ∀ f ∈ [text "observed-at", decimalInt t.toInt], Plain f := by
    simp only [List.forall_mem_cons, List.not_mem_nil, false_imp_iff, implies_true, and_true]
    exact ⟨plain_iff.2 (by rfl), Plain.decimalInt _⟩
  obtain ⟨tokens, htokens, hline⟩ := @take_words p _ _ hplain
  have hlength : tokens.length = 2 := by rw [← List.length_map Word.letters, htokens]; rfl
  rw [hline, TextParser.handleLine, handleLine_eq (by rw [htokens]; rfl),
    if_neg (by decide), if_neg (by decide), if_pos rfl]
  simp only [bind_eq_ok, ensure_eq_ok, exists_const, readField_eq_ok, htokens, hlength,
    List.getElem?_cons_succ, List.getElem?_cons_zero, Option.some.injEq, exists_eq_left',
    parseI64_decimalInt, Except.ok.injEq, true_and]
  rfl

/-- The line of the provenance sets it. -/
theorem take_prov {prov : Provenance} : p.take (lineOf (text "prov" :: prov.fields)) =
    .ok { snapshot := { p.snapshot with provenance := prov.bare }, current := .snapshot } := by
  have hplain : ∀ f ∈ text "prov" :: prov.fields, Plain f :=
    List.forall_mem_cons.2 ⟨plain_iff.2 (by rfl), prov.plain_fields⟩
  obtain ⟨tokens, htokens, hline⟩ := @take_words p _ _ hplain
  have hprov : (tokens.map Word.letters).drop 1 = prov.fields ++ [] := by
    rw [htokens, List.append_nil]; rfl
  rw [hline, TextParser.handleLine, handleLine_eq (by rw [htokens]; rfl)]
  rw [ite_skip (by decide) (ite_skip (by decide) (ite_skip (by decide) (ite_skip (by decide)
    (ite_skip (by decide) (ite_skip (by decide) (ite_skip (by decide) (ite_skip (by decide)
      (if_pos rfl))))))))]
  simp only [bind_eq_ok, parseProv_eq_ok hprov, exists_eq_left]
  rfl

/-- What is before the first record is read back. -/
theorem fold_headLines_eq (hschema : s.schema = snapshotSchema) (hpod : s.pod ≠ .nil)
    (hdetail : FreeText s.provenance.detail) :
    s.headLines.foldlM TextParser.take .opened = .ok (.headed s) := by
  have hname : (if s.schema.isEmpty then snapshotSchema else s.schema) = snapshotSchema := by
    rw [hschema]
    exact ite_self _
  have hfree : ∀ p : TextParser, p.current = .snapshot → p.snapshot.provenance = s.provenance.bare →
      (freeLines "+detail" s.provenance.detail).foldlM TextParser.take p =
        .ok { p with snapshot := { p.snapshot with provenance := s.provenance } } := by
    intro p hcurrent hbare
    refine take_freeLines (plain_iff.2 (by rfl)) (by rfl) (.inl rfl) (by simp [hcurrent]) ?_
      fun hnone => ?_
    · rw [TextParser.parseFree, if_pos rfl, hcurrent, reread_eq hdetail, hbare]
      rfl
    · cases p with
      | mk snapshot current =>
        simp only [TextParser.mk.injEq, and_true]
        rw [show s.provenance = s.provenance.bare by rw [Provenance.bare, ← hnone], ← hbare]
  rw [PodSnapshot.headLines, hname, List.foldlM_append]
  simp only [List.foldlM_cons, List.foldlM_nil, take_schema, take_pod hpod, take_observedAt,
    take_prov]
  exact hfree _ rfl rfl

end Head

/-! ## The records -/

section Records
variable {ρ : Type} {render : ρ → List Text} {add : TextParser → ρ → TextParser} {C : ρ → Prop}
  {p q : TextParser} {xs : List ρ}

/-- Records are read one after the other as long as there is room for them. -/
theorem foldlM_each (count : TextParser → ℕ) (hadd : ∀ p x, count (add p x) = count p + 1)
    (hstep : ∀ x ∈ xs, ∀ p q, (render x).foldlM TextParser.take p = .ok q ↔
      count p < maxTextItems ∧ C x ∧ q = add p x) (hroom : count p + xs.length ≤ maxTextItems) :
    (xs.flatMap render).foldlM TextParser.take p = .ok q ↔
      (∀ x ∈ xs, C x) ∧ q = xs.foldl add p := by
  induction xs generalizing p with
  | nil => simp [pure, Except.pure, eq_comm]
  | cons x xs ih =>
    rw [List.forall_mem_cons] at hstep
    rw [List.length_cons] at hroom
    have hrest := @ih (add p x) hstep.2 (by rw [hadd]; omega)
    have hlt : count p < maxTextItems := by omega
    simp only [List.flatMap_cons, List.foldlM_append, bind_eq_ok, hstep.1, hlt, true_and,
      List.forall_mem_cons, List.foldl_cons, and_assoc, exists_and_left, exists_eq_left, hrest]

/-- What reading records one by one adds to the snapshot. -/
theorem snapshot_foldl {into : PodSnapshot → List ρ → PodSnapshot} (hnil : ∀ s, into s [] = s)
    (hcons : ∀ s x xs, into (into s [x]) xs = into s (x :: xs))
    (hadd : ∀ p x, (add p x).snapshot = into p.snapshot [x]) :
    (xs.foldl add p).snapshot = into p.snapshot xs := by
  induction xs generalizing p with
  | nil => rw [hnil]; rfl
  | cons x xs ih => rw [List.foldl_cons, ih, hadd, hcons]

/-- Each record has a line of its own. -/
theorem length_le_flatMap (h : ∀ x, render x ≠ []) : xs.length ≤ (xs.flatMap render).length := by
  induction xs with
  | nil => exact Nat.le_refl _
  | cons x xs ih =>
    have hpos := List.length_pos_of_ne_nil (h x)
    rw [List.flatMap_cons, List.length_append, List.length_cons]
    omega

end Records

section Whole
variable {s : PodSnapshot} {m : MemberRecord} {l : LinkRecord} {d : FailureDomainRecord}
  {o : Obligation} {p q : TextParser}

/-- A claim with printable text is read back. -/
theorem CapacityClaim.reread_eq {claim : CapacityClaim} (h : FreeText claim.provenance.detail) :
    claim.reread = claim := by
  rw [CapacityClaim.reread, PodFabric.reread_eq h]

/-- A rack with printable texts is read back. -/
theorem MemberRecord.reread_eq (h : PrintableToken m.rnfSchema)
    (hdetail : FreeText m.provenance.detail)
    (hclaims : ∀ claim ∈ m.capacity, FreeText claim.provenance.detail) :
    m.reread m.rnfSchema = m := by
  have hcapacity : m.capacity.map CapacityClaim.reread = m.capacity :=
    (List.map_congr_left fun claim hclaim =>
      CapacityClaim.reread_eq (hclaims claim hclaim)).trans (List.map_id _)
  rw [MemberRecord.reread, PodFabric.reread_eq hdetail, hcapacity, blankToEmpty, if_neg h.present]

/-- A link with printable text is read back. -/
theorem LinkRecord.reread_eq (h : FreeText l.provenance.detail) : l.reread = l := by
  rw [LinkRecord.reread, PodFabric.reread_eq h]

/-- A domain with printable texts is read back. -/
theorem FailureDomainRecord.reread_eq (hdescription : FreeText d.description)
    (hdetail : FreeText d.provenance.detail) : d.reread = d := by
  rw [FailureDomainRecord.reread, PodFabric.reread_eq hdescription, PodFabric.reread_eq hdetail]

/-- An obligation with printable texts is read back. -/
theorem Obligation.reread_eq (hdescription : FreeText o.description)
    (hdetail : FreeText o.provenance.detail) : o.reread = o := by
  rw [Obligation.reread, PodFabric.reread_eq hdescription, PodFabric.reread_eq hdetail]

/-! ### One record -/

/-- The lines of a printable rack add it exactly when there is room. -/
theorem take_member_iff (h : PrintableToken m.rnfSchema) (hdetail : FreeText m.provenance.detail)
    (hclaims : ∀ claim ∈ m.capacity, FreeText claim.provenance.detail)
    (hrack : m.rack ≠ .nil) (hports : ∀ port ∈ m.ports, port ≠ .nil) :
    m.lines.foldlM TextParser.take p = .ok q ↔
      p.snapshot.members.length < maxTextItems ∧ m.NamesLists ∧ q = p.addMember m := by
  have hlisted : m.Listed ↔ m.NamesLists := by
    rw [MemberRecord.Listed, MemberRecord.NamesLists]
    exact and_congr_right fun _ => and_iff_right hports
  rw [MemberRecord.lines_with h, List.foldlM_cons]
  simp only [bind_eq_ok, take_member h.plain, take_tailLines, and_assoc, exists_and_left,
    exists_eq_left, hlisted, MemberRecord.reread_eq h hdetail hclaims, hrack, ne_eq,
    not_false_eq_true, true_and]

/-- The lines of a printable link add it exactly when there is room. -/
theorem take_link_iff (hdetail : FreeText l.provenance.detail) (hnamed : l.Named) :
    l.lines.foldlM TextParser.take p = .ok q ↔
      p.snapshot.links.length < maxTextItems ∧ True ∧ q = p.addLink l := by
  simp only [take_linkLines, LinkRecord.reread_eq hdetail, hnamed]

/-- The lines of a printable domain add it exactly when there is room. -/
theorem take_domain_iff (hdescription : FreeText d.description)
    (hdetail : FreeText d.provenance.detail) (hid : d.id ≠ .nil)
    (hracks : ∀ rack ∈ d.members, rack ≠ .nil) :
    d.lines.foldlM TextParser.take p = .ok q ↔
      p.snapshot.domains.length < maxTextItems ∧ True ∧ q = p.addDomain d := by
  have hall : (∀ rack ∈ d.members, rack ≠ .nil) ↔ True := iff_true_intro hracks
  simp only [take_domainLines, FailureDomainRecord.reread_eq hdescription hdetail, hid, hall, ne_eq,
    not_false_eq_true, true_and]

/-- The lines of a printable obligation add it exactly when there is room. -/
theorem take_obligation_iff (hdescription : FreeText o.description)
    (hdetail : FreeText o.provenance.detail) (hid : o.id ≠ .nil)
    (hracks : ∀ rack ∈ o.protectedRacks, rack ≠ .nil)
    (hresources : ∀ requirement ∈ o.requirements, requirement.resource ≠ .nil) :
    o.lines.foldlM TextParser.take p = .ok q ↔
      p.snapshot.obligations.length < maxTextItems ∧ True ∧ q = p.addObligation o := by
  have hall : (∀ rack ∈ o.protectedRacks, rack ≠ .nil) ↔ True := iff_true_intro hracks
  have heach : (∀ requirement ∈ o.requirements, requirement.resource ≠ .nil) ↔ True :=
    iff_true_intro hresources
  simp only [take_obligationLines, Obligation.reread_eq hdescription hdetail, hid, hall, heach,
    ne_eq, not_false_eq_true, true_and]

/-- No line of a route is read back. -/
theorem fold_routes_iff {routes : List RouteEvidence} :
    (routes.flatMap RouteEvidence.lines).foldlM TextParser.take p = .ok q ↔
      routes = [] ∧ q = p := by
  refine ⟨fold_routes, ?_⟩
  rintro ⟨rfl, rfl⟩
  rfl

/-! ### What validation and the format guarantee -/

/-- The strings of the records of a snapshot. -/
theorem PodSnapshot.Printable.texts (h : s.Printable) :
    FreeText s.provenance.detail ∧
      (∀ m ∈ s.members, FreeText m.provenance.detail ∧
        ∀ claim ∈ m.capacity, FreeText claim.provenance.detail) ∧
      (∀ l ∈ s.links, FreeText l.provenance.detail) ∧
      (∀ d ∈ s.domains, FreeText d.description ∧ FreeText d.provenance.detail) ∧
      ∀ o ∈ s.obligations, FreeText o.description ∧ FreeText o.provenance.detail := by
  have hfree := h.free
  simp only [PodSnapshot.freeTexts, List.forall_mem_cons, List.forall_mem_append,
    List.forall_mem_flatMap, List.forall_mem_map, List.not_mem_nil, false_imp_iff, implies_true,
    and_true] at hfree
  obtain ⟨hown, ⟨⟨⟨hmembers, hlinks⟩, -⟩, hdomains⟩, hobligations⟩ := hfree
  exact ⟨hown, hmembers, hlinks, hdomains, hobligations⟩

/-- An identifier that names something is not `nil`. -/
theorem ne_nil_of_isNil {tag : IdTag} {id : BasicId tag} (h : id.isNil = false) : id ≠ .nil := by
  rintro rfl
  cases h

/-- An accepted link has its identifiers. -/
theorem validate_link_named {policy : Policy} (h : l.id.isNil = false ∧ l.validate policy = .ok ())
    (hports : l.a.port ≠ .nil ∧ l.b.port ≠ .nil) : l.Named := by
  obtain ⟨hid, hvalid⟩ := h
  unfold LinkRecord.validate at hvalid
  simp only [check_eq_ok, ensure_eq_ok] at hvalid
  obtain ⟨⟨ha, hb⟩, -, hresource, hdomain, -⟩ := hvalid
  exact ⟨ne_nil_of_isNil hid, ha, hports.1, hb, hports.2, hdomain, hresource⟩

/-- An accepted obligation names its resources. -/
theorem validate_obligation_named {policy : Policy} (h : o.validate policy = .ok ()) :
    ∀ requirement ∈ o.requirements, requirement.resource ≠ .nil := by
  unfold Obligation.validate at h
  simp only [check_eq_ok, ensure_eq_ok, bounded_eq_ok, forM_eq_ok] at h
  intro requirement hmem
  have hvalid := h.2.2.2.1 requirement hmem
  unfold CapacityRequirement.validate at hvalid
  rw [check_eq_ok, ensure_eq_ok] at hvalid
  exact hvalid.1

/-! ### All records of a kind -/

/-- The lines of accepted printable racks add them. -/
theorem fold_members_iff {policy : Policy} (hvalid : SnapshotValid s policy) (h : s.Printable)
    (hroom : p.snapshot.members.length + s.members.length ≤ maxTextItems) :
    (s.members.flatMap MemberRecord.lines).foldlM TextParser.take p = .ok q ↔
      (∀ m ∈ s.members, m.NamesLists) ∧ q = s.members.foldl TextParser.addMember p := by
  have htexts := h.texts.2.1
  refine foldlM_each (fun p => p.snapshot.members.length) (by simp [TextParser.addMember])
    (fun m hm p q => ?_) hroom
  exact take_member_iff (h.revisions m hm) (htexts m hm).1 (htexts m hm).2
    (hvalid.memberRacks m hm) (h.ports m hm)

/-- The lines of accepted printable links add them. -/
theorem fold_links_iff {policy : Policy} (hvalid : SnapshotValid s policy) (h : s.Printable)
    (hroom : p.snapshot.links.length + s.links.length ≤ maxTextItems) :
    (s.links.flatMap LinkRecord.lines).foldlM TextParser.take p = .ok q ↔
      q = s.links.foldl TextParser.addLink p := by
  rw [foldlM_each (fun p => p.snapshot.links.length) (by simp [TextParser.addLink])
    (fun l hl p q => take_link_iff (h.texts.2.2.1 l hl)
      (validate_link_named (hvalid.links l hl) (h.linkPorts l hl))) hroom]
  simp

/-- The lines of accepted printable domains add them. -/
theorem fold_domains_iff {policy : Policy} (hvalid : SnapshotValid s policy) (h : s.Printable)
    (hroom : p.snapshot.domains.length + s.domains.length ≤ maxTextItems) :
    (s.domains.flatMap FailureDomainRecord.lines).foldlM TextParser.take p = .ok q ↔
      q = s.domains.foldl TextParser.addDomain p := by
  have htexts := h.texts.2.2.2.1
  rw [foldlM_each (fun p => p.snapshot.domains.length) (by simp [TextParser.addDomain])
    (fun d hd p q => take_domain_iff (htexts d hd).1 (htexts d hd).2
      (ne_nil_of_isNil (hvalid.domains d hd).1) (h.domainRacks d hd)) hroom]
  simp

/-- The lines of accepted printable obligations add them. -/
theorem fold_obligations_iff {policy : Policy} (hvalid : SnapshotValid s policy) (h : s.Printable)
    (hroom : p.snapshot.obligations.length + s.obligations.length ≤ maxTextItems) :
    (s.obligations.flatMap Obligation.lines).foldlM TextParser.take p = .ok q ↔
      q = s.obligations.foldl TextParser.addObligation p := by
  have htexts := h.texts.2.2.2.2
  rw [foldlM_each (fun p => p.snapshot.obligations.length) (by simp [TextParser.addObligation])
    (fun o ho p q => take_obligation_iff (htexts o ho).1 (htexts o ho).2
      (ne_nil_of_isNil (hvalid.obligations o ho).1) (h.obligationRacks o ho)
      (validate_obligation_named (hvalid.obligations o ho).2)) hroom]
  simp

/-! ### The whole document -/

/-- The parser behind the last record of a snapshot without routes. -/
def TextParser.finished (s : PodSnapshot) : TextParser :=
  s.obligations.foldl addObligation (s.domains.foldl addDomain (s.links.foldl addLink
    (s.members.foldl addMember (.headed s))))

/-- The racks read are behind those that were there. -/
theorem snapshot_members {members : List MemberRecord} :
    (members.foldl TextParser.addMember p).snapshot =
      { p.snapshot with members := p.snapshot.members ++ members } :=
  @snapshot_foldl _ _ _ _ (fun s members => { s with members := s.members ++ members })
    (by simp) (by simp) fun _ _ => rfl

/-- The links read are behind those that were there. -/
theorem snapshot_links {links : List LinkRecord} :
    (links.foldl TextParser.addLink p).snapshot =
      { p.snapshot with links := p.snapshot.links ++ links } :=
  @snapshot_foldl _ _ _ _ (fun s links => { s with links := s.links ++ links })
    (by simp) (by simp) fun _ _ => rfl

/-- The domains read are behind those that were there. -/
theorem snapshot_domains {domains : List FailureDomainRecord} :
    (domains.foldl TextParser.addDomain p).snapshot =
      { p.snapshot with domains := p.snapshot.domains ++ domains } :=
  @snapshot_foldl _ _ _ _ (fun s domains => { s with domains := s.domains ++ domains })
    (by simp) (by simp) fun _ _ => rfl

/-- The obligations read are behind those that were there. -/
theorem snapshot_obligations {obligations : List Obligation} :
    (obligations.foldl TextParser.addObligation p).snapshot =
      { p.snapshot with obligations := p.snapshot.obligations ++ obligations } :=
  @snapshot_foldl _ _ _ _
    (fun s obligations => { s with obligations := s.obligations ++ obligations })
    (by simp) (by simp) fun _ _ => rfl

/-- The parser ends with the snapshot. -/
theorem snapshot_finished (hschema : s.schema = snapshotSchema) (hroutes : s.routes = []) :
    (TextParser.finished s).snapshot = s := by
  rw [TextParser.finished, snapshot_obligations, snapshot_domains, snapshot_links, snapshot_members]
  cases s
  cases hschema
  cases hroutes
  rfl

/-- The lines of an accepted snapshot whose strings the format can carry are read just when it has
no route and its members' lists have names, and then all of it is read back. -/
theorem fold_bodyLines {policy : Policy} (hvalid : SnapshotValid s policy) (h : s.Printable)
    (hroom : s.bodyLines.length ≤ maxTextItems) :
    s.bodyLines.foldlM TextParser.take .opened = .ok q ↔
      s.routes = [] ∧ (∀ m ∈ s.members, m.NamesLists) ∧ q = .finished s := by
  have hmemberRoom := @length_le_flatMap _ MemberRecord.lines s.members fun m => by
    simp [MemberRecord.lines, List.splitOn_ne_nil]
  have hlinkRoom := @length_le_flatMap _ LinkRecord.lines s.links fun l => List.cons_ne_nil _ _
  have hdomainRoom := @length_le_flatMap _ FailureDomainRecord.lines s.domains fun d =>
    List.cons_ne_nil _ _
  have hobligationRoom := @length_le_flatMap _ Obligation.lines s.obligations fun o =>
    List.cons_ne_nil _ _
  simp only [PodSnapshot.bodyLines, List.length_append] at hroom
  -- no other record is counted with the records of a kind
  have hlinkCount :
      (s.members.foldl TextParser.addMember (.headed s)).snapshot.links.length = 0 := by
    rw [snapshot_members]
    rfl
  have hdomainCount : (s.links.foldl TextParser.addLink (s.members.foldl TextParser.addMember
      (.headed s))).snapshot.domains.length = 0 := by
    rw [snapshot_links, snapshot_members]
    rfl
  have hobligationCount : (s.domains.foldl TextParser.addDomain (s.links.foldl TextParser.addLink
      (s.members.foldl TextParser.addMember (.headed s)))).snapshot.obligations.length = 0 := by
    rw [snapshot_domains, snapshot_links, snapshot_members]
    rfl
  have hmembers := fun q => @fold_members_iff s (.headed s) q policy hvalid h
    (by change 0 + _ ≤ _; omega)
  have hlinks := fun q => @fold_links_iff s _ q policy hvalid h (by rw [hlinkCount]; omega)
  have hdomains := fun q => @fold_domains_iff s _ q policy hvalid h (by rw [hdomainCount]; omega)
  have hobligations := fun q => @fold_obligations_iff s _ q policy hvalid h
    (by rw [hobligationCount]; omega)
  rw [PodSnapshot.bodyLines]
  simp only [List.foldlM_append, fold_headLines_eq hvalid.schema hvalid.pod h.texts.1, bind_eq_ok,
    Except.ok.injEq, exists_eq_left', hmembers, and_assoc, exists_and_left, exists_eq_left,
    hlinks, fold_routes_iff, hdomains, hobligations]
  rw [and_left_comm]
  rfl

end Whole

/-! ## The text is read back -/

section RoundTrip
variable {s : PodSnapshot} {policy : Policy}

/-- Every newline ends a line. -/
theorem length_splitOn {a : UInt8} : ∀ {t : Text}, (t.splitOn a).length = t.count a + 1
  | [] => rfl
  | c :: t => by
    rw [List.splitOn_cons_eq_if_modifyHead, List.count_cons]
    split
    · rw [List.length_cons, length_splitOn]
    · rw [List.length_modifyHead, length_splitOn, Nat.add_zero]

/-- All lines of a printable snapshot without routes are readable. -/
theorem PodSnapshot.readable (hschema : s.schema = snapshotSchema) (h : s.Printable)
    (hroutes : s.routes = []) : ∀ line ∈ s.bodyLines, Readable line := by
  obtain ⟨hown, hmembers, hlinks, hdomains, hobligations⟩ := h.texts
  have hname : (if s.schema.isEmpty then snapshotSchema else s.schema) = snapshotSchema := by
    rw [hschema]
    exact ite_self _
  rw [PodSnapshot.bodyLines, PodSnapshot.headLines, hname, hroutes]
  simp only [List.forall_mem_append, List.forall_mem_cons, List.forall_mem_flatMap,
    List.not_mem_nil, false_imp_iff, implies_true, and_true]
  refine ⟨⟨⟨⟨⟨⟨?_, ?_, ?_, ?_⟩, ?_⟩, fun m hm => ?_⟩, fun l hl => ?_⟩, fun d hd => ?_⟩,
    fun o ho => ?_⟩
  · refine .of_fields (plain_iff.2 (by rfl)) (by decide) ?_
    simp only [List.forall_mem_cons, List.not_mem_nil, false_imp_iff, implies_true, and_true]
    exact ⟨.word rfl, .word rfl⟩
  · exact .of_fields (plain_iff.2 (by rfl)) (by decide)
      (by simp [Legible.ident, (.word rfl : Legible (text "pod"))])
  · exact .of_fields (plain_iff.2 (by rfl)) (by decide)
      (by simp [Legible.decimalInt, (.word rfl : Legible (text "observed-at"))])
  · exact .of_fields (plain_iff.2 (by rfl)) (by decide)
      (List.forall_mem_cons.2 ⟨.word rfl, s.provenance.legible⟩)
  · exact readable_freeLines (plain_iff.2 (by rfl)) (by decide) (.word rfl) hown
  · exact m.readable (h.revisions m hm) (hmembers m hm).1 (hmembers m hm).2
  · exact l.readable (hlinks l hl)
  · exact d.readable (hdomains d hd).1 (hdomains d hd).2
  · exact o.readable (hobligations o ho).1 (hobligations o ho).2

/-- An accepted snapshot whose strings the format can carry and whose text keeps to the limits is
read back from it just when it has no route and the lists of its members have names. -/
theorem text_round_trip_iff (hvalid : s.validate policy = .ok ()) (hprintable : s.Printable)
    (hlimits : s.WithinLimits) : snapshotFromText s.toText = .ok s ↔
      s.routes = [] ∧ ∀ m ∈ s.members, m.NamesLists := by
  have hall := validate_snapshot_iff.1 hvalid
  have hsplit := PodSnapshot.splitOn_toText hall.schema
  have hcount : s.bodyLines.length + 2 = s.toText.count 10 := by
    have hlength := @length_splitOn 10 s.toText
    rw [hsplit] at hlength
    simp only [List.length_cons, List.length_append, List.length_nil] at hlength
    omega
  have hlines := hlimits.lines
  have hroom : s.bodyLines.length ≤ maxTextItems := by
    change _ ≤ maxLines
    omega
  constructor
  · intro hread
    obtain ⟨q, hfold, -⟩ := fold_of_read hall.schema hread
    obtain ⟨hroutes, hnames, -⟩ := (fold_bodyLines hall hprintable hroom).1 hfold
    exact ⟨hroutes, hnames⟩
  · rintro ⟨hroutes, hnames⟩
    have hfold := (fold_bodyLines hall hprintable hroom).2 ⟨hroutes, hnames, rfl⟩
    have hread := read_of_fold hall.schema (by omega) (fun line hline => ?_) hfold
    · rwa [snapshot_finished hall.schema hroutes] at hread
    · have hreadable := PodSnapshot.readable hall.schema hprintable hroutes line hline
      refine ⟨hlimits.bytes line ?_, hreadable.utf8, hreadable.inline, hreadable.other⟩
      rw [hsplit]
      exact List.mem_cons_of_mem _ (List.mem_append_left _ hline)

end RoundTrip

namespace Sample

/-- The sample pod with names for the ports of its link and some free text. -/
def described : PodSnapshot :=
  { snapshot with
    links := [{ link with
      a := { rack := rackA, port := idOf "p1" }, b := { rack := rackB, port := idOf "p2" }
      provenance := { detail := text "spine  to leaf" } }]
    domains := [{
      id := power, kind := .power, members := [rackA, rackB], description := text "row 4" }]
    provenance := { detail := text "nightly sweep" } }

/-- The same pod with a route over the link. -/
def routed : PodSnapshot :=
  { described with
    routes := [{
      ref := idOf "r1", path := [rackA, rackB], pathGenerations := [⟨1⟩, ⟨1⟩], resource := bandwidth
      state := .installed }] }

/-- The sample is printable. -/
theorem described_printable : described.Printable :=
  ⟨by decide +kernel, by decide +kernel, by decide +kernel, by decide +kernel, by decide +kernel,
    by decide +kernel⟩

end Sample

/-- The sample pod is read back from its text. -/
theorem described_round_trip : snapshotFromText Sample.described.toText = .ok Sample.described :=
  (@text_round_trip_iff Sample.described {} (by decide +kernel) Sample.described_printable
    ⟨by decide +kernel, by decide +kernel⟩).2 ⟨rfl, by decide +kernel⟩

/-- A snapshot with a route is accepted and written, and its text is refused. -/
theorem routed_text_refused : ¬ ∀ (policy : Policy) (s : PodSnapshot),
    s.validate policy = .ok () → s.Printable → s.WithinLimits →
      snapshotFromText s.toText = .ok s := by
  intro h
  have hprintable : Sample.routed.Printable :=
    ⟨by decide +kernel, by decide +kernel, by decide +kernel, by decide +kernel, by decide +kernel,
      by decide +kernel⟩
  have hread := h {} Sample.routed (by decide +kernel) hprintable
    ⟨by decide +kernel, by decide +kernel⟩
  exact absurd hread (by decide +kernel)

end PodFabric
