import PodFabric.Proof.Composition
import PodFabric.Proof.TextEffects
import PodFabric.Proof.Validation

/-!
# Records made of strings

A rendered snapshot that is read back has the records it was rendered from just when no string of it
holds a line that begins a record (`same_records_iff`). The strings that could are the schema
revisions of the members' descriptors: all other free text is written without its control
characters.
-/

namespace PodFabric

/-! ## Records without their free text -/

/-- The claim without the texts that the lines transform. -/
def CapacityClaim.bare (claim : CapacityClaim) : CapacityClaim :=
  { claim with provenance := claim.provenance.bare }

/-- The rack without the texts that the lines transform. -/
def MemberRecord.bare (m : MemberRecord) : MemberRecord :=
  { m with
    rnfSchema := []
    capacity := m.capacity.map CapacityClaim.bare
    provenance := m.provenance.bare }

/-- The link without the texts that the lines transform. -/
def LinkRecord.bare (l : LinkRecord) : LinkRecord := { l with provenance := l.provenance.bare }

/-- The domain without the texts that the lines transform. -/
def FailureDomainRecord.bare (d : FailureDomainRecord) : FailureDomainRecord :=
  { d with description := [], provenance := d.provenance.bare }

/-- The obligation without the texts that the lines transform. -/
def Obligation.bare (o : Obligation) : Obligation :=
  { o with description := [], provenance := o.provenance.bare }

/-- The second member is the first one as it is read back: it has its identity and its claims. All
of it agrees but for free text if its own strings do not break its line. -/
structure MemberRecord.Same (m m' : MemberRecord) : Prop where
  rack : m'.rack = m.rack
  capacity : m'.capacity.map CapacityClaim.bare = m.capacity.map CapacityClaim.bare
  whole : 10 ∉ m.rnfSchema → m'.bare = m.bare

/-- The snapshots have the same records in the same order. -/
structure SameRecords (s s' : PodSnapshot) : Prop where
  members : List.Forall₂ MemberRecord.Same s.members s'.members
  links : s'.links.map LinkRecord.bare = s.links.map LinkRecord.bare
  routes : s'.routes = s.routes
  domains : s'.domains.map FailureDomainRecord.bare = s.domains.map FailureDomainRecord.bare
  obligations : s'.obligations.map Obligation.bare = s.obligations.map Obligation.bare

/-- No line into which the revisions break their members' lines begins a record or a claim. -/
def PodSnapshot.Clean (s : PodSnapshot) : Prop :=
  ∀ m ∈ s.members, ∀ line ∈ ((lineOf m.fields).splitOn 10).tail, opensRecord line = false

instance {s : PodSnapshot} : Decidable s.Clean := by
  unfold PodSnapshot.Clean
  infer_instance

/-! ## A member's own line -/

/-- The fields before the schema revision. -/
def MemberRecord.front (m : MemberRecord) : List Text :=
  [text "member", m.rack.toText, "gen", decimal m.generation.value.toNat, "digest", m.digest.toHex,
    "rnf"]

/-- The fields behind the schema revision. -/
def MemberRecord.back (m : MemberRecord) : List Text :=
  [text "state", m.membership.toText, "admin", m.admin.toText, "health",
    m.health.toText, "observed",
    decimalInt m.observedAt.toInt, "prov"] ++ m.provenance.fields

/-- The schema revision as it is written. -/
def MemberRecord.revision (m : MemberRecord) : Text :=
  if m.rnfSchema.isEmpty then [45] else m.rnfSchema

section Member
variable {m m' : MemberRecord} {p q base : TextParser} {line : Text} {lines : List Text}

/-- The revision stands between the other fields of a rack. -/
theorem MemberRecord.fields_eq : m.fields = m.front ++ m.revision :: m.back := rfl

/-- Another revision stands in the same place. -/
theorem MemberRecord.fieldsWith_eq {revision : Text} :
    m.fieldsWith revision = m.front ++ revision :: m.back := rfl

/-- The fields in front of the revision are plain. -/
theorem MemberRecord.plain_front (m : MemberRecord) : ∀ f ∈ m.front, Plain f := fun f hf =>
  m.plain_fields (plain_iff.2 (by rfl) : Plain (text "rnf")) f (by
    rw [m.fieldsWith_eq]
    exact List.mem_append_left _ hf)

/-- The fields behind the revision are plain. -/
theorem MemberRecord.plain_back (m : MemberRecord) : ∀ f ∈ m.back, Plain f := fun f hf =>
  m.plain_fields (plain_iff.2 (by rfl) : Plain (text "rnf")) f (by
    rw [m.fieldsWith_eq]
    exact List.mem_append_right _ (List.mem_cons_of_mem _ hf))

/-- The member's line around its revision. -/
theorem MemberRecord.line_eq :
    lineOf m.fields = lineOf m.front ++ 32 :: (m.revision ++ 32 :: lineOf m.back) := by
  have hback : lineOf (m.revision :: m.back) = m.revision ++ 32 :: lineOf m.back := by
    rw [MemberRecord.back, lineOf, List.cons_append, List.intercalate_cons_cons]
    simp
  rw [m.fields_eq, @lineOf_append _ m.front (List.cons_ne_nil _ _) (List.cons_ne_nil _ _), hback]

/-- A newline behind a text without one does not cut that text. -/
theorem splitOn_append_left {a b : Text} (h : 10 ∉ a) :
    (a ++ b).splitOn 10 = (b.splitOn 10).modifyHead (a ++ ·) := by
  induction a with
  | nil =>
    rw [List.nil_append]
    cases b.splitOn 10 <;> rfl
  | cons c a ih =>
    rw [List.mem_cons, not_or] at h
    have hc : (c == 10) = false := by simpa using fun hc => h.1 hc.symm
    rw [List.cons_append, List.splitOn_cons_eq_if_modifyHead, hc, ih h.2]
    cases b.splitOn 10 <;> rfl

/-- A carriage return is dropped behind the last field only. -/
theorem dropReturn_append {a b : Text} : ∃ b', dropReturn (a ++ 32 :: b) = a ++ 32 :: b' := by
  rw [dropReturn]
  split
  · next hlast =>
    cases b using List.reverseRecOn with
    | nil => simp at hlast
    | append_singleton b c =>
      exact ⟨b, by rw [← List.cons_append, ← List.append_assoc, List.dropLast_concat]⟩
  · exact ⟨b, rfl⟩

/-- Whatever the revision holds, the first piece of the member's line begins with the fields before
it. -/
theorem MemberRecord.opening (m : MemberRecord) : ∃ line more,
    (lineOf m.fields).splitOn 10 = line :: ((lineOf m.fields).splitOn 10).tail ∧
      (words isBlank 0 (dropReturn line)).map Word.letters = m.front ++ more := by
  have hinline : Inline (lineOf m.front) := inline_lineOf fun f hf => (m.plain_front f hf).inline
  have hcut : 10 ∉ lineOf m.front ++ [32] := by
    rw [List.mem_append, not_or]
    exact ⟨fun hmem => (hinline 10 hmem).1 rfl, by decide⟩
  have hline : lineOf m.fields = (lineOf m.front ++ [32]) ++
      (m.revision ++ 32 :: lineOf m.back) := by
    rw [m.line_eq]
    simp
  obtain ⟨piece, pieces, hpieces⟩ :=
    List.exists_cons_of_ne_nil (List.splitOn_ne_nil 10 (m.revision ++ 32 :: lineOf m.back))
  have hsplit : (lineOf m.fields).splitOn 10 = (lineOf m.front ++ 32 :: piece) :: pieces := by
    rw [hline, splitOn_append_left hcut, hpieces]
    simp
  obtain ⟨piece', hpiece⟩ := @dropReturn_append (lineOf m.front) piece
  refine ⟨_, (words isBlank (0 + (lineOf m.front).length + 1) piece').map Word.letters,
    by rw [hsplit]; rfl, ?_⟩
  rw [hpiece, words_append_blank rfl, List.map_append, letters_lineOf m.plain_front]

/-- An identifier that was written is the one that is read. -/
theorem readId_eq {tag : IdTag} {tokens : List Token} {i : ℕ} {id : BasicId tag}
    (h : (tokens.map Word.letters)[i]? = some id.toText) :
    Ends (fun _ => True) (fun id' => id' = id) (readId tokens i : Outcome (BasicId tag)) := by
  refine ends_iff.2 ⟨fun id' hread => ?_, fun _ _ => trivial⟩
  rw [readId, readField_eq_ok, h] at hread
  obtain ⟨t, ht, hparse⟩ := hread
  cases ht
  rw [blankToEmpty_toText, parse_token_eq_ok] at hparse
  exact hparse.2

/-- A member's line that is read in any way is read with the member's rack. -/
theorem parseMember_front {tokens : List Token} {more : List Text}
    (h : tokens.map Word.letters = m.front ++ more) :
    Ends (fun _ => True) (fun q => ∃ m', q = p.addMember m' ∧ m'.rack = m.rack ∧ m'.capacity = [])
      (p.parseMember tokens) := by
  refine Ends.skip fun _ => Ends.skip fun _ =>
    (readId_eq (by rw [h]; rfl)).bind fun rack hrack => ?_
  repeat refine Ends.skip fun _ => ?_
  exact ⟨_, rfl, hrack, rfl⟩

/-- A member's line that is read has as many words as it should. -/
theorem parseMember_length {tokens : List Token} :
    Ends (fun _ => True) (fun _ => tokens.length = 21) (p.parseMember tokens) := by
  iterate 18 refine Ends.skip fun _ => ?_
  have hprov : Ends (fun _ => True) (fun _ => 17 + 4 ≤ tokens.length) (parseProv tokens 17) :=
    TextParser.ends_ensure fun hneeded => by
      repeat refine Ends.skip fun _ => ?_
      exact hneeded
  refine hprov.bind fun provenance hneeded => ?_
  refine TextParser.ends_ensure fun hallowed => ?_
  exact Nat.le_antisymm hallowed hneeded

/-- The first piece of a member's line adds a member with its rack. -/
theorem take_opening {more : List Text}
    (hwords : (words isBlank 0 (dropReturn line)).map Word.letters = m.front ++ more)
    (h : p.take line = .ok q) :
    ∃ m', q = p.addMember m' ∧ m'.rack = m.rack ∧ m'.capacity = [] := by
  rw [TextParser.take, if_neg (by rintro hnone; rw [hnone] at hwords; cases hwords),
    handleLine_member (by rw [hwords]; rfl)] at h
  exact (parseMember_front hwords).of_ok h

/-- No line of a rack ends in a carriage return. -/
theorem dropReturn_fields : dropReturn (lineOf m.fields) = lineOf m.fields := by
  have hinline : Inline (lineOf m.back) := inline_lineOf fun f hf => (m.plain_back f hf).inline
  rw [dropReturn, if_neg]
  intro hlast
  have hmem : 13 ∈ 32 :: lineOf m.back := by
    rw [m.line_eq, ← List.cons_append, ← List.append_assoc,
      List.getLast?_append_of_ne_nil _ (List.cons_ne_nil _ _)] at hlast
    exact List.mem_of_getLast? hlast
  rcases List.mem_cons.1 hmem with h32 | hmem
  · exact absurd h32 (by decide)
  · exact (hinline 13 hmem).2 rfl

/-- The words of a member's whole line are its fields, with any number of words for the revision. -/
theorem words_fields : ∃ revision, (words isBlank 0 (lineOf m.fields)).map Word.letters =
    m.front ++ (revision ++ m.back) := by
  refine ⟨(words isBlank (0 + (lineOf m.front).length + 1) m.revision).map Word.letters, ?_⟩
  rw [m.line_eq, words_append_blank rfl, words_append_blank rfl, List.map_append, List.map_append,
    letters_lineOf m.plain_front, letters_lineOf m.plain_back]

/-- A member's whole line is read, if at all, with one word for its revision. -/
theorem take_fields (h : p.take (lineOf m.fields) = .ok q) :
    ∃ revision, q = p.addMember (m.head revision) := by
  obtain ⟨revision, hwords⟩ := @words_fields m
  rw [TextParser.take, dropReturn_fields,
    if_neg (by rintro hnone; rw [hnone] at hwords; cases hwords),
    handleLine_member (by rw [hwords]; rfl)] at h
  have hlength := congrArg List.length hwords
  rw [List.length_map, parseMember_length.of_ok h, List.length_append,
    List.length_append] at hlength
  obtain ⟨word, rfl⟩ : ∃ word, revision = [word] := by
    rw [← List.length_eq_one_iff]
    change 21 = 7 + (revision.length + 13) at hlength
    omega
  exact ⟨word, ((parseMember_fields hwords).1 h).2.2⟩

/-! ## The lines behind it -/

/-- The parser has read a member on top of what it had, and no other record. -/
structure At (base : TextParser) (m : MemberRecord) (p : TextParser) : Prop where
  members : p.snapshot.members = base.snapshot.members ++ [m]
  links : p.snapshot.links = base.snapshot.links
  routes : p.snapshot.routes = base.snapshot.routes
  domains : p.snapshot.domains = base.snapshot.domains
  obligations : p.snapshot.obligations = base.snapshot.obligations
  current : p.current = .member ∨ p.current = .snapshot

/-- A member line makes its rack the last one. -/
theorem At.addMember : At p m (p.addMember m) := ⟨rfl, rfl, rfl, rfl, rfl, .inl rfl⟩

/-- A line that begins no record changes neither the member's rack nor its claims. -/
theorem At.step (h : At base m p) (hline : opensRecord line = false) (htake : p.take line = .ok q) :
    ∃ m', At base m' q ∧ m'.rack = m.rack ∧ m'.capacity = m.capacity := by
  rcases take_brings htake with ⟨-, rfl⟩ | ⟨w, hw, hbrings⟩
  · exact ⟨m, h, rfl, rfl⟩
  have hrecord : w ∉ recordWords := by simpa [opensRecord, hw] using hline
  cases hbrings with
  | within word members rack capacity =>
    obtain ⟨rfl, rfl⟩ := List.append_singleton_inj.1 (h.members.symm.trans members)
    exact ⟨_, ⟨rfl, h.links, h.routes, h.domains, h.obligations, h.current⟩, rack, capacity⟩
  | header word members links routes domains obligations current =>
    refine ⟨m, ⟨members.trans h.members, links.trans h.links, routes.trans h.routes,
      domains.trans h.domains, obligations.trans h.obligations, ?_⟩, rfl, rfl⟩
    rcases current with hsame | hsnapshot
    · rw [hsame]
      exact h.current
    · exact .inr hsnapshot
  | elsewhere word current =>
    rcases h.current with hmember | hsnapshot
    · exact absurd hmember current.1
    · exact absurd hsnapshot current.2
  | _ => exact absurd (by decide) hrecord

/-- Lines that open no record leave the rack the last one, with its identifier and its claims. -/
theorem At.run (h : At base m p) (hlines : ∀ line ∈ lines, opensRecord line = false)
    (hfold : lines.foldlM TextParser.take p = .ok q) :
    ∃ m', At base m' q ∧ m'.rack = m.rack ∧ m'.capacity = m.capacity := by
  induction lines generalizing m p with
  | nil =>
    cases hfold
    exact ⟨m, h, rfl, rfl⟩
  | cons line lines ih =>
    rw [List.foldlM_cons, bind_eq_ok] at hfold
    obtain ⟨next, htake, hrest⟩ := hfold
    rw [List.forall_mem_cons] at hlines
    obtain ⟨m', hnext, hrack, hcapacity⟩ := h.step hlines.1 htake
    obtain ⟨m'', hend, hrack', hcapacity'⟩ := ih hnext hlines.2 hrest
    exact ⟨m'', hend, hrack'.trans hrack, hcapacity'.trans hcapacity⟩

/-- A claim goes to the member, wherever the lines before it have led the parser. -/
theorem At.claim {claim : CapacityClaim} (h : At base m p)
    (htake : p.take (lineOf claim.fields) = .ok q) :
    At base { m with capacity := m.capacity ++ [claim.reread] } q := by
  obtain ⟨more, hwords, -⟩ :=
    words_free (d := claim.provenance.detail) claim.plain_fields (List.cons_ne_nil _ _)
  have hfirst : firstWord (lineOf claim.fields) = some (text "+capacity") :=
    firstWord_inline (inline_free claim.plain_fields) hwords
  have hmember : p.current = .member := by
    rcases take_brings htake with ⟨hnone, -⟩ | ⟨w, hw, hbrings⟩
    · rw [hfirst] at hnone
      cases hnone
    · rw [hfirst] at hw
      generalize hword : text "+capacity" = word at hw
      cases hw
      cases hbrings with
      | claim claim current => exact current
      | within hno => exact absurd (hword ▸ by decide) hno
      | header hno => exact absurd (hword ▸ by decide) hno
      | elsewhere hno => exact absurd (hword ▸ by decide) hno
      | _ => exact absurd hword (by decide)
  have hparser : p = TextParser.addMember
      { snapshot := { p.snapshot with members := base.snapshot.members } } m := by
    cases p with
    | mk snapshot current =>
      cases hmember
      cases snapshot
      have hmembers := h.members
      cases hmembers
      rfl
  rw [hparser] at htake
  obtain ⟨-, rfl⟩ := take_claim.1 htake
  exact ⟨rfl, h.links, h.routes, h.domains, h.obligations, .inl rfl⟩

/-- The lines of claims add them to the rack. -/
theorem At.claims {claims : List CapacityClaim} (h : At base m p)
    (hfold : (claims.map fun claim => lineOf claim.fields).foldlM TextParser.take p = .ok q) :
    At base { m with capacity := m.capacity ++ claims.map CapacityClaim.reread } q := by
  induction claims generalizing m p with
  | nil =>
    cases hfold
    simpa using h
  | cons claim claims ih =>
    rw [List.map_cons, List.foldlM_cons, bind_eq_ok] at hfold
    obtain ⟨next, htake, hrest⟩ := hfold
    simpa using ih (h.claim htake) hrest

/-- Claims that are read back differ in their texts only. -/
theorem capacity_reread {claims : List CapacityClaim} :
    (claims.map CapacityClaim.reread).map CapacityClaim.bare = claims.map CapacityClaim.bare := by
  rw [List.map_map]
  rfl

/-- A rack that is read back differs in its texts only. -/
theorem bare_reread {revision : Text} : (m.reread revision).bare = m.bare := by
  simp only [MemberRecord.bare, MemberRecord.reread, capacity_reread]
  rfl

/-- A revision of a schema on one line is on one line. -/
theorem revision_not_mem (h : 10 ∉ m.rnfSchema) : 10 ∉ m.revision := by
  rw [MemberRecord.revision]
  split
  · decide
  · exact h

/-- A member whose own line is not broken is read back but for free text. -/
theorem take_whole (hrevision : 10 ∉ m.rnfSchema)
    (h : m.lines.foldlM TextParser.take p = .ok q) : ∃ m', q = p.addMember m' ∧ m.Same m' := by
  have hinline : 10 ∉ lineOf m.fields := by
    have hfront : Inline (lineOf m.front) := inline_lineOf fun f hf => (m.plain_front f hf).inline
    have hback : Inline (lineOf m.back) := inline_lineOf fun f hf => (m.plain_back f hf).inline
    rw [m.line_eq]
    simp only [List.mem_append, List.mem_cons, not_or]
    exact ⟨fun hmem => (hfront 10 hmem).1 rfl, by decide, revision_not_mem hrevision, by decide,
      fun hmem => (hback 10 hmem).1 rfl⟩
  rw [MemberRecord.lines, List.splitOn_eq_singleton hinline, List.singleton_append,
    List.foldlM_cons, bind_eq_ok] at h
  obtain ⟨next, hline, hrest⟩ := h
  obtain ⟨revision, rfl⟩ := take_fields hline
  obtain ⟨-, rfl⟩ := take_tailLines.1 hrest
  exact ⟨_, rfl, rfl, capacity_reread, fun _ => bare_reread⟩

/-- The lines of a member but the first one and those of its claims. -/
def MemberRecord.inner (m : MemberRecord) : List Text :=
  ((lineOf m.fields).splitOn 10).tail ++ (freeLines "+desc" m.provenance.detail ++
    (m.failureDomains.map fun id => lineOf [text "+domain", id.toText]) ++
    m.ports.map fun port => lineOf [text "+port", port.toText])

/-- The lines within a rack's own that open a record. -/
theorem MemberRecord.countP_inner : m.inner.countP opensRecord =
    ((lineOf m.fields).splitOn 10).tail.countP opensRecord := by
  have hdomains : (m.failureDomains.map fun id => lineOf [text "+domain", id.toText]).countP
      opensRecord = 0 := by
    have hcount := @countP_listed (text "+domain") _ _ m.failureDomains
      fun id => opensRecord_plain (plain_listed (plain_iff.2 (by rfl)) id)
    rwa [if_neg (by decide)] at hcount
  have hports : (m.ports.map fun port => lineOf [text "+port", port.toText]).countP
      opensRecord = 0 := by
    have hcount := @countP_listed (text "+port") _ _ m.ports
      fun port => opensRecord_plain (plain_listed (plain_iff.2 (by rfl)) port)
    rwa [if_neg (by decide)] at hcount
  have hfree : (freeLines "+desc" m.provenance.detail).countP opensRecord = 0 :=
    countP_freeLines (plain_iff.2 (by rfl)) (by decide)
  rw [MemberRecord.inner, List.countP_append, List.countP_append, List.countP_append,
    hfree, hdomains,
    hports]
  rfl

/-- The lines of a rack: one with its first fields, those its revision makes, and its claims. -/
theorem MemberRecord.lines_eq : ∃ line more,
    m.lines = line :: (m.inner ++ m.capacity.map fun claim => lineOf claim.fields) ∧
      (words isBlank 0 (dropReturn line)).map Word.letters = m.front ++ more := by
  obtain ⟨line, more, hsplit, hwords⟩ := m.opening
  refine ⟨line, more, ?_, hwords⟩
  rw [MemberRecord.lines, hsplit, MemberRecord.inner, MemberRecord.tailLines]
  simp

/-- A member is read back if no line that its revision breaks off begins a record. -/
theorem take_memberLines
    (hclean : ∀ line ∈ ((lineOf m.fields).splitOn 10).tail, opensRecord line = false)
    (h : m.lines.foldlM TextParser.take p = .ok q) : ∃ m', At p m' q ∧ m.Same m' := by
  by_cases hrevision : 10 ∈ m.rnfSchema
  · obtain ⟨line, more, hlines, hwords⟩ := m.lines_eq
    have hinner : ∀ line ∈ m.inner, opensRecord line = false := by
      have hnone : m.inner.countP opensRecord = 0 := by
        rw [m.countP_inner, List.countP_eq_zero]
        exact fun line hline => Bool.not_eq_true _ ▸ hclean line hline
      exact fun line hline => Bool.eq_false_iff.2 (List.countP_eq_zero.1 hnone line hline)
    rw [hlines, List.foldlM_cons, bind_eq_ok] at h
    obtain ⟨next, hline, hrest⟩ := h
    rw [List.foldlM_append, bind_eq_ok] at hrest
    obtain ⟨last, hmiddle, hclaims⟩ := hrest
    obtain ⟨m₁, rfl, hrack, hcapacity⟩ := take_opening hwords hline
    obtain ⟨m₂, hlast, hrack', hcapacity'⟩ := At.addMember.run hinner hmiddle
    refine ⟨_, hlast.claims hclaims, hrack'.trans hrack, ?_, fun hno => absurd hrevision hno⟩
    rw [hcapacity', hcapacity, List.nil_append, capacity_reread]
  · obtain ⟨m', rfl, hsame⟩ := take_whole hrevision h
    exact ⟨m', At.addMember, hsame⟩

/-- A member's lines begin one record, one more for each claim, and those its revision holds. -/
theorem MemberRecord.countP_lines : m.lines.countP opensRecord =
    1 + ((lineOf m.fields).splitOn 10).tail.countP opensRecord + m.capacity.length := by
  obtain ⟨line, more, hlines, hwords⟩ := m.lines_eq
  have hopens : opensRecord line = true := by
    rw [opensRecord, firstWord, hwords]
    change decide (text "member" ∈ recordWords) = true
    decide
  have hclaims : (m.capacity.map fun claim => lineOf claim.fields).countP opensRecord =
      m.capacity.length := by
    have hcount := @countP_listed (text "+capacity") _ CapacityClaim.fields m.capacity
      fun claim => opensRecord_free claim.plain_fields
    rwa [if_pos (by decide)] at hcount
  rw [hlines, List.countP_cons, List.countP_append, m.countP_inner, hclaims, hopens, if_pos rfl]
  omega

end Member

/-! ## The other records -/

section Others
variable {p q : TextParser}

/-- Records whose lines add them one by one are added as a list. -/
theorem foldlM_flatMap {ρ : Type} {render : ρ → List Text}
    {add : PodSnapshot → List ρ → PodSnapshot}
    (hnil : ∀ s, add s [] = s) (hcons : ∀ s x xs, add (add s [x]) xs = add s (x :: xs))
    (hstep : ∀ p x q, (render x).foldlM TextParser.take p = .ok q →
      q.snapshot = add p.snapshot [x]) :
    ∀ {xs : List ρ} {p q : TextParser}, (xs.flatMap render).foldlM TextParser.take p = .ok q →
      q.snapshot = add p.snapshot xs
  | [], p, q, h => by
    cases h
    rw [hnil]
  | x :: xs, p, q, h => by
    rw [List.flatMap_cons, List.foldlM_append, bind_eq_ok] at h
    obtain ⟨next, hfirst, hrest⟩ := h
    rw [foldlM_flatMap hnil hcons hstep hrest, hstep p x next hfirst, hcons]

/-- Reading the lines of links adds the links. -/
theorem fold_links {links : List LinkRecord}
    (h : (links.flatMap LinkRecord.lines).foldlM TextParser.take p = .ok q) :
    q.snapshot = { p.snapshot with
      links := p.snapshot.links ++ links.map LinkRecord.reread } := by
  refine @foldlM_flatMap _ _
    (fun s links => { s with links := s.links ++ links.map LinkRecord.reread })
    (by simp) (by simp) (fun p l q hlines => ?_) links p q h
  obtain ⟨-, -, rfl⟩ := take_linkLines.1 hlines
  rfl

/-- Reading the lines of domains adds the domains. -/
theorem fold_domains {domains : List FailureDomainRecord}
    (h : (domains.flatMap FailureDomainRecord.lines).foldlM TextParser.take p = .ok q) :
    q.snapshot = { p.snapshot with
      domains := p.snapshot.domains ++ domains.map FailureDomainRecord.reread } := by
  refine @foldlM_flatMap _ _
    (fun s domains => { s with domains := s.domains ++ domains.map FailureDomainRecord.reread })
    (by simp) (by simp) (fun p d q hlines => ?_) domains p q h
  obtain ⟨-, -, -, rfl⟩ := take_domainLines.1 hlines
  rfl

/-- Reading the lines of obligations adds the obligations. -/
theorem fold_obligations {obligations : List Obligation}
    (h : (obligations.flatMap Obligation.lines).foldlM TextParser.take p = .ok q) :
    q.snapshot = { p.snapshot with
      obligations := p.snapshot.obligations ++ obligations.map Obligation.reread } := by
  refine @foldlM_flatMap _ _
    (fun s obligations =>
      { s with obligations := s.obligations ++ obligations.map Obligation.reread })
    (by simp) (by simp) (fun p o q hlines => ?_) obligations p q h
  obtain ⟨-, -, -, -, rfl⟩ := take_obligationLines.1 hlines
  rfl

/-- A route's line is never read. -/
theorem take_route {r : RouteEvidence} : p.take (lineOf r.fields) ≠ .ok q := by
  intro h
  have hwords : (words isBlank 0 (lineOf r.fields)).map Word.letters = r.fields :=
    letters_lineOf r.plain_fields
  rw [take_eq (inline_lineOf fun f hf => (r.plain_fields f hf).inline) hwords,
    TextParser.handleLine,
    handleLine_eq (by rw [hwords]; rfl)] at h
  rw [ite_skip (by decide) (ite_skip (by decide) (ite_skip (by decide) (ite_skip (by decide)
    (ite_skip (by decide) (if_pos rfl)))))] at h
  exact TextParser.parseRoute_refuses.of_ok h

/-- The lines of a route are not read back. -/
theorem fold_routes {routes : List RouteEvidence}
    (h : (routes.flatMap RouteEvidence.lines).foldlM TextParser.take p = .ok q) :
    routes = [] ∧ q = p := by
  cases routes with
  | nil =>
    cases h
    exact ⟨rfl, rfl⟩
  | cons r routes =>
    rw [List.flatMap_cons, RouteEvidence.lines, List.cons_append, List.cons_append,
      List.foldlM_cons,
      bind_eq_ok] at h
    obtain ⟨next, hline, -⟩ := h
    exact absurd hline take_route

end Others

/-! ## The whole snapshot -/

section Snapshot
variable {s s' : PodSnapshot} {p q : TextParser}

/-- The parser has read members on top of what it had, and no other record. -/
structure Added (p : TextParser) (members : List MemberRecord) (q : TextParser) : Prop where
  members : q.snapshot.members = p.snapshot.members ++ members
  links : q.snapshot.links = p.snapshot.links
  routes : q.snapshot.routes = p.snapshot.routes
  domains : q.snapshot.domains = p.snapshot.domains
  obligations : q.snapshot.obligations = p.snapshot.obligations

/-- Reading the lines of racks whose revisions open no record adds the racks. -/
theorem fold_members {members : List MemberRecord}
    (hclean : ∀ m ∈ members, ∀ line ∈ ((lineOf m.fields).splitOn 10).tail, opensRecord line = false)
    (h : (members.flatMap MemberRecord.lines).foldlM TextParser.take p = .ok q) :
    ∃ members', Added p members' q ∧ List.Forall₂ MemberRecord.Same members members' := by
  induction members generalizing p with
  | nil =>
    cases h
    exact ⟨[], ⟨(List.append_nil _).symm, rfl, rfl, rfl, rfl⟩, .nil⟩
  | cons m members ih =>
    rw [List.flatMap_cons, List.foldlM_append, bind_eq_ok] at h
    obtain ⟨next, hfirst, hrest⟩ := h
    rw [List.forall_mem_cons] at hclean
    obtain ⟨m', hat, hsame⟩ := take_memberLines hclean.1 hfirst
    obtain ⟨members', hadded, hall⟩ := ih hclean.2 hrest
    refine ⟨m' :: members', ⟨?_, hadded.links.trans hat.links, hadded.routes.trans hat.routes,
      hadded.domains.trans hat.domains, hadded.obligations.trans hat.obligations⟩, .cons hsame hall⟩
    rw [hadded.members, hat.members, List.append_assoc, List.singleton_append]

/-- The header opens no record. -/
theorem countP_headLines (h : s.schema = snapshotSchema) : s.headLines.countP opensRecord = 0 := by
  have hname : (if s.schema.isEmpty then snapshotSchema else s.schema) = snapshotSchema := by
    rw [h]
    exact ite_self _
  have hschema : opensRecord (lineOf [text "schema", snapshotSchema]) = false := by decide +kernel
  have hpod : opensRecord (lineOf [text "pod", s.pod.toText]) = false :=
    opensRecord_plain (plain_listed (plain_iff.2 (by rfl)) s.pod)
  have hobserved : opensRecord (lineOf [text "observed-at", decimalInt s.observedAt.toInt]) =
      false :=
    opensRecord_plain (by
      simp [Plain.decimalInt, (plain_iff.2 (by rfl) : Plain (text "observed-at"))])
  have hprov : opensRecord (lineOf (text "prov" :: s.provenance.fields)) = false :=
    opensRecord_plain (List.forall_mem_cons.2 ⟨plain_iff.2 (by rfl), s.provenance.plain_fields⟩)
  have hdetail : (freeLines "+detail" s.provenance.detail).countP opensRecord = 0 :=
    countP_freeLines (plain_iff.2 (by rfl)) (by decide)
  rw [PodSnapshot.headLines, List.countP_append, hdetail, hname]
  simp only [List.countP_cons, List.countP_nil, hschema, hpod, hobserved, hprov]
  rfl

/-- Records with one line each that begins a record. -/
theorem countP_each {ρ : Type} {render : ρ → List Text} {l : List ρ}
    (h : ∀ a, (render a).countP opensRecord = 1) :
    (l.flatMap render).countP opensRecord = l.length := by
  induction l with
  | nil => rfl
  | cons a l ih => rw [List.flatMap_cons, List.countP_append, ih, h, List.length_cons, Nat.add_comm]

/-- A link opens one record. -/
theorem LinkRecord.countP_lines (l : LinkRecord) : l.lines.countP opensRecord = 1 := by
  have hopens : opensRecord (lineOf l.fields) = true := opensRecord_plain l.plain_fields
  rw [LinkRecord.lines, List.countP_cons, hopens,
    countP_freeLines (plain_iff.2 (by rfl)) (by decide)]
  rfl

/-- A domain opens one record. -/
theorem FailureDomainRecord.countP_lines (d : FailureDomainRecord) :
    d.lines.countP opensRecord = 1 := by
  have hopens : opensRecord (lineOf d.fields) = true := opensRecord_free d.plain_fields
  have hmembers := @countP_listed (text "+member") _ _ d.members
    fun rack => opensRecord_plain (plain_listed (plain_iff.2 (by rfl)) rack)
  rw [if_neg (by decide)] at hmembers
  rw [FailureDomainRecord.lines, List.cons_append, List.countP_cons, List.countP_append, hopens,
    countP_freeLines (plain_iff.2 (by rfl)) (by decide), hmembers]
  rfl

/-- An obligation opens one record. -/
theorem Obligation.countP_lines (o : Obligation) : o.lines.countP opensRecord = 1 := by
  have hopens : opensRecord (lineOf o.fields) = true := opensRecord_free o.plain_fields
  have hracks := @countP_listed (text "+rack") _ _ o.protectedRacks
    fun rack => opensRecord_plain (plain_listed (plain_iff.2 (by rfl)) rack)
  have hrequirements := @countP_listed (text "+require") _ CapacityRequirement.fields o.requirements
    fun requirement => opensRecord_plain requirement.plain_fields
  rw [if_neg (by decide)] at hracks hrequirements
  rw [Obligation.lines, List.cons_append, List.cons_append, List.countP_cons, List.countP_append,
    List.countP_append, hopens, countP_freeLines (plain_iff.2 (by rfl)) (by decide), hracks,
    hrequirements]
  rfl

/-- The lines that begin records and stand in the revisions. -/
def PodSnapshot.injected (s : PodSnapshot) : ℕ :=
  (s.members.map fun m => ((lineOf m.fields).splitOn 10).tail.countP opensRecord).sum

/-- A snapshot is clean when its revisions open no record. -/
theorem PodSnapshot.clean_iff : s.Clean ↔ s.injected = 0 := by
  simp only [PodSnapshot.Clean, PodSnapshot.injected, List.sum_eq_zero_iff, List.forall_mem_map,
    List.countP_eq_zero, Bool.not_eq_true]

/-- The records that the lines of racks open. -/
theorem countP_members {members : List MemberRecord} :
    (members.flatMap MemberRecord.lines).countP opensRecord =
      members.length + (members.map fun m => m.capacity.length).sum +
        (members.map fun m => ((lineOf m.fields).splitOn 10).tail.countP opensRecord).sum := by
  induction members with
  | nil => rfl
  | cons m members ih =>
    simp only [List.flatMap_cons, List.countP_append, ih, m.countP_lines, List.length_cons,
      List.map_cons, List.sum_cons]
    omega

/-- The lines of a rendered snapshot begin its records and those that its revisions hold. -/
theorem countP_bodyLines (hschema : s.schema = snapshotSchema) (hroutes : s.routes = []) :
    s.bodyLines.countP opensRecord = s.weight + s.injected := by
  rw [PodSnapshot.bodyLines]
  simp only [List.countP_append, countP_headLines hschema, countP_members, hroutes,
    countP_each LinkRecord.countP_lines, countP_each FailureDomainRecord.countP_lines,
    countP_each Obligation.countP_lines, PodSnapshot.weight, PodSnapshot.injected, List.flatMap_nil,
    List.countP_nil]
  omega

/-- What is read of the lines before the first record is no record. -/
theorem fold_headLines (hschema : s.schema = snapshotSchema)
    (h : s.headLines.foldlM TextParser.take .opened = .ok q) :
    q.snapshot.members = [] ∧ q.snapshot.links = [] ∧ q.snapshot.routes = [] ∧
      q.snapshot.domains = [] ∧ q.snapshot.obligations = [] := by
  have hweight : q.snapshot.weight = 0 := by
    rw [foldlM_weight h, countP_headLines hschema]
    rfl
  have hroutes : q.snapshot.routes.length = 0 := foldlM_routes h
  rw [PodSnapshot.weight] at hweight
  and_intros <;> rw [← List.length_eq_zero_iff] <;> omega

/-- A clean snapshot that is read back has its records again. -/
theorem same_of_clean (hschema : s.schema = snapshotSchema) (hclean : s.Clean)
    (h : s.bodyLines.foldlM TextParser.take .opened = .ok q) : SameRecords s q.snapshot := by
  rw [PodSnapshot.bodyLines] at h
  simp only [List.foldlM_append, bind_eq_ok] at h
  obtain ⟨p₅, ⟨p₄, ⟨p₃, ⟨p₂, ⟨p₁, hhead, hmembers⟩, hlinks⟩, hroutes⟩, hdomains⟩, hobligations⟩ := h
  obtain ⟨hm, hl, hr, hd, ho⟩ := fold_headLines hschema hhead
  obtain ⟨members', hadded, hsame⟩ := fold_members hclean hmembers
  obtain ⟨hnone, rfl⟩ := fold_routes hroutes
  rw [fold_obligations hobligations, fold_domains hdomains, fold_links hlinks]
  refine ⟨?_, ?_, ?_, ?_, ?_⟩
  · change List.Forall₂ _ _ p₂.snapshot.members
    rwa [hadded.members, hm, List.nil_append]
  · change (p₂.snapshot.links ++ _).map _ = _
    rw [hadded.links, hl, List.nil_append, List.map_map]
    rfl
  · change p₂.snapshot.routes = _
    rw [hadded.routes, hr, hnone]
  · change (p₂.snapshot.domains ++ _).map _ = _
    rw [hadded.domains, hd, List.nil_append, List.map_map]
    rfl
  · change (p₂.snapshot.obligations ++ _).map _ = _
    rw [hadded.obligations, ho, List.nil_append, List.map_map]
    rfl

/-- Snapshots with the same records weigh the same. -/
theorem SameRecords.weight (h : SameRecords s s') : s'.weight = s.weight := by
  have hcapacity : (s'.members.map fun m => m.capacity.length) =
      s.members.map fun m => m.capacity.length := by
    have hmembers := h.members
    generalize s.members = members at hmembers
    generalize s'.members = members' at hmembers
    induction hmembers with
    | nil => rfl
    | cons hsame _ ih =>
      have hlength := congrArg List.length hsame.capacity
      rw [List.length_map, List.length_map] at hlength
      rw [List.map_cons, List.map_cons, ih, hlength]
  have hlinks := congrArg List.length h.links
  have hdomains := congrArg List.length h.domains
  have hobligations := congrArg List.length h.obligations
  rw [List.length_map, List.length_map] at hlinks hdomains hobligations
  rw [PodSnapshot.weight, PodSnapshot.weight, hcapacity, hlinks, hdomains, hobligations,
    h.members.length_eq]

/-- A snapshot that is read back with its records had none in its strings. -/
theorem clean_of_same (hschema : s.schema = snapshotSchema) (hsame : SameRecords s s')
    (h : s.bodyLines.foldlM TextParser.take .opened = .ok q) (hq : q.snapshot = s') : s.Clean := by
  have hroutes : s.routes = [] := by
    have hlength := foldlM_routes h
    rw [hq, hsame.routes] at hlength
    exact List.length_eq_zero_iff.1 hlength
  have hweight : s'.weight = 0 + s.bodyLines.countP opensRecord := by
    rw [← hq]
    exact foldlM_weight h
  rw [countP_bodyLines hschema hroutes, hsame.weight] at hweight
  rw [PodSnapshot.clean_iff]
  omega

/-- An accepted snapshot whose text is read back has its records again just when none of them begins
in a string. -/
theorem same_records_iff {policy : Policy} (hvalid : s.validate policy = .ok ())
    (h : snapshotFromText s.toText = .ok s') : SameRecords s s' ↔ s.Clean := by
  have hschema := (validate_snapshot_iff.1 hvalid).schema
  obtain ⟨q, hfold, rfl⟩ := fold_of_read hschema h
  exact ⟨fun hsame => clean_of_same hschema hsame hfold rfl,
    fun hclean => same_of_clean hschema hclean hfold⟩

end Snapshot

namespace Sample

/-- The sample pod without its link, whose ports have no names. -/
def unlinked : PodSnapshot := { snapshot with links := [] }

/-- A member whose schema revision ends its own line and begins the line of a failure domain. -/
def forging : MemberRecord where
  rack := rackA
  generation := ⟨1⟩
  digest := digest
  rnfSchema := text "r/1 state joining admin enabled health ok observed 0 prov REAL attested - 0\n"
    ++
    text "fdom forged kind power prov REAL attested - 0"

/-- A snapshot whose revision forges a record. -/
def counterfeit : PodSnapshot := { snapshot with members := [forging], links := [], domains := [] }

end Sample

/-- The sample pod is read back with its records, and the snapshot that holds a line of a failure
domain in a string is not. -/
theorem sample_records : SameRecords Sample.unlinked Sample.unlinked ∧
    ∃ s', snapshotFromText Sample.counterfeit.toText = .ok s' ∧
      ¬ SameRecords Sample.counterfeit s' := by
  refine ⟨(@same_records_iff Sample.unlinked Sample.unlinked {} (by decide +kernel)
    (by decide +kernel)).2 (by decide +kernel), ?_⟩
  have hread : (snapshotFromText Sample.counterfeit.toText).isOk = true := by decide +kernel
  cases hs' : snapshotFromText Sample.counterfeit.toText with
  | error status =>
    rw [hs'] at hread
    cases hread
  | ok s' =>
    have hinjected : ¬ Sample.counterfeit.Clean := by decide +kernel
    exact ⟨s', rfl, mt (@same_records_iff _ _ {} (by decide +kernel) hs').1 hinjected⟩

/-- A snapshot without failure domains is accepted, and one is read back from its text. -/
theorem forged_domain_read : ¬ ∀ (policy : Policy) (s s' : PodSnapshot),
    s.validate policy = .ok () → snapshotFromText s.toText = .ok s' → SameRecords s s' := by
  intro h
  have hvalid : Sample.counterfeit.validate {} = .ok () := by decide +kernel
  have hdomains : (snapshotFromText Sample.counterfeit.toText).map (fun s' => s'.domains.length) =
      .ok 1 := by decide +kernel
  cases hread : snapshotFromText Sample.counterfeit.toText with
  | error fault =>
    rw [hread] at hdomains
    cases hdomains
  | ok s' =>
    rw [hread] at hdomains
    have hone : s'.domains.length = 1 := Except.ok.inj hdomains
    have hlength := congrArg List.length (h {} _ _ hvalid hread).domains
    rw [List.length_map, hone] at hlength
    exact absurd hlength (by decide)

end PodFabric
