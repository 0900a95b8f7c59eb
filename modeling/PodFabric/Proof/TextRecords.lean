import PodFabric.Proof.TextLines

/-!
# Printed records are read back

For each kind of line what the parser makes of it when it was printed: it is accepted if the
identifiers that may not be nil are not, and the record it adds is the printed one without what
other lines hold.
-/

namespace PodFabric

/-- A provenance without its free text. -/
def Provenance.bare (p : Provenance) : Provenance := { p with detail := [] }

namespace TextParser

/-- The parser with a rack read. -/
def addMember (p : TextParser) (m : MemberRecord) : TextParser where
  snapshot := { p.snapshot with members := p.snapshot.members ++ [m] }
  current := .member

/-- The parser with a link read. -/
def addLink (p : TextParser) (l : LinkRecord) : TextParser where
  snapshot := { p.snapshot with links := p.snapshot.links ++ [l] }
  current := .link

/-- The parser with a domain read. -/
def addDomain (p : TextParser) (d : FailureDomainRecord) : TextParser where
  snapshot := { p.snapshot with domains := p.snapshot.domains ++ [d] }
  current := .domain

/-- The parser with an obligation read. -/
def addObligation (p : TextParser) (o : Obligation) : TextParser where
  snapshot := { p.snapshot with obligations := p.snapshot.obligations ++ [o] }
  current := .obligation

end TextParser

section Records
variable {p q : TextParser} {view : Text} {tokens : List Token}

/-! ## Links -/

/-- The identifiers that a link line may not leave out. -/
def LinkRecord.Named (l : LinkRecord) : Prop :=
  l.id ≠ .nil ∧ l.a.rack ≠ .nil ∧ l.a.port ≠ .nil ∧ l.b.rack ≠ .nil ∧ l.b.port ≠ .nil ∧
    l.domain ≠ .nil ∧ l.resource ≠ .nil

/-- A link line is read when there is room and the identifiers are named. -/
theorem parseLink_fields {l : LinkRecord} (h : tokens.map Word.letters = l.fields) :
    p.parseLink tokens = .ok q ↔ p.snapshot.links.length < maxTextItems ∧ l.Named ∧
      q = p.addLink { l with provenance := l.provenance.bare } := by
  have hlength : tokens.length = 31 := by
    rw [← List.length_map Word.letters, h]
    rfl
  have hprov : (tokens.map Word.letters).drop 27 = l.provenance.fields ++ [] := by rw [h]; rfl
  simp only [TextParser.parseLink, bind_eq_ok, ensure_eq_ok, exists_const, readId, readOptionalId,
    readField_eq_ok, keyword_eq_ok, hlength, parseProv_eq_ok hprov, pure_eq_ok]
  simp only [h, LinkRecord.fields, List.cons_append, List.getElem?_cons_succ,
    List.getElem?_cons_zero, Option.some.injEq, exists_eq_left', blankToEmpty_toText,
    parse_token_eq_ok, parse_optional_eq_ok, parseU64_decimal, parseAdmin_toText, parseOper_toText,
    parseI64_decimalInt, Except.ok.injEq, Nat.reduceAdd, Nat.reduceLeDiff, Nat.le_refl, true_and,
    and_true, and_assoc, exists_and_left, exists_eq_left]
  simp only [LinkRecord.Named, and_assoc, eq_comm]
  rfl

/-! ## Members -/

/-- The fields of a member's line with a given token for the schema revision. -/
def MemberRecord.fieldsWith (m : MemberRecord) (revision : Text) : List Text :=
  [text "member", m.rack.toText, "gen", decimal m.generation.value.toNat, "digest", m.digest.toHex,
    "rnf", revision, "state", m.membership.toText, "admin", m.admin.toText, "health",
    m.health.toText, "observed", decimalInt m.observedAt.toInt, "prov"] ++ m.provenance.fields

/-- A member as its own line describes it. -/
def MemberRecord.head (m : MemberRecord) (revision : Text) : MemberRecord :=
  { m with
    rnfSchema := blankToEmpty revision
    failureDomains := []
    capacity := []
    ports := []
    provenance := m.provenance.bare }

/-- A member line is read when there is room and the rack is named. -/
theorem parseMember_fields {m : MemberRecord} {revision : Text}
    (h : tokens.map Word.letters = m.fieldsWith revision) :
    p.parseMember tokens = .ok q ↔ p.snapshot.members.length < maxTextItems ∧ m.rack ≠ .nil ∧
      q = p.addMember (m.head revision) := by
  have hlength : tokens.length = 21 := by
    rw [← List.length_map Word.letters, h]
    rfl
  have hprov : (tokens.map Word.letters).drop 17 = m.provenance.fields ++ [] := by rw [h]; rfl
  simp only [TextParser.parseMember, bind_eq_ok, ensure_eq_ok, exists_const, readId,
    readField_eq_ok, keyword_eq_ok, hlength, parseProv_eq_ok hprov, pure_eq_ok]
  simp only [h, MemberRecord.fieldsWith, List.cons_append, List.getElem?_cons_succ,
    List.getElem?_cons_zero, Option.some.injEq, exists_eq_left', blankToEmpty_toText,
    parse_token_eq_ok, parseU64_decimal, parse_toHex, parseMembership_toText, parseAdmin_toText,
    parseHealth_toText, parseI64_decimalInt, Except.ok.injEq, Nat.reduceAdd, Nat.reduceLeDiff,
    Nat.le_refl, true_and, and_true, and_assoc, exists_and_left, exists_eq_left]
  rw [eq_comm (b := q)]
  rfl

/-! ## Failure domains and obligations -/

/-- The detail is the rest of the line. -/
theorem readDetail_eq {i : ℕ} {r : Text} {prov : Provenance}
    (h : restOfLine view tokens i = .ok r) :
    TextParser.readDetail view tokens i prov.bare = .ok { prov with detail := r } := by
  rw [TextParser.readDetail]
  split
  · rw [h]
    rfl
  · next hi =>
    rw [restOfLine, if_pos (by omega)] at h
    cases h
    rfl

/-- A failure domain as its own line describes it. -/
def FailureDomainRecord.head (d : FailureDomainRecord) (detail : Text) : FailureDomainRecord :=
  { d with members := [], description := [], provenance := { d.provenance with detail } }

/-- A domain line is read when there is room and the domain is named. -/
theorem parseDomain_fields {d : FailureDomainRecord} {more : List Text} {detail : Text}
    (h : tokens.map Word.letters =
      [text "fdom", d.id.toText, "kind", d.kind.toText, "prov"] ++ d.provenance.fields ++ more)
    (hdetail : restOfLine view tokens 9 = .ok detail) :
    p.parseDomain view tokens = .ok q ↔ p.snapshot.domains.length < maxTextItems ∧ d.id ≠ .nil ∧
      q = p.addDomain (d.head detail) := by
  have hlength : tokens.length = 9 + more.length := by
    rw [← List.length_map Word.letters, h, List.length_append]
    rfl
  have hprov : (tokens.map Word.letters).drop 5 = d.provenance.fields ++ more := by rw [h]; rfl
  have hread : ∀ prov', TextParser.readDetail view tokens 9 { d.provenance with detail := [] } =
      .ok prov' ↔ prov' = { d.provenance with detail } := fun prov' => by
    rw [← Provenance.bare, readDetail_eq hdetail, Except.ok.injEq, eq_comm]
  have hshort : 8 ≤ 9 + more.length ∧ 2 + 2 ≤ 9 + more.length ∧ 4 + 4 ≤ 9 + more.length := by omega
  simp only [TextParser.parseDomain, bind_eq_ok, ensure_eq_ok, exists_const, readId,
    readField_eq_ok, keyword_eq_ok, hlength, hshort, parseProv_eq_ok hprov, pure_eq_ok]
  simp only [h, List.cons_append, List.getElem?_cons_succ, List.getElem?_cons_zero,
    Option.some.injEq, exists_eq_left', blankToEmpty_toText, parse_token_eq_ok,
    parseDomainKind_toText, Except.ok.injEq, true_and, and_assoc, exists_and_left, exists_eq_left,
    hread]
  rw [eq_comm (b := q)]
  rfl

/-- An obligation as its own line describes it. -/
def Obligation.head (o : Obligation) (detail : Text) : Obligation :=
  { o with
    description := []
    protectedRacks := []
    requirements := []
    provenance := { o.provenance with detail } }

/-- An obligation line is read when there is room and the obligation is named. -/
theorem parseObligation_fields {o : Obligation} {more : List Text} {detail : Text}
    (h : tokens.map Word.letters = [text "obligation", o.id.toText, "kind", o.kind.toText, "tenant",
      o.tenant.toText, "mandatory", flagText o.mandatory, "domains",
      decimal o.requiredDomains.toNat, "diversity", o.diversityKind.toText, "prov"] ++
        o.provenance.fields ++ more)
    (hdetail : restOfLine view tokens 17 = .ok detail) :
    p.parseObligation view tokens = .ok q ↔
      p.snapshot.obligations.length < maxTextItems ∧ o.id ≠ .nil ∧
        q = p.addObligation (o.head detail) := by
  have hlength : tokens.length = 17 + more.length := by
    rw [← List.length_map Word.letters, h, List.length_append]
    rfl
  have hprov : (tokens.map Word.letters).drop 13 = o.provenance.fields ++ more := by rw [h]; rfl
  have hread : ∀ prov', TextParser.readDetail view tokens 17 { o.provenance with detail := [] } =
      .ok prov' ↔ prov' = { o.provenance with detail } := fun prov' => by
    rw [← Provenance.bare, readDetail_eq hdetail, Except.ok.injEq, eq_comm]
  have hshort : 16 ≤ 17 + more.length ∧ 2 + 2 ≤ 17 + more.length ∧ 4 + 2 ≤ 17 + more.length ∧
      6 + 2 ≤ 17 + more.length ∧ 8 + 2 ≤ 17 + more.length ∧ 10 + 2 ≤ 17 + more.length ∧
      12 + 4 ≤ 17 + more.length := by omega
  have hflag : ((if o.mandatory = true then 1 else 0 : UInt32) ≤ 1) ∧
      decide ((if o.mandatory = true then 1 else 0 : UInt32) = 1) = o.mandatory := by
    cases o.mandatory <;> decide
  simp only [TextParser.parseObligation, bind_eq_ok, ensure_eq_ok, exists_const, readId,
    readOptionalId, readField_eq_ok, keyword_eq_ok, hlength, hshort, parseProv_eq_ok hprov,
    pure_eq_ok]
  simp only [h, List.cons_append, List.getElem?_cons_succ, List.getElem?_cons_zero,
    Option.some.injEq, exists_eq_left', blankToEmpty_toText, parse_token_eq_ok,
    parse_optional_eq_ok, parseObligationKind_toText, parseDomainKind_toText, parseU32_flagText,
    parseU32_decimal, Except.ok.injEq, true_and, and_assoc, exists_and_left, exists_eq_left, hread,
    hflag]
  rw [eq_comm (b := q)]
  rfl

/-! ## Capacity claims -/

/-- A capacity line is read when its identifiers are named. -/
theorem parseCapacity_fields {claim : CapacityClaim} {more : List Text} {detail : Text}
    (h : tokens.map Word.letters = [text "+capacity", claim.resource.toText,
      claim.exclusivity.toText, decimal claim.amount.toNat, decimal claim.reserved.toNat,
      claim.domain.toText] ++ claim.provenance.fields ++ more)
    (hdetail : restOfLine view tokens 10 = .ok detail) :
    p.parseCapacity view tokens = .ok q ↔ claim.resource ≠ .nil ∧ claim.exclusivity ≠ .nil ∧
      claim.domain ≠ .nil ∧ p.withMember (fun m => { m with
        capacity := m.capacity ++
          [{ claim with provenance := { claim.provenance with detail } }] }) = .ok q := by
  have hlength : tokens.length = 10 + more.length := by
    rw [← List.length_map Word.letters, h, List.length_append]
    rfl
  have hprov : (tokens.map Word.letters).drop 6 = claim.provenance.fields ++ more := by rw [h]; rfl
  have hread : ∀ prov', TextParser.readDetail view tokens 10
      { claim.provenance with detail := [] } =
      .ok prov' ↔ prov' = { claim.provenance with detail } := fun prov' => by
    rw [← Provenance.bare, readDetail_eq hdetail, Except.ok.injEq, eq_comm]
  have hshort : 10 ≤ 10 + more.length := by omega
  simp only [TextParser.parseCapacity, bind_eq_ok, ensure_eq_ok, exists_const, readId,
    readField_eq_ok, hlength, hshort, parseProv_eq_ok hprov]
  simp only [h, List.cons_append, List.getElem?_cons_succ, List.getElem?_cons_zero,
    Option.some.injEq, exists_eq_left', blankToEmpty_toText, parse_token_eq_ok, parseU64_decimal,
    Except.ok.injEq, true_and, and_assoc, exists_and_left, exists_eq_left, hread]

end Records

/-! ## One line -/

/-- What the parser makes of a line behind the header that is not an end marker. -/
def TextParser.take (p : TextParser) (line : Text) : Outcome TextParser :=
  if words isBlank 0 (dropReturn line) = [] then .ok p
  else p.handleLine (dropReturn line) (words isBlank 0 (dropReturn line))

/-- A text without line ends. -/
def Inline (t : Text) : Prop := ∀ c ∈ t, c ≠ 10 ∧ c ≠ 13

section Lines
variable {p q : TextParser} {line view w t : Text} {tokens : List Token} {fields : List Text}

/-- Nothing is dropped from a line of printable bytes. -/
theorem dropReturn_inline (h : Inline line) : dropReturn line = line := by
  rw [dropReturn, if_neg]
  intro hlast
  exact (h 13 (List.mem_of_getLast? hlast)).2 rfl

/-- A plain field stays within its line. -/
theorem Plain.inline (h : Plain t) : Inline t := by
  intro c hc
  have hlt := h.2 c hc
  constructor
  · rintro rfl
    exact absurd hlt (by decide)
  · rintro rfl
    exact absurd hlt (by decide)

/-- An escaped text stays within its line. -/
theorem inline_escapeText (t : Text) : Inline (escapeText t) := by
  intro c hc
  rw [escapeText, List.mem_map] at hc
  obtain ⟨a, -, rfl⟩ := hc
  split
  · decide
  · next ha =>
    constructor
    · rintro rfl
      exact ha (.inl (by decide))
    · rintro rfl
      exact ha (.inl (by decide))

/-- Fields that stay within their line make such a line. Induction on the fields. -/
theorem inline_lineOf : ∀ {fields : List Text}, (∀ f ∈ fields, Inline f) → Inline (lineOf fields)
  | [], _ => fun c hc => by cases hc
  | [f], h => by
    rw [lineOf, List.intercalate_singleton]
    exact h f List.mem_cons_self
  | f :: g :: fields, h => by
    have hrest := @inline_lineOf (g :: fields) fun f hf => h f (List.mem_cons_of_mem _ hf)
    intro c hc
    rw [lineOf, List.intercalate_cons_cons, List.append_assoc, List.mem_append] at hc
    rcases hc with hc | hc
    · exact h f List.mem_cons_self c hc
    · rcases List.mem_cons.1 hc with rfl | hc
      · decide
      · exact hrest c hc

/-- Free text behind plain fields stays within its line. -/
theorem inline_free {front : List Text} {d : Text} (h : ∀ f ∈ front, Plain f) :
    Inline (lineOf (front ++ freeField d)) := by
  refine inline_lineOf fun f hf => ?_
  rcases List.mem_append.1 hf with hf | hf
  · exact (h f hf).inline
  · rw [freeField] at hf
    split at hf
    · cases hf
    · rw [List.mem_singleton.1 hf]
      exact inline_escapeText d

/-- A line is dispatched by its first word. -/
theorem take_eq (hline : Inline line)
    (hwords : (words isBlank 0 line).map Word.letters = w :: fields) :
    p.take line = p.handleLine line (words isBlank 0 line) := by
  rw [TextParser.take, dropReturn_inline hline, if_neg]
  intro hnone
  rw [hnone] at hwords
  cases hwords

/-- A line is handled by its first word. -/
theorem handleLine_eq {k : Text → Outcome TextParser}
    (h : (tokens.map Word.letters)[0]? = some w) : (tokenAt tokens 0 >>= k) = k w := by
  rw [tokenAt_eq_ok.2 h]
  rfl

/-- A branch that is not taken is skipped. -/
theorem ite_skip {α : Type} {c : Prop} [Decidable c] {x y z : α} (hc : ¬ c) (h : y = z) :
    (if c then x else y) = z := by
  rw [if_neg hc, h]

section Dispatch

/-- A member line is handled as such. -/
theorem handleLine_member (h : (tokens.map Word.letters)[0]? = some (text "member")) :
    p.handleLine view tokens = p.parseMember tokens := by
  rw [TextParser.handleLine, handleLine_eq h]
  exact ite_skip (by decide) (ite_skip (by decide) (ite_skip (by decide) (if_pos rfl)))

/-- A link line is handled as such. -/
theorem handleLine_link (h : (tokens.map Word.letters)[0]? = some (text "link")) :
    p.handleLine view tokens = p.parseLink tokens := by
  rw [TextParser.handleLine, handleLine_eq h]
  exact ite_skip (by decide) (ite_skip (by decide) (ite_skip (by decide) (ite_skip (by decide)
    (if_pos rfl))))

/-- A domain line is handled as such. -/
theorem handleLine_domain (h : (tokens.map Word.letters)[0]? = some (text "fdom")) :
    p.handleLine view tokens = p.parseDomain view tokens := by
  rw [TextParser.handleLine, handleLine_eq h]
  exact ite_skip (by decide) (ite_skip (by decide) (ite_skip (by decide) (ite_skip (by decide)
    (ite_skip (by decide) (ite_skip (by decide) (if_pos rfl))))))

/-- An obligation line is handled as such. -/
theorem handleLine_obligation (h : (tokens.map Word.letters)[0]? = some (text "obligation")) :
    p.handleLine view tokens = p.parseObligation view tokens := by
  rw [TextParser.handleLine, handleLine_eq h]
  exact ite_skip (by decide) (ite_skip (by decide) (ite_skip (by decide) (ite_skip (by decide)
    (ite_skip (by decide) (ite_skip (by decide) (ite_skip (by decide) (if_pos rfl)))))))

/-- A line that begins with a plus sign continues a record. -/
theorem handleLine_continuation (h : (tokens.map Word.letters)[0]? = some w)
    (hw : w.head? = some 43) : p.handleLine view tokens = p.parseContinuation view w tokens := by
  have hother : ∀ {s : Text}, s.head? ≠ some 43 → ¬ w = s := fun hs heq => hs (heq ▸ hw)
  have hfirst : byteAt w 0 = .ok 43 := by
    cases w with
    | nil => cases hw
    | cons c w =>
      rw [byteAt]
      exact congrArg Except.ok (Option.some.inj hw)
  rw [TextParser.handleLine, handleLine_eq h]
  refine ite_skip (hother (by decide)) (ite_skip (hother (by decide)) (ite_skip (hother (by decide))
    (ite_skip (hother (by decide)) (ite_skip (hother (by decide)) (ite_skip (hother (by decide))
      (ite_skip (hother (by decide)) (ite_skip (hother (by decide)) (ite_skip (hother (by decide))
        ?_))))))))
  simp [hfirst, bind, Except.bind]

end Dispatch

/-! ## Lines of the records -/

/-- The last element is the one that is changed. -/
theorem modifyBack_concat {α : Type} {l : List α} {a : α} {f : α → α} :
    modifyBack (l ++ [a]) f = .ok (l ++ [f a]) := by
  rw [modifyBack, List.getLast?_concat, List.dropLast_concat]

/-- The rack read last is the one that is changed. -/
theorem withMember_addMember {m : MemberRecord} {f : MemberRecord → MemberRecord} :
    (p.addMember m).withMember f = .ok (p.addMember (f m)) := by
  rw [TextParser.withMember, TextParser.addMember, modifyBack_concat]
  rfl

/-- The link read last is the one that is changed. -/
theorem withLink_addLink {l : LinkRecord} {f : LinkRecord → LinkRecord} :
    (p.addLink l).withLink f = .ok (p.addLink (f l)) := by
  rw [TextParser.withLink, TextParser.addLink, modifyBack_concat]
  rfl

/-- The domain read last is the one that is changed. -/
theorem withDomain_addDomain {d : FailureDomainRecord}
    {f : FailureDomainRecord → FailureDomainRecord} :
    (p.addDomain d).withDomain f = .ok (p.addDomain (f d)) := by
  rw [TextParser.withDomain, TextParser.addDomain, modifyBack_concat]
  rfl

/-- The obligation read last is the one that is changed. -/
theorem withObligation_addObligation {o : Obligation} {f : Obligation → Obligation} :
    (p.addObligation o).withObligation f = .ok (p.addObligation (f o)) := by
  rw [TextParser.withObligation, TextParser.addObligation, modifyBack_concat]
  rfl

/-- The fields of a provenance are plain. -/
theorem Provenance.plain_fields (prov : Provenance) : ∀ f ∈ prov.fields, Plain f := by
  simp [Provenance.fields, prov.quality.plain, prov.klass.plain, Plain.ident, Plain.decimal]

/-- The fields of a link are plain. -/
theorem LinkRecord.plain_fields (l : LinkRecord) : ∀ f ∈ l.fields, Plain f := by
  simp only [LinkRecord.fields, List.forall_mem_append, List.forall_mem_cons, List.not_mem_nil,
    false_imp_iff, implies_true, and_true, Plain.ident, Plain.decimal, Plain.decimalInt,
    l.admin.plain, l.oper.plain, true_and]
  refine ⟨?_, l.provenance.plain_fields⟩
  and_intros <;> exact plain_iff.2 (by rfl)

/-- The fields of a rack are plain when its revision is. -/
theorem MemberRecord.plain_fields (m : MemberRecord) {revision : Text} (h : Plain revision) :
    ∀ f ∈ m.fieldsWith revision, Plain f := by
  simp only [MemberRecord.fieldsWith, List.forall_mem_append, List.forall_mem_cons,
    List.not_mem_nil, false_imp_iff, implies_true, and_true, Plain.ident, Plain.decimal,
    Plain.decimalInt, Plain.toHex, m.membership.plain, m.admin.plain, m.health.plain, h, true_and]
  refine ⟨?_, m.provenance.plain_fields⟩
  and_intros <;> exact plain_iff.2 (by rfl)

/-- The fields of a domain are plain. -/
theorem FailureDomainRecord.plain_fields (d : FailureDomainRecord) :
    ∀ f ∈ [text "fdom", d.id.toText, "kind", d.kind.toText, "prov"] ++ d.provenance.fields,
      Plain f := by
  simp only [List.forall_mem_append, List.forall_mem_cons, List.not_mem_nil, false_imp_iff,
    implies_true, and_true, Plain.ident, d.kind.plain, true_and]
  refine ⟨?_, d.provenance.plain_fields⟩
  and_intros <;> exact plain_iff.2 (by rfl)

/-- The fields of an obligation are plain. -/
theorem Obligation.plain_fields (o : Obligation) :
    ∀ f ∈ [text "obligation", o.id.toText, "kind", o.kind.toText, "tenant", o.tenant.toText,
      "mandatory", flagText o.mandatory, "domains", decimal o.requiredDomains.toNat, "diversity",
      o.diversityKind.toText, "prov"] ++ o.provenance.fields, Plain f := by
  simp only [List.forall_mem_append, List.forall_mem_cons, List.not_mem_nil, false_imp_iff,
    implies_true, and_true, Plain.ident, Plain.decimal, plain_flagText, o.kind.plain,
    o.diversityKind.plain, true_and]
  refine ⟨?_, o.provenance.plain_fields⟩
  and_intros <;> exact plain_iff.2 (by rfl)

/-- The fields of a claim are plain. -/
theorem CapacityClaim.plain_fields (claim : CapacityClaim) :
    ∀ f ∈ [text "+capacity", claim.resource.toText, claim.exclusivity.toText,
      decimal claim.amount.toNat, decimal claim.reserved.toNat, claim.domain.toText] ++
        claim.provenance.fields, Plain f := by
  simp only [List.forall_mem_append, List.forall_mem_cons, List.not_mem_nil, false_imp_iff,
    implies_true, and_true, Plain.ident, Plain.decimal]
  exact ⟨plain_iff.2 (by rfl), claim.provenance.plain_fields⟩

/-- The fields of a requirement are plain. -/
theorem CapacityRequirement.plain_fields (requirement : CapacityRequirement) :
    ∀ f ∈ requirement.fields, Plain f := by
  simp only [CapacityRequirement.fields, List.forall_mem_cons, List.not_mem_nil, false_imp_iff,
    implies_true, and_true, Plain.ident, Plain.decimal]
  exact plain_iff.2 (by rfl)

/-- The line of a rack adds it, without what further lines say. -/
theorem take_member {m : MemberRecord} {revision : Text} (hrevision : Plain revision) :
    p.take (lineOf (m.fieldsWith revision)) = .ok q ↔
      p.snapshot.members.length < maxTextItems ∧ m.rack ≠ .nil ∧
        q = p.addMember (m.head revision) := by
  have hplain := m.plain_fields hrevision
  have hwords : (words isBlank 0 (lineOf (m.fieldsWith revision))).map Word.letters =
    m.fieldsWith revision := letters_lineOf hplain
  rw [take_eq (inline_lineOf fun f hf => (hplain f hf).inline) hwords,
    handleLine_member (by rw [hwords]; rfl), parseMember_fields hwords]

/-- The line of a link adds it, without what further lines say. -/
theorem take_link {l : LinkRecord} : p.take (lineOf l.fields) = .ok q ↔
    p.snapshot.links.length < maxTextItems ∧ l.Named ∧
      q = p.addLink { l with provenance := l.provenance.bare } := by
  have hplain := l.plain_fields
  have hwords : (words isBlank 0 (lineOf l.fields)).map Word.letters = l.fields :=
    letters_lineOf hplain
  rw [take_eq (inline_lineOf fun f hf => (hplain f hf).inline) hwords,
    handleLine_link (by rw [hwords]; rfl), parseLink_fields hwords]

/-- The line of a domain adds it, without what further lines say. -/
theorem take_domain {d : FailureDomainRecord} : p.take (lineOf d.fields) = .ok q ↔
    p.snapshot.domains.length < maxTextItems ∧ d.id ≠ .nil ∧
      q = p.addDomain (d.head (reread d.provenance.detail)) := by
  have hplain := d.plain_fields
  obtain ⟨more, hwords, hrest⟩ := words_free (d := d.provenance.detail) hplain
    (List.cons_ne_nil _ _)
  rw [FailureDomainRecord.fields, take_eq (inline_free hplain) hwords,
    handleLine_domain (by rw [hwords]; rfl), parseDomain_fields hwords hrest]

/-- The line of an obligation adds it, without what further lines say. -/
theorem take_obligation {o : Obligation} : p.take (lineOf o.fields) = .ok q ↔
    p.snapshot.obligations.length < maxTextItems ∧ o.id ≠ .nil ∧
      q = p.addObligation (o.head (reread o.provenance.detail)) := by
  have hplain := o.plain_fields
  obtain ⟨more, hwords, hrest⟩ := words_free (d := o.provenance.detail) hplain
    (List.cons_ne_nil _ _)
  rw [Obligation.fields, take_eq (inline_free hplain) hwords,
    handleLine_obligation (by rw [hwords]; rfl), parseObligation_fields hwords hrest]

/-! ## Continuation lines -/

/-- A claim as it is read back. -/
def CapacityClaim.reread (claim : CapacityClaim) : CapacityClaim :=
  { claim with
    provenance := { claim.provenance with detail := PodFabric.reread claim.provenance.detail } }

/-- The identifiers a claim needs are there. -/
def CapacityClaim.Named (claim : CapacityClaim) : Prop :=
  claim.resource ≠ .nil ∧ claim.exclusivity ≠ .nil ∧ claim.domain ≠ .nil

/-- The line of a claim adds it to the rack read last. -/
theorem take_claim {m : MemberRecord} {claim : CapacityClaim} :
    (p.addMember m).take (lineOf claim.fields) = .ok q ↔ claim.Named ∧
      q = p.addMember { m with capacity := m.capacity ++ [claim.reread] } := by
  have hplain := claim.plain_fields
  obtain ⟨more, hwords, hrest⟩ :=
    words_free (d := claim.provenance.detail) hplain (List.cons_ne_nil _ _)
  have hdispatch : ∀ {view : Text} {tokens : List Token},
      (p.addMember m).parseContinuation view (text "+capacity") tokens =
        (p.addMember m).parseCapacity view tokens := fun {view tokens} => by
    rw [TextParser.parseContinuation]
    exact ite_skip (show ¬ Current.member = .none by decide) (ite_skip (by decide)
      (ite_skip (fun h => absurd h.2 (by decide)) (ite_skip (fun h => absurd h.2 (by decide))
        (if_pos ⟨rfl, rfl⟩))))
  rw [CapacityClaim.fields, take_eq (inline_free hplain) hwords,
    handleLine_continuation (by rw [hwords]; rfl) (by rfl), hdispatch,
    parseCapacity_fields hwords hrest, withMember_addMember, Except.ok.injEq, eq_comm (b := q),
    CapacityClaim.Named, and_assoc, and_assoc]
  rfl

/-- A listed identifier is read when it is named. -/
theorem parseListed_eq_ok {tag : IdTag} {id id' : BasicId tag} {message : Text}
    (h : tokens.map Word.letters = [w, id.toText]) :
    TextParser.parseListed tokens message = .ok id' ↔ id ≠ .nil ∧ id' = id := by
  have hlength : tokens.length = 2 := by
    rw [← List.length_map Word.letters, h]
    rfl
  simp only [TextParser.parseListed, bind_eq_ok, ensure_eq_ok, exists_const, readId,
    readField_eq_ok, hlength,
    h, List.getElem?_cons_succ, List.getElem?_cons_zero, Option.some.injEq, exists_eq_left',
    blankToEmpty_toText, parse_token_eq_ok, true_and]

/-- The line of a list's element is handed to the step that adds it. -/
theorem take_listed {tag : IdTag} {id : BasicId tag} {message : Text}
    {add : BasicId tag → Outcome TextParser} (hw : Plain w) (hplus : w.head? = some 43)
    (hdispatch : ∀ {view : Text} {tokens : List Token}, p.parseContinuation view w tokens =
      (TextParser.parseListed tokens message >>= add)) :
    p.take (lineOf [w, id.toText]) = .ok q ↔ id ≠ .nil ∧ add id = .ok q := by
  have hplain : ∀ f ∈ [w, id.toText], Plain f := by simp [hw, Plain.ident]
  have hwords : (words isBlank 0 (lineOf [w, id.toText])).map Word.letters = [w, id.toText] :=
    letters_lineOf hplain
  rw [take_eq (inline_lineOf fun f hf => (hplain f hf).inline) hwords,
    handleLine_continuation (by rw [hwords]; rfl) hplus, hdispatch]
  simp only [bind_eq_ok, parseListed_eq_ok hwords, and_assoc, exists_and_left, exists_eq_left]

section Listed
variable {m : MemberRecord} {d : FailureDomainRecord} {o : Obligation}

/-- The line of a domain's identifier adds it to the rack read last. -/
theorem take_domainId {id : DomainId} :
    (p.addMember m).take (lineOf [text "+domain", id.toText]) = .ok q ↔ id ≠ .nil ∧
      q = p.addMember { m with failureDomains := m.failureDomains ++ [id] } := by
  have hdispatch : ∀ {view : Text} {tokens : List Token},
      (p.addMember m).parseContinuation view (text "+domain") tokens =
        (TextParser.parseListed tokens "+domain takes one argument" >>= fun (id : DomainId) =>
          (p.addMember m).withMember fun m => { m with failureDomains := m.failureDomains ++ [id] }) := fun {_ _} =>
    ite_skip (show ¬ Current.member = .none by decide) (ite_skip (by decide) (if_pos ⟨rfl, rfl⟩))
  rw [take_listed (plain_iff.2 (by rfl)) (by rfl) hdispatch, withMember_addMember, Except.ok.injEq,
    eq_comm (b := q)]

/-- The line of a port adds it to the rack read last. -/
theorem take_port {port : PortRef} :
    (p.addMember m).take (lineOf [text "+port", port.toText]) = .ok q ↔ port ≠ .nil ∧
      q = p.addMember { m with ports := m.ports ++ [port] } := by
  have hdispatch : ∀ {view : Text} {tokens : List Token},
      (p.addMember m).parseContinuation view (text "+port") tokens =
        (TextParser.parseListed tokens "+port takes one argument" >>= fun (port : PortRef) =>
          (p.addMember m).withMember fun m => { m with ports := m.ports ++ [port] }) := fun {_ _} =>
    ite_skip (show ¬ Current.member = .none by decide) (ite_skip (by decide)
      (ite_skip (fun h => absurd h.2 (by decide)) (if_pos ⟨rfl, rfl⟩)))
  rw [take_listed (plain_iff.2 (by rfl)) (by rfl) hdispatch, withMember_addMember, Except.ok.injEq,
    eq_comm (b := q)]

/-- The line of a member adds it to the domain read last. -/
theorem take_domainMember {rack : RackId} :
    (p.addDomain d).take (lineOf [text "+member", rack.toText]) = .ok q ↔ rack ≠ .nil ∧
      q = p.addDomain { d with members := d.members ++ [rack] } := by
  have hdispatch : ∀ {view : Text} {tokens : List Token},
      (p.addDomain d).parseContinuation view (text "+member") tokens =
        (TextParser.parseListed tokens "+member takes one argument" >>= fun (rack : RackId) =>
          (p.addDomain d).withDomain fun d => { d with members := d.members ++ [rack] }) :=
            fun {_ _} =>
    ite_skip (show ¬ Current.domain = .none by decide) (ite_skip (by decide)
      (ite_skip (fun h => absurd h.2 (by decide)) (ite_skip (fun h => absurd h.2 (by decide))
        (ite_skip (fun h => absurd h.2 (by decide)) (ite_skip (fun h => absurd h.2 (by decide))
          (if_pos ⟨rfl, rfl⟩))))))
  rw [take_listed (plain_iff.2 (by rfl)) (by rfl) hdispatch, withDomain_addDomain, Except.ok.injEq,
    eq_comm (b := q)]

/-- The line of a rack adds it to the obligation read last. -/
theorem take_protectedRack {rack : RackId} :
    (p.addObligation o).take (lineOf [text "+rack", rack.toText]) = .ok q ↔ rack ≠ .nil ∧
      q = p.addObligation { o with protectedRacks := o.protectedRacks ++ [rack] } := by
  have hdispatch : ∀ {view : Text} {tokens : List Token},
      (p.addObligation o).parseContinuation view (text "+rack") tokens =
        (TextParser.parseListed tokens "+rack takes one argument" >>= fun (rack : RackId) =>
          (p.addObligation o).withObligation fun o =>
            { o with protectedRacks := o.protectedRacks ++ [rack] }) := fun {_ _} =>
    ite_skip (show ¬ Current.obligation = .none by decide) (ite_skip (by decide)
      (ite_skip (fun h => absurd h.2 (by decide)) (ite_skip (fun h => absurd h.2 (by decide))
        (ite_skip (fun h => absurd h.2 (by decide)) (ite_skip (fun h => absurd h.2 (by decide))
          (ite_skip (fun h => absurd h.2 (by decide)) (if_pos ⟨rfl, rfl⟩)))))))
  rw [take_listed (plain_iff.2 (by rfl)) (by rfl) hdispatch, withObligation_addObligation,
    Except.ok.injEq,
    eq_comm (b := q)]

/-- A requirement line is read when its resource is named. -/
theorem parseRequire_fields {requirement : CapacityRequirement}
    (h : tokens.map Word.letters = requirement.fields) :
    (p.addObligation o).parseRequire tokens = .ok q ↔ requirement.resource ≠ .nil ∧
      q = p.addObligation { o with requirements := o.requirements ++ [requirement] } := by
  have hlength : tokens.length = 4 := by
    rw [← List.length_map Word.letters, h]
    rfl
  simp only [TextParser.parseRequire, bind_eq_ok, ensure_eq_ok, exists_const, readId,
    readField_eq_ok, hlength]
  simp only [h, CapacityRequirement.fields, List.getElem?_cons_succ, List.getElem?_cons_zero,
    Option.some.injEq, exists_eq_left', blankToEmpty_toText, parse_token_eq_ok, parseU64_decimal,
    parseU32_decimal, Except.ok.injEq, true_and, and_assoc, exists_and_left, exists_eq_left,
    withObligation_addObligation]
  rw [eq_comm (b := q)]

/-- The line of a requirement adds it to the obligation read last. -/
theorem take_requirement {requirement : CapacityRequirement} :
    (p.addObligation o).take (lineOf requirement.fields) = .ok q ↔ requirement.resource ≠ .nil ∧
      q = p.addObligation { o with requirements := o.requirements ++ [requirement] } := by
  have hplain := requirement.plain_fields
  have hwords : (words isBlank 0 (lineOf requirement.fields)).map Word.letters =
    requirement.fields := letters_lineOf hplain
  have hdispatch : ∀ {view : Text} {tokens : List Token},
      (p.addObligation o).parseContinuation view (text "+require") tokens =
        (p.addObligation o).parseRequire tokens := fun {_ _} =>
    ite_skip (show ¬ Current.obligation = .none by decide) (ite_skip (by decide)
      (ite_skip (fun h => absurd h.2 (by decide)) (ite_skip (fun h => absurd h.2 (by decide))
        (ite_skip (fun h => absurd h.2 (by decide)) (ite_skip (fun h => absurd h.2 (by decide))
          (ite_skip (fun h => absurd h.2 (by decide)) (ite_skip (fun h => absurd h.2 (by decide))
            (if_pos ⟨rfl, rfl⟩))))))))
  rw [take_eq (inline_lineOf fun f hf => (hplain f hf).inline) hwords,
    handleLine_continuation (by rw [hwords]; rfl) (by rfl), hdispatch, parseRequire_fields hwords]

/-! ### Free text -/

/-- The line of a free text, if there is one. -/
def freeLines (directive t : Text) : List Text :=
  if t.isEmpty then [] else [lineOf [directive, escapeText t]]

/-- A free text is handed to the record it describes. -/
theorem take_free {t : Text} (hw : Plain w) (hplus : w.head? = some 43)
    (hfree : w = text "+detail" ∨ w = text "+desc") (hcurrent : p.current ≠ .none) (ht : t ≠ []) :
    p.take (lineOf [w, escapeText t]) = p.parseFree w (reread t) := by
  have hplain : ∀ f ∈ [w], Plain f := by simp [hw]
  have hfields : [w, escapeText t] = [w] ++ freeField t := by
    rw [freeField, if_neg (by simp [ht])]
    rfl
  obtain ⟨more, hwords, hrest⟩ := words_free (d := t) hplain (List.cons_ne_nil _ _)
  rw [hfields, take_eq (inline_free hplain) hwords,
    handleLine_continuation (by rw [hwords]; rfl) hplus, TextParser.parseContinuation,
    if_neg hcurrent, if_pos hfree]
  change (restOfLine _ _ 1 >>= _) = _
  rw [show 1 = [w].length from rfl, hrest]
  rfl

/-- Lines of free text set it in the record read last. -/
theorem take_freeLines {t : Text} (hw : Plain w) (hplus : w.head? = some 43)
    (hfree : w = text "+detail" ∨ w = text "+desc") (hcurrent : p.current ≠ .none)
    (hparse : p.parseFree w (reread t) = .ok q) (hempty : t = [] → q = p) :
    (freeLines w t).foldlM TextParser.take p = .ok q := by
  rw [freeLines]
  split
  · next h => rw [hempty (List.isEmpty_iff.1 h)]; rfl
  · next h =>
    rw [List.foldlM_cons, take_free hw hplus hfree hcurrent (by simpa using h), hparse]
    rfl

end Listed

/-! ## All lines of a record -/

/-- A list whose elements have a line each is read back as a whole. -/
theorem foldlM_listed {ρ ξ : Type} {state : ρ → TextParser} {render : ξ → Text}
    {add : ρ → List ξ → ρ} {C : ξ → Prop} (hnil : ∀ r, add r [] = r)
    (hcons : ∀ r x xs, add (add r [x]) xs = add r (x :: xs))
    (hstep : ∀ r x q, (state r).take (render x) = .ok q ↔ C x ∧ q = state (add r [x])) :
    ∀ {xs : List ξ} {r : ρ} {q : TextParser},
      (xs.map render).foldlM TextParser.take (state r) = .ok q ↔
        (∀ x ∈ xs, C x) ∧ q = state (add r xs)
  | [], r, q => by
    rw [hnil]
    simp [pure, Except.pure, eq_comm]
  | x :: xs, r, q => by
    rw [List.map_cons, List.foldlM_cons, bind_eq_ok, List.forall_mem_cons, ← hcons, and_assoc]
    simp only [hstep, and_assoc, exists_and_left, exists_eq_left, foldlM_listed hnil hcons hstep]

/-- The lines behind a member's own line. -/
def MemberRecord.tailLines (m : MemberRecord) : List Text :=
  freeLines "+desc" m.provenance.detail ++
  (m.failureDomains.map fun id => lineOf [text "+domain", id.toText]) ++
  (m.ports.map fun port => lineOf [text "+port", port.toText]) ++
  m.capacity.map fun claim => lineOf claim.fields

/-- The identifiers that the lines behind a member's own line may not leave out. -/
def MemberRecord.Listed (m : MemberRecord) : Prop :=
  (∀ id ∈ m.failureDomains, id ≠ .nil) ∧ (∀ port ∈ m.ports, port ≠ .nil) ∧
    ∀ claim ∈ m.capacity, claim.Named

/-- A member as it is read back. -/
def MemberRecord.reread (m : MemberRecord) (revision : Text) : MemberRecord :=
  { m with
    rnfSchema := blankToEmpty revision
    provenance := { m.provenance with detail := PodFabric.reread m.provenance.detail }
    capacity := m.capacity.map CapacityClaim.reread }

/-- The further lines of a rack complete it. -/
theorem take_tailLines {m : MemberRecord} {revision : Text} :
    m.tailLines.foldlM TextParser.take (p.addMember (m.head revision)) = .ok q ↔
      m.Listed ∧ q = p.addMember (m.reread revision) := by
  have hfree : (freeLines "+desc" m.provenance.detail).foldlM TextParser.take
      (p.addMember (m.head revision)) = .ok (p.addMember { m.head revision with
        provenance := { m.provenance with detail := reread m.provenance.detail } }) := by
    refine take_freeLines (plain_iff.2 (by rfl)) (by rfl) (.inr rfl)
      (show ¬ Current.member = .none by decide) ?_ fun h => ?_
    · exact (ite_skip (by decide) rfl).trans withMember_addMember
    · rw [h]
      rfl
  have hdomains := fun r => @foldlM_listed _ _ p.addMember
    (fun id => lineOf [text "+domain", BasicId.toText id])
    (fun r ids => { r with failureDomains := r.failureDomains ++ ids }) (fun id => id ≠ .nil)
    (by simp) (by simp) (fun r id q => take_domainId) m.failureDomains r
  have hports := fun r => @foldlM_listed _ _ p.addMember
    (fun port => lineOf [text "+port", BasicId.toText port])
    (fun r ports => { r with ports := r.ports ++ ports }) (fun port => port ≠ .nil)
    (by simp) (by simp) (fun r port q => take_port) m.ports r
  have hclaims := fun r => @foldlM_listed _ _ p.addMember (fun claim => lineOf claim.fields)
    (fun r claims => { r with capacity := r.capacity ++ claims.map CapacityClaim.reread })
    CapacityClaim.Named (by simp) (by simp) (fun r claim q => take_claim) m.capacity r
  rw [MemberRecord.tailLines, List.foldlM_append, List.foldlM_append, List.foldlM_append, hfree]
  simp only [bind_eq_ok, Except.ok.injEq, exists_eq_left', and_assoc, exists_and_left,
    exists_eq_left, hdomains, hports, hclaims, MemberRecord.Listed]
  rfl

/-- The lines of a link, as they are read. -/
def LinkRecord.lines (l : LinkRecord) : List Text :=
  lineOf l.fields :: freeLines "+desc" l.provenance.detail

/-- A link as it is read back. -/
def LinkRecord.reread (l : LinkRecord) : LinkRecord :=
  { l with provenance := { l.provenance with detail := PodFabric.reread l.provenance.detail } }

/-- The lines of a link add it. -/
theorem take_linkLines {l : LinkRecord} : l.lines.foldlM TextParser.take p = .ok q ↔
    p.snapshot.links.length < maxTextItems ∧ l.Named ∧ q = p.addLink l.reread := by
  have hfree : (freeLines "+desc" l.provenance.detail).foldlM TextParser.take
      (p.addLink { l with provenance := l.provenance.bare }) = .ok (p.addLink l.reread) := by
    refine take_freeLines (plain_iff.2 (by rfl)) (by rfl) (.inr rfl)
      (show ¬ Current.link = .none by decide) ?_ fun h => ?_
    · exact (ite_skip (by decide) rfl).trans withLink_addLink
    · rw [LinkRecord.reread, h]
      rfl
  rw [LinkRecord.lines, List.foldlM_cons]
  simp only [bind_eq_ok, take_link, and_assoc, exists_and_left, exists_eq_left, hfree,
    Except.ok.injEq]
  rw [eq_comm (b := q)]

/-- The lines of a domain, as they are read. -/
def FailureDomainRecord.lines (d : FailureDomainRecord) : List Text :=
  lineOf d.fields :: freeLines "+desc" d.description ++
    d.members.map fun rack => lineOf [text "+member", rack.toText]

/-- A failure domain as it is read back. -/
def FailureDomainRecord.reread (d : FailureDomainRecord) : FailureDomainRecord :=
  { d with
    description := PodFabric.reread d.description
    provenance := { d.provenance with detail := PodFabric.reread d.provenance.detail } }

/-- The lines of a domain add it. -/
theorem take_domainLines {d : FailureDomainRecord} : d.lines.foldlM TextParser.take p = .ok q ↔
    p.snapshot.domains.length < maxTextItems ∧ d.id ≠ .nil ∧ (∀ rack ∈ d.members, rack ≠ .nil) ∧
      q = p.addDomain d.reread := by
  have hfree : (freeLines "+desc" d.description).foldlM TextParser.take
      (p.addDomain (d.head (reread d.provenance.detail))) =
        .ok (p.addDomain { d.reread with members := [] }) := by
    refine take_freeLines (plain_iff.2 (by rfl)) (by rfl) (.inr rfl)
      (show ¬ Current.domain = .none by decide) ?_ fun h => ?_
    · exact (ite_skip (by decide) rfl).trans withDomain_addDomain
    · rw [FailureDomainRecord.reread, h]
      rfl
  have hmembers := fun r => @foldlM_listed _ _ p.addDomain
    (fun rack => lineOf [text "+member", BasicId.toText rack])
    (fun r racks => { r with members := r.members ++ racks }) (fun rack => rack ≠ .nil)
    (by simp) (by simp) (fun r rack q => take_domainMember) d.members r
  rw [FailureDomainRecord.lines, List.cons_append, List.foldlM_cons]
  simp only [bind_eq_ok, take_domain, and_assoc, exists_and_left, exists_eq_left,
    List.foldlM_append, hfree, Except.ok.injEq, exists_eq_left', hmembers]
  rfl

/-- The lines of an obligation, as they are read. -/
def Obligation.lines (o : Obligation) : List Text :=
  lineOf o.fields :: freeLines "+desc" o.description ++
    (o.protectedRacks.map fun rack => lineOf [text "+rack", rack.toText]) ++
    o.requirements.map fun requirement => lineOf requirement.fields

/-- An obligation as it is read back. -/
def Obligation.reread (o : Obligation) : Obligation :=
  { o with
    description := PodFabric.reread o.description
    provenance := { o.provenance with detail := PodFabric.reread o.provenance.detail } }

/-- The lines of an obligation add it. -/
theorem take_obligationLines {o : Obligation} : o.lines.foldlM TextParser.take p = .ok q ↔
    p.snapshot.obligations.length < maxTextItems ∧ o.id ≠ .nil ∧
      (∀ rack ∈ o.protectedRacks, rack ≠ .nil) ∧
      (∀ requirement ∈ o.requirements, requirement.resource ≠ .nil) ∧
      q = p.addObligation o.reread := by
  have hfree : (freeLines "+desc" o.description).foldlM TextParser.take
      (p.addObligation (o.head (reread o.provenance.detail))) =
        .ok (p.addObligation { o.reread with protectedRacks := [], requirements := [] }) := by
    refine take_freeLines (plain_iff.2 (by rfl)) (by rfl) (.inr rfl)
      (show ¬ Current.obligation = .none by decide) ?_ fun h => ?_
    · exact (ite_skip (by decide) rfl).trans withObligation_addObligation
    · rw [Obligation.reread, h]
      rfl
  have hracks := fun r => @foldlM_listed _ _ p.addObligation
    (fun rack => lineOf [text "+rack", BasicId.toText rack])
    (fun r racks => { r with protectedRacks := r.protectedRacks ++ racks })
      (fun rack => rack ≠ .nil)
    (by simp) (by simp) (fun r rack q => take_protectedRack) o.protectedRacks r
  have hrequirements := fun r => @foldlM_listed _ _ p.addObligation
    (fun requirement => lineOf requirement.fields)
    (fun r requirements => { r with requirements := r.requirements ++ requirements })
    (fun requirement => requirement.resource ≠ .nil) (by simp) (by simp)
    (fun r requirement q => take_requirement) o.requirements r
  rw [Obligation.lines, List.cons_append, List.cons_append, List.foldlM_cons]
  simp only [bind_eq_ok, take_obligation, and_assoc, exists_and_left, exists_eq_left,
    List.foldlM_append, hfree, Except.ok.injEq, exists_eq_left', hracks, hrequirements]
  rfl

end Lines

end PodFabric
