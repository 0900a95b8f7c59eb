import PodFabric.Engine.Members

/-!
# What a member verdict says

The inversion of `evaluateMember`: a rack is established only by a single fresh record of a
supported schema that is established itself and holds against the recorded expectation
(`Establishes`), it is retiring only on a single fresh record that says so (`Departs`), and a rack
that is not established carries nothing.
-/

namespace PodFabric

/-! ## Generations -/

/-- A record that is adopted has no expectation, or is ahead of it. -/
theorem checkGeneration_adopted {record : MemberRecord} {expectation : Option MemberExpectation} :
    checkGeneration record expectation = .ok true ↔
      ∀ expected, expectation = some expected → expected.generation < record.generation := by
  cases expectation with
  | none => simp [checkGeneration]
  | some expected =>
    simp only [checkGeneration, Option.some.injEq, forall_eq']
    split
    · next h => simp [h.le]
    · next h =>
      split
      · next heq =>
        split <;> simp [heq]
      · next hne => simpa using lt_of_le_of_ne (not_lt.1 h) (Ne.symm hne)

/-- A record that holds without being adopted repeats its expectation. -/
theorem checkGeneration_repeated {record : MemberRecord}
    {expectation : Option MemberExpectation} :
    checkGeneration record expectation = .ok false ↔
      ∃ expected, expectation = some expected ∧ record.generation = expected.generation ∧
        record.digest = expected.digest := by
  cases expectation with
  | none => simp [checkGeneration]
  | some expected =>
    simp only [checkGeneration, Option.some.injEq, exists_eq_left']
    split
    · next h => simp [h.ne]
    · split
      · next heq =>
        split
        · next hd => simp [heq, hd]
        · next hd => simp [heq, not_not.1 hd]
      · next hne => simp [hne]

/-! ## Established racks -/

/-- The record establishes its rack against the expectation. -/
structure Establishes (policy : Policy) (evaluatedAt : Nanos) (record : MemberRecord)
    (expectation : Option MemberExpectation) (adopted : Bool) : Prop where
  fresh : freshness policy evaluatedAt record.observedAt = none
  supported : schemaSupported policy record.rnfSchema = true
  membership : record.membership = .established
  generation : checkGeneration record expectation = .ok adopted
  admissible : adopted = true → joinAdmissible policy record = true

/-- The record declares a departure that is taken at its word. -/
structure Departs (policy : Policy) (evaluatedAt : Nanos) (record : MemberRecord) : Prop where
  fresh : freshness policy evaluatedAt record.observedAt = none
  supported : schemaSupported policy record.rnfSchema = true
  membership : record.membership = .retired ∨ record.membership = .leaving

/-- The verdict carries what the record reports. -/
structure Reports (verdict : MemberVerdict) (record : MemberRecord) : Prop where
  generation : verdict.generation = record.generation
  digest : verdict.digest = record.digest
  membership : verdict.membership = record.membership
  admin : verdict.admin = record.admin
  health : verdict.health = record.health
  domains : verdict.domains = canonicalise record.failureDomains

/-- A rack that is not established carries nothing. -/
structure Withheld (work : MemberWork) : Prop where
  established : work.established = false
  capacityUsable : work.capacityUsable = false
  connectivityUsable : work.connectivityUsable = false
  status : work.verdict.status ≠ .established

/-- The verdict on a single record: not established, and retiring only on a departure; or
established by the record. -/
inductive Judged (policy : Policy) (evaluatedAt : Nanos) (record : MemberRecord)
    (expectation : Option MemberExpectation) (work : MemberWork) : Prop
  | withheld (withheld : Withheld work) (reports : Reports work.verdict record)
      (retiring : work.verdict.status = .retiring ↔ Departs policy evaluatedAt record)
      (refused : ∀ adopted, ¬ Establishes policy evaluatedAt record expectation adopted)
  | established (establishes : Establishes policy evaluatedAt record expectation work.adopted)
      (reports : Reports work.verdict record)
      (status : work.verdict.status = .established) (flag : work.established = true)
      (capacityUsable : work.capacityUsable = usableState record.health record.admin)
      (connectivityUsable : work.connectivityUsable = usableState record.health record.admin)

section Judge
variable {policy : Policy} {evaluatedAt : Nanos} {record : MemberRecord} {work : MemberWork}

/-- The inversion of `judgeRecord`, for a working record that nothing has been decided of. -/
theorem judgeRecord_judged (hw : Withheld work) :
    Judged policy evaluatedAt record work.expectation
      (judgeRecord policy evaluatedAt record work) := by
  have reject {status : MemberStatus} {reason : Reason} {w : MemberWork}
      (hw : Withheld w) (hs : status ≠ .established) : Withheld (w.reject status reason) :=
    ⟨hw.1, hw.2, hw.3, hs⟩
  unfold judgeRecord
  dsimp only
  split
  · next reason hfresh =>
    refine .withheld (reject ⟨hw.1, hw.2, hw.3, hw.4⟩ (by simp)) ⟨rfl, rfl, rfl, rfl, rfl, rfl⟩
      ⟨fun h => by simp [MemberWork.reject] at h, fun h => ?_⟩ fun _ h => ?_
    · simp [h.fresh] at hfresh
    · simp [h.fresh] at hfresh
  next hfresh =>
  split
  · next hschema =>
    refine .withheld (reject ⟨hw.1, hw.2, hw.3, hw.4⟩ (by simp)) ⟨rfl, rfl, rfl, rfl, rfl, rfl⟩
      ⟨fun h => by simp [MemberWork.reject] at h, fun h => ?_⟩ fun _ h => ?_
    · exact absurd h.supported hschema
    · exact absurd h.supported hschema
  next hschema =>
  have hsupported : schemaSupported policy record.rnfSchema = true := not_not.1 hschema
  split
  · next hleaving =>
    refine .withheld (reject ⟨hw.1, hw.2, hw.3, hw.4⟩ (by simp)) ⟨rfl, rfl, rfl, rfl, rfl, rfl⟩
      ⟨fun _ => ⟨hfresh, hsupported, hleaving⟩, fun _ => rfl⟩ fun _ h => ?_
    simp [h.membership] at hleaving
  next hleaving =>
  have hstays : ¬ Departs policy evaluatedAt record := fun h => hleaving h.membership
  split
  · next hfenced =>
    refine .withheld (reject ⟨hw.1, hw.2, hw.3, hw.4⟩ (by simp)) ⟨rfl, rfl, rfl, rfl, rfl, rfl⟩
      ⟨fun h => by simp [MemberWork.reject] at h, fun h => absurd h hstays⟩ fun _ h => ?_
    simp [h.membership] at hfenced
  next hfenced =>
  split
  · next status reason hgen =>
    have hstatus : status ≠ .established ∧ status ≠ .retiring := by
      unfold checkGeneration at hgen
      split at hgen
      · cases hgen
      · split at hgen
        · cases hgen; simp
        · split at hgen
          · split at hgen <;> cases hgen
            simp
          · cases hgen
    refine .withheld (reject ⟨hw.1, hw.2, hw.3, hw.4⟩ hstatus.1) ⟨rfl, rfl, rfl, rfl, rfl, rfl⟩
      ⟨fun h => absurd h hstatus.2, fun h => absurd h hstays⟩ fun _ h => ?_
    have := h.generation
    rw [hgen] at this
    cases this
  next adopted hgen =>
  split
  · next hjoining =>
    refine .withheld (reject ⟨hw.1, hw.2, hw.3, hw.4⟩ (by simp)) ⟨rfl, rfl, rfl, rfl, rfl, rfl⟩
      ⟨fun h => by simp [MemberWork.reject] at h, fun h => absurd h hstays⟩ fun _ h => ?_
    simp [h.membership] at hjoining
  next hjoining =>
  split
  · next hdeclared =>
    refine .withheld (reject ⟨hw.1, hw.2, hw.3, hw.4⟩ (by simp)) ⟨rfl, rfl, rfl, rfl, rfl, rfl⟩
      ⟨fun h => by simp [MemberWork.reject] at h, fun h => absurd h hstays⟩ fun _ h => ?_
    have hsame := h.generation
    rw [hgen, Except.ok.injEq] at hsame
    exact hdeclared.2 (h.admissible (hsame ▸ hdeclared.1))
  next hadmissible =>
  have hestablished : record.membership = .established := by
    cases h : record.membership <;> simp_all
  refine .established ⟨hfresh, hsupported, hestablished, hgen, fun h => ?_⟩
    ⟨rfl, rfl, rfl, rfl, rfl, rfl⟩ rfl rfl rfl rfl
  by_contra hcon
  exact hadmissible ⟨h, hcon⟩

end Judge

/-! ## The inversion of `evaluateMember` -/

section Evaluate
variable {policy : Policy} {evaluatedAt : Nanos} {rack : RackId} {records : List MemberRecord}
  {expectation : Option MemberExpectation}

/-- The working record of a rack keeps its inputs. -/
structure Keeps (work work' : MemberWork) : Prop where
  rack : work'.rack = work.rack
  verdictRack : work'.verdict.rack = work.verdict.rack
  record : work'.record = work.record
  recordCount : work'.recordCount = work.recordCount
  expectation : work'.expectation = work.expectation

/-- Judging a record keeps the rack's identity. -/
theorem judgeRecord_keeps (record : MemberRecord) (work : MemberWork) :
    Keeps work (judgeRecord policy evaluatedAt record work) := by
  unfold judgeRecord
  dsimp only
  split
  · exact ⟨rfl, rfl, rfl, rfl, rfl⟩
  split
  · exact ⟨rfl, rfl, rfl, rfl, rfl⟩
  split
  · exact ⟨rfl, rfl, rfl, rfl, rfl⟩
  split
  · exact ⟨rfl, rfl, rfl, rfl, rfl⟩
  split
  · exact ⟨rfl, rfl, rfl, rfl, rfl⟩
  split
  · exact ⟨rfl, rfl, rfl, rfl, rfl⟩
  split <;> exact ⟨rfl, rfl, rfl, rfl, rfl⟩

/-- Evaluating a rack keeps its identity. -/
theorem evaluateMember_keeps :
    Keeps (.start rack records expectation)
      (evaluateMember policy evaluatedAt rack records expectation) := by
  unfold evaluateMember
  match records with
  | [] => exact ⟨rfl, rfl, rfl, rfl, rfl⟩
  | [record] => exact judgeRecord_keeps record _
  | _ :: _ :: _ => exact ⟨rfl, rfl, rfl, rfl, rfl⟩

/-- A rack offers nothing before it is judged. -/
theorem withheld_start : Withheld (.start rack records expectation) :=
  ⟨rfl, rfl, rfl, by simp [MemberWork.start]⟩

/-- A rack is judged by its record if it has exactly one; otherwise it is not established, and
not retiring either. -/
theorem evaluateMember_cases :
    (∃ record, records = [record] ∧ Judged policy evaluatedAt record expectation
      (evaluateMember policy evaluatedAt rack records expectation)) ∨
    ((∀ record, records ≠ [record]) ∧
      Withheld (evaluateMember policy evaluatedAt rack records expectation) ∧
      (evaluateMember policy evaluatedAt rack records expectation).verdict.status ≠ .retiring ∧
      (evaluateMember policy evaluatedAt rack records expectation).verdict.domains = []) := by
  match records with
  | [] => exact .inr ⟨by simp, ⟨rfl, rfl, rfl, by simp [evaluateMember, MemberWork.reject]⟩,
      by simp [evaluateMember, MemberWork.reject], rfl⟩
  | [record] => exact .inl ⟨record, rfl, judgeRecord_judged withheld_start⟩
  | _ :: _ :: _ =>
    exact .inr ⟨by simp, ⟨rfl, rfl, rfl, by simp [evaluateMember, MemberWork.reject]⟩,
      by simp [evaluateMember, MemberWork.reject], rfl⟩

end Evaluate

end PodFabric
