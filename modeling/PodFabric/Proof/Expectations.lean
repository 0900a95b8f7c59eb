import PodFabric.Control.Controller
import PodFabric.Proof.Trust
import PodFabric.Proof.Validation

/-!
# Expectations

What a round asks of the recorded expectations and what it makes of them. A member of a composed
state is established or retiring on the strength of its single record (`compose_established`,
`compose_retiring`), the epoch advances by one exactly when an established member is new or ahead of
its expectation (`compose_epoch`), and the expectations after the round follow from the verdicts
rack by rack (`recorded_derive`).
-/

namespace PodFabric

/-! ## The expectation of a rack -/

/-- The expectation on record for a rack. -/
def recorded (expectations : List MemberExpectation) (rack : RackId) : Option MemberExpectation :=
  expectations.findRev? fun expectation => expectation.rack = rack

section Recorded
variable {es : List MemberExpectation} {rack : RackId} {e : MemberExpectation}

/-- The expectation found for a rack is about it. -/
theorem recorded_rack (h : recorded es rack = some e) : e ∈ es ∧ e.rack = rack := by
  unfold recorded at h
  rw [List.findRev?_eq_find?_reverse] at h
  exact ⟨by simpa using List.mem_of_find?_eq_some h, by simpa using List.find?_some h⟩

/-- A rack without an expectation is named by none. -/
theorem recorded_eq_none : recorded es rack = none ↔ ∀ e ∈ es, e.rack ≠ rack := by
  unfold recorded
  rw [List.findRev?_eq_find?_reverse]
  simp

/-- Where racks are not repeated, the expectation on record is the one in the list. -/
theorem recorded_eq_some (hu : ∀ a ∈ es, ∀ b ∈ es, a.rack = b.rack → a = b) :
    recorded es rack = some e ↔ e ∈ es ∧ e.rack = rack := by
  refine ⟨recorded_rack, fun ⟨he, hr⟩ => ?_⟩
  cases h : recorded es rack with
  | none => exact absurd hr (recorded_eq_none.1 h e he)
  | some e' =>
    obtain ⟨he', hr'⟩ := recorded_rack h
    rw [hu e' he' e he (hr'.trans hr.symm)]

end Recorded

/-! ## The members of a composed state -/

section Compose
variable {request : CompositionRequest} {st : PodState} {m : MemberVerdict}

/-- A member verdict is that of the rack's working record, but for its reasons. -/
theorem compose_member (h : compose request = .ok st) (hm : m ∈ st.members) :
    m.rack ∈ coveredRacks request ∧ m.status = (memberWork request m.rack).verdict.status ∧
      m.generation = (memberWork request m.rack).verdict.generation ∧
        m.digest = (memberWork request m.rack).verdict.digest := by
  obtain ⟨p, -, hparts, rfl⟩ := compose_passesOf h
  obtain ⟨work, hw, rfl⟩ := mem_finalise_members.1 hm
  obtain ⟨rack, hrack, rfl⟩ := hparts.mem_members.1 hw
  have hsame : (memberWork request rack).verdict.rack = rack :=
    evaluateMember_keeps.verdictRack
  simp only [MemberVerdict.canonicalise, noteOverlap, hsame]
  exact ⟨hrack, trivial, trivial, trivial⟩

/-- Every covered rack has a verdict. -/
theorem compose_covers (h : compose request = .ok st) {rack : RackId}
    (hrack : rack ∈ coveredRacks request) : ∃ m ∈ st.members, m.rack = rack := by
  obtain ⟨p, -, hparts, rfl⟩ := compose_passesOf h
  refine ⟨_, mem_finalise_members.2 ⟨_, hparts.mem_members.2 ⟨rack, hrack, rfl⟩, rfl⟩, ?_⟩
  exact evaluateMember_keeps.verdictRack

/-- Each rack has one verdict. -/
theorem compose_unique (h : compose request = .ok st) {m' : MemberVerdict} (hm : m ∈ st.members)
    (hm' : m' ∈ st.members) (hr : m.rack = m'.rack) : m = m' := by
  obtain ⟨p, -, hparts, rfl⟩ := compose_passesOf h
  obtain ⟨work, hw, rfl⟩ := mem_finalise_members.1 hm
  obtain ⟨work', hw', rfl⟩ := mem_finalise_members.1 hm'
  have hracks {w : MemberWork} (hw : w ∈ p.findings.members) :
      w.verdict.canonicalise.rack = w.rack := by
    obtain ⟨rack, -, rfl⟩ := hparts.mem_members.1 hw
    exact evaluateMember_keeps.verdictRack.trans evaluateMember_keeps.rack.symm
  rw [hparts.members_unique hw hw' (by rw [← hracks hw, hr, hracks hw'])]

/-- The records of a rack in the evidence. -/
def recordsOf (snapshot : PodSnapshot) (rack : RackId) : List MemberRecord :=
  snapshot.members.filter fun member => member.rack = rack

/-- The rack is adopted: it is new to the pod, or ahead of its expectation. -/
def Adopts (expectation : Option MemberExpectation) (generation : RackGeneration) : Prop :=
  ∀ expected, expectation = some expected → expected.generation < generation

/-- What an established member rests on. -/
structure EstablishedBy (request : CompositionRequest) (m : MemberVerdict)
    (record : MemberRecord) : Prop where
  only : recordsOf request.snapshot m.rack = [record]
  generation : m.generation = record.generation
  digest : m.digest = record.digest
  establishes : Establishes request.policy request.snapshot.observedAt record
    (recorded request.context.expectations m.rack) (memberWork request m.rack).adopted
  flag : (memberWork request m.rack).established = true

/-- An established member has a record that establishes it. -/
theorem compose_established (h : compose request = .ok st) (hm : m ∈ st.members)
    (hs : m.status = .established) : ∃ record, EstablishedBy request m record := by
  obtain ⟨-, hstatus, hgeneration, hdigest⟩ := compose_member h hm
  rcases @evaluateMember_cases request.policy request.snapshot.observedAt m.rack
    (recordsOf request.snapshot m.rack) (recorded request.context.expectations m.rack) with
    ⟨record, honly, hjudged⟩ | ⟨-, hwithheld, -⟩
  · cases hjudged with
    | withheld withheld => exact absurd (hstatus.symm.trans hs) withheld.status
    | established establishes reports _ flag =>
      exact ⟨record, honly, hgeneration.trans reports.generation, hdigest.trans reports.digest,
        establishes, flag⟩
  · exact absurd (hstatus.symm.trans hs) hwithheld.status

/-- A member is retiring when its only record says so and is taken at its word. -/
theorem compose_retiring (h : compose request = .ok st) (hm : m ∈ st.members)
    (hs : m.status = .retiring) : ∃ record, recordsOf request.snapshot m.rack = [record] ∧
      Departs request.policy request.snapshot.observedAt record := by
  obtain ⟨-, hstatus, -⟩ := compose_member h hm
  rcases @evaluateMember_cases request.policy request.snapshot.observedAt m.rack
    (recordsOf request.snapshot m.rack) (recorded request.context.expectations m.rack) with
    ⟨record, honly, hjudged⟩ | ⟨-, -, hnot, -⟩
  · cases hjudged with
    | withheld _ _ retiring => exact ⟨record, honly, retiring.1 (hstatus.symm.trans hs)⟩
    | established _ _ status =>
      have hwork : (memberWork request m.rack).verdict.status = .established := status
      rw [hstatus, hwork] at hs
      cases hs
  · exact absurd (hstatus.symm.trans hs) hnot

/-- An established member is adopted when its generation goes beyond the recorded one. -/
theorem EstablishedBy.adopted_iff {record : MemberRecord} (h : EstablishedBy request m record) :
    (memberWork request m.rack).adopted = true ↔
      Adopts (recorded request.context.expectations m.rack) m.generation := by
  have hgen := h.establishes.generation
  rw [h.generation]
  cases hadopted : (memberWork request m.rack).adopted with
  | true =>
    rw [hadopted, checkGeneration_adopted] at hgen
    exact iff_of_true rfl hgen
  | false =>
    rw [hadopted] at hgen
    refine iff_of_false Bool.false_ne_true fun hlt => ?_
    rw [checkGeneration_adopted.2 hlt] at hgen
    cases hgen

/-- An established member that is not adopted repeats its expectation. -/
theorem EstablishedBy.repeats {record : MemberRecord} (h : EstablishedBy request m record)
    (hnot : ¬ Adopts (recorded request.context.expectations m.rack) m.generation) :
    ∃ e, recorded request.context.expectations m.rack = some e ∧ m.generation = e.generation ∧
      m.digest = e.digest := by
  have hadopted : (memberWork request m.rack).adopted = false := by
    simpa using mt h.adopted_iff.1 hnot
  have hgen := h.establishes.generation
  rw [hadopted, checkGeneration_repeated] at hgen
  obtain ⟨e, he, hg, hd⟩ := hgen
  exact ⟨e, he, h.generation.trans hg, h.digest.trans hd⟩

/-- An established member is not behind its expectation. -/
theorem EstablishedBy.not_behind {record : MemberRecord} (h : EstablishedBy request m record)
    {e : MemberExpectation} (he : recorded request.context.expectations m.rack = some e) :
    e.generation ≤ m.generation := by
  by_cases hadopts : Adopts (recorded request.context.expectations m.rack) m.generation
  · exact (hadopts e he).le
  · obtain ⟨e', he', hg, -⟩ := h.repeats hadopts
    rw [he, Option.some.injEq] at he'
    rw [hg, he']

/-! ## The epoch -/

/-- An established member is adopted. -/
def AdoptsSome (request : CompositionRequest) (st : PodState) : Prop :=
  ∃ m ∈ st.members, m.status = .established ∧
    Adopts (recorded request.context.expectations m.rack) m.generation

/-- The advance of the epoch, as numbers: it neither wraps nor counts the members. -/
theorem adoptGenerationAdvances_eq_ok {epoch epoch' : PodEpoch} {members : List MemberWork}
    (h : adoptGenerationAdvances epoch members = .ok epoch') :
    epoch'.value.toNat = epoch.value.toNat +
      if members.any (fun work => work.established && work.adopted) then 1 else 0 := by
  unfold adoptGenerationAdvances at h
  split at h
  · next hany =>
    rw [if_pos hany]
    split at h
    · next hzero =>
      simp only [Except.ok.injEq] at h
      have hvalue : epoch.value = 0 := by simpa [Sequence.isZero] using hzero
      rw [← h, hvalue, UInt64.toNat_one, UInt64.toNat_zero]
    · obtain ⟨hlt, hvalue⟩ := Sequence.next_eq_ok.1 h
      rw [hvalue, UInt64.toNat_add, UInt64.toNat_one, Nat.mod_eq_of_lt hlt]
  · next hnone =>
    rw [if_neg hnone]
    simp only [Except.ok.injEq] at h
    rw [h, Nat.add_zero]

open Classical in
/-- The epoch advances by one when an established member is adopted, and stays otherwise. -/
theorem compose_epoch (h : compose request = .ok st) :
    st.epoch.value.toNat = request.context.epoch.value.toNat +
      if AdoptsSome request st then 1 else 0 := by
  have hcompose := h
  obtain ⟨p, -, hparts, rfl⟩ := compose_passesOf h
  rw [finalise_epoch, adoptGenerationAdvances_eq_ok hparts.epoch]
  have hiff : (initialMembers request).any (fun work => work.established && work.adopted) = true ↔
      AdoptsSome request p.draft.finalise := by
    rw [List.any_eq_true]
    constructor
    · rintro ⟨work, hw, hflags⟩
      obtain ⟨hestablished, hadopted⟩ := Bool.and_eq_true_iff.1 hflags
      obtain ⟨rack, hrack, rfl⟩ := List.mem_map.1 hw
      obtain ⟨m, hm, rfl⟩ := compose_covers hcompose hrack
      have hstatus : m.status = .established :=
        (compose_member hcompose hm).2.1.trans (memberWork_sound.established.1 hestablished)
      obtain ⟨record, hby⟩ := compose_established hcompose hm hstatus
      exact ⟨m, hm, hstatus, hby.adopted_iff.1 hadopted⟩
    · rintro ⟨m, hm, hstatus, hadopts⟩
      obtain ⟨record, hby⟩ := compose_established hcompose hm hstatus
      refine ⟨memberWork request m.rack, List.mem_map.2 ⟨m.rack, (compose_member hcompose hm).1,
        rfl⟩, ?_⟩
      rw [hby.flag, hby.adopted_iff.2 hadopts]
      rfl
  simp only [hiff]

end Compose

/-! ## The expectations after a round -/

section Derive
variable {request : CompositionRequest} {st : PodState} {m : MemberVerdict}
  {previous : List MemberExpectation} {rack : RackId}

/-- An expectation derived for a member is about its rack. -/
theorem derivedExpectation_rack {e : MemberExpectation}
    (h : PodController.derivedExpectation previous m = some e) : e.rack = m.rack := by
  unfold PodController.derivedExpectation at h
  split at h
  · cases h
  split at h
  · rw [← Option.some.inj h]
  · exact (recorded_rack h).2

/-- The expectations of a round are those derived for its members. -/
theorem mem_deriveExpectations {e : MemberExpectation} :
    e ∈ PodController.deriveExpectations st previous ↔
      ∃ m ∈ st.members, PodController.derivedExpectation previous m = some e := by
  simp [PodController.deriveExpectations, sorted]

/-- The expectation of a rack after a round comes from its verdict. -/
theorem recorded_derive (h : compose request = .ok st) (hm : m ∈ st.members) :
    recorded (PodController.deriveExpectations st previous) m.rack =
      PodController.derivedExpectation previous m := by
  ext e
  rw [recorded_eq_some]
  · simp only [mem_deriveExpectations]
    constructor
    · rintro ⟨⟨m', hm', he⟩, hr⟩
      rw [compose_unique h hm hm' (hr.symm.trans (derivedExpectation_rack he))]
      exact he
    · exact fun he => ⟨⟨m, hm, he⟩, derivedExpectation_rack he⟩
  · intro a ha b hb hr
    obtain ⟨m₁, hm₁, ha⟩ := mem_deriveExpectations.1 ha
    obtain ⟨m₂, hm₂, hb⟩ := mem_deriveExpectations.1 hb
    have hsame : m₁ = m₂ := compose_unique h hm₁ hm₂ (by
      rw [← derivedExpectation_rack ha, hr, derivedExpectation_rack hb])
    rw [hsame, hb] at ha
    exact (Option.some.inj ha).symm

/-- A rack that is expected has a verdict in the next round. -/
theorem compose_expected (h : compose request = .ok st) {e : MemberExpectation}
    (he : recorded request.context.expectations rack = some e) :
      ∃ m ∈ st.members, m.rack = rack := by
  refine compose_covers h (mem_canonicalise.2 (List.mem_append.2 (.inr ?_)))
  exact List.mem_map.2 ⟨e, recorded_rack he⟩

/-- An established member is expected as it was established. -/
theorem derived_of_established (hs : m.status = .established) :
    PodController.derivedExpectation previous m =
      some ⟨m.rack, m.generation, m.digest, .established⟩ := by
  unfold PodController.derivedExpectation
  rw [if_neg (by simp [hs]), if_pos hs]

/-- A retiring member is no longer expected. -/
theorem derived_of_retiring (hs : m.status = .retiring) :
    PodController.derivedExpectation previous m = none := if_pos hs

/-- A rack that is neither established nor leaving keeps its expectation. -/
theorem derived_of_other (hs : m.status ≠ .established) (hr : m.status ≠ .retiring) :
    PodController.derivedExpectation previous m = recorded previous m.rack := by
  unfold PodController.derivedExpectation
  rw [if_neg hr, if_neg hs]
  rfl

end Derive

end PodFabric
