import PodFabric.Proof.Accumulation

/-!
# A round over the same evidence

What the passes make of the working records of the members does not depend on the expectations the
records were judged by, nor on whether they were adopted (`MemberWork.settled`). A second round over
the evidence of a first one, from the expectations that the first one leaves, judges every rack
alike; so it goes through, and its passes agree with those of the first round
(`Reruns.runPasses`).
-/

namespace PodFabric

/-! ## What the passes do not look at -/

/-- The working record without its expectation, and without how its generation compares to it. -/
def MemberWork.settled (work : MemberWork) : MemberWork :=
  { work with expectation := none, adopted := false }

/-- The evidence with the working records settled. -/
def Evidence.settled (ev : Evidence) : Evidence :=
  { ev with members := ev.members.map MemberWork.settled }

/-- The evidence as far as it is settled. -/
def PodEvidence.settled (ev : PodEvidence) : PodEvidence :=
  { ev with toEvidence := ev.toEvidence.settled }

section Settled
variable {members : List MemberWork} {rack : RackId} {ev : Evidence} {pe : PodEvidence}

/-- Looking a rack up commutes with settling. -/
theorem findMember_settled :
    findMember (members.map MemberWork.settled) rack =
      (findMember members rack).map MemberWork.settled := by
  simp only [findMember, List.find?_map, Function.comp_def]
  rfl

/-! ### Domains and capacity -/

/-- Whether a domain is serviceable is settled. -/
theorem serviceable_settled :
    serviceable (members.map MemberWork.settled) = serviceable members := by
  funext rack
  unfold serviceable
  rw [findMember_settled]
  cases findMember members rack <;> rfl

/-- A listed rack's reason is settled. -/
theorem listedReason_settled {id : DomainId} :
    listedReason (members.map MemberWork.settled) id = listedReason members id := by
  funext rack
  unfold listedReason
  rw [findMember_settled]
  cases findMember members rack <;> rfl

/-- The check of a domain is settled. -/
theorem checkDomain_settled {work : DomainWork} :
    checkDomain (members.map MemberWork.settled) work = checkDomain members work := by
  unfold checkDomain
  rw [listedReason_settled, serviceable_settled, List.filterMap_map]
  rfl

/-- The mark of an overlap is settled. -/
theorem markOverlap_settled {domains : List DomainWork} :
    markOverlap domains (members.map MemberWork.settled) = markOverlap domains members := by
  funext work
  unfold markOverlap
  rw [List.flatMap_map]
  rfl

/-- The covered domains are settled. -/
theorem coveredDomains_settled {snapshot : PodSnapshot} :
    coveredDomains snapshot (members.map MemberWork.settled) = coveredDomains snapshot members := by
  unfold coveredDomains
  rw [List.flatMap_map]
  rfl

/-- The checked domains are settled. -/
theorem checkedDomains_settled {snapshot : PodSnapshot} :
    checkedDomains snapshot (members.map MemberWork.settled) = checkedDomains snapshot members := by
  unfold checkedDomains
  rw [coveredDomains_settled]
  exact List.map_congr_left fun id _ => checkDomain_settled

/-- The capacity is settled. -/
theorem evaluateCapacity_settled {policy : Policy} :
    evaluateCapacity policy (members.map MemberWork.settled) = evaluateCapacity policy members := by
  unfold evaluateCapacity
  rw [List.flatMap_map]
  rfl

/-! ### Connectivity -/

/-- The class of a link is settled. -/
theorem classifyLink_settled : classifyLink ev.settled = classifyLink ev := by
  funext link
  unfold classifyLink
  simp only [Evidence.settled, findMember_settled]
  cases findMember ev.members link.a.rack <;> cases findMember ev.members link.b.rack <;> rfl

/-- The class of hops is settled. -/
theorem classifyHops_settled : ∀ {hops : List (RackId × RackGeneration)},
    classifyHops ev.settled hops = classifyHops ev hops
  | [] => rfl
  | (rack, generation) :: rest => by
    unfold classifyHops
    rw [classifyHops_settled]
    simp only [Evidence.settled, findMember_settled]
    cases findMember ev.members rack <;> rfl

/-- The class of a route is settled. -/
theorem classifyRoute_settled : classifyRoute ev.settled = classifyRoute ev := by
  funext route
  unfold classifyRoute
  rw [classifyHops_settled]
  rfl

/-- The collected pairs are settled. -/
theorem collectedPairs_settled : collectedPairs ev.settled = collectedPairs ev := by
  have hracks : ((ev.members.map MemberWork.settled).filter MemberWork.established).map
      MemberWork.rack = (ev.members.filter MemberWork.established).map MemberWork.rack := by
    rw [List.filter_map, List.map_map]
    rfl
  unfold collectedPairs coveragePairs
  simp only [Evidence.settled, hracks]

/-- The connectivity is settled. -/
theorem evaluateConnectivity_settled : evaluateConnectivity ev.settled =
    evaluateConnectivity ev := by
  unfold evaluateConnectivity
  rw [collectedPairs_settled]
  congr 1
  funext key
  unfold judgePair pairFold
  rw [classifyLink_settled, classifyRoute_settled]
  rfl

/-! ### Obligations -/

/-- Which racks are admissible is settled. -/
theorem admissible_settled {excludeDrained : Bool} :
    admissible (members.map MemberWork.settled) excludeDrained = admissible members
      excludeDrained := by
  funext rack
  unfold admissible
  rw [findMember_settled]
  cases findMember members rack <;> rfl

/-- The packing is settled. -/
theorem diversity_settled : diversity pe.settled = diversity pe := by
  funext kind excludeDrained
  unfold diversity
  simp only [PodEvidence.settled, Evidence.settled, admissible_settled]
  rfl

/-- The finding on a protected rack is settled. -/
theorem protectedRackFinding_settled : protectedRackFinding pe.settled =
    protectedRackFinding pe := by
  funext rack
  unfold protectedRackFinding
  simp only [PodEvidence.settled, Evidence.settled, findMember_settled]
  cases findMember pe.members rack <;> rfl

/-- The verdict on an obligation is settled. -/
theorem judgeObligation_settled : judgeObligation pe.settled = judgeObligation pe := by
  have hfindings : obligationFindings pe.settled = obligationFindings pe := by
    funext obligation
    unfold obligationFindings diversityFindings maintenanceFindings pathFindings
    simp only [diversity_settled, protectedRackFinding_settled]
    rfl
  funext obligation
  unfold judgeObligation
  rw [hfindings]

end Settled

/-! ## Judging a rack again -/

section Judge
variable {policy : Policy} {evaluatedAt : Nanos} {record : MemberRecord} {work : MemberWork}
  {expectation : Option MemberExpectation}

/-- The working record with what a record reports. -/
def MemberWork.reporting (work : MemberWork) (record : MemberRecord) : MemberWork :=
  { work with
    verdict := { work.verdict with
      generation := record.generation
      digest := record.digest
      membership := record.membership
      admin := record.admin
      health := record.health
      domains := canonicalise record.failureDomains } }

/-- A record that establishes its rack. -/
theorem judgeRecord_of_establishes {adopted : Bool}
    (h : Establishes policy evaluatedAt record work.expectation adopted) :
    judgeRecord policy evaluatedAt record work =
      ({ work.reporting record with adopted } : MemberWork).establish record := by
  unfold judgeRecord
  dsimp only
  rw [h.fresh]
  dsimp only
  rw [if_neg (not_not.2 h.supported), if_neg (by simp [h.membership]),
    if_neg (by simp [h.membership]), h.generation]
  dsimp only
  rw [if_neg (by simp [h.membership]), if_neg fun hnot => hnot.2 (h.admissible hnot.1)]
  rfl

/-- A record that declares its rack to be leaving. -/
theorem judgeRecord_of_departs (h : Departs policy evaluatedAt record) :
    judgeRecord policy evaluatedAt record work =
      (work.reporting record).reject .retiring
        ⟨.memberRetiring, "the rack has declared that it is leaving the pod"⟩ := by
  unfold judgeRecord
  dsimp only
  rw [h.fresh]
  dsimp only
  rw [if_neg (not_not.2 h.supported), if_pos h.membership]
  rfl

/-- The expectation that is recorded for a rack by its verdict. -/
inductive Follows (work : MemberWork) (expectation : Option MemberExpectation) : Prop
  | established (status : work.verdict.status = .established) (e : MemberExpectation)
      (expects : expectation = some e) (generation : e.generation = work.verdict.generation)
      (digest : e.digest = work.verdict.digest)
  | retiring (status : work.verdict.status = .retiring)
  | other (status : work.verdict.status ≠ .established) (same : expectation = work.expectation)

/-- A rack is judged again as before, by the expectation that its verdict has left. -/
theorem evaluateMember_again {rack : RackId} {records : List MemberRecord}
    {previous : Option MemberExpectation}
    (h : Follows (evaluateMember policy evaluatedAt rack records previous) expectation) :
    (evaluateMember policy evaluatedAt rack records expectation).settled =
        (evaluateMember policy evaluatedAt rack records previous).settled ∧
      ((evaluateMember policy evaluatedAt rack records previous).established = true →
        (evaluateMember policy evaluatedAt rack records expectation).adopted = false) := by
  match records with
  | [] => exact ⟨rfl, fun hestablished => by cases hestablished⟩
  | _ :: _ :: _ => exact ⟨rfl, fun hestablished => by cases hestablished⟩
  | [record] =>
    have hkeeps := @evaluateMember_keeps policy evaluatedAt rack [record] previous
    have hjudged := @judgeRecord_judged policy evaluatedAt record _
      (@withheld_start rack [record] previous)
    change Judged policy evaluatedAt record previous
      (evaluateMember policy evaluatedAt rack [record] previous) at hjudged
    cases hjudged with
    | withheld withheld _ retiring =>
      have hnot : (evaluateMember policy evaluatedAt rack [record] previous).established
          ≠ true := by
        simp [withheld.established]
      refine ⟨?_, fun hestablished => absurd hestablished hnot⟩
      cases h with
      | established status => exact absurd status withheld.status
      | retiring status =>
        have hdeparts := retiring.1 status
        change (judgeRecord policy evaluatedAt record _).settled =
          (judgeRecord policy evaluatedAt record _).settled
        rw [judgeRecord_of_departs hdeparts, judgeRecord_of_departs hdeparts]
        rfl
      | other _ same => rw [same, hkeeps.expectation]; rfl
    | established establishes reports status =>
      cases h with
      | retiring hretiring => rw [status] at hretiring; cases hretiring
      | other hother => exact absurd status hother
      | established _ e expects generation digest =>
        subst expects
        have hrepeats : checkGeneration record (some e) = .ok false :=
          checkGeneration_repeated.2 ⟨e, rfl, (generation.trans reports.generation).symm,
            (digest.trans reports.digest).symm⟩
        have hagain : Establishes policy evaluatedAt record (some e) false :=
          ⟨establishes.fresh, establishes.supported, establishes.membership, hrepeats, by simp⟩
        have hfirst := @judgeRecord_of_establishes policy evaluatedAt record
          (.start rack [record] previous) _ establishes
        have hsecond := @judgeRecord_of_establishes policy evaluatedAt record
          (.start rack [record] (some e)) _ hagain
        change (judgeRecord policy evaluatedAt record _).settled =
          (judgeRecord policy evaluatedAt record _).settled ∧
            (_ → (judgeRecord policy evaluatedAt record _).adopted = false)
        rw [hfirst, hsecond]
        exact ⟨rfl, fun _ => rfl⟩

end Judge

/-! ## Rounds that judge alike -/

/-- A request over the same evidence that judges every rack alike. -/
structure Reruns (request request' : CompositionRequest) : Prop where
  policy : request'.policy = request.policy
  snapshot : request'.snapshot = request.snapshot
  racks : coveredRacks request' = coveredRacks request
  settled : ∀ rack ∈ coveredRacks request,
    (memberWork request' rack).settled = (memberWork request rack).settled

/-- Passes that agree on everything but the expectations of the members, the context and the
epoch. -/
structure Alike (p p' : Passes) : Prop where
  policy : p'.findings.policy = p.findings.policy
  snapshot : p'.findings.snapshot = p.findings.snapshot
  members : p'.findings.members.map MemberWork.settled = p.findings.members.map MemberWork.settled
  domains : p'.findings.domains = p.findings.domains
  capacity : p'.findings.capacity = p.findings.capacity
  pairs : p'.findings.pairs = p.findings.pairs
  obligations : p'.findings.obligations = p.findings.obligations

section Reruns
variable {request request' : CompositionRequest} {p p' : Passes}

/-- The passes of a request are determined by their parts. -/
theorem runPasses_eq_ok : runPasses request = .ok p ↔ PassesOf request p ∧
    (coveredDomains request.snapshot (initialMembers request)).length ≤
      request.policy.maxDomains.toNat := by
  constructor
  · intro h
    refine ⟨runPasses_passesOf h, ?_⟩
    unfold runPasses at h
    obtain ⟨members, hm, h⟩ := bind_eq_ok.1 h
    obtain ⟨_, _, h⟩ := bind_eq_ok.1 h
    obtain ⟨_, hd, -⟩ := bind_eq_ok.1 h
    rw [Result.lift_eq_ok] at hm hd
    unfold evaluateMembers at hm
    obtain ⟨_, -, hm⟩ := bind_eq_ok.1 hm
    unfold evaluateDomains at hd
    obtain ⟨_, hbound, -⟩ := bind_eq_ok.1 hd
    rw [pure_eq_ok] at hm
    rw [ensure_eq_ok, ← hm] at hbound
    exact hbound
  · rintro ⟨h, hbound⟩
    obtain ⟨ledger, hledger, hcapacity, hdomain⟩ := h.ledger
    have hevidence : p.findings.toEvidence =
        { policy := request.policy, snapshot := request.snapshot, members := p.findings.members
          domains := p.findings.domains } := by
      rw [← h.policy, ← h.snapshot]
    have hpod : p.findings.toPodEvidence =
        { p.findings.toEvidence with
          capacity := ledger.byResource, pairs := p.findings.pairs } := by
      rw [← hcapacity]
    unfold runPasses
    refine bind_eq_ok.2 ⟨initialMembers request, Result.lift_eq_ok.2 ?_, ?_⟩
    · exact bind_eq_ok.2 ⟨(), ensure_eq_ok.2 h.racks, rfl⟩
    refine bind_eq_ok.2 ⟨_, Result.lift_eq_ok.2 h.epoch, ?_⟩
    refine bind_eq_ok.2 ⟨(p.findings.domains, p.findings.members), Result.lift_eq_ok.2 ?_, ?_⟩
    · exact bind_eq_ok.2 ⟨(), ensure_eq_ok.2 hbound, by rw [h.domains, h.members]; rfl⟩
    refine bind_eq_ok.2 ⟨ledger, Result.lift_eq_ok.2 hledger, ?_⟩
    refine bind_eq_ok.2 ⟨p.findings.pairs, hevidence ▸ h.pairs, ?_⟩
    rw [pure_eq_ok, ← hevidence, ← hpod, ← h.obligations, ← h.context, ← hdomain]

/-- A rerun judges the racks alike, as far as they are settled. -/
theorem Reruns.initialMembers (h : Reruns request request') :
    (initialMembers request').map MemberWork.settled =
      (initialMembers request).map MemberWork.settled := by
  unfold PodFabric.initialMembers
  rw [h.racks, List.map_map, List.map_map]
  exact List.map_congr_left h.settled

/-- The passes over the same evidence go through and agree, if the epoch can be advanced. -/
theorem Reruns.runPasses (h : Reruns request request') (hp : runPasses request = .ok p)
    {epoch : PodEpoch} (he : adoptGenerationAdvances request'.context.epoch
      (PodFabric.initialMembers request') = .ok epoch) :
    ∃ p', PodFabric.runPasses request' = .ok p' ∧ Alike p p' ∧ p'.findings.epoch = epoch := by
  obtain ⟨hof, hbound⟩ := runPasses_eq_ok.1 hp
  obtain ⟨ledger, hledger, hcapacity, hdomain⟩ := hof.ledger
  have hsettled := h.initialMembers
  have hchecked : checkedDomains request'.snapshot (PodFabric.initialMembers request') =
      checkedDomains request.snapshot (PodFabric.initialMembers request) := by
    rw [← checkedDomains_settled, hsettled, checkedDomains_settled, h.snapshot]
  have hcovered : coveredDomains request'.snapshot (PodFabric.initialMembers request') =
      coveredDomains request.snapshot (PodFabric.initialMembers request) := by
    rw [← coveredDomains_settled, hsettled, coveredDomains_settled, h.snapshot]
  have hdomains : (checkedDomains request'.snapshot (PodFabric.initialMembers request')).map
      (markOverlap (checkedDomains request'.snapshot (PodFabric.initialMembers request'))
        (PodFabric.initialMembers request')) = p.findings.domains := by
    rw [hof.domains, hchecked, ← markOverlap_settled, hsettled, markOverlap_settled]
  let members := (PodFabric.initialMembers request').map
    (noteOverlap (checkedDomains request'.snapshot (PodFabric.initialMembers request')))
  have hmembers : members.map MemberWork.settled =
      p.findings.members.map MemberWork.settled := by
    have hnote (ms : List MemberWork) (domains : List DomainWork) :
        (ms.map (noteOverlap domains)).map MemberWork.settled =
          (ms.map MemberWork.settled).map (noteOverlap domains) := by
      rw [List.map_map, List.map_map]
      rfl
    rw [hof.members, hnote, hnote, hsettled, hchecked]
  let ev : Evidence :=
    { policy := request.policy, snapshot := request.snapshot, members
      domains := p.findings.domains }
  let pe : PodEvidence := { ev with capacity := p.findings.capacity, pairs := p.findings.pairs }
  have hev : ev.settled = p.findings.toEvidence.settled := by
    simp only [Evidence.settled, ev, hmembers, hof.policy, hof.snapshot]
  have hpe : pe.settled = p.findings.toPodEvidence.settled := by
    change PodEvidence.mk ev.settled p.findings.capacity p.findings.pairs = _
    rw [hev]
    rfl
  let fd : Findings :=
    { pe with context := request'.context, epoch, obligations := p.findings.obligations }
  refine ⟨⟨fd, p.domainCapacity⟩, runPasses_eq_ok.2 ⟨⟨?_, h.policy.symm, h.snapshot.symm, rfl, he,
    hdomains.symm, rfl, ⟨ledger, ?_, hcapacity, hdomain⟩, ?_, ?_⟩, ?_⟩,
    ⟨hof.policy.symm, hof.snapshot.symm, hmembers, rfl, rfl, rfl, rfl⟩, rfl⟩
  · rw [h.racks, h.policy]
    exact hof.racks
  · change evaluateCapacity request'.policy members = .ok ledger
    rw [h.policy, ← evaluateCapacity_settled, hmembers, evaluateCapacity_settled]
    exact hledger
  · change evaluateConnectivity ev = .ok p.findings.pairs
    rw [← evaluateConnectivity_settled, hev, evaluateConnectivity_settled]
    exact hof.pairs
  · change p.findings.obligations = request'.snapshot.obligations.map (judgeObligation pe)
    rw [← judgeObligation_settled, hpe, judgeObligation_settled, h.snapshot]
    exact hof.obligations
  · rw [hcovered, h.policy]
    exact hbound

/-! ### The lifecycle the evidence asks for -/

/-- The fences of the racks are settled. -/
theorem memberFences_settled {members : List MemberWork} :
    memberFences (members.map MemberWork.settled) = memberFences members := by
  unfold memberFences
  rw [List.filter_map, List.map_map]
  rfl

/-- Passes that are alike are degraded alike. -/
theorem Alike.hasDegradation (h : Alike p p') :
    hasDegradation p'.findings = hasDegradation p.findings := by
  have hfences : evidenceFences p'.findings = evidenceFences p.findings := by
    unfold evidenceFences
    rw [← memberFences_settled, h.members, memberFences_settled, h.domains, h.pairs]
  have hany (p : Passes) : p.findings.members.any (fun work => work.verdict.status ≠ .established) =
      (p.findings.members.map MemberWork.settled).any fun work =>
        work.verdict.status ≠ .established := by
    rw [List.any_map]
    rfl
  unfold PodFabric.hasDegradation
  rw [hfences, hany p', hany p, h.members, h.pairs, h.capacity, h.domains, h.obligations]

/-- Passes that agree ask for the same lifecycle. -/
theorem Alike.evidenceLifecycle (h : Alike p p') :
    evidenceLifecycle p'.findings = evidenceLifecycle p.findings := by
  have hsettled : (establishedMembers p'.findings).map MemberWork.settled =
      (establishedMembers p.findings).map MemberWork.settled := by
    have hfilter (p : Passes) : (establishedMembers p.findings).map MemberWork.settled =
        (p.findings.members.map MemberWork.settled).filter MemberWork.established := by
      rw [List.filter_map]
      rfl
    rw [hfilter, hfilter, h.members]
  have hlength : (establishedMembers p'.findings).length =
      (establishedMembers p.findings).length := by
    simpa using congrArg List.length hsettled
  have hcount (admits : MemberVerdict → Bool) :
      (establishedMembers p'.findings).countP (fun work => admits work.verdict) =
        (establishedMembers p.findings).countP fun work => admits work.verdict := by
    have hsame := congrArg (List.countP fun work => admits work.verdict) hsettled
    rwa [List.countP_map, List.countP_map] at hsame
  have hexpected : connectivityExpected p'.findings = connectivityExpected p.findings := by
    unfold connectivityExpected
    rw [h.pairs, hlength, h.policy]
  unfold PodFabric.evidenceLifecycle
  dsimp only
  rw [hlength, hexpected, h.hasDegradation, h.pairs, h.policy,
    hcount fun verdict => verdict.admin = .maintenance,
    hcount fun verdict => verdict.admin ≠ .enabled]

end Reruns

/-! ## Rounds from what a round leaves -/

/-- A request over the same evidence, from the expectations and the epoch that a round has left. -/
structure Continues (request : CompositionRequest) (st : PodState)
    (request' : CompositionRequest) : Prop where
  policy : request'.policy = request.policy
  snapshot : request'.snapshot = request.snapshot
  expectations : request'.context.expectations =
    PodController.deriveExpectations st request.context.expectations
  epoch : request'.context.epoch = st.epoch
  tokens : request'.context.grantedTokens.length ≤ request.context.grantedTokens.length

section Continues
variable {request request' : CompositionRequest} {st : PodState} {p : Passes}

/-- A rack without a record is missing. -/
theorem memberWork_missing {rack : RackId}
    (h : rack ∉ request.snapshot.members.map MemberRecord.rack) :
    (memberWork request rack).verdict.status = .missing := by
  have hnone : (request.snapshot.members.filter fun member => member.rack = rack) = [] := by
    refine List.filter_eq_nil_iff.2 fun member hmember hrack => h ?_
    exact List.mem_map.2 ⟨member, hmember, by simpa using hrack⟩
  unfold memberWork
  rw [hnone]
  rfl

/-- What a round records for a rack follows from its verdict. -/
theorem derived_follows (h : compose request = .ok st) {m : MemberVerdict} (hm : m ∈ st.members) :
    Follows (memberWork request m.rack)
      (PodController.derivedExpectation request.context.expectations m) := by
  obtain ⟨-, hstatus, hgeneration, hdigest⟩ := compose_member h hm
  by_cases hestablished : m.status = .established
  · exact .established (hstatus ▸ hestablished) _ (derived_of_established hestablished) hgeneration
      hdigest
  by_cases hretiring : m.status = .retiring
  · exact .retiring (hstatus ▸ hretiring)
  · refine .other (hstatus ▸ hestablished) ?_
    rw [derived_of_other hestablished hretiring]
    exact evaluateMember_keeps.expectation.symm

/-- The next round covers the same racks. -/
theorem Continues.racks (h : Continues request st request') (hst : compose request = .ok st) :
    coveredRacks request' = coveredRacks request := by
  refine canonicalise_eq_of_mem_iff fun rack => ?_
  rw [h.snapshot, h.expectations, List.mem_append, List.mem_append]
  constructor
  · rintro (hin | hin)
    · exact .inl hin
    · obtain ⟨e, he, rfl⟩ := List.mem_map.1 hin
      obtain ⟨m, hm, hderived⟩ := mem_deriveExpectations.1 he
      rw [derivedExpectation_rack hderived]
      exact List.mem_append.1 (mem_canonicalise.1 (compose_member hst hm).1)
  · rintro (hin | hin)
    · exact .inl hin
    · by_cases hdescribed : rack ∈ request.snapshot.members.map MemberRecord.rack
      · exact .inl hdescribed
      · -- a rack that is expected and not described stays expected
        obtain ⟨m, hm, rfl⟩ := compose_covers hst
          (mem_canonicalise.2 (List.mem_append_right _ hin))
        have hmissing : m.status = .missing :=
          (compose_member hst hm).2.1.trans (memberWork_missing hdescribed)
        have hrecorded : recorded request.context.expectations m.rack ≠ none := fun hnone => by
          obtain ⟨e, he, hrack⟩ := List.mem_map.1 hin
          exact recorded_eq_none.1 hnone e he hrack
        obtain ⟨e, he⟩ := Option.ne_none_iff_exists'.1 hrecorded
        have hderived : PodController.derivedExpectation request.context.expectations m =
            some e := by
          rw [derived_of_other (by simp [hmissing]) (by simp [hmissing]), he]
        exact .inr (List.mem_map.2 ⟨e, mem_deriveExpectations.2 ⟨m, hm, hderived⟩,
          derivedExpectation_rack hderived⟩)

/-- A rack is judged the same in the next round over the same evidence. -/
theorem Continues.again (h : Continues request st request') (hst : compose request = .ok st)
    {rack : RackId} (hrack : rack ∈ coveredRacks request) :
    (memberWork request' rack).settled = (memberWork request rack).settled ∧
      ((memberWork request rack).established = true →
        (memberWork request' rack).adopted = false) := by
  obtain ⟨m, hm, rfl⟩ := compose_covers hst hrack
  have hfollows := derived_follows hst hm
  rw [← recorded_derive hst hm, ← h.expectations] at hfollows
  have hagain := evaluateMember_again hfollows
  unfold memberWork
  rw [h.policy, h.snapshot]
  exact hagain

/-- A round over the same evidence goes through, agrees with the one before it, and adopts
nothing. -/
theorem Continues.runPasses (h : Continues request st request') (hst : compose request = .ok st)
    (hp : runPasses request = .ok p) :
    request'.validate = .ok () ∧ ∃ p', PodFabric.runPasses request' = .ok p' ∧ Alike p p' ∧
      p'.findings.epoch = st.epoch := by
  have hreruns : Reruns request request' :=
    ⟨h.policy, h.snapshot, h.racks hst, fun rack hrack => (h.again hst hrack).1⟩
  have hnone : (initialMembers request').any (fun work => work.established && work.adopted) =
      false := by
    refine List.any_eq_false.2 fun work hwork => ?_
    obtain ⟨rack, hrack, rfl⟩ := List.mem_map.1 hwork
    rw [h.racks hst] at hrack
    obtain ⟨hsettled, hadopted⟩ := h.again hst hrack
    have hsame : (memberWork request' rack).settled.established =
        (memberWork request rack).settled.established := by rw [hsettled]
    change (memberWork request' rack).established = (memberWork request rack).established at hsame
    rw [hsame]
    cases hestablished : (memberWork request rack).established with
    | false => simp
    | true => simp [hadopted hestablished]
  have hepoch : adoptGenerationAdvances request'.context.epoch (initialMembers request') =
      .ok st.epoch := by
    unfold adoptGenerationAdvances
    rw [hnone, h.epoch]
    rfl
  obtain ⟨hsnapshot, hcontext⟩ := validate_request_iff.1 (compose_eq_ok.1 hst).1
  have hexpectable : Expectable request.policy.maxMembers request'.context.expectations :=
    h.expectations ▸ compose_expectable hst
  refine ⟨validate_request_iff.2 ⟨?_, ?_⟩, hreruns.runPasses hp hepoch⟩
  · rw [h.snapshot, h.policy]
    exact hsnapshot
  · rw [h.policy]
    exact ⟨hexpectable.bound, h.tokens.trans hcontext.tokenBound, hexpectable.racks,
      hexpectable.unique⟩

end Continues

end PodFabric
