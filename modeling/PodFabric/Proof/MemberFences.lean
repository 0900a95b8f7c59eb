import PodFabric.Proof.Conflicts

/-!
# Member fences

A round fences every rack that is not established, and under the same kind of fence every failure
domain in conflict. The fences of members are exact as long as a domain in conflict bears the name
of a rack that is fenced anyway (`member_fences_iff`).
-/

namespace PodFabric

/-- A single record establishes the rack. -/
def CompositionRequest.Establishes (request : CompositionRequest) (rack : RackId) : Prop :=
  ∃ record adopted,
    (request.snapshot.members.filter fun member => member.rack = rack) = [record] ∧
      PodFabric.Establishes request.policy request.snapshot.observedAt record
        (request.context.expectations.findRev? fun expectation => expectation.rack = rack) adopted

/-- The state fences something of a kind under a name. -/
def PodState.Fences (st : PodState) (kind : FenceKind) (subject : Text) : Prop :=
  ∃ fence ∈ st.fences, fence.kind = kind ∧ fence.subject = subject

section Members
variable {request : CompositionRequest} {p : Passes} {st : PodState} {rack : RackId}
    {subject : Text}

/-- The working record of a rack is established just when a single record establishes the rack. -/
theorem memberWork_established : (memberWork request rack).verdict.status = .established ↔
    request.Establishes rack := by
  rcases @evaluateMember_cases request.policy request.snapshot.observedAt rack
    (request.snapshot.members.filter fun member => member.rack = rack)
    (request.context.expectations.findRev? fun expectation => expectation.rack = rack) with
    ⟨record, hrecord, hjudged⟩ | ⟨hnot, hwithheld, -⟩
  · cases hjudged with
    | withheld hwithheld _ _ hrefused =>
      refine iff_of_false hwithheld.status ?_
      rintro ⟨record', adopted, hrecord', hestablishes⟩
      obtain rfl : record = record' := by simpa using hrecord.symm.trans hrecord'
      exact hrefused adopted hestablishes
    | established hestablishes _ status =>
      exact iff_of_true status ⟨record, _, hrecord, hestablishes⟩
  · refine iff_of_false hwithheld.status ?_
    rintro ⟨record, -, hrecord, -⟩
    exact hnot record hrecord

/-! ## The fences of a state -/

/-- The fences of tokens are of that kind. -/
theorem tokenFences_kind {fd : Findings} {fence : FenceAction} (h : fence ∈ tokenFences fd) :
    fence.kind = .token := by
  obtain ⟨token, -, rfl⟩ := List.mem_map.1 h
  rfl

/-- The fences of the pod are of that kind. -/
theorem podFences_kind {fd : Findings} {fence : FenceAction} (h : fence ∈ podFences fd) :
    fence.kind = .pod := by
  unfold podFences at h
  split at h
  · cases h
  · rw [List.mem_singleton.1 h]

/-- A member fence is on a rack that is not established. -/
theorem mem_memberFences {members : List MemberWork} {fence : FenceAction}
    (h : fence ∈ memberFences members) : fence.kind = .member ∧
      ∃ work ∈ members, work.verdict.status ≠ .established ∧ work.rack.token = fence.subject := by
  obtain ⟨work, hwork, rfl⟩ := List.mem_map.1 h
  obtain ⟨hin, hstatus⟩ := List.mem_filter.1 hwork
  exact ⟨rfl, work, hin, by simpa using hstatus, rfl⟩

/-- The fence of a domain's conflict is on the domain, as a member. -/
theorem mem_domainFences {domains : List DomainWork} {fence : FenceAction}
    (h : fence ∈ domainFences domains) : fence.kind = .member ∧
      ∃ work ∈ domains, work.verdict.status = .conflicting ∧ work.id.token = fence.subject := by
  obtain ⟨work, hwork, rfl⟩ := List.mem_map.1 h
  obtain ⟨hin, hstatus⟩ := List.mem_filter.1 hwork
  exact ⟨rfl, work, hin, by simpa using hstatus, rfl⟩

/-- The pair is fenced as a whole. -/
def LinkStatus.fenced (s : LinkStatus) : Bool := s = stale ∨ s = blocked ∨ s = conflicting

/-- The fences of a pair are one of the pair and one of each of its routes that is gone. -/
theorem mem_pairFences {work : PairWork} {fence : FenceAction} (h : fence ∈ pairFences work) :
    (fence.kind = .link ∧ work.verdict.status.fenced = true ∧
      fence.subject = work.verdict.source.token ++ [46] ++ work.verdict.target.token) ∨
    (fence.kind = .route ∧ ∃ route ∈ work.routes,
      (route.state = .withdrawn ∨ route.state = .failed) ∧ fence.subject = route.ref.token) := by
  rcases List.mem_append.1 h with hlink | hroute
  · split at hlink
    · next hstatus =>
      rw [List.mem_singleton.1 hlink]
      exact .inl ⟨rfl, by simpa [LinkStatus.fenced] using hstatus, rfl⟩
    · cases hlink
  · obtain ⟨route, hin, rfl⟩ := List.mem_map.1 hroute
    obtain ⟨hroute, hstate⟩ := List.mem_filter.1 hin
    exact .inr ⟨rfl, route, hroute, by simpa using hstate, rfl⟩

/-- Where the composed fences come from. -/
theorem mem_finalise_fences {fence : FenceAction} : fence ∈ p.draft.finalise.fences ↔
    fence ∈ memberFences p.findings.members ∨ fence ∈ domainFences p.findings.domains ∨
      (∃ work ∈ p.findings.pairs, fence ∈ pairFences work) ∨ fence ∈ tokenFences p.findings ∨
        fence ∈ podFences p.findings := by
  have hfences : p.draft.finalise.fences =
      sorted (evidenceFences p.findings ++ tokenFences p.findings ++ podFences p.findings) := rfl
  rw [hfences]
  simp only [sorted, mem_sortOn, evidenceFences, List.mem_append, List.mem_flatMap, or_assoc]

/-- The fences of members are those of the racks that are not established and of the domains in
conflict. -/
theorem fences_member : p.draft.finalise.Fences .member subject ↔
    (∃ work ∈ p.findings.members, work.verdict.status ≠ .established ∧
      work.rack.token = subject) ∨
    ∃ work ∈ p.findings.domains, work.verdict.status = .conflicting ∧
      work.id.token = subject := by
  constructor
  · rintro ⟨fence, hfence, hkind, rfl⟩
    rcases mem_finalise_fences.1 hfence with hmember | hdomain | ⟨work, -, hpair⟩ | htoken | hpod
    · exact .inl (mem_memberFences hmember).2
    · exact .inr (mem_domainFences hdomain).2
    · rcases mem_pairFences hpair with ⟨hlink, -⟩ | ⟨hroute, -⟩
      · cases hkind.symm.trans hlink
      · cases hkind.symm.trans hroute
    · cases hkind.symm.trans (tokenFences_kind htoken)
    · cases hkind.symm.trans (podFences_kind hpod)
  · rintro (⟨work, hwork, hstatus, rfl⟩ | ⟨work, hwork, hstatus, rfl⟩)
    · exact ⟨_, mem_finalise_fences.2 (.inl (List.mem_map_of_mem
        (List.mem_filter.2 ⟨hwork, by simpa using hstatus⟩))), rfl, rfl⟩
    · exact ⟨_, mem_finalise_fences.2 (.inr (.inl (List.mem_map_of_mem
        (List.mem_filter.2 ⟨hwork, by simpa using hstatus⟩)))), rfl, rfl⟩

/-! ## Exactness -/

/-- The state fences as members the racks that are not established, and nothing else. -/
def PodState.FencesExactly (st : PodState) : Prop :=
  ∀ subject, st.Fences .member subject ↔
    ∃ m ∈ st.members, m.status ≠ .established ∧ m.rack.token = subject

/-- The composed verdicts that are not established, said of the request. -/
theorem PassesOf.member_verdict (h : PassesOf request p) :
    (∃ m ∈ p.draft.finalise.members, m.status ≠ .established ∧ m.rack.token = subject) ↔
      ∃ rack ∈ coveredRacks request, ¬ request.Establishes rack ∧ rack.token = subject := by
  have hrack : ∀ rack, (memberWork request rack).verdict.rack = rack := fun _ =>
    evaluateMember_keeps.verdictRack
  constructor
  · rintro ⟨m, hm, hstatus, rfl⟩
    obtain ⟨work, hwork, rfl⟩ := mem_finalise_members.1 hm
    obtain ⟨rack, hcovered, rfl⟩ := h.mem_members.1 hwork
    exact ⟨rack, hcovered, mt memberWork_established.2 hstatus,
      congrArg BasicId.token (hrack rack).symm⟩
  · rintro ⟨rack, hcovered, hnot, rfl⟩
    exact ⟨_, mem_finalise_members.2 ⟨_, h.mem_members.2 ⟨rack, hcovered, rfl⟩, rfl⟩,
      mt memberWork_established.1 hnot, congrArg BasicId.token (hrack rack)⟩

/-- The judged racks that are not established, said of the request. -/
theorem PassesOf.member_work (h : PassesOf request p) :
    (∃ work ∈ p.findings.members, work.verdict.status ≠ .established ∧ work.rack.token = subject) ↔
      ∃ rack ∈ coveredRacks request, ¬ request.Establishes rack ∧ rack.token = subject := by
  constructor
  · rintro ⟨work, hwork, hstatus, rfl⟩
    obtain ⟨rack, hcovered, rfl⟩ := h.mem_members.1 hwork
    exact ⟨rack, hcovered, mt memberWork_established.2 hstatus,
      congrArg BasicId.token (@memberWork_rack request rack).symm⟩
  · rintro ⟨rack, hcovered, hnot, rfl⟩
    exact ⟨_, h.mem_members.2 ⟨rack, hcovered, rfl⟩, mt memberWork_established.1 hnot,
      congrArg BasicId.token (@memberWork_rack request rack)⟩

/-- A domain on which the evidence contradicts itself has a working record. -/
theorem PassesOf.inconsistent_covered (h : PassesOf request p) {id : DomainId}
    (hid : request.snapshot.Inconsistent id) : ∃ work ∈ p.findings.domains, work.id = id := by
  have hcovered : id ∈ coveredDomains request.snapshot (initialMembers request) := by
    have hdeclared : ∀ {rack}, id ∈ request.snapshot.domainsOf rack →
        id ∈ coveredDomains request.snapshot (initialMembers request) := fun hdeclares =>
      mem_canonicalise.2 (List.mem_append_right _ (List.mem_flatMap.2
        ⟨_, List.mem_map_of_mem (PodSnapshot.describes_of_domain hdeclares).covered,
          mem_memberWork_domains.2 hdeclares⟩))
    cases hid with
    | denied lists =>
      obtain ⟨record, hrecord, rfl, -⟩ := lists
      exact mem_canonicalise.2 (List.mem_append_left _ (List.mem_map_of_mem hrecord))
    | unlisted declares => exact hdeclared declares
    | overlapping _ declares => exact hdeclared declares
  refine ⟨_, h.domains ▸ List.mem_map_of_mem (List.mem_map_of_mem hcovered), ?_⟩
  simp [markOverlap_id, checkDomain_id, newDomain_id]

end Members

/-- The fences of members are exact just when every domain on which the evidence contradicts itself
bears the name of a rack that is not established. -/
theorem member_fences_iff {request : CompositionRequest} {st : PodState}
    (h : compose request = .ok st) : st.FencesExactly ↔
      ∀ id, request.snapshot.Inconsistent id →
        ∃ rack ∈ coveredRacks request, ¬ request.Establishes rack ∧ rack.token = id.token := by
  have hids := (validate_request_iff.1 (compose_eq_ok.1 h).1).1.domainIds
  obtain ⟨p, -, hp, rfl⟩ := compose_passesOf h
  unfold PodState.FencesExactly
  simp only [hp.member_verdict, fences_member, hp.member_work]
  constructor
  · intro hexact id hinconsistent
    obtain ⟨work, hwork, rfl⟩ := hp.inconsistent_covered hinconsistent
    exact (hexact _).1 (.inr ⟨work, hwork, (hp.conflicting_iff hids hwork).2 hinconsistent, rfl⟩)
  · intro hnamed subject
    refine ⟨?_, .inl⟩
    rintro (hmember | ⟨work, hwork, hconflicting, rfl⟩)
    · exact hmember
    · exact hnamed work.id ((hp.conflicting_iff hids hwork).1 hconflicting)

/-- The sample pod with a failure domain that bears the name of one of its racks and lists the
other, which does not declare it. -/
def Sample.namesake : CompositionRequest where
  snapshot := { Sample.snapshot with domains := Sample.snapshot.domains ++
    [{ id := ⟨Sample.rackA.token, Sample.rackA.canonical⟩, members := [Sample.rackB] }] }

/-- A rack of that pod is fenced although all of them are established. -/
theorem namesake_inexact : ∃ st, compose Sample.namesake = .ok st ∧ ¬ st.FencesExactly := by
  have hrun : (compose Sample.namesake).toOption.map (fun st =>
      (st.fences.any fun fence => fence.kind = .member ∧ fence.subject = text "a",
        st.members.any fun m => m.status ≠ .established)) = some (true, false) := by decide +kernel
  obtain ⟨st, hst, hview⟩ := composed_of_map hrun
  obtain ⟨hfence, hmember⟩ := Prod.mk.inj hview
  obtain ⟨fence, hin, hnamed⟩ := List.any_eq_true.1 hfence
  simp only [decide_eq_true_eq] at hnamed
  refine ⟨st, hst, fun hexact => ?_⟩
  obtain ⟨m, hm, hstatus, -⟩ := (hexact _).1 ⟨fence, hin, hnamed.1, hnamed.2⟩
  exact List.any_eq_false.1 hmember m hm (by simpa using hstatus)

/-- So the evidence contradicts itself on a domain that bears the name of no rack that is out. -/
theorem namesake_inconsistent : ∃ id, Sample.namesake.snapshot.Inconsistent id ∧
    ∀ rack ∈ coveredRacks Sample.namesake, ¬ Sample.namesake.Establishes rack →
      rack.token ≠ id.token := by
  obtain ⟨st, hst, hinexact⟩ := namesake_inexact
  have hnot := mt (member_fences_iff hst).2 hinexact
  push Not at hnot
  exact hnot

/-- An established rack is fenced under the name it shares with a domain. -/
theorem namesake_fenced : ¬ ∀ request st, compose request = .ok st → st.FencesExactly := by
  intro hclaim
  obtain ⟨st, hst, hinexact⟩ := namesake_inexact
  exact hinexact (hclaim _ st hst)

end PodFabric
