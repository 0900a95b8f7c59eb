import PodFabric.Proof.Connectivity
import PodFabric.Proof.Decisions
import PodFabric.Proof.MissingEvidence

/-!
# The fate a link shares

A link is usable when nothing is held against it (`Clear`) and its failure domain does not stand in
its way (`classifyLink_usable_iff`). A declared domain stands in the way unless it is sound; a
domain that is not declared never does, so that the links of such domains are the only ones that can
be better than their domain (`fate_shared_iff`).
-/

namespace PodFabric

/-! ## Domains -/

/-- The snapshot declares the domain. -/
def PodSnapshot.Declares (snapshot : PodSnapshot) (id : DomainId) : Prop :=
  ∃ record ∈ snapshot.domains, record.id = id

/-- The state has a verdict on the domain, and every such verdict has the status. -/
def PodState.HasDomain (st : PodState) (id : DomainId) (status : DomainStatus) : Prop :=
  (∃ d ∈ st.domains, d.id = id) ∧ ∀ d ∈ st.domains, d.id = id → d.status = status

section Domains
variable {request : CompositionRequest} {p : Passes} {snapshot : PodSnapshot} {id : DomainId}
  {members : List MemberWork} {domains : List DomainWork} {work : DomainWork}

/-- A domain is implicit when no record declares it. -/
theorem newDomain_implicit : (newDomain snapshot id).implicit = true ↔ ¬ snapshot.Declares id := by
  unfold newDomain PodSnapshot.Declares
  rw [List.findRev?_eq_find?_reverse]
  split
  · next record hfind =>
    refine iff_of_false (by simp [DomainWork.implicit]) (not_not.2 ⟨record, ?_, ?_⟩)
    · exact List.mem_reverse.1 (List.mem_of_find?_eq_some hfind)
    · simpa using List.find?_some hfind
  · next hnone =>
    rw [List.find?_eq_none] at hnone
    refine iff_of_true rfl ?_
    rintro ⟨record, hrecord, hid⟩
    exact hnone record (List.mem_reverse.2 hrecord) (by simpa using hid)

/-- Checking a domain leaves whether it is implicit. -/
theorem checkDomain_implicit : (checkDomain members work).implicit = work.implicit := by
  unfold checkDomain
  dsimp only
  repeat' split
  all_goals rfl

/-- Marking an overlap leaves whether the domain is implicit. -/
theorem markOverlap_implicit : (markOverlap domains members work).implicit = work.implicit := by
  unfold markOverlap
  dsimp only
  split <;> rfl

/-- A domain whose membership is checked is sound, in conflict, degraded or incomplete, and an
implicit one is not sound. -/
theorem checkDomain_status : (checkDomain members work).verdict.status ≠ .indeterminate ∧
    ((checkDomain members work).verdict.status = .ok → work.implicit = false) := by
  unfold checkDomain
  dsimp only
  split
  · exact ⟨nofun, nofun⟩
  split
  · exact ⟨nofun, nofun⟩
  split
  · exact ⟨nofun, nofun⟩
  split
  · exact ⟨nofun, nofun⟩
  · next hexplicit => exact ⟨nofun, fun _ => Bool.eq_false_iff.2 hexplicit⟩

/-- Marking an overlap leaves the status or makes it a conflict. -/
theorem markOverlap_status :
    (markOverlap domains members work).verdict.status = work.verdict.status ∨
      (markOverlap domains members work).verdict.status = .conflicting := by
  unfold markOverlap
  dsimp only
  split
  · exact .inl rfl
  · exact .inr rfl

/-- The verdict on a domain read names it. -/
theorem newDomain_verdictId : (newDomain snapshot id).verdict.id = id := by
  unfold newDomain
  split <;> rfl

/-- Checking a domain leaves its verdict's name. -/
theorem checkDomain_verdictId : (checkDomain members work).verdict.id = work.verdict.id := by
  unfold checkDomain
  dsimp only
  repeat' split
  all_goals rfl

/-- Marking an overlap leaves the verdict's name. -/
theorem markOverlap_verdictId :
    (markOverlap domains members work).verdict.id = work.verdict.id := by
  unfold markOverlap
  dsimp only
  split <;> rfl

/-- What a round finds out about a domain. -/
structure Assessed (snapshot : PodSnapshot) (work : DomainWork) : Prop where
  verdictId : work.verdict.id = work.id
  implicit : work.implicit = true ↔ ¬ snapshot.Declares work.id
  decided : work.verdict.status ≠ .indeterminate
  explicit : work.verdict.status = .ok → work.implicit = false

/-- A checked domain is assessed. -/
theorem checkDomain_assessed :
    Assessed snapshot (checkDomain members (newDomain snapshot id)) where
  verdictId := by rw [checkDomain_verdictId, newDomain_verdictId, checkDomain_id, newDomain_id]
  implicit := by rw [checkDomain_implicit, newDomain_implicit, checkDomain_id, newDomain_id]
  decided := checkDomain_status.1
  explicit h := checkDomain_implicit.trans (checkDomain_status.2 h)

/-- A domain stays assessed when its overlaps are marked. -/
theorem Assessed.markOverlap (h : Assessed snapshot work) :
    Assessed snapshot (markOverlap domains members work) where
  verdictId := by rw [markOverlap_verdictId, h.verdictId, markOverlap_id]
  implicit := by rw [markOverlap_implicit, h.implicit, markOverlap_id]
  decided hind := by
    rcases @markOverlap_status members domains work with hsame | hconflicting
    · exact h.decided (hsame.symm.trans hind)
    · cases hconflicting.symm.trans hind
  explicit hok := by
    rcases @markOverlap_status members domains work with hsame | hconflicting
    · exact markOverlap_implicit.trans (h.explicit (hsame.symm.trans hok))
    · cases hconflicting.symm.trans hok

/-- Every domain of a composition is assessed. -/
theorem PassesOf.assessed (h : PassesOf request p) (hw : work ∈ p.findings.domains) :
    Assessed request.snapshot work := by
  rw [h.domains] at hw
  obtain ⟨checked, hchecked, rfl⟩ := List.mem_map.1 hw
  obtain ⟨id, -, rfl⟩ := List.mem_map.1 hchecked
  exact checkDomain_assessed.markOverlap

/-- A declared domain is looked up. -/
theorem PassesOf.findDomain (h : PassesOf request p) (hdeclared : request.snapshot.Declares id) :
    ∃ work, findDomain p.findings.domains id = some work := by
  obtain ⟨record, hrecord, rfl⟩ := hdeclared
  have hcovered : record.id ∈ coveredDomains request.snapshot (initialMembers request) :=
    mem_canonicalise.2 (List.mem_append_left _ (List.mem_map_of_mem hrecord))
  refine Option.isSome_iff_exists.1 (List.find?_isSome.2 ?_)
  refine ⟨_, h.domains ▸ List.mem_map_of_mem (List.mem_map_of_mem hcovered), ?_⟩
  simp [markOverlap_id, checkDomain_id, newDomain_id]

/-- The domain found for an identifier is about it. -/
theorem findDomain_id (h : findDomain domains id = some work) : work ∈ domains ∧ work.id = id :=
  ⟨List.mem_of_find?_eq_some h, by simpa using List.find?_some h⟩

/-- The state has the verdict of the working record of a domain, and no other. -/
theorem PassesOf.hasDomain (h : PassesOf request p) (hw : work ∈ p.findings.domains)
    {status : DomainStatus} :
    p.draft.finalise.HasDomain work.id status ↔ work.verdict.status = status := by
  have hin : work.verdict.canonicalise ∈ p.draft.finalise.domains :=
    mem_finalise_domains.2 ⟨work, hw, rfl⟩
  constructor
  · rintro ⟨-, hall⟩
    have hstatus := hall _ hin
    exact hstatus (h.assessed hw).verdictId
  · rintro rfl
    refine ⟨⟨_, hin, (h.assessed hw).verdictId⟩, fun d hd hid => ?_⟩
    obtain ⟨work', hw', rfl⟩ := mem_finalise_domains.1 hd
    have hsame : work'.id = work.id := (h.assessed hw').verdictId.symm.trans hid
    rw [List.inj_on_of_nodup_map h.domain_ids hw' hw hsame]
    rfl

/-- A domain stands in the way of its links just when it is declared and not sound. -/
theorem PassesOf.domainFate_none_iff (h : PassesOf request p) {link : LinkRecord} :
    domainFate p.findings.toEvidence link = none ↔ (request.snapshot.Declares link.domain →
      p.draft.finalise.HasDomain link.domain .ok) := by
  unfold domainFate
  cases hfind : PodFabric.findDomain p.findings.domains link.domain with
  | none =>
    refine iff_of_true rfl fun hdeclared => ?_
    obtain ⟨work, hwork⟩ := h.findDomain hdeclared
    cases hfind.symm.trans hwork
  | some work =>
    obtain ⟨hw, hid⟩ := findDomain_id hfind
    have hassessed := h.assessed hw
    rw [← hid, ← not_not (a := request.snapshot.Declares work.id), ← hassessed.implicit,
      h.hasDomain hw]
    dsimp only
    split
    · next himplicit => exact iff_of_true rfl fun hexplicit => absurd himplicit hexplicit
    next hexplicit =>
    split
    · next hconflicting =>
      refine iff_of_false nofun fun hsound => ?_
      cases hconflicting.symm.trans (hsound hexplicit)
    split
    · next hunwell =>
      refine iff_of_false nofun fun hsound => ?_
      rcases hunwell with hstatus | hstatus <;> cases hstatus.symm.trans (hsound hexplicit)
    · next hconflicting hunwell =>
      refine iff_of_true rfl fun _ => ?_
      have hdecided := hassessed.decided
      cases hstatus : work.verdict.status <;> simp_all

end Domains

/-! ## Links -/

/-- A single record establishes the rack at the generation, in good health and not disabled. -/
def CompositionRequest.Serves (request : CompositionRequest) (rack : RackId)
    (generation : RackGeneration) : Prop :=
  ∃ record adopted,
    (request.snapshot.members.filter fun member => member.rack = rack) = [record] ∧
      Establishes request.policy request.snapshot.observedAt record
        (request.context.expectations.findRev? fun expectation => expectation.rack = rack) adopted ∧
      record.health = .ok ∧ record.admin ≠ .disabled ∧ record.generation = generation

/-- Its failure domain apart, nothing is held against the link. -/
structure LinkRecord.Clear (request : CompositionRequest) (link : LinkRecord) : Prop where
  left : request.Serves link.a.rack link.aGeneration
  right : request.Serves link.b.rack link.bGeneration
  enabled : link.admin = .enabled
  up : link.oper = .up
  fresh : freshness request.policy request.snapshot.observedAt link.observedAt = none
  cited : link.route = .nil ∨ ∃ route,
    request.snapshot.routes.find? (fun route => route.ref = link.route) = some route ∧
      route.state = .installed

section Links
variable {request : CompositionRequest} {p : Passes} {link : LinkRecord} {rack : RackId}
  {generation : RackGeneration} {ev : Evidence}

/-- The working record of a rack that serves. -/
structure MemberWork.Serves (work : MemberWork) (generation : RackGeneration) : Prop where
  established : work.established = true
  usable : work.connectivityUsable = true
  generation : generation = work.verdict.generation
  health : work.verdict.health ≠ .impaired

/-- A rack serves a generation exactly when the request says so. -/
theorem memberWork_serves :
    (memberWork request rack).Serves generation ↔ request.Serves rack generation := by
  rcases @evaluateMember_cases request.policy request.snapshot.observedAt rack
    (request.snapshot.members.filter fun member => member.rack = rack)
    (request.context.expectations.findRev? fun expectation => expectation.rack = rack) with
    ⟨record, hrecord, hjudged⟩ | ⟨hnot, hwithheld, -⟩
  · cases hjudged with
    | withheld hwithheld _ _ hrefused =>
      refine iff_of_false (fun h => ?_) ?_
      · cases h.established.symm.trans hwithheld.established
      · rintro ⟨record', adopted, hrecord', hestablishes, -⟩
        obtain rfl : record = record' := by simpa using hrecord.symm.trans hrecord'
        exact hrefused adopted hestablishes
    | established hestablishes reports status flag capacityUsable connectivityUsable =>
      constructor
      · intro h
        have husable : usableState record.health record.admin = true :=
          connectivityUsable.symm.trans h.usable
        have hhealth := h.health
        simp only [usableState, decide_eq_true_eq] at husable
        rw [show (memberWork request rack).verdict.health = record.health from reports.health]
          at hhealth
        exact ⟨record, _, hrecord, hestablishes, husable.1.resolve_right hhealth, husable.2,
          reports.generation.symm.trans h.generation.symm⟩
      · rintro ⟨record', adopted, hrecord', -, hhealth, hadmin, rfl⟩
        obtain rfl : record = record' := by simpa using hrecord.symm.trans hrecord'
        refine ⟨flag, connectivityUsable.trans ?_, reports.generation.symm, ?_⟩
        · simp [usableState, hhealth, hadmin]
        · rw [show (memberWork request rack).verdict.health = record.health from reports.health,
            hhealth]
          decide
  · refine iff_of_false (fun h => ?_) ?_
    · cases h.established.symm.trans hwithheld.established
    · rintro ⟨record, -, hrecord, -⟩
      exact hnot record hrecord

/-- A rack serves just when its working record is found and does. -/
theorem PassesOf.serves_iff (h : PassesOf request p) : request.Serves rack generation ↔
    ∃ work, findMember p.findings.members rack = some work ∧ work.Serves generation := by
  have hwork {work : MemberWork} (hfind : findMember p.findings.members rack = some work) :
      work.Serves generation ↔ (memberWork request rack).Serves generation := by
    obtain ⟨rack', -, rfl⟩ := h.mem_members.1 (mem_of_findMember hfind)
    obtain rfl : rack' = rack := by simpa [noteOverlap] using findMember_rack hfind
    exact ⟨fun h => ⟨h.1, h.2, h.3, h.4⟩, fun h => ⟨h.1, h.2, h.3, h.4⟩⟩
  constructor
  · intro hserves
    have hcovered : rack ∈ coveredRacks request := by
      obtain ⟨record, -, hrecord, -⟩ := hserves
      have hmem : record ∈ request.snapshot.members.filter fun member => member.rack = rack :=
        hrecord ▸ List.mem_singleton_self record
      obtain ⟨hin, hrack⟩ := List.mem_filter.1 hmem
      exact mem_canonicalise.2 (List.mem_append_left _
        (List.mem_map.2 ⟨record, hin, by simpa using hrack⟩))
    have hsome : (findMember p.findings.members rack).isSome := by
      refine List.find?_isSome.2 ⟨_, h.mem_members.2 ⟨rack, hcovered, rfl⟩, ?_⟩
      simp [noteOverlap]
    obtain ⟨work, hfind⟩ := Option.isSome_iff_exists.1 hsome
    exact ⟨work, hfind, (hwork hfind).2 (memberWork_serves.2 hserves)⟩
  · rintro ⟨work, hfind, hserves⟩
    exact memberWork_serves.1 ((hwork hfind).1 hserves)

/-- A link's route raises no reason when none is cited, or the cited one is installed. -/
theorem citedRoute_none_iff : citedRoute ev link = none ↔ link.route = .nil ∨ ∃ route,
    ev.snapshot.routes.find? (fun route => route.ref = link.route) = some route ∧
      route.state = .installed := by
  unfold citedRoute
  split
  · next hnil => exact iff_of_true rfl (.inl hnil)
  next hcites =>
  split
  · next hnone => simp [hcites, hnone]
  next route hroute =>
  rw [hroute]
  split
  · next hgone =>
    refine iff_of_false nofun ?_
    rintro (hnil | ⟨route', hsame, hinstalled⟩)
    · exact hcites hnil
    · cases hsame
      rcases hgone with hstate | hstate <;> cases hstate.symm.trans hinstalled
  split
  · next hunsettled =>
    refine iff_of_false nofun ?_
    rintro (hnil | ⟨route', hsame, hinstalled⟩)
    · exact hcites hnil
    · cases hsame
      exact hunsettled hinstalled
  · next hinstalled => exact iff_of_true rfl (.inr ⟨route, rfl, not_not.1 hinstalled⟩)

/-- What a link is usable for, apart from the racks and routes of the request. -/
theorem classifyLink_usable_iff : (classifyLink ev link).status = .usable ↔
    (∃ work, findMember ev.members link.a.rack = some work ∧ work.Serves link.aGeneration) ∧
    (∃ work, findMember ev.members link.b.rack = some work ∧ work.Serves link.bGeneration) ∧
    link.admin = .enabled ∧ link.oper = .up ∧
    freshness ev.policy ev.snapshot.observedAt link.observedAt = none ∧
    citedRoute ev link = none ∧ domainFate ev link = none := by
  constructor
  · intro h
    unfold classifyLink at h
    dsimp only at h
    split at h
    swap
    · cases h
    next a b ha hb =>
    split at h
    · cases h
    next hestablished =>
    split at h
    · cases h
    next husable =>
    split at h
    · cases h
    next henabled =>
    split at h
    · cases h
    next hdown =>
    split at h
    · cases h
    next hknown =>
    split at h
    · cases h
    next hgen =>
    split at h
    · cases h
    next hfresh =>
    split at h
    · next status reason hcited =>
      have hwithheld := citedRoute_some hcited
      rw [show status = .usable from h] at hwithheld
      cases hwithheld
    next hcited =>
    split at h
    · next hfate => exact absurd h (domainFate_some hfate).1
    next hfate =>
    split at h
    · cases h
    next hgood =>
    simp only [not_or, not_not, ne_eq] at hestablished husable henabled hgen hgood
    refine ⟨⟨a, ha, hestablished.1, husable.1, hgen.1, hgood.2.1⟩,
      ⟨b, hb, hestablished.2, husable.2, hgen.2, hgood.2.2⟩, henabled, ?_, hfresh, hcited, hfate⟩
    cases hoper : link.oper <;> simp_all
  · rintro ⟨⟨a, ha, hservesA⟩, ⟨b, hb, hservesB⟩, henabled, hup, hfresh, hcited, hfate⟩
    simp [classifyLink, ha, hb, hservesA.established, hservesB.established, hservesA.usable,
      hservesB.usable, hservesA.health, hservesB.health, ← hservesA.generation,
      ← hservesB.generation, henabled, hup, hfresh, hcited, hfate]

end Links

/-! ## The fate of a link -/

section Fate
variable {request : CompositionRequest} {p : Passes} {st : PodState} {link : LinkRecord}

/-- A link is usable when it is clear and its declared domain is composed `ok`. -/
theorem PassesOf.usable_iff (h : PassesOf request p) :
    (classifyLink p.findings.toEvidence link).status = .usable ↔ link.Clear request ∧
      (request.snapshot.Declares link.domain →
        p.draft.finalise.HasDomain link.domain .ok) := by
  rw [classifyLink_usable_iff, h.domainFate_none_iff, citedRoute_none_iff, ← h.serves_iff,
    ← h.serves_iff, h.policy, h.snapshot]
  constructor
  · rintro ⟨hleft, hright, henabled, hup, hfresh, hcited, hfate⟩
    exact ⟨⟨hleft, hright, henabled, hup, hfresh, hcited⟩, hfate⟩
  · rintro ⟨hclear, hfate⟩
    exact ⟨hclear.left, hclear.right, hclear.enabled, hclear.up, hclear.fresh, hclear.cited, hfate⟩

/-- **The links of a composition share the fate of their domains just when something else is held
against every link of a domain that is not declared.** -/
theorem fate_shared_iff (h : compose request = .ok st) (hp : runPasses request = .ok p) :
    (∀ link ∈ request.snapshot.links,
      (classifyLink p.findings.toEvidence link).status = .usable →
        request.snapshot.Declares link.domain ∧ st.HasDomain link.domain .ok) ↔
      ∀ link ∈ request.snapshot.links,
        ¬ request.snapshot.Declares link.domain → ¬ link.Clear request := by
  obtain ⟨p', hp', hpasses, rfl⟩ := compose_passesOf h
  obtain rfl : p' = p := Except.ok.inj (hp'.symm.trans hp)
  constructor
  · intro hshared link hlink hundeclared hclear
    have husable := hpasses.usable_iff.2 ⟨hclear, fun hdeclared => absurd hdeclared hundeclared⟩
    exact hundeclared (hshared link hlink husable).1
  · intro hheld link hlink husable
    obtain ⟨hclear, hfate⟩ := hpasses.usable_iff.1 husable
    have hdeclared : request.snapshot.Declares link.domain := by
      by_contra hundeclared
      exact hheld link hlink hundeclared hclear
    exact ⟨hdeclared, hfate hdeclared⟩

end Fate

/-- The sample pod, with its link in a domain that is not declared. -/
def Sample.astray : CompositionRequest where
  snapshot := { Sample.snapshot with links := [{ Sample.link with domain := Sample.idOf "astray" }] }

/-- The link of the sample pod shares the fate of its domain. -/
theorem sample_fate : ∃ st p, compose Sample.request = .ok st ∧
    runPasses Sample.request = .ok p ∧ ∀ link ∈ Sample.request.snapshot.links,
      (classifyLink p.findings.toEvidence link).status = .usable →
        Sample.request.snapshot.Declares link.domain ∧ st.HasDomain link.domain .ok := by
  have hok : (compose Sample.request).isOk = true := by decide +kernel
  cases hst : compose Sample.request with
  | error fault =>
    rw [hst] at hok
    cases hok
  | ok st =>
    obtain ⟨p, hp, -⟩ := compose_passesOf hst
    refine ⟨st, p, rfl, hp, (fate_shared_iff hst hp).2 fun link hlink hundeclared => ?_⟩
    obtain rfl : link = Sample.link := List.mem_singleton.1 hlink
    exact absurd ⟨_, List.mem_singleton_self _, rfl⟩ hundeclared

/-- A link in a domain that is not declared is usable. -/
theorem astray_usable : ¬ ∀ request st p, compose request = .ok st → runPasses request = .ok p →
    ∀ link ∈ request.snapshot.links,
      (classifyLink p.findings.toEvidence link).status = .usable →
        request.snapshot.Declares link.domain ∧ st.HasDomain link.domain .ok := by
  intro hclaim
  have hrun : (runPasses Sample.astray).toOption.map (fun p =>
      Sample.astray.snapshot.links.map fun link =>
        (classifyLink p.findings.toEvidence link).status) = some [.usable] := by decide +kernel
  have hok : (compose Sample.astray).isOk = true := by decide +kernel
  cases hst : compose Sample.astray with
  | error fault =>
    rw [hst] at hok
    cases hok
  | ok st =>
    obtain ⟨p, hp, -⟩ := compose_passesOf hst
    rw [hp] at hrun
    have husable := List.cons.inj (Option.some.inj hrun)
    obtain ⟨record, hrecord, hid⟩ :=
      (hclaim _ st p hst hp _ (List.mem_singleton_self _) husable.1).1
    obtain rfl := List.mem_singleton.1 hrecord
    exact absurd hid (by decide)

end PodFabric
