import PodFabric.Proof.Lifecycle

/-!
# Missing evidence

What a pod that is active and authoritative may still lack. Undeclared domains that a member refers
to, links of a rack of unknown health and racks that are expected but not described are all
noticed by some pass; a rack of unknown health that offers nothing, the undeclared domain of a link
and a listed rack that nobody expects are looked at by none (`missing_evidence_iff`).
-/

namespace PodFabric

/-! ## Links of a usable pair -/

section Pairs
variable {ev : Evidence} {f f' : PairFold}

/-- A path that leaves nothing bad found nothing bad, and carries. -/
theorem PairFold.Moved.worstBad_none {status : LinkStatus} (h : PairFold.Moved f f' status)
    (hnone : f'.worstBad = none) : f.worstBad = none ∧ status.carries = true := by
  rw [h.worstBad] at hnone
  cases hc : status.carries with
  | true => exact ⟨by simpa [hc] using hnone, rfl⟩
  | false => simp [hc] at hnone

/-- A fold without anything bad has only seen links that carry traffic. -/
theorem addLinks_carry : ∀ {os : List LinkOutcome} {f : PairFold},
    (os.foldl PairFold.addLink f).worstBad = none →
      f.worstBad = none ∧ ∀ o ∈ os, o.status.carries = true
  | [], f, h => ⟨h, by simp⟩
  | o :: os, f, h => by
    obtain ⟨hnone, hrest⟩ := @addLinks_carry os _ h
    obtain ⟨hf, ho⟩ := (PairFold.addLink_moved f o).worstBad_none hnone
    exact ⟨hf, List.forall_mem_cons.2 ⟨ho, hrest⟩⟩

/-- Routes that leave nothing bad found nothing bad. Induction on the routes. -/
theorem addRoutes_keep : ∀ {os : List LinkOutcome} {f : PairFold},
    (os.foldl PairFold.addRoute f).worstBad = none → f.worstBad = none
  | [], _, h => h
  | o :: os, f, h => by
    have hnone := @addRoutes_keep os _ h
    exact ((PairFold.addRoute_moved f o).worstBad_none hnone).1

/-- A pair concluded usable has no bad path that does not carry. -/
theorem conclude_usable {verdict verdict' : ConnectivityVerdict}
    (h : f.conclude verdict = .ok verdict') (hu : verdict'.status = .usable)
    (hbad : ∀ s, f.worstBad = some s → s.carries = false) : f.worstBad = none := by
  unfold PairFold.conclude at h
  split at h
  · cases h
    cases hu
  · split at h
    · split at h
      · cases h
      · cases h
        dsimp only at hu
        split at hu
        · cases hu
        · next hgood => simpa using (not_or.1 hgood).1
    · split at h
      · next s hs =>
        cases h
        have hcarries := hbad s hs
        rw [show s = .usable from hu] at hcarries
        cases hcarries
      · cases h
        cases hu

end Pairs

section Passes
variable {request : CompositionRequest} {p : Passes} {st : PodState}

/-- The pair of a link gets a verdict. -/
theorem PassesOf.link_collected (h : PassesOf request p)
    (hvalid : SnapshotValid request.snapshot request.policy) {link : LinkRecord}
    (hlink : link ∈ request.snapshot.links) :
    linkPair link ∈ collectedPairs p.findings.toEvidence := by
  have hproper : (linkPair link).proper = true := by
    obtain ⟨hracks, hdistinct⟩ := validate_link_racks ((hvalid.links link hlink).2)
    rcases pairKey_cases link.a.rack link.b.rack with hk | hk
    · simp [linkPair, hk, PairKey.proper, hracks, hdistinct]
    · simp [linkPair, hk, PairKey.proper, hracks, Ne.symm hdistinct]
  unfold collectedPairs
  rw [mem_canonicalise, List.mem_filter, h.snapshot]
  refine ⟨List.mem_append_left _ (List.mem_append_left _ ?_), hproper⟩
  exact List.mem_map_of_mem hlink

/-- The links of a usable pair carry traffic. -/
theorem PassesOf.usable_carries (h : PassesOf request p)
    (hvalid : SnapshotValid request.snapshot request.policy)
    (hpairs : ∀ work ∈ p.findings.pairs, work.verdict.status = .usable) {link : LinkRecord}
    (hlink : link ∈ request.snapshot.links) :
    (classifyLink p.findings.toEvidence link).status.carries = true := by
  obtain ⟨work, hwork, hjudge⟩ := mapM_covers h.pairs _ (h.link_collected hvalid hlink)
  have husable := hpairs work hwork
  unfold judgePair at hjudge
  obtain ⟨verdict, hverdict, hjudge⟩ := bind_eq_ok.1 hjudge
  rw [pure_eq_ok] at hjudge
  subst hjudge
  -- and nothing bad was seen on the way to it
  have hnone := conclude_usable hverdict husable pairFold_witnessed.bad
  have hcarry := (addLinks_carry (addRoutes_keep hnone)).2
  refine hcarry _ (List.mem_map_of_mem ?_)
  rw [newPair, h.snapshot]
  exact List.mem_filter.2 ⟨hlink, by simp⟩

/-! ## Undeclared domains -/

/-- A domain that a member refers to without its being declared is not sound. -/
theorem PassesOf.declared (h : PassesOf request p)
    (hdomains : ∀ work ∈ p.findings.domains, work.verdict.status = .ok) {rack : RackId}
    (hrack : rack ∈ coveredRacks request) {id : DomainId}
    (hid : id ∈ (memberWork request rack).verdict.domains) :
    id ∈ request.snapshot.domains.map FailureDomainRecord.id := by
  by_contra hundeclared
  have hmember : memberWork request rack ∈ initialMembers request := List.mem_map_of_mem hrack
  have hnew : newDomain request.snapshot id = { id, verdict := { id } } := by
    unfold newDomain
    rw [List.findRev?_eq_find?_reverse]
    split
    · next record hfind =>
      have hrecord := List.mem_of_find?_eq_some hfind
      have hsame : record.id = id := by simpa using List.find?_some hfind
      exact absurd (List.mem_map.2 ⟨record, List.mem_reverse.1 hrecord, hsame⟩) hundeclared
    · rfl
  have hchecked : (checkDomain (initialMembers request)
      (newDomain request.snapshot id)).verdict.status = .conflicting := by
    have hreason : (⟨.domainMembershipConflict,
        "the rack declares this failure domain but the domain does not list it"⟩ : Reason) ∈
          (initialMembers request).filterMap (declaringReason [] id) := by
      refine List.mem_filterMap.2 ⟨_, hmember, ?_⟩
      unfold declaringReason
      rw [if_pos ⟨hid, List.not_mem_nil⟩]
    rw [hnew]
    unfold checkDomain
    dsimp only
    rw [if_pos]
    exact List.any_eq_true.2 ⟨_, List.mem_append_right _ hreason, by simp⟩
  have hcovered : id ∈ coveredDomains request.snapshot (initialMembers request) :=
    mem_canonicalise.2 (List.mem_append_right _ (List.mem_flatMap.2 ⟨_, hmember, hid⟩))
  have hwork : checkDomain (initialMembers request) (newDomain request.snapshot id) ∈
      checkedDomains request.snapshot (initialMembers request) := List.mem_map_of_mem hcovered
  have hstatus := hdomains _ (h.domains ▸ List.mem_map_of_mem hwork)
  unfold markOverlap at hstatus
  dsimp only at hstatus
  split at hstatus
  · rw [hchecked] at hstatus
    cases hstatus
  · cases hstatus

/-! ## What is overlooked -/

/-- Something the pod should know is not in the evidence: the health of a member, the record of a
domain that a member, a claim or a link refers to, or the record of a rack that a domain lists. -/
inductive Missing (snapshot : PodSnapshot) : Prop
  | health {m : MemberRecord} (hm : m ∈ snapshot.members) (unknown : m.health = .unknown)
  | member {m : MemberRecord} {id : DomainId} (hm : m ∈ snapshot.members)
    (refers : id ∈ m.failureDomains ∨ ∃ claim ∈ m.capacity, claim.domain = id)
    (undeclared : id ∉ snapshot.domains.map FailureDomainRecord.id)
  | link {l : LinkRecord} (hl : l ∈ snapshot.links)
    (undeclared : l.domain ∉ snapshot.domains.map FailureDomainRecord.id)
  | listed {d : FailureDomainRecord} {rack : RackId} (hd : d ∈ snapshot.domains)
    (hrack : rack ∈ d.members) (undescribed : ∀ m ∈ snapshot.members, m.rack ≠ rack)

/-- What no pass looks at: the unknown health of a rack without claims and links, the undeclared
domain of a link, and a listed rack that is neither described nor expected. -/
inductive Overlooked (request : CompositionRequest) : Prop
  | health {m : MemberRecord} (hm : m ∈ request.snapshot.members) (unknown : m.health = .unknown)
    (offers : m.capacity = [])
    (joins : ∀ l ∈ request.snapshot.links, l.a.rack ≠ m.rack ∧ l.b.rack ≠ m.rack)
  | link {l : LinkRecord} (hl : l ∈ request.snapshot.links)
    (undeclared : l.domain ∉ request.snapshot.domains.map FailureDomainRecord.id)
  | listed {d : FailureDomainRecord} {rack : RackId} (hd : d ∈ request.snapshot.domains)
    (hrack : rack ∈ d.members) (unexpected : rack ∉ coveredRacks request)

/-- Overlooked evidence is missing. -/
theorem Overlooked.missing (h : Overlooked request) : Missing request.snapshot := by
  cases h with
  | health hm unknown => exact .health hm unknown
  | link hl undeclared => exact .link hl undeclared
  | listed hd hrack unexpected =>
    refine .listed hd hrack fun m hm hr => unexpected ?_
    exact mem_canonicalise.2 (List.mem_append_left _ (List.mem_map.2 ⟨m, hm, hr⟩))

/-- Where the racks stand, a record is the working record of its rack. -/
theorem Unqualified.record (h : PassesOf request p) (hq : Unqualified request p.findings)
    {m : MemberRecord} (hm : m ∈ request.snapshot.members) : ∃ work ∈ p.findings.members,
      work.rack = m.rack ∧ work.record = some m ∧ Reports work.verdict m ∧
        work.established = true ∧ work.capacityUsable = usableState m.health m.admin ∧
        work.connectivityUsable = usableState m.health m.admin := by
  have hcovered : m.rack ∈ coveredRacks request :=
    mem_canonicalise.2 (List.mem_append_left _ (List.mem_map_of_mem hm))
  have hstands := hq.members _ hcovered
  have hstatus := stands_iff.2 hstands
  have honly : recordsOf request.snapshot m.rack = [m] := by
    obtain ⟨record, honly, -⟩ := hstands
    have hmem : m ∈ recordsOf request.snapshot m.rack := List.mem_filter.2 ⟨hm, by simp⟩
    rw [honly, List.mem_singleton] at hmem
    rw [honly, hmem]
  refine ⟨_, h.mem_members.2 ⟨m.rack, hcovered, rfl⟩, memberWork_rack, ?_⟩
  have hrecord : (memberWork request m.rack).record = some m := by
    refine evaluateMember_keeps.record.trans ?_
    have hfilter : (request.snapshot.members.filter fun member => member.rack = m.rack) = [m] :=
      honly
    rw [MemberWork.start, hfilter]
    rfl
  rcases @evaluateMember_cases request.policy request.snapshot.observedAt m.rack
    (recordsOf request.snapshot m.rack) (recorded request.context.expectations m.rack) with
    ⟨record, honly', hjudged⟩ | ⟨hnot, -⟩
  · rw [honly, List.singleton_inj] at honly'
    subst honly'
    cases hjudged with
    | withheld withheld => exact absurd hstatus withheld.status
    | established _ reports _ flag capacity connectivity =>
      refine ⟨hrecord, ?_, flag, capacity, connectivity⟩
      exact ⟨reports.generation, reports.digest, reports.membership, reports.admin,
        reports.health, reports.domains⟩
  · exact absurd honly (hnot m)

/-- Where the aggregates are usable, every claim is: the rack can offer it, and declares the domain
it is attributed to. -/
theorem PassesOf.claim_usable (h : PassesOf request p)
    (hcapacity : ∀ a ∈ p.findings.capacity, a.status.isUsable = true) {work : MemberWork}
    (hw : work ∈ p.findings.members) {m : MemberRecord} (hrecord : work.record = some m)
    {claim : CapacityClaim} (hclaim : claim ∈ m.capacity) :
    work.capacityUsable = true ∧ claim.domain ∈ work.verdict.domains := by
  obtain ⟨ledger, hledger, hpod, -⟩ := h.ledger
  have hentry : ledgerEntry work claim ∈ ledger.entries := by
    rw [(evaluateCapacity_entries hledger).2]
    refine List.mem_flatMap.2 ⟨work, hw, ?_⟩
    unfold memberEntries
    rw [hrecord]
    exact List.mem_map_of_mem hclaim
  have hnone : ¬ (ledgerEntry work claim).suppressed.isSome = true := by
    intro hsome
    obtain ⟨a, ha, hunusable⟩ := suppressed_unusable hentry hsome
    rw [hcapacity a (hpod ▸ ha)] at hunusable
    cases hunusable
  unfold ledgerEntry at hnone
  dsimp only at hnone
  split at hnone
  · exact absurd rfl hnone
  · split at hnone
    · exact absurd rfl hnone
    · next husable =>
      split at hnone
      · exact absurd rfl hnone
      · next hdomain => exact ⟨by simpa using husable, by simpa using hdomain⟩

/-- Nothing qualifies the authority, and the round leaves the pod active. -/
structure GrantedActive (request : CompositionRequest) (fd : Findings) : Prop where
  unqualified : Unqualified request fd
  active : (WorksInFull fd ∧ fd.epoch = request.context.epoch ∧
      request.context.lifecycle ≠ .partitioned ∧ request.context.lifecycle ≠ .retired) ∨
    (request.context.lifecycle = .active ∧ coveredRacks request = [])

/-- A pod is active and authoritative exactly when it is granted both. -/
theorem PassesOf.active_ok_iff (h : PassesOf request p) :
    composedLifecycle p.findings = .active ∧ (podAuthority p.findings).status = .ok ↔
      GrantedActive request p.findings := by
  rw [h.authority_ok_iff, composed_active_iff, h.none_established, h.context]
  constructor
  · rintro ⟨⟨-, hactive⟩, hq, -⟩
    refine ⟨hq, hactive.imp_right fun ⟨hwas, hnone⟩ => ⟨hwas, ?_⟩⟩
    exact List.eq_nil_iff_forall_not_mem.2 fun rack hrack => hnone rack (hq.members rack hrack)
  · rintro ⟨hq, hactive⟩
    have hactive : (WorksInFull p.findings ∧ p.findings.epoch = request.context.epoch ∧
        request.context.lifecycle ≠ .partitioned ∧ request.context.lifecycle ≠ .retired) ∨
        (request.context.lifecycle = .active ∧ ∀ rack, ¬ Stands request rack) :=
      hactive.imp_right fun ⟨hwas, hnil⟩ => ⟨hwas, fun rack hstands => by
        have hcovered := hstands.covered
        rw [hnil] at hcovered
        cases hcovered⟩
    have hcomposed : composedLifecycle p.findings = .active := by
      rw [composed_active_iff, h.none_established, h.context]
      exact ⟨hq.offHold, hactive⟩
    exact ⟨⟨hq.offHold, hactive⟩, hq, by simp [hcomposed], by simp [hcomposed]⟩

/-- What is missing from a pod that is granted its authority as active is overlooked. -/
theorem GrantedActive.overlooked (h : PassesOf request p)
    (hvalid : SnapshotValid request.snapshot request.policy)
    (hg : GrantedActive request p.findings) (hmissing : Missing request.snapshot) :
    Overlooked request := by
  have hq := hg.unqualified
  cases hmissing with
  | @health m hm unknown =>
    obtain ⟨work, hw, hrack, hrecord, -, -, hcapacity, hconnectivity⟩ := hq.record h hm
    have hunusable : usableState m.health m.admin = false := by simp [usableState, unknown]
    rw [hunusable] at hcapacity hconnectivity
    have hfind {rack : RackId} (hr : rack = m.rack) {other : MemberWork}
        (hother : findMember p.findings.members rack = some other) :
        other.connectivityUsable = false := by
      have hsame : other = work := h.members_unique (mem_of_findMember hother) hw
        ((findMember_rack hother).trans (hr.trans hrack.symm))
      rw [hsame, hconnectivity]
    refine .health hm unknown ?_ fun l hl => ?_
    · refine List.eq_nil_iff_forall_not_mem.2 fun claim hclaim => ?_
      have husable := (h.claim_usable hq.capacity hw hrecord hclaim).1
      rw [hcapacity] at husable
      cases husable
    · -- a pod without members has no record at all, so the pairs are usable
      rcases hg.active with ⟨hworks, -⟩ | ⟨-, hnil⟩
      · have hpairs := (not_degraded_iff.1 hworks.sound).2.2.1
        obtain ⟨a, b, ha, hb, husable, husable', -⟩ :=
          classifyLink_carries (h.usable_carries hvalid hpairs hl)
        constructor
        · intro hr
          rw [hfind hr ha] at husable
          cases husable
        · intro hr
          rw [hfind hr hb] at husable'
          cases husable'
      · have hcovered : m.rack ∈ coveredRacks request :=
          mem_canonicalise.2 (List.mem_append_left _ (List.mem_map_of_mem hm))
        rw [hnil] at hcovered
        cases hcovered
  | @member m id hm refers undeclared =>
    obtain ⟨work, hw, hrack, hrecord, hreports, -⟩ := hq.record h hm
    have hdomain : id ∈ work.verdict.domains := by
      rcases refers with hid | ⟨claim, hclaim, rfl⟩
      · rw [hreports.domains]
        exact mem_canonicalise.2 hid
      · exact (h.claim_usable hq.capacity hw hrecord hclaim).2
    obtain ⟨rack, hcovered, rfl⟩ := h.mem_members.1 hw
    exact absurd (h.declared hq.domains hcovered hdomain) undeclared
  | link hl undeclared => exact .link hl undeclared
  | @listed d rack hd hrack undescribed =>
    refine .listed hd hrack fun hcovered => ?_
    obtain ⟨record, honly, -⟩ := hq.members rack hcovered
    have hmem : record ∈ recordsOf request.snapshot rack := by simp [honly]
    obtain ⟨hrecord, hsame⟩ := List.mem_filter.1 hmem
    exact undescribed record hrecord (by simpa using hsame)

/-- Missing evidence keeps a pod from being active and authoritative, unless it is overlooked in a
pod that is whole otherwise. -/
theorem missing_evidence_iff (h : compose request = .ok st) :
    (Missing request.snapshot → ¬ (st.lifecycle = .active ∧ st.authority.status = .ok)) ↔
      ¬ (Overlooked request ∧
        ∃ p, runPasses request = .ok p ∧ GrantedActive request p.findings) := by
  have hvalid := (validate_request_iff.1 (compose_eq_ok.1 h).1).1
  obtain ⟨p, hp, hof, rfl⟩ := compose_passesOf h
  rw [finalise_lifecycle, finalise_authority, hof.active_ok_iff]
  constructor
  · rintro hclaim ⟨hoverlooked, p', hp', hg⟩
    rw [hp, Except.ok.injEq] at hp'
    subst hp'
    exact hclaim hoverlooked.missing hg
  · intro hnot hmissing hg
    exact hnot ⟨hg.overlooked hof hvalid hmissing, p, hp, hg⟩

/-- A rack of unknown health that offers nothing, next to a healthy pod. -/
def Sample.mute : CompositionRequest where
  snapshot := { Sample.snapshot with
    members := [Sample.member Sample.rackA ⟨1⟩, Sample.member Sample.rackB ⟨1⟩,
      { Sample.member (Sample.idOf "c") ⟨1⟩ with
        health := .unknown, capacity := [], failureDomains := [] }] }
  context := { epoch := ⟨1⟩, expectations := [
    { rack := Sample.rackA, generation := ⟨1⟩, digest := Sample.digest },
    { rack := Sample.rackB, generation := ⟨1⟩, digest := Sample.digest },
    { rack := Sample.idOf "c", generation := ⟨1⟩, digest := Sample.digest }] }

/-- The sample's evidence is missing. -/
theorem mute_missing : Missing Sample.mute.snapshot :=
  .health (m := { Sample.member (Sample.idOf "c") ⟨1⟩ with
    health := .unknown, capacity := [], failureDomains := [] }) (by simp [Sample.mute]) rfl

/-- The sample is composed, and its missing evidence is overlooked. -/
theorem mute_granted : ∃ st, compose Sample.mute = .ok st ∧ Overlooked Sample.mute := by
  have hrun : (compose Sample.mute).toOption.map (fun st =>
      (st.authority.status, st.lifecycle)) = some (.ok, .active) := by decide +kernel
  obtain ⟨st, hst, hview⟩ := composed_of_map hrun
  rw [Prod.mk.injEq] at hview
  refine ⟨st, hst, ?_⟩
  by_contra hnot
  exact (missing_evidence_iff hst).2 (fun hover => hnot hover.1) mute_missing
    ⟨hview.2, hview.1⟩

/-- A pod with missing evidence can be active and authoritative. -/
theorem mute_active : ¬ ∀ request st, compose request = .ok st → Missing request.snapshot →
    ¬ (st.lifecycle = .active ∧ st.authority.status = .ok) := by
  intro hclaim
  have hrun : (compose Sample.mute).toOption.map (fun st =>
      (st.authority.status, st.lifecycle)) = some (.ok, .active) := by decide +kernel
  obtain ⟨st, hst, hview⟩ := composed_of_map hrun
  rw [Prod.mk.injEq] at hview
  exact hclaim _ st hst mute_missing ⟨hview.2, hview.1⟩

end Passes

end PodFabric
