import PodFabric.Proof.Composition
import PodFabric.Proof.Ledger
import PodFabric.Proof.Validation

/-!
# Only trusted racks carry traffic or capacity

A rack is trusted when it is established, its health is good enough and it is not administratively
disabled (`MemberVerdict.Trusted`). Links and routes are classified as carrying traffic only over
trusted racks at their current generation, a pair is usable only through such a link or route, and
the ledger counts only what trusted racks claim for a domain they declare.
-/

namespace PodFabric

/-! ## Trust -/

/-- Established, in sufficient health and not disabled. -/
def MemberVerdict.Trusted (m : MemberVerdict) : Prop :=
  m.status = .established ∧ (m.health = .ok ∨ m.health = .impaired) ∧ m.admin ≠ .disabled

/-- The state has a verdict on the rack, and every such verdict satisfies `P`. -/
def PodState.HasMember (st : PodState) (rack : RackId) (P : MemberVerdict → Prop) : Prop :=
  (∃ m ∈ st.members, m.rack = rack) ∧ ∀ m ∈ st.members, m.rack = rack → P m

/-- The rack is trusted. -/
def PodState.Trusts (st : PodState) (rack : RackId) : Prop :=
  st.HasMember rack MemberVerdict.Trusted

/-- The rack is trusted, and the generation is its current one. -/
def PodState.TrustsAt (st : PodState) (rack : RackId) (generation : RackGeneration) : Prop :=
  st.HasMember rack fun m => m.Trusted ∧ m.generation = generation

/-- A working record whose flags say what its verdict says. -/
structure Sound (work : MemberWork) : Prop where
  established : work.established = true ↔ work.verdict.status = .established
  capacity : work.capacityUsable = true → work.verdict.Trusted
  connectivity : work.connectivityUsable = true → work.verdict.Trusted

section Sound
variable {request : CompositionRequest} {rack : RackId}

/-- A rack that offers nothing is sound. -/
theorem Withheld.sound {work : MemberWork} (h : Withheld work) : Sound work :=
  ⟨by simp [h.established, h.status], by simp [h.capacityUsable], by simp [h.connectivityUsable]⟩

/-- The work on every rack is sound. -/
theorem memberWork_sound : Sound (memberWork request rack) := by
  rcases @evaluateMember_cases request.policy _ _ _ _ with
    ⟨record, -, hjudged⟩ | ⟨-, hwithheld, -⟩
  · cases hjudged with
    | withheld h => exact h.sound
    | established _ reports status flag capacityUsable connectivityUsable =>
      have trusted : usableState record.health record.admin = true →
          (memberWork request rack).verdict.Trusted := fun h => by
        have h' : (record.health = .ok ∨ record.health = .impaired) ∧ record.admin ≠ .disabled := by
          simpa [usableState] using h
        exact ⟨status, reports.health ▸ h'.1, reports.admin ▸ h'.2⟩
      exact ⟨iff_of_true flag status, fun h => trusted (capacityUsable ▸ h),
        fun h => trusted (connectivityUsable ▸ h)⟩
  · exact hwithheld.sound

/-- Every member of the passes is sound. -/
theorem PassesOf.sound {p : Passes} (h : PassesOf request p) {work : MemberWork}
    (hw : work ∈ p.findings.members) : Sound work := by
  obtain ⟨rack, -, rfl⟩ := h.mem_members.1 hw
  exact ⟨memberWork_sound.established, memberWork_sound.capacity, memberWork_sound.connectivity⟩

/-- The verdict on a rack names the rack. -/
theorem PassesOf.verdictRack {p : Passes} (h : PassesOf request p) {work : MemberWork}
    (hw : work ∈ p.findings.members) : work.verdict.rack = work.rack := by
  obtain ⟨rack, -, rfl⟩ := h.mem_members.1 hw
  exact evaluateMember_keeps.verdictRack.trans evaluateMember_keeps.rack.symm

/-- What holds of the working record of a rack holds of the verdict in the state, if the canonical
form does not touch it. -/
theorem PassesOf.hasMember {p : Passes} (h : PassesOf request p) {P : MemberVerdict → Prop}
    {work : MemberWork} (hw : work ∈ p.findings.members) (hP : P work.verdict.canonicalise) :
    p.draft.finalise.HasMember work.rack P := by
  refine ⟨⟨_, mem_finalise_members.2 ⟨work, hw, rfl⟩, h.verdictRack hw⟩, fun m hm hr => ?_⟩
  obtain ⟨work', hw', rfl⟩ := mem_finalise_members.1 hm
  have : work'.rack = work.rack := (h.verdictRack hw').symm.trans hr
  rw [h.members_unique hw' hw this]
  exact hP

end Sound

/-! ## Links and routes -/

section Classify
variable {request : CompositionRequest} {p : Passes} {link : LinkRecord} {route : RouteEvidence}

/-- A link carries traffic only between usable members at the generations it was observed at. -/
theorem classifyLink_carries {ev : Evidence} (h : (classifyLink ev link).status.carries = true) :
    ∃ a b, findMember ev.members link.a.rack = some a ∧
      findMember ev.members link.b.rack = some b ∧
      a.connectivityUsable = true ∧ b.connectivityUsable = true ∧
      link.aGeneration = a.verdict.generation ∧ link.bGeneration = b.verdict.generation := by
  unfold classifyLink at h
  dsimp only at h
  split at h
  · next a b ha hb =>
    split at h
    · cases h
    split at h
    · cases h
    next husable =>
    split at h
    · cases h
    split at h
    · cases h
    split at h
    · cases h
    split at h
    · cases h
    next hgen =>
    simp only [not_or, not_not, ne_eq] at husable hgen
    exact ⟨a, b, ha, hb, husable.1, husable.2, hgen.1, hgen.2⟩
  · cases h

/-- The hops of a route that holds are usable members at the generations of the route. -/
theorem classifyHops_none {ev : Evidence} : ∀ {hops : List (RackId × RackGeneration)},
    classifyHops ev hops = none → ∀ hop ∈ hops, ∃ work,
      findMember ev.members hop.1 = some work ∧ work.connectivityUsable = true ∧
        hop.2 = work.verdict.generation
  | [], _, _, hhop => by cases hhop
  | (rack, generation) :: rest, h, hop, hhop => by
    unfold classifyHops at h
    split at h
    · cases h
    next work hfind =>
    split at h
    · cases h
    split at h
    · cases h
    next hgen =>
    split at h
    · cases h
    next husable =>
    rcases List.mem_cons.1 hhop with rfl | hhop
    · exact ⟨work, hfind, not_not.1 husable, not_not.1 hgen⟩
    · exact classifyHops_none h hop hhop

/-- The hops of a route are judged blocked or stale. -/
theorem classifyHops_some {ev : Evidence} {status : LinkStatus} {reason : Reason} :
    ∀ {hops : List (RackId × RackGeneration)}, classifyHops ev hops = some (status, reason) →
      status = .blocked ∨ status = .stale
  | [], h => by cases h
  | (rack, generation) :: rest, h => by
    unfold classifyHops at h
    split at h
    · cases h
      exact .inl rfl
    split at h
    · cases h
      exact .inl rfl
    split at h
    · cases h
      exact .inr rfl
    split at h
    · cases h
      exact .inl rfl
    · exact classifyHops_some h

/-- A route that carries passes established racks, at their generations. -/
theorem classifyRoute_carries {ev : Evidence}
    (h : (classifyRoute ev route).status.carries = true) :
    ∀ hop ∈ route.path.zip route.pathGenerations, ∃ work,
      findMember ev.members hop.1 = some work ∧ work.connectivityUsable = true ∧
        hop.2 = work.verdict.generation := by
  unfold classifyRoute at h
  dsimp only at h
  split at h
  · cases h
  split at h
  · cases h
  split at h
  · cases h
  split at h
  · next status reason hhops =>
    rcases classifyHops_some hhops with rfl | rfl <;> cases h
  · next hhops => exact classifyHops_none hhops

/-- A usable member is trusted at its generation. -/
theorem PassesOf.trustsAt (h : PassesOf request p) {rack : RackId} {generation : RackGeneration}
    {work : MemberWork} (hfind : findMember p.findings.members rack = some work)
    (husable : work.connectivityUsable = true) (hgen : generation = work.verdict.generation) :
    p.draft.finalise.TrustsAt rack generation := by
  have hw := mem_of_findMember hfind
  rw [← findMember_rack hfind]
  exact h.hasMember hw ⟨(h.sound hw).connectivity husable, hgen.symm⟩

/-- A state that trusts a rack at a generation trusts the rack. -/
theorem PodState.TrustsAt.trusts {st : PodState} {rack : RackId} {generation : RackGeneration}
    (h : st.TrustsAt rack generation) : st.Trusts rack :=
  ⟨h.1, fun m hm hr => (h.2 m hm hr).1⟩

end Classify

/-! ## Pairs -/

namespace PairFold
variable (f : PairFold) (o : LinkOutcome)

/-- How the status of one object moves the flags of a fold. -/
structure Moved (f f' : PairFold) (status : LinkStatus) : Prop where
  anyUsable : f'.anyUsable = (f.anyUsable || decide (status = .usable))
  anyDegraded : f'.anyDegraded = (f.anyDegraded || decide (status = .degraded))
  worstBad : f'.worstBad = if status.carries then f.worstBad
    else some (f.worstBad.elim status (LinkStatus.worst · status))

/-- A status moves the pair. -/
theorem addStatus_moved (status : LinkStatus) : Moved f (f.addStatus status) status := by
  cases status <;>
    exact ⟨by simp [addStatus], by simp [addStatus], by simp [addStatus, LinkStatus.carries]⟩

/-- A link moves the pair by its status. -/
theorem addLink_moved : Moved f (f.addLink o) o.status := by
  have h := addStatus_moved { f with reasons := f.reasons ++ o.reasons } o.status
  unfold addLink
  dsimp only
  split
  · split <;> exact ⟨h.anyUsable, h.anyDegraded, h.worstBad⟩
  · exact ⟨h.anyUsable, h.anyDegraded, h.worstBad⟩

/-- A route moves the pair by its status. -/
theorem addRoute_moved : Moved f (f.addRoute o) o.status := by
  have h := addStatus_moved { f with reasons := f.reasons ++ o.reasons } o.status
  unfold addRoute
  dsimp only
  split <;> exact ⟨h.anyUsable, h.anyDegraded, h.worstBad⟩

end PairFold

section Pairs
variable {request : CompositionRequest} {p : Passes}

/-- The induction over the links and the routes of a pair. -/
theorem pairFold_induction {ev : Evidence} {work : PairWork} {P : PairFold → Prop} (start : P {})
    (link : ∀ l ∈ work.links, ∀ f, P f → P (f.addLink (classifyLink ev l)))
    (route : ∀ r ∈ work.routes, ∀ f, P f → P (f.addRoute (classifyRoute ev r))) :
    P (pairFold ev work) := by
  unfold pairFold
  rw [List.foldl_map, List.foldl_map]
  exact List.foldlRecOn _ _ (List.foldlRecOn _ _ start fun f hf l hl => link l hl f hf)
    fun f hf r hr => route r hr f hf

/-- Some link or route of the pair carries traffic. -/
def Carried (ev : Evidence) (work : PairWork) : Prop :=
  (∃ link ∈ work.links, (classifyLink ev link).status.carries = true) ∨
    ∃ route ∈ work.routes, (classifyRoute ev route).status.carries = true

/-- A fold that sees traffic only if a link or a route of the pair carries it, and calls bad only
what does not. -/
structure Witnessed (ev : Evidence) (work : PairWork) (f : PairFold) : Prop where
  seen : f.anyUsable = true ∨ f.anyDegraded = true → Carried ev work
  bad : ∀ s, f.worstBad = some s → s.carries = false

/-- A pair stays witnessed by the paths that carry. -/
theorem Witnessed.moved {ev : Evidence} {work : PairWork} {f f' : PairFold} {status : LinkStatus}
    (hf : Witnessed ev work f) (hm : PairFold.Moved f f' status)
    (hc : status.carries = true → Carried ev work) : Witnessed ev work f' := by
  refine ⟨fun h => ?_, fun s hs => ?_⟩
  · rw [hm.anyUsable, hm.anyDegraded] at h
    by_cases hcar : status.carries = true
    · exact hc hcar
    · have hne : status ≠ .usable ∧ status ≠ .degraded := by
        simpa [LinkStatus.carries] using hcar
      simp only [hne.1, hne.2, decide_false, Bool.or_false] at h
      exact hf.seen h
  · rw [hm.worstBad] at hs
    split at hs
    · exact hf.bad s hs
    · next hcar =>
      have hbad : status.carries = false := by simpa using hcar
      cases hw : f.worstBad with
      | none =>
        rw [hw, Option.some.injEq] at hs
        exact hs ▸ hbad
      | some w =>
        rw [hw, Option.some.injEq, Option.elim_some] at hs
        subst hs
        unfold LinkStatus.worst
        split
        · exact hf.bad w hw
        · exact hbad

/-- What a pair says of its paths is witnessed. -/
theorem pairFold_witnessed {ev : Evidence} {work : PairWork} :
    Witnessed ev work (pairFold ev work) := by
  refine pairFold_induction ⟨by simp, by simp⟩ (fun l hl f hf => ?_) fun r hr f hf => ?_
  · exact hf.moved (f.addLink_moved _) fun hc => .inl ⟨l, hl, hc⟩
  · exact hf.moved (f.addRoute_moved _) fun hc => .inr ⟨r, hr, hc⟩

/-- A verdict that carries traffic has seen it, and names the racks it was opened with. -/
theorem conclude_carries {f : PairFold} {verdict verdict' : ConnectivityVerdict}
    (h : f.conclude verdict = .ok verdict') (hbad : ∀ s, f.worstBad = some s → s.carries = false)
    (hc : verdict'.status.carries = true) :
    (f.anyUsable = true ∨ f.anyDegraded = true) ∧
      verdict'.source = verdict.source ∧ verdict'.target = verdict.target := by
  unfold PairFold.conclude at h
  split at h
  · cases h
    cases hc
  split at h
  · next hseen =>
    split at h
    · cases h
    · cases h
      exact ⟨hseen, rfl, rfl⟩
  split at h
  · next status hs =>
    cases h
    rw [hbad status hs] at hc
    cases hc
  · cases h
    cases hc

/-- A pair that carries traffic has a link or a route that does. -/
theorem PassesOf.pair_carries (h : PassesOf request p) {work : PairWork}
    (hw : work ∈ p.findings.pairs) (hc : work.verdict.status.carries = true) :
    ∃ key, work.verdict.source = (ofLex key).1 ∧ work.verdict.target = (ofLex key).2 ∧
      Carried p.findings.toEvidence (newPair request.snapshot key) := by
  obtain ⟨key, -, hjudge⟩ := mapM_mem h.pairs work hw
  unfold judgePair at hjudge
  obtain ⟨verdict, hverdict, hjudge⟩ := bind_eq_ok.1 hjudge
  rw [pure_eq_ok] at hjudge
  subst hjudge
  obtain ⟨hseen, hs, ht⟩ := conclude_carries hverdict pairFold_witnessed.bad hc
  exact ⟨key, hs, ht, h.snapshot ▸ pairFold_witnessed.seen hseen⟩

/-- The racks of a pair are those it was made of. -/
theorem pairKey_cases (a b : RackId) :
    pairKey a b = toLex (a, b) ∨ pairKey a b = toLex (b, a) := by
  unfold pairKey
  split
  · exact .inl rfl
  · exact .inr rfl

/-- The racks of a pair that a route serves are on its path. -/
theorem mem_path_of_routePairs {route : RouteEvidence} {key : PairKey}
    (h : key ∈ routePairs route) : (ofLex key).1 ∈ route.path ∧ (ofLex key).2 ∈ route.path := by
  have both {a b : RackId} (ha : a ∈ route.path) (hb : b ∈ route.path) (hk : pairKey a b = key) :
      (ofLex key).1 ∈ route.path ∧ (ofLex key).2 ∈ route.path := by
    rcases pairKey_cases a b with h | h <;> rw [← hk, h] <;> simp [ha, hb]
  unfold routePairs at h
  rcases List.mem_append.1 h with h | h
  · simp only [List.mem_map] at h
    obtain ⟨⟨a, b⟩, hab, hk⟩ := h
    obtain ⟨ha, hb⟩ := List.of_mem_zip hab
    exact both ha (List.mem_of_mem_tail hb) hk
  · split at h
    · next front back hfront hback =>
      rw [List.mem_singleton] at h
      exact both (List.mem_of_mem_head? hfront) (List.mem_of_mem_getLast? hback) h.symm
    · cases h

end Pairs

/-! ## The result -/

section Result
variable {request : CompositionRequest} {st : PodState} {p : Passes}

/-- The hops of a route that carries traffic are trusted at the generations of the route. -/
theorem PassesOf.route_trusted (h : PassesOf request p) {route : RouteEvidence}
    (hvalid : RouteValid route request.policy)
    (hc : (classifyRoute p.findings.toEvidence route).status.carries = true) :
    List.Forall₂ p.draft.finalise.TrustsAt route.path route.pathGenerations := by
  refine List.forall₂_iff_zip.2 ⟨hvalid.generations.symm, fun {rack generation} hhop => ?_⟩
  obtain ⟨work, hfind, husable, hgen⟩ := classifyRoute_carries hc _ hhop
  exact h.trustsAt hfind husable hgen

/-- A pair that carries traffic joins trusted racks. -/
theorem PassesOf.pair_trusted (h : PassesOf request p)
    (hvalid : SnapshotValid request.snapshot request.policy) {work : PairWork}
    (hw : work ∈ p.findings.pairs) (hc : work.verdict.status.carries = true) :
    p.draft.finalise.Trusts work.verdict.source ∧ p.draft.finalise.Trusts work.verdict.target := by
  obtain ⟨key, hs, ht, hcarried⟩ := h.pair_carries hw hc
  rw [hs, ht]
  rcases hcarried with ⟨link, hlink, hc⟩ | ⟨route, hroute, hc⟩
  · obtain ⟨a, b, ha, hb, hua, hub, hga, hgb⟩ := classifyLink_carries hc
    have hkey : linkPair link = key := by simpa using (List.mem_filter.1 hlink).2
    have hta := (h.trustsAt ha hua hga).trusts
    have htb := (h.trustsAt hb hub hgb).trusts
    rcases pairKey_cases link.a.rack link.b.rack with hk | hk <;>
      rw [← hkey, linkPair, hk]
    · exact ⟨hta, htb⟩
    · exact ⟨htb, hta⟩
  · obtain ⟨hmem, hkey⟩ := List.mem_filter.1 hroute
    have hhops := h.route_trusted (validate_route_iff.1 (hvalid.routes route hmem).2) hc
    obtain ⟨h1, h2⟩ := mem_path_of_routePairs (of_decide_eq_true hkey)
    have trusts {rack : RackId} (hr : rack ∈ route.path) : p.draft.finalise.Trusts rack := by
      obtain ⟨i, hi, rfl⟩ := List.mem_iff_getElem.1 hr
      exact ((List.forall₂_iff_get.1 hhops).2 i hi (hhops.length_eq ▸ hi)).trusts
    exact ⟨trusts h1, trusts h2⟩

/-- A counted contribution is owned by a trusted rack that declares its domain. -/
theorem PassesOf.contribution_trusted (h : PassesOf request p) {a : CapacityAggregate}
    (ha : a ∈ p.findings.capacity ++ p.domainCapacity) {c : CapacityContribution}
    (hc : c ∈ a.contributions) (hcounted : c.counted = true) :
    p.draft.finalise.HasMember c.owner fun m => m.Trusted ∧ c.domain ∈ m.domains := by
  obtain ⟨ledger, hledger, hcap, hdom⟩ := h.ledger
  rw [hcap, hdom] at ha
  obtain ⟨e, he, hnone, howner, hdomain⟩ := counted_contribution ha hc hcounted
  rw [(evaluateCapacity_entries hledger).2, List.mem_flatMap] at he
  obtain ⟨work, hw, he⟩ := he
  unfold memberEntries at he
  split at he
  · cases he
  · obtain ⟨claim, -, rfl⟩ := List.mem_map.1 he
    unfold ledgerEntry at hnone
    dsimp only at hnone
    split_ifs at hnone with hest husable hdeclared
    rw [howner, hdomain]
    refine h.hasMember hw ⟨(h.sound hw).capacity husable, ?_⟩
    exact mem_canonicalise.2 hdeclared

/-- **Only trusted racks carry traffic or capacity.** In every composed state a pair that is usable
or degraded joins trusted racks, a link or route that was classified so passes only through trusted
racks at their current generations, and every counted contribution is owned by a trusted rack that
declares the failure domain it is attributed to. -/
theorem compose_trusted (h : compose request = .ok st) :
    (∀ c ∈ st.connectivity, c.status.carries = true → st.Trusts c.source ∧ st.Trusts c.target) ∧
    (∃ p, runPasses request = .ok p ∧
      (∀ link ∈ request.snapshot.links,
        (classifyLink p.findings.toEvidence link).status.carries = true →
          st.TrustsAt link.a.rack link.aGeneration ∧ st.TrustsAt link.b.rack link.bGeneration) ∧
      ∀ route ∈ request.snapshot.routes,
        (classifyRoute p.findings.toEvidence route).status.carries = true →
          List.Forall₂ st.TrustsAt route.path route.pathGenerations) ∧
    ∀ a ∈ st.capacity ++ st.domainCapacity, ∀ c ∈ a.contributions, c.counted = true →
      st.HasMember c.owner fun m => m.Trusted ∧ c.domain ∈ m.domains := by
  have hvalid := (validate_request_iff.1 (compose_eq_ok.1 h).1).1
  obtain ⟨p, hp, hparts, rfl⟩ := compose_passesOf h
  refine ⟨fun c hc hcarries => ?_, ⟨p, hp, fun link _ hcarries => ?_, fun route hr hcarries => ?_⟩,
    fun a ha c hc hcounted => ?_⟩
  · obtain ⟨work, hw, rfl⟩ := mem_finalise_connectivity.1 hc
    exact hparts.pair_trusted hvalid hw hcarries
  · obtain ⟨a, b, ha, hb, hua, hub, hga, hgb⟩ := classifyLink_carries hcarries
    exact ⟨hparts.trustsAt ha hua hga, hparts.trustsAt hb hub hgb⟩
  · exact hparts.route_trusted (validate_route_iff.1 (hvalid.routes route hr).2) hcarries
  · have hraw : ∃ b ∈ p.findings.capacity ++ p.domainCapacity, b.canonicalise = a := by
      simp only [List.mem_append, mem_finalise_capacity, mem_finalise_domainCapacity] at ha ⊢
      rcases ha with ⟨b, hb, rfl⟩ | ⟨b, hb, rfl⟩
      · exact ⟨b, .inl hb, rfl⟩
      · exact ⟨b, .inr hb, rfl⟩
    obtain ⟨b, hb, rfl⟩ := hraw
    exact hparts.contribution_trusted hb (mem_sortOn.1 hc) hcounted

/-- The link of the sample pod makes its pair usable, and it joins trusted racks. -/
theorem sample_trusted : ∃ st, compose Sample.request = .ok st ∧
    ∃ c ∈ st.connectivity, c.status = .usable ∧ st.Trusts c.source ∧ st.Trusts c.target := by
  have hrun : ((compose Sample.request).toOption.map fun st =>
      st.connectivity.map ConnectivityVerdict.status) = some [.usable] := by decide +kernel
  cases hst : compose Sample.request with
  | error fault => simp [hst, Except.toOption] at hrun
  | ok st =>
    simp only [hst, Except.toOption, Option.map_some, Option.some.injEq] at hrun
    obtain ⟨c, hc, hstatus⟩ : ∃ c ∈ st.connectivity, c.status = .usable := by
      have hmem : LinkStatus.usable ∈ st.connectivity.map ConnectivityVerdict.status := by
        simp [hrun]
      simpa using hmem
    exact ⟨st, rfl, c, hc, hstatus, (compose_trusted hst).1 c hc (by rw [hstatus]; rfl)⟩

end Result

end PodFabric
