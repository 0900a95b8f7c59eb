import PodFabric.Proof.Diversity
import PodFabric.Proof.Reads

/-!
# Parts of the pod that read calm evidence

An aggregate of a resource, the verdict on a pair of racks and the verdict on an obligation are as
they were in the round before if all that they read is calm, and so is whether there is one
(`Succeeds.findCapacity_eq`, `Succeeds.findPair_eq`, `Succeeds.findObligation_eq`).
-/

namespace PodFabric

/-- Everything that a verdict reads in either round is calm. -/
def CalmReads (request request' : CompositionRequest) (calm : DepKey → Prop)
    (reads : PodSnapshot → DepKey → Prop) : Prop :=
  ∀ key, reads request.snapshot key ∨ reads request'.snapshot key → calm key

namespace Succeeds
variable {request request' : CompositionRequest} {p p' : Passes} {calm : DepKey → Prop}
  {rack : RackId} {id : DomainId} {resource : ResourceClass} {pair : PairKey}

/-- The judged racks are in order. -/
theorem members_ascending (hp : PassesOf request p) :
    Ascending MemberWork.rack p.findings.members := by
  rw [Ascending, hp.map_rack]
  exact canonicalise_pairwise _

/-! ## Capacity -/

/-- The record of a rack that is found is in the snapshot. -/
theorem found_record (hp : PassesOf request p) {member : MemberWork} {record : MemberRecord}
    (hfind : findMember p.findings.members rack = some member)
    (hrecord : member.record = some record) :
    record ∈ request.snapshot.members ∧ record.rack = rack := by
  obtain ⟨rack', -, rfl⟩ := hp.mem_members.1 (mem_of_findMember hfind)
  have hrack := findMember_rack hfind
  change (memberWork request rack').rack = rack at hrack
  rw [memberWork_rack] at hrack
  subst hrack
  change (memberWork request rack').record = some record at hrecord
  rw [memberWork_head] at hrecord
  obtain ⟨hin, hrack⟩ := List.mem_filter.1 (List.mem_of_head? hrecord)
  exact ⟨hin, of_decide_eq_true hrack⟩

/-- A rack that does not claim a resource enters nothing for it. -/
theorem entries_none (hp : PassesOf request p) {member : MemberWork}
    (hfind : findMember p.findings.members rack = some member)
    (hclaims : ¬ ClaimReads request.snapshot resource (memberKey rack)) :
    (memberEntries member).filter (fun e => e.claim.resource = resource) = [] := by
  rw [memberEntries]
  cases hrecord : member.record with
  | none => rfl
  | some record =>
    obtain ⟨hin, rfl⟩ := found_record hp hfind hrecord
    refine List.filter_eq_nil_iff.2 fun e he hsame => hclaims ?_
    obtain ⟨claim, hclaim, rfl⟩ := List.mem_map.1 he
    exact .claiming hin hclaim (of_decide_eq_true hsame)

/-- The entries of a rack depend on its bare work only. -/
theorem memberEntries_bare {member member' : MemberWork} (h : member'.bare = member.bare) :
    memberEntries member' = memberEntries member := by
  have hentry : ledgerEntry member' = ledgerEntry member := by
    funext claim
    rw [ledgerEntry, ledgerEntry, bare_rack h, bare_established h, bare_capacityUsable h,
      bare_domains h]
  rw [memberEntries, memberEntries, bare_record h, hentry]

/-- The same claims are entered for a resource. -/
theorem entries_eq (h : Succeeds request p request' p' calm)
    (hcalm : CalmReads request request' calm fun s => ClaimReads s resource) :
    (p'.findings.members.flatMap memberEntries).filter (fun e => e.claim.resource = resource) =
      (p.findings.members.flatMap memberEntries).filter fun e => e.claim.resource = resource := by
  rw [List.filter_flatMap, List.filter_flatMap]
  refine (members_ascending h.passes').flatMap_eq (members_ascending h.passes) fun k => ?_
  by_cases hk : calm (memberKey k)
  · rcases (h.sameMember hk).cases with ⟨hfind, hfind'⟩ | ⟨member, member', hfind, hfind', hbare⟩
    · rw [findMember] at hfind hfind'
      rw [hfind, hfind']
    · have hentries := memberEntries_bare hbare
      rw [findMember] at hfind hfind'
      rw [hfind, hfind']
      exact congrArg _ hentries
  · have hnone {request : CompositionRequest} {p : Passes} (hp : PassesOf request p)
        (hclaims : ¬ ClaimReads request.snapshot resource (memberKey k)) :
        (p.findings.members.find? fun m => m.rack = k).elim []
          (fun m => (memberEntries m).filter fun e => e.claim.resource = resource) = [] := by
      cases hfind : p.findings.members.find? fun m => m.rack = k with
      | none => rfl
      | some member => exact entries_none hp hfind hclaims
    rw [hnone h.passes' fun hreads => hk (hcalm _ (.inr hreads)),
      hnone h.passes fun hreads => hk (hcalm _ (.inl hreads))]

/-- The loops over the slots of a resource read the entries under it. -/
theorem freeze_eq {ledger ledger' : CapacityLedger} (hpolicy : ledger'.policy = ledger.policy)
    (hentries : ledger'.entries.filter (fun e => e.claim.resource = resource) =
      ledger.entries.filter fun e => e.claim.resource = resource) :
    ledger'.freezeResource resource = ledger.freezeResource resource ∧
      (resource ∈ ledger'.resources ↔ resource ∈ ledger.resources) := by
  have hmem (ledger : CapacityLedger) : resource ∈ ledger.resources ↔
      ledger.entries.filter (fun e => e.claim.resource = resource) ≠ [] := by
    rw [CapacityLedger.resources, mem_canonicalise, List.mem_map, ne_eq, List.filter_eq_nil_iff]
    simp
  refine ⟨?_, by rw [hmem, hmem, hentries]⟩
  rw [CapacityLedger.freezeResource, CapacityLedger.freezeResource, CapacityLedger.slots,
    CapacityLedger.slots, hpolicy, hentries]

/-- The claims of calm racks are in both ledgers alike. -/
theorem ledgers_eq (h : Succeeds request p request' p' calm)
    (hcalm : CalmReads request request' calm fun s => ClaimReads s resource) :
    ∃ ledger ledger' : CapacityLedger, p.findings.capacity = ledger.byResource ∧
      p.domainCapacity = ledger.byDomain ∧ p'.findings.capacity = ledger'.byResource ∧
      p'.domainCapacity = ledger'.byDomain ∧
      ledger'.freezeResource resource = ledger.freezeResource resource ∧
      (resource ∈ ledger'.resources ↔ resource ∈ ledger.resources) := by
  obtain ⟨ledger, hledger, hcapacity, hdomain⟩ := h.passes.ledger
  obtain ⟨ledger', hledger', hcapacity', hdomain'⟩ := h.passes'.ledger
  obtain ⟨hpolicy, hentries⟩ := evaluateCapacity_entries hledger
  obtain ⟨hpolicy', hentries'⟩ := evaluateCapacity_entries hledger'
  refine ⟨ledger, ledger', hcapacity, hdomain, hcapacity', hdomain', freeze_eq ?_ ?_⟩
  · rw [hpolicy', hpolicy, h.policy]
  · rw [hentries', hentries, h.entries_eq hcalm]

/-- The aggregate of a resource is as before. -/
theorem findCapacity_eq (h : Succeeds request p request' p' calm)
    (hcalm : CalmReads request request' calm fun s => ClaimReads s resource) :
    findCapacity p'.findings.capacity resource = findCapacity p.findings.capacity resource := by
  obtain ⟨ledger, ledger', hcapacity, -, hcapacity', -, hfreeze, hmem⟩ := h.ledgers_eq hcalm
  have hfind (ledger : CapacityLedger) : findCapacity ledger.byResource resource =
      if resource ∈ ledger.resources then
        some ((ledger.freezeResource resource).finish resource) else none :=
    Ascending.find?_keys (fun _ => rfl) ledger.resources resource
  rw [hcapacity', hcapacity, hfind, hfind, hfreeze]
  exact if_congr hmem rfl rfl

/-- The breakdown of a resource is as before. -/
theorem breakdown_eq (h : Succeeds request p request' p' calm)
    (hcalm : CalmReads request request' calm fun s => ClaimReads s resource) :
    p'.domainCapacity.filter (fun a => a.resource = resource) =
      p.domainCapacity.filter fun a => a.resource = resource := by
  obtain ⟨ledger, ledger', -, hdomain, -, hdomain', hfreeze, hmem⟩ := h.ledgers_eq hcalm
  have hfilter (ledger : CapacityLedger) :
      ledger.byDomain.filter (fun a => a.resource = resource) =
        if resource ∈ ledger.resources then
          (ledger.freezeResource resource).domains.entries.map fun e => finishDomain e.2
        else [] := by
    have hown (other : ResourceClass) :
        ((ledger.freezeResource other).domains.entries.map fun e => finishDomain e.2).filter
          (fun a => a.resource = resource) =
        if other = resource then
          (ledger.freezeResource resource).domains.entries.map fun e => finishDomain e.2
        else [] := by
      have hlabel : ∀ a ∈ (ledger.freezeResource other).domains.entries.map
          (fun e => finishDomain e.2), a.resource = other := by
        intro a ha
        obtain ⟨e, he, rfl⟩ := List.mem_map.1 ha
        exact (freezeResource_labelled e he).1
      split
      · next hsame =>
        subst hsame
        exact List.filter_eq_self.2 fun a ha => decide_eq_true (hlabel a ha)
      · next hother =>
        exact List.filter_eq_nil_iff.2 fun a ha hsame =>
          hother ((hlabel a ha).symm.trans (of_decide_eq_true hsame))
    rw [CapacityLedger.byDomain, List.filter_flatMap]
    simp only [hown]
    exact flatMap_single (canonicalise_nodup _)
  rw [hdomain', hdomain, hfilter, hfilter, hfreeze]
  exact if_congr hmem rfl rfl

/-! ## Links and routes -/

/-- A calm route is found alike. -/
theorem citedRoute_eq (h : Succeeds request p request' p' calm) {link : LinkRecord}
    (hcalm : calm (routeKey link.route)) :
    citedRoute p'.findings.toEvidence link = citedRoute p.findings.toEvidence link := by
  rw [citedRoute, citedRoute, h.passes'.snapshot, h.passes.snapshot, h.calm.route hcalm]

/-- The fate of a calm domain is the same. -/
theorem domainFate_eq (h : Succeeds request p request' p' calm) {link : LinkRecord}
    (hcalm : DomainCalm request request' calm link.domain) :
    domainFate p'.findings.toEvidence link = domainFate p.findings.toEvidence link := by
  rw [domainFate, domainFate, h.findDomain_eq hcalm]

/-- A link is classified as before if it is as fresh, and its ends, the route it cites and its
domain are calm. -/
theorem classifyLink_eq (h : Succeeds request p request' p' calm) {link : LinkRecord}
    (ha : calm (memberKey link.a.rack)) (hb : calm (memberKey link.b.rack))
    (hfresh : request'.freshness link.observedAt = request.freshness link.observedAt)
    (hcited : calm (routeKey link.route)) (hfate : DomainCalm request request' calm link.domain) :
    classifyLink p'.findings.toEvidence link = classifyLink p.findings.toEvidence link := by
  have hfreshness : freshness p'.findings.policy p'.findings.snapshot.observedAt link.observedAt =
      freshness p.findings.policy p.findings.snapshot.observedAt link.observedAt := by
    rw [h.passes'.policy, h.passes'.snapshot, h.passes.policy, h.passes.snapshot]
    exact hfresh
  rw [classifyLink, classifyLink, hfreshness, h.citedRoute_eq hcited, h.domainFate_eq hfate]
  rcases (h.sameMember ha).cases with ⟨hnone, hnone'⟩ | ⟨a, a', hfind, hfind', hsame⟩
  · rw [hnone, hnone']
  rcases (h.sameMember hb).cases with ⟨hnone, hnone'⟩ | ⟨b, b', hfindb, hfindb', hsameb⟩
  · rw [hnone, hnone', hfind, hfind']
  rw [hfind, hfind', hfindb, hfindb']
  dsimp only
  rw [bare_established hsame, bare_established hsameb, bare_connectivityUsable hsame,
    bare_connectivityUsable hsameb, bare_generation hsame, bare_generation hsameb,
    bare_health hsame, bare_health hsameb]

/-- Hops over calm racks are classified alike. -/
theorem classifyHops_eq (h : Succeeds request p request' p' calm)
    {hops : List (RackId × RackGeneration)} (hcalm : ∀ hop ∈ hops, calm (memberKey hop.1)) :
    classifyHops p'.findings.toEvidence hops = classifyHops p.findings.toEvidence hops := by
  induction hops with
  | nil => rfl
  | cons hop hops ih =>
    rw [classifyHops, classifyHops, ih fun hop hhop => hcalm hop (List.mem_cons_of_mem _ hhop)]
    rcases (h.sameMember (hcalm hop List.mem_cons_self)).cases with ⟨hnone, hnone'⟩ |
      ⟨member, member', hfind, hfind', hsame⟩
    · rw [hnone, hnone']
    · rw [hfind, hfind']
      dsimp only
      rw [bare_established hsame, bare_connectivityUsable hsame, bare_generation hsame]

/-- A calm route is classified alike. -/
theorem classifyRoute_eq (h : Succeeds request p request' p' calm) {route : RouteEvidence}
    (hfresh : request'.freshness route.observedAt = request.freshness route.observedAt)
    (hhops : ∀ rack ∈ route.path, calm (memberKey rack)) :
    classifyRoute p'.findings.toEvidence route = classifyRoute p.findings.toEvidence route := by
  have hfreshness : freshness p'.findings.policy p'.findings.snapshot.observedAt route.observedAt =
      freshness p.findings.policy p.findings.snapshot.observedAt route.observedAt := by
    rw [h.passes'.policy, h.passes'.snapshot, h.passes.policy, h.passes.snapshot]
    exact hfresh
  rw [classifyRoute, classifyRoute, hfreshness,
    h.classifyHops_eq fun hop hhop => hhops hop.1 (List.of_mem_zip hhop).1]

/-! ## Pairs -/

/-- A link of a calm pair joins calm racks. -/
theorem link_ends {link : LinkRecord} (hjoins : linkPair link = pair)
    (hcalm : CalmReads request request' calm fun s => PairReads s pair) :
    calm (memberKey link.a.rack) ∧ calm (memberKey link.b.rack) := by
  have hleft := hcalm _ (.inl .left)
  have hright := hcalm _ (.inl .right)
  rw [linkPair] at hjoins
  rcases pairKey_cases link.a.rack link.b.rack with hkey | hkey <;>
    rw [← hjoins, hkey] at hleft hright
  · exact ⟨hleft, hright⟩
  · exact ⟨hright, hleft⟩

/-- The pair has the same links and routes. -/
theorem newPair_eq (h : Succeeds request p request' p' calm)
    (hcalm : CalmReads request request' calm fun s => PairReads s pair) :
    newPair request'.snapshot pair = newPair request.snapshot pair := by
  have hlinks : request'.snapshot.links.filter (fun link => linkPair link = pair) =
      request.snapshot.links.filter fun link => linkPair link = pair := by
    refine h.ascends'.links.filter_eq h.ascends.links fun k => ?_
    by_cases hk : calm (linkKey k)
    · rw [h.calm.link hk]
    · have hnone {links : List LinkRecord}
          (hreads : ∀ l ∈ links, linkPair l = pair → calm (linkKey l.id)) :
          (links.find? fun l => l.id = k).filter (fun l => linkPair l = pair) = none := by
        cases hfind : links.find? fun l => l.id = k with
        | none => rfl
        | some l =>
          have hid : l.id = k := by simpa using List.find?_some hfind
          refine Option.filter_eq_none_iff.2 fun l' hl' hjoins => hk ?_
          rw [← Option.some.inj hl'] at hjoins
          exact hid ▸ hreads l (List.mem_of_find?_eq_some hfind) (of_decide_eq_true hjoins)
      rw [hnone fun l hl hjoins => hcalm _ (.inr (.link hl hjoins)),
        hnone fun l hl hjoins => hcalm _ (.inl (.link hl hjoins))]
  have hroutes : request'.snapshot.routes.filter (fun route => pair ∈ routePairs route) =
      request.snapshot.routes.filter fun route => pair ∈ routePairs route := by
    refine h.ascends'.routes.filter_eq h.ascends.routes fun k => ?_
    by_cases hk : calm (routeKey k)
    · rw [h.calm.route hk]
    · have hnone {routes : List RouteEvidence}
          (hreads : ∀ r ∈ routes, pair ∈ routePairs r → calm (routeKey r.ref)) :
          (routes.find? fun r => r.ref = k).filter (fun r => pair ∈ routePairs r) = none := by
        cases hfind : routes.find? fun r => r.ref = k with
        | none => rfl
        | some r =>
          have hid : r.ref = k := by simpa using List.find?_some hfind
          refine Option.filter_eq_none_iff.2 fun r' hr' hserves => hk ?_
          rw [← Option.some.inj hr'] at hserves
          exact hid ▸ hreads r (List.mem_of_find?_eq_some hfind) (of_decide_eq_true hserves)
      rw [hnone fun r hr hserves => hcalm _ (.inr (.route hr hserves)),
        hnone fun r hr hserves => hcalm _ (.inl (.route hr hserves))]
  rw [newPair, newPair, hlinks, hroutes]

/-- The pair is judged as before. -/
theorem judgePair_eq (h : Succeeds request p request' p' calm)
    (hcalm : CalmReads request request' calm fun s => PairReads s pair) :
    judgePair p'.findings.toEvidence (newPair request'.snapshot pair) =
      judgePair p.findings.toEvidence (newPair request.snapshot pair) := by
  have hnew := h.newPair_eq hcalm
  have hlinks : (newPair request.snapshot pair).links.map (classifyLink p'.findings.toEvidence) =
      (newPair request.snapshot pair).links.map (classifyLink p.findings.toEvidence) := by
    refine List.map_congr_left fun link hlink => ?_
    have hlink' := congrArg PairWork.links hnew ▸ hlink
    obtain ⟨hin, hjoins⟩ := List.mem_filter.1 hlink
    obtain ⟨hin', -⟩ := List.mem_filter.1 hlink'
    replace hjoins := of_decide_eq_true hjoins
    obtain ⟨ha, hb⟩ := link_ends hjoins hcalm
    refine h.classifyLink_eq ha hb (h.calm.linkTime link hin' (hcalm _ (.inl (.link hin hjoins))))
      (hcalm _ (.inl (.cited hin hjoins))) fun key hreads => hcalm key ?_
    exact hreads.imp (.fate hin hjoins) (.fate hin' hjoins)
  have hroutes : (newPair request.snapshot pair).routes.map (classifyRoute p'.findings.toEvidence) =
      (newPair request.snapshot pair).routes.map (classifyRoute p.findings.toEvidence) := by
    refine List.map_congr_left fun route hroute => ?_
    have hroute' := congrArg PairWork.routes hnew ▸ hroute
    obtain ⟨hin, hserves⟩ := List.mem_filter.1 hroute
    obtain ⟨hin', -⟩ := List.mem_filter.1 hroute'
    replace hserves := of_decide_eq_true hserves
    exact h.classifyRoute_eq
      (h.calm.routeTime route hin' (hcalm _ (.inl (.route hin hserves))))
      fun rack hrack => hcalm _ (.inl (.hop hin hserves hrack))
  rw [hnew, judgePair, judgePair, pairFold, pairFold, hlinks, hroutes]

/-- The pair is looked at in both rounds or in neither. -/
theorem collected_iff (h : Succeeds request p request' p' calm)
    (hcalm : CalmReads request request' calm fun s => PairReads s pair) :
    pair ∈ collectedPairs p'.findings.toEvidence ↔ pair ∈ collectedPairs p.findings.toEvidence := by
  have hnew := h.newPair_eq hcalm
  have hlinks {request : CompositionRequest} : pair ∈ request.snapshot.links.map linkPair ↔
      (newPair request.snapshot pair).links ≠ [] := by
    rw [newPair, ne_eq, List.filter_eq_nil_iff]
    simp
  have hroutes {request : CompositionRequest} : pair ∈ request.snapshot.routes.flatMap routePairs ↔
      (newPair request.snapshot pair).routes ≠ [] := by
    rw [newPair, ne_eq, List.filter_eq_nil_iff]
    simp
  have hends : ∀ a b, pairKey a b = pair → calm (memberKey a) ∧ calm (memberKey b) := fun a b hab =>
    @link_ends request request' calm pair { a := { rack := a }, b := { rack := b } } hab hcalm
  have hcoverage : pair ∈ coveragePairs request'.policy p'.findings.members ↔
      pair ∈ coveragePairs request.policy p.findings.members := by
    have hmem {request : CompositionRequest} {p : Passes} (hp : PassesOf request p) :
        pair ∈ coveragePairs request.policy p.findings.members ↔
          request.policy.requireFullCoverage = true ∧ ∃ a b, pairKey a b = pair ∧
            ((findMember p.findings.members a).any MemberWork.established = true) ∧
            ((findMember p.findings.members b).any MemberWork.established = true) := by
      have hrack (a : RackId) :
          a ∈ (p.findings.members.filter MemberWork.established).map MemberWork.rack ↔
            (findMember p.findings.members a).any MemberWork.established = true := by
        rw [List.mem_map, Option.any_eq_true]
        constructor
        · rintro ⟨work, hwork, rfl⟩
          obtain ⟨hin, hestablished⟩ := List.mem_filter.1 hwork
          exact ⟨work, (members_ascending hp).find? hin, hestablished⟩
        · rintro ⟨work, hwork, hestablished⟩
          exact ⟨work, List.mem_filter.2 ⟨mem_of_findMember hwork, hestablished⟩,
            findMember_rack hwork⟩
      rw [coveragePairs]
      split
      · next hfull =>
        simp only [List.mem_flatMap, List.mem_map (f := pairKey _), hrack, hfull, true_and]
        constructor
        · rintro ⟨a, ha, b, hb, hab⟩
          exact ⟨a, b, hab, ha, hb⟩
        · rintro ⟨a, b, hab, ha, hb⟩
          exact ⟨a, ha, b, hb, hab⟩
      · next hfull => exact iff_of_false List.not_mem_nil fun hboth => hfull hboth.1
    have hestablished {a : RackId} (ha : calm (memberKey a)) :
        (findMember p'.findings.members a).any MemberWork.established =
          (findMember p.findings.members a).any MemberWork.established := by
      rcases (h.sameMember ha).cases with ⟨hnone, hnone'⟩ | ⟨member, member', hfind, hfind', hsame⟩
      · rw [hnone, hnone']
      · rw [hfind, hfind']
        exact bare_established hsame
    rw [hmem h.passes', hmem h.passes, h.policy]
    refine and_congr Iff.rfl (exists_congr fun a => exists_congr fun b => ?_)
    refine and_congr_right fun hab => ?_
    obtain ⟨ha, hb⟩ := hends a b hab
    rw [hestablished ha, hestablished hb]
  rw [collectedPairs, collectedPairs, mem_canonicalise, mem_canonicalise, List.mem_filter,
    List.mem_filter, List.mem_append, List.mem_append, List.mem_append, List.mem_append,
    h.passes'.snapshot, h.passes'.policy, h.passes.snapshot, h.passes.policy, hlinks, hlinks,
    hroutes, hroutes, hnew, hcoverage]

/-- The pair that is judged for a key. -/
theorem find_pair (hp : PassesOf request p) {work : PairWork} :
    p.findings.pairs.find? (fun work => work.key = pair) = some work ↔
      pair ∈ collectedPairs p.findings.toEvidence ∧
        judgePair p.findings.toEvidence (newPair request.snapshot pair) = .ok work := by
  have hkey {pair : PairKey} {work : PairWork}
      (hjudge : judgePair p.findings.toEvidence (newPair p.findings.snapshot pair) = .ok work) :
      work.key = pair := by
    rw [judgePair] at hjudge
    obtain ⟨verdict, -, hjudge⟩ := bind_eq_ok.1 hjudge
    rw [pure_eq_ok] at hjudge
    rw [← hjudge]
    rfl
  rw [← hp.snapshot]
  constructor
  · intro hfind
    obtain ⟨pair', hpair', hjudge⟩ := mapM_mem hp.pairs work (List.mem_of_find?_eq_some hfind)
    have hsame : work.key = pair := by simpa using List.find?_some hfind
    rw [hkey hjudge] at hsame
    subst hsame
    exact ⟨hpair', hjudge⟩
  · rintro ⟨hpair, hjudge⟩
    obtain ⟨work', hin, hjudge'⟩ := mapM_covers hp.pairs pair hpair
    rw [hjudge, Except.ok.injEq] at hjudge'
    subst hjudge'
    exact find?_key_eq hp.pair_keys hin (hkey hjudge)

/-- A pair of which all that it reads is calm gets the same verdict. -/
theorem findPair_eq (h : Succeeds request p request' p' calm)
    (hcalm : CalmReads request request' calm fun s => PairReads s pair) :
    p'.findings.pairs.find? (fun work => work.key = pair) =
      p.findings.pairs.find? fun work => work.key = pair := by
  ext work
  rw [find_pair h.passes', find_pair h.passes, h.collected_iff hcalm, h.judgePair_eq hcalm]

end Succeeds

end PodFabric
