import PodFabric.Proof.ReadParts

/-!
# Undisturbed decisions

The verdict on an obligation is as it was if all that it reads is calm, and with it the record of
every decision on a part of the pod (`Succeeds.recordOf_eq`). Where everything is calm, and what the
controller adds to the evidence stands still, so are the decisions on the pod as a whole
(`Succeeds.pod_records_eq`).
-/

namespace PodFabric

namespace Succeeds
variable {request request' : CompositionRequest} {p p' : Passes} {calm : DepKey → Prop}
  {rack : RackId} {id : DomainId} {kind : DomainKind}

/-! ## Diversity -/

/-- What the domains of a kind read. -/
def KindReads (kind : DomainKind) (snapshot : PodSnapshot) (key : DepKey) : Prop :=
  ∃ d, snapshot.Names d ∧ snapshot.kindOf d = kind ∧ DomainReads snapshot d key

/-- The judged domains are in order. -/
theorem domains_ascending (hp : PassesOf request p) : Ascending DomainWork.id p.findings.domains := by
  rw [hp.domains, checkedDomains, List.map_map]
  exact Ascending.of_keys (fun _ => markOverlap_id.trans (checkDomain_id.trans newDomain_id))
    (canonicalise_pairwise _)

/-- A domain that is found is named, and has the kind that it is declared with. -/
theorem found_domain (hp : PassesOf request p)
    (hvalid : SnapshotValid request.snapshot request.policy) {work : DomainWork}
    (hw : work ∈ p.findings.domains) :
    request.snapshot.Names work.id ∧ work.kind = request.snapshot.kindOf work.id := by
  refine ⟨?_, (hp.domain_lists hvalid.domainIds hw).2⟩
  rw [hp.domains, checkedDomains, List.map_map] at hw
  obtain ⟨d, hd, rfl⟩ := List.mem_map.1 hw
  change request.snapshot.Names (markOverlap _ _ _).id
  rw [markOverlap_id, checkDomain_id, newDomain_id]
  exact (mem_coveredDomains request).1 hd

/-- A calm domain that was named is named again. -/
theorem names_kept (h : Succeeds request p request' p' calm)
    (hcalm : ∀ key, DomainReads request.snapshot id key → calm key)
    (hnames : request.snapshot.Names id) : request'.snapshot.Names id := by
  rcases hnames with hdeclares | ⟨rack, hrack⟩
  · exact .inl ((h.declares_iff (hcalm _ .own)).2 hdeclares)
  · exact .inr ⟨rack, by rwa [h.domainsOf_eq (hcalm _ (.declaring hrack))]⟩

/-- A calm domain that is named was named before. -/
theorem names_kept' (h : Succeeds request p request' p' calm)
    (hcalm : ∀ key, DomainReads request'.snapshot id key → calm key)
    (hnames : request'.snapshot.Names id) : request.snapshot.Names id := by
  rcases hnames with hdeclares | ⟨rack, hrack⟩
  · exact .inl ((h.declares_iff (hcalm _ .own)).1 hdeclares)
  · refine .inr ⟨rack, ?_⟩
    rwa [h.domainsOf_eq (hcalm _ (.declaring hrack))] at hrack

/-- A domain of a calm kind, in either round, is calm in both. -/
theorem domainCalm_of_kind (h : Succeeds request p request' p' calm)
    (hcalm : CalmReads request request' calm (KindReads kind))
    (hd : (request.snapshot.Names id ∧ request.snapshot.kindOf id = kind) ∨
      (request'.snapshot.Names id ∧ request'.snapshot.kindOf id = kind)) :
    DomainCalm request request' calm id := by
  rcases hd with ⟨hnames, hkind⟩ | ⟨hnames, hkind⟩
  · have hfirst : ∀ key, DomainReads request.snapshot id key → calm key := fun key hreads =>
      hcalm key (.inl ⟨id, hnames, hkind, hreads⟩)
    rintro key (hreads | hreads)
    · exact hfirst key hreads
    · exact hcalm key (.inr ⟨id, h.names_kept hfirst hnames,
        (h.kindOf_eq (hfirst _ .own)).trans hkind, hreads⟩)
  · have hsecond : ∀ key, DomainReads request'.snapshot id key → calm key := fun key hreads =>
      hcalm key (.inr ⟨id, hnames, hkind, hreads⟩)
    rintro key (hreads | hreads)
    · exact hcalm key (.inl ⟨id, h.names_kept' hsecond hnames,
        (h.kindOf_eq (hsecond _ .own)).symm.trans hkind, hreads⟩)
    · exact hsecond key hreads

/-- The domains of a calm kind are as before. -/
theorem ofKind_eq (h : Succeeds request p request' p' calm)
    (hcalm : CalmReads request request' calm (KindReads kind)) :
    p'.findings.domains.filter (fun domain => domain.kind = kind) =
      p.findings.domains.filter fun domain => domain.kind = kind := by
  refine (domains_ascending h.passes').filter_eq (domains_ascending h.passes) fun k => ?_
  by_cases hk : (request.snapshot.Names k ∧ request.snapshot.kindOf k = kind) ∨
      (request'.snapshot.Names k ∧ request'.snapshot.kindOf k = kind)
  · have hfind := h.findDomain_eq (h.domainCalm_of_kind hcalm hk)
    rw [findDomain, findDomain] at hfind
    rw [hfind]
  · have hnone {request : CompositionRequest} {p : Passes} (hp : PassesOf request p)
        (hvalid : SnapshotValid request.snapshot request.policy)
        (hnot : ¬ (request.snapshot.Names k ∧ request.snapshot.kindOf k = kind)) :
        (p.findings.domains.find? fun domain => domain.id = k).filter
          (fun domain => domain.kind = kind) = none := by
      refine Option.filter_eq_none_iff.2 fun work hfind hkind => hnot ?_
      have hid : work.id = k := by simpa using List.find?_some hfind
      obtain ⟨hnames, hsame⟩ := found_domain hp hvalid (List.mem_of_find?_eq_some hfind)
      rw [hid] at hnames hsame
      exact ⟨hnames, hsame.symm.trans (of_decide_eq_true hkind)⟩
    rw [hnone h.passes' h.valid' fun hboth => hk (.inr hboth),
      hnone h.passes h.valid fun hboth => hk (.inl hboth)]

/-- Whether a calm rack is admissible is the same. -/
theorem admissible_eq (h : Succeeds request p request' p' calm) (hcalm : calm (memberKey rack))
    (excludeDrained : Bool) : admissible p'.findings.members excludeDrained rack =
      admissible p.findings.members excludeDrained rack := by
  rw [admissible, admissible]
  rcases (h.sameMember hcalm).cases with ⟨hnone, hnone'⟩ | ⟨member, member', hfind, hfind', hsame⟩
  · rw [hnone, hnone']
  · rw [hfind, hfind']
    dsimp only
    rw [bare_established hsame, bare_connectivityUsable hsame, bare_admin hsame]

/-- The packing of calm domains is the same. -/
theorem diversity_eq (h : Succeeds request p request' p' calm)
    (hcalm : CalmReads request request' calm (KindReads kind)) (excludeDrained : Bool) :
    diversity p'.findings.toPodEvidence kind excludeDrained =
      diversity p.findings.toPodEvidence kind excludeDrained := by
  have hadmissible : ∀ work ∈ p.findings.domains.filter (fun domain => domain.kind = kind),
      work.verdict.declaredMembers.any (admissible p'.findings.members excludeDrained) =
        work.verdict.declaredMembers.any (admissible p.findings.members excludeDrained) := by
    intro work hwork
    obtain ⟨hin, hkind⟩ := List.mem_filter.1 hwork
    obtain ⟨hnames, hsame⟩ := found_domain h.passes h.valid hin
    have hlists := (h.passes.domain_lists h.valid.domainIds hin).1
    rw [Bool.eq_iff_iff, List.any_eq_true, List.any_eq_true]
    refine exists_congr fun rack => and_congr_right fun hrack => ?_
    rw [h.admissible_eq (hcalm _ (.inl ⟨work.id, hnames, hsame.symm.trans (of_decide_eq_true hkind),
      .listed ((hlists rack).1 hrack)⟩))]
  rw [diversity, diversity, h.ofKind_eq hcalm]
  have hcandidates : (p.findings.domains.filter (fun domain => domain.kind = kind)).filter
      (fun domain => domain.verdict.status ≠ .conflicting && !domain.implicit &&
        domain.verdict.declaredMembers.any (admissible p'.findings.members excludeDrained)) =
      (p.findings.domains.filter (fun domain => domain.kind = kind)).filter
        fun domain => domain.verdict.status ≠ .conflicting && !domain.implicit &&
          domain.verdict.declaredMembers.any (admissible p.findings.members excludeDrained) :=
    List.filter_congr fun work hwork => by rw [hadmissible work hwork]
  rw [hcandidates]

/-! ## Obligations -/

/-- An obligation is judged as before. -/
theorem judgeObligation_eq (h : Succeeds request p request' p' calm) {o : Obligation}
    (ho : o ∈ request.snapshot.obligations) (ho' : o ∈ request'.snapshot.obligations)
    (hcalm : CalmReads request request' calm fun s => ObligationReads s o.id) :
    judgeObligation p'.findings.toPodEvidence o = judgeObligation p.findings.toPodEvidence o := by
  have hkind : CalmReads request request' calm (KindReads o.diversityKind) := by
    rintro key (⟨d, hnames, hkind, hreads⟩ | ⟨d, hnames, hkind, hreads⟩)
    · exact hcalm key (.inl (.domain ho rfl hnames hkind hreads))
    · exact hcalm key (.inr (.domain ho' rfl hnames hkind hreads))
  have hfloor : o.requirements.flatMap (requirementFindings p'.findings.toPodEvidence) =
      o.requirements.flatMap (requirementFindings p.findings.toPodEvidence) := by
    refine List.flatMap_congr fun requirement hrequirement => ?_
    have hfind := @findCapacity_eq request request' p p' calm requirement.resource h
      fun key hreads => hcalm key (hreads.imp (.claims ho rfl hrequirement)
        (.claims ho' rfl hrequirement))
    rw [requirementFindings, requirementFindings, hfind, h.passes'.policy, h.passes.policy, h.policy]
  have hpaths : pathFindings p'.findings.toPodEvidence o =
      pathFindings p.findings.toPodEvidence o := by
    have hracks : o.protectedRacks.flatMap (protectedRackFinding p'.findings.toPodEvidence) =
        o.protectedRacks.flatMap (protectedRackFinding p.findings.toPodEvidence) := by
      refine List.flatMap_congr fun rack hrack => ?_
      rw [protectedRackFinding, protectedRackFinding]
      rcases (h.sameMember (hcalm _ (.inl (.rack ho rfl hrack)))).cases with ⟨hnone, hnone'⟩ |
        ⟨member, member', hfind, hfind', hsame⟩
      · rw [hnone, hnone']
      · rw [hfind, hfind']
        dsimp only
        rw [bare_established hsame]
    have hpairs : ((pairsOf o.protectedRacks).flatMap fun x =>
          protectedPairFinding p'.findings.toPodEvidence x.1 x.2) =
        (pairsOf o.protectedRacks).flatMap fun x =>
          protectedPairFinding p.findings.toPodEvidence x.1 x.2 := by
      refine List.flatMap_congr fun x hx => ?_
      have hfind := @findPair_eq request request' p p' calm (pairKey x.1 x.2) h
        fun key hreads => hcalm key (hreads.imp (.pair ho rfl hx) (.pair ho' rfl hx))
      rw [protectedPairFinding, protectedPairFinding, findPair, findPair, hfind]
    rw [pathFindings, pathFindings, hracks, hpairs]
  have hfindings : obligationFindings p'.findings.toPodEvidence o =
      obligationFindings p.findings.toPodEvidence o := by
    rw [obligationFindings, obligationFindings, diversityFindings, diversityFindings,
      maintenanceFindings, maintenanceFindings, hfloor, hpaths, h.diversity_eq hkind false,
      h.diversity_eq hkind true]
  rw [judgeObligation, judgeObligation, hfindings]

/-- The verdict on an obligation, as its decision looks it up. -/
theorem find_verdict (hp : PassesOf request p) {id : ObligationId} :
    p.findings.obligations.find? (fun verdict => verdict.id = id) =
      (request.snapshot.obligations.find? fun o => o.id = id).map
        (judgeObligation p.findings.toPodEvidence) := by
  rw [hp.obligations, List.find?_map]
  rfl

end Succeeds

/-! ## Records -/

/-- The record of the decision on a subject, if there is one. -/
def Passes.recordOf (p : Passes) : DecisionSubject → Option DecisionRecord
  | .member rack => (findMember p.findings.members rack).map memberDecision
  | .domain id => (findDomain p.findings.domains id).map domainDecision
  | .resource ofClass => (findCapacity p.findings.capacity ofClass).map capacityDecision
  | .slot ofClass inDomain =>
    (p.domainCapacity.find? fun a => (a.resource, a.domain) = (ofClass, inDomain)).map
      domainCapacityDecision
  | .pair key => (p.findings.pairs.find? fun work => work.key = key).map pairDecision
  | .obligation id =>
    (p.findings.snapshot.obligations.find? fun o => o.id = id).map
      (obligationDecision p.findings.obligations)
  | .lifecycle =>
    some (lifecycleDecision p.findings (partDecisions p.findings p.domainCapacity))
  | .authority => some (authorityDecision p.findings)

section Records
variable {request request' : CompositionRequest} {p p' : Passes} {calm : DepKey → Prop}
  {s : DecisionSubject} {record : DecisionRecord}

/-- A record is emitted on a subject just when it is the record of the subject. -/
theorem PassesOf.mem_emissions (h : PassesOf request p)
    (hvalid : SnapshotValid request.snapshot request.policy) :
    (∃ e ∈ p.emissions, e.subject = s ∧ e.record = record) ↔ p.recordOf s = some record := by
  obtain ⟨ledger, -, hcapacity, hdomain⟩ := h.ledger
  have hresources : (p.findings.capacity.map CapacityAggregate.resource).Nodup := by
    rw [hcapacity, byResource_resources]
    exact canonicalise_nodup _
  have hslots : (p.domainCapacity.map fun a => (a.resource, a.domain)).Nodup := by
    rw [hdomain]
    exact byDomain_nodup
  have hobligations : (p.findings.snapshot.obligations.map Obligation.id).Nodup :=
    h.snapshot.symm ▸ hvalid.obligationIds
  constructor
  · rintro ⟨e, he, rfl, rfl⟩
    rcases List.mem_append.1 he with he | he
    · simp only [partEmissions, List.mem_append, List.mem_map] at he
      rcases he with ((((⟨work, hwork, rfl⟩ | ⟨work, hwork, rfl⟩) | ⟨a, ha, rfl⟩) |
        ⟨a, ha, rfl⟩) | ⟨work, hwork, rfl⟩) | ⟨o, ho, rfl⟩
      · exact Option.map_eq_some_iff.2 ⟨work, (Succeeds.members_ascending h).find? hwork, rfl⟩
      · exact Option.map_eq_some_iff.2 ⟨work, (Succeeds.domains_ascending h).find? hwork, rfl⟩
      · exact Option.map_eq_some_iff.2 ⟨a, find?_key_eq hresources ha rfl, rfl⟩
      · exact Option.map_eq_some_iff.2 ⟨a, find?_key_eq hslots ha rfl, rfl⟩
      · exact Option.map_eq_some_iff.2 ⟨work, find?_key_eq h.pair_keys hwork rfl, rfl⟩
      · exact Option.map_eq_some_iff.2 ⟨o, find?_key_eq hobligations ho rfl, rfl⟩
    · simp only [List.mem_cons, List.not_mem_nil, or_false] at he
      rcases he with rfl | rfl <;> rfl
  · intro hrecord
    have hpart {e : Emission} (he : e ∈ partEmissions p.findings p.domainCapacity)
        (hs : e.subject = s) (hr : e.record = record) :
        ∃ e ∈ p.emissions, e.subject = s ∧ e.record = record :=
      ⟨e, List.mem_append_left _ he, hs, hr⟩
    cases s with
    | member rack =>
      obtain ⟨work, hfind, hr⟩ := Option.map_eq_some_iff.1 hrecord
      refine @hpart ⟨.member work.rack, [], memberDecision work⟩ ?_ ?_ hr
      · simp only [partEmissions, List.mem_append]
        exact .inl (.inl (.inl (.inl (.inl (List.mem_map.2 ⟨work, mem_of_findMember hfind, rfl⟩)))))
      · exact congrArg _ (findMember_rack hfind)
    | domain id =>
      obtain ⟨work, hfind, hr⟩ := Option.map_eq_some_iff.1 hrecord
      refine @hpart ⟨.domain work.id, [], domainDecision work⟩ ?_ ?_ hr
      · simp only [partEmissions, List.mem_append]
        exact .inl (.inl (.inl (.inl (.inr (List.mem_map.2 ⟨work, (findDomain_id hfind).1, rfl⟩)))))
      · exact congrArg _ (findDomain_id hfind).2
    | resource ofClass =>
      obtain ⟨a, hfind, hr⟩ := Option.map_eq_some_iff.1 hrecord
      refine @hpart ⟨.resource a.resource, [], capacityDecision a⟩ ?_ ?_ hr
      · simp only [partEmissions, List.mem_append]
        exact .inl (.inl (.inl (.inr (List.mem_map.2 ⟨a, List.mem_of_find?_eq_some hfind, rfl⟩))))
      · rw [findCapacity] at hfind
        have hclass : a.resource = ofClass := by simpa using List.find?_some hfind
        exact congrArg _ hclass
    | slot ofClass inDomain =>
      obtain ⟨a, hfind, hr⟩ := Option.map_eq_some_iff.1 hrecord
      refine @hpart ⟨.slot a.resource a.domain, [], domainCapacityDecision a⟩ ?_ ?_ hr
      · simp only [partEmissions, List.mem_append]
        exact .inl (.inl (.inr (List.mem_map.2 ⟨a, List.mem_of_find?_eq_some hfind, rfl⟩)))
      · have hkey : a.resource = ofClass ∧ a.domain = inDomain := by
          simpa using List.find?_some hfind
        rw [hkey.1, hkey.2]
    | pair key =>
      obtain ⟨work, hfind, hr⟩ := Option.map_eq_some_iff.1 hrecord
      refine @hpart ⟨.pair work.key, [], pairDecision work⟩ ?_ ?_ hr
      · simp only [partEmissions, List.mem_append]
        exact .inl (.inr (List.mem_map.2 ⟨work, List.mem_of_find?_eq_some hfind, rfl⟩))
      · have hkey : work.key = key := by simpa using List.find?_some hfind
        exact congrArg _ hkey
    | obligation id =>
      obtain ⟨o, hfind, hr⟩ := Option.map_eq_some_iff.1 hrecord
      refine @hpart ⟨.obligation o.id, o.uses, obligationDecision p.findings.obligations o⟩ ?_ ?_ hr
      · simp only [partEmissions, List.mem_append]
        exact .inr (List.mem_map.2 ⟨o, List.mem_of_find?_eq_some hfind, rfl⟩)
      · have hid : o.id = id := by simpa using List.find?_some hfind
        exact congrArg _ hid
    | lifecycle =>
      exact ⟨_, List.mem_append_right _ List.mem_cons_self, rfl, Option.some.inj hrecord⟩
    | authority =>
      exact ⟨_, List.mem_append_right _ (List.mem_cons_of_mem _ List.mem_cons_self), rfl,
        Option.some.inj hrecord⟩

namespace Succeeds

/-- The decision on a part of the pod of which all that it reads is calm is as before, and so is
whether there is one. -/
theorem recordOf_eq (h : Succeeds request p request' p' calm) (hlifecycle : s ≠ .lifecycle)
    (hauthority : s ≠ .authority)
    (hcalm : CalmReads request request' calm fun snapshot => Reads snapshot s) :
    p'.recordOf s = p.recordOf s := by
  cases s with
  | member rack =>
    have hsettled := congrArg (Option.map memberDecision)
      (h.findMember_settled fun key hreads => hcalm key (.inl hreads))
    rw [Option.map_map, Option.map_map] at hsettled
    exact hsettled
  | domain id =>
    rw [Passes.recordOf, Passes.recordOf,
      h.findDomain_eq fun key hreads => hcalm key (hreads.imp .domain .domain)]
  | resource ofClass =>
    rw [Passes.recordOf, Passes.recordOf,
      h.findCapacity_eq fun key hreads => hcalm key (hreads.imp .resource .resource)]
  | slot ofClass inDomain =>
    have hfilter := h.breakdown_eq fun key (hreads : ClaimReads _ ofClass key ∨ _) =>
      hcalm key (hreads.imp .slot .slot)
    have hfind (l : List CapacityAggregate) :
        l.find? (fun a => (a.resource, a.domain) = (ofClass, inDomain)) =
          (l.filter fun a => a.resource = ofClass).find? fun a =>
            (a.resource, a.domain) = (ofClass, inDomain) := by
      rw [List.find?_filter]
      refine congrArg (List.find? · l) (funext fun a => ?_)
      by_cases hsame : a.resource = ofClass <;> simp [hsame]
    rw [Passes.recordOf, Passes.recordOf, hfind, hfind p.domainCapacity, hfilter]
  | pair key =>
    rw [Passes.recordOf, Passes.recordOf,
      h.findPair_eq fun key hreads => hcalm key (hreads.imp .pair .pair)]
  | obligation id =>
    have hfind : (request'.snapshot.obligations.find? fun o => o.id = id) =
        request.snapshot.obligations.find? fun o => o.id = id :=
      h.calm.obligation (hcalm _ (.inl (.obligation .own)))
    rw [Passes.recordOf, Passes.recordOf, h.passes'.snapshot, h.passes.snapshot, hfind]
    refine Option.map_congr fun o ho => ?_
    have hid : o.id = id := by simpa using List.find?_some ho
    have hjudge := h.judgeObligation_eq (List.mem_of_find?_eq_some ho)
      (List.mem_of_find?_eq_some (hfind.trans ho)) fun key hreads => hcalm key <|
        hid ▸ hreads.imp .obligation .obligation
    rw [obligationDecision, obligationDecision, find_verdict h.passes', find_verdict h.passes, hid,
      hfind, ho, Option.map_some, Option.map_some, hjudge]
  | lifecycle => exact absurd rfl hlifecycle
  | authority => exact absurd rfl hauthority

/-! ## The pod as a whole -/

/-- Everything is calm, in every part of the pod. -/
theorem alike (h : Succeeds request p request' p' calm) (hcalm : ∀ key, calm key) :
    Alike p { p' with findings := { p'.findings with snapshot := p.findings.snapshot } } ∧
      p'.domainCapacity = p.domainCapacity ∧
      p'.findings.snapshot.obligations = p.findings.snapshot.obligations := by
  have hsettled : p'.findings.members.map MemberWork.settled =
      p.findings.members.map MemberWork.settled := by
    have hfilter : p'.findings.members.filterMap (fun work => some work.settled) =
        p.findings.members.filterMap fun work => some work.settled := by
      refine (members_ascending h.passes').filterMap_eq (members_ascending h.passes) fun rack => ?_
      have hfind := @findMember_settled request request' p p' calm rack h fun key _ => hcalm key
      rw [findMember, findMember, Option.map_eq_bind, Option.map_eq_bind] at hfind
      exact hfind
    rwa [List.filterMap_eq_map'] at hfilter
  have hdomains : p'.findings.domains = p.findings.domains :=
    (domains_ascending h.passes').ext (domains_ascending h.passes) fun id =>
      h.findDomain_eq fun key _ => hcalm key
  obtain ⟨ledger, hledger, hcapacity, hdomain⟩ := h.passes.ledger
  obtain ⟨ledger', hledger', hcapacity', hdomain'⟩ := h.passes'.ledger
  obtain rfl : ledger' = ledger := by
    rw [h.policy, ← evaluateCapacity_settled, hsettled, evaluateCapacity_settled, hledger,
      Except.ok.injEq] at hledger'
    exact hledger'.symm
  have hpairs : p'.findings.pairs = p.findings.pairs := by
    have hcollected : collectedPairs p'.findings.toEvidence =
        collectedPairs p.findings.toEvidence := by
      have hself (ev : Evidence) : canonicalise (collectedPairs ev) = collectedPairs ev :=
        canonicalise_eq_self (canonicalise_pairwise _)
      rw [← hself, ← hself p.findings.toEvidence]
      exact canonicalise_eq_of_mem_iff fun pair => h.collected_iff fun key _ => hcalm key
    have hjudge : (fun pair => judgePair p'.findings.toEvidence
          (newPair p'.findings.snapshot pair)) =
        fun pair => judgePair p.findings.toEvidence (newPair p.findings.snapshot pair) := by
      funext pair
      rw [h.passes'.snapshot, h.passes.snapshot, h.judgePair_eq fun key _ => hcalm key]
    have hpairs' := h.passes'.pairs
    rw [evaluateConnectivity, hcollected] at hpairs'
    have hpairs := h.passes.pairs
    rw [evaluateConnectivity, ← hjudge] at hpairs
    rw [hpairs] at hpairs'
    exact (Except.ok.inj hpairs').symm
  have hsnapshot : request'.snapshot.obligations = request.snapshot.obligations :=
    h.ascends'.obligations.ext h.ascends.obligations fun id => h.calm.obligation (hcalm _)
  have hobligations : p'.findings.obligations = p.findings.obligations := by
    rw [h.passes'.obligations, h.passes.obligations, hsnapshot]
    exact List.map_congr_left fun o ho =>
      h.judgeObligation_eq ho (hsnapshot ▸ ho) fun key _ => hcalm key
  refine ⟨⟨?_, rfl, hsettled, hdomains, hcapacity'.trans hcapacity.symm, hpairs, hobligations⟩,
    hdomain'.trans hdomain.symm, ?_⟩
  · exact h.passes'.policy.trans (h.policy.trans h.passes.policy.symm)
  · rw [h.passes'.snapshot, h.passes.snapshot, hsnapshot]

end Succeeds

/-- What the controller adds to the evidence stands still from one round to the next: the epoch,
which the first round has not advanced either, the lifecycle, the flags of recovery, the tokens and
the verdicts on them. -/
structure Still (p p' : Passes) : Prop where
  epoch : p'.findings.epoch = p.findings.epoch
  kept : p.findings.epoch = p.findings.context.epoch ∧ p'.findings.epoch = p'.findings.context.epoch
  incarnation : p'.findings.context.incarnation = p.findings.context.incarnation
  lifecycle : p'.findings.context.lifecycle = p.findings.context.lifecycle
  recovered : p'.findings.context.recoveredFromStore = p.findings.context.recoveredFromStore
  ambiguous : p'.findings.context.ambiguousCommit = p.findings.context.ambiguousCommit
  granted : p'.findings.context.grantedTokens = p.findings.context.grantedTokens
  revoked : p'.findings.context.revokedTokens = p.findings.context.revokedTokens
  verdicts : ∀ token ∈ p.findings.context.grantedTokens,
    validateToken token (tokenCheck p'.findings) = validateToken token (tokenCheck p.findings)

section Standing
variable {p p' : Passes}

/-- The passes agree on the evidence, up to the order in which its links and routes come, and on
what the controller adds to it. -/
structure Standstill (p p' : Passes) : Prop where
  alike : Alike p { p' with findings := { p'.findings with snapshot := p.findings.snapshot } }
  domainCapacity : p'.domainCapacity = p.domainCapacity
  obligations : p'.findings.snapshot.obligations = p.findings.snapshot.obligations
  still : Still p p'

namespace Standstill

/-- At a standstill the decisions on the parts stay. -/
theorem parts (h : Standstill p p') : partDecisions p'.findings p'.domainCapacity =
    partDecisions p.findings p.domainCapacity := by
  have hmembers : p'.findings.members.map memberDecision = p.findings.members.map memberDecision := by
    have hsettled := congrArg (List.map memberDecision) h.alike.members
    rwa [List.map_map, List.map_map] at hsettled
  rw [partDecisions, partDecisions, hmembers, h.domainCapacity, h.obligations,
    show p'.findings.domains = p.findings.domains from h.alike.domains,
    show p'.findings.capacity = p.findings.capacity from h.alike.capacity,
    show p'.findings.pairs = p.findings.pairs from h.alike.pairs,
    show p'.findings.obligations = p.findings.obligations from h.alike.obligations]

/-- At a standstill the desired lifecycle stays. -/
theorem desiredLifecycle (h : Standstill p p') :
    desiredLifecycle p'.findings = desiredLifecycle p.findings := by
  have hevidence : evidenceLifecycle p'.findings = evidenceLifecycle p.findings :=
    h.alike.evidenceLifecycle
  rw [PodFabric.desiredLifecycle, PodFabric.desiredLifecycle, hevidence, h.still.recovered,
    h.still.ambiguous, ← h.still.kept.1, ← h.still.kept.2, h.still.epoch]

/-- At a standstill the composed lifecycle stays. -/
theorem composedLifecycle (h : Standstill p p') :
    composedLifecycle p'.findings = composedLifecycle p.findings := by
  rw [PodFabric.composedLifecycle, PodFabric.composedLifecycle, h.desiredLifecycle,
    h.still.lifecycle]

/-- At a standstill the number of established racks stays. -/
theorem established_length (h : Standstill p p') : (establishedMembers p'.findings).length =
    (establishedMembers p.findings).length := by
  have hlength (p : Passes) : (establishedMembers p.findings).length =
      ((p.findings.members.map MemberWork.settled).filter MemberWork.established).length := by
    rw [List.filter_map, List.length_map]
    rfl
  rw [hlength, hlength, show p'.findings.members.map MemberWork.settled =
    p.findings.members.map MemberWork.settled from h.alike.members]

/-- At a standstill the degradations stay. -/
theorem degradations (h : Standstill p p') : degradations p'.findings = degradations p.findings := by
  have hexpected : connectivityExpected p'.findings = connectivityExpected p.findings := by
    rw [connectivityExpected, connectivityExpected, h.established_length,
      show p'.findings.pairs = p.findings.pairs from h.alike.pairs,
      show p'.findings.policy = p.findings.policy from h.alike.policy]
  rw [PodFabric.degradations, PodFabric.degradations, h.established_length, hexpected,
    h.desiredLifecycle, h.composedLifecycle, h.still.recovered, h.still.ambiguous,
    h.still.lifecycle, ← h.still.kept.1, ← h.still.kept.2, h.still.epoch]

/-- At a standstill what the verdicts contribute stays. -/
theorem verdictAuthority (h : Standstill p p') :
    verdictAuthority p'.findings = verdictAuthority p.findings := by
  have hmembers (f : AuthorityFold) (p : Passes) :
      p.findings.members.foldl
          (fun f work => f.raise work.verdict.status.outcome work.verdict.reasons) f =
        (p.findings.members.map MemberWork.settled).foldl
          (fun f work => f.raise work.verdict.status.outcome work.verdict.reasons) f := by
    rw [List.foldl_map]
    rfl
  have houtcome : obligationOutcome p'.findings.snapshot = obligationOutcome p.findings.snapshot := by
    funext verdict
    rw [obligationOutcome, obligationOutcome, h.obligations]
  rw [PodFabric.verdictAuthority, PodFabric.verdictAuthority]
  rw [hmembers _ p', hmembers _ p, houtcome, show p'.findings.members.map MemberWork.settled =
      p.findings.members.map MemberWork.settled from h.alike.members,
    show p'.findings.domains = p.findings.domains from h.alike.domains,
    show p'.findings.capacity = p.findings.capacity from h.alike.capacity,
    show p'.findings.obligations = p.findings.obligations from h.alike.obligations]

/-- At a standstill the tokens that are not valid stay. -/
theorem invalidTokens (h : Standstill p p') :
    invalidTokens p'.findings = invalidTokens p.findings := by
  rw [PodFabric.invalidTokens, PodFabric.invalidTokens, h.still.granted]
  refine congrArg (List.filter _) (List.map_congr_left fun token htoken => ?_)
  rw [h.still.verdicts token htoken]

/-- At a standstill the pod has a valid token as before. -/
theorem anyValidPodToken (h : Standstill p p') :
    anyValidPodToken p'.findings = anyValidPodToken p.findings := by
  rw [PodFabric.anyValidPodToken, PodFabric.anyValidPodToken, h.still.granted, Bool.eq_iff_iff,
    List.any_eq_true, List.any_eq_true]
  refine exists_congr fun token => and_congr_right fun htoken => ?_
  rw [h.still.verdicts token htoken]

/-- At a standstill the authority stays. -/
theorem finalAuthority (h : Standstill p p') :
    finalAuthority p'.findings = finalAuthority p.findings := by
  rw [PodFabric.finalAuthority, PodFabric.finalAuthority, stateAuthority, stateAuthority,
    tokenReasons, tokenReasons, h.invalidTokens, h.anyValidPodToken, h.verdictAuthority,
    h.composedLifecycle, h.still.recovered, h.still.ambiguous,
    show p'.findings.policy = p.findings.policy from h.alike.policy]

/-- The decisions on the pod as a whole are as before. -/
theorem pod_records (h : Standstill p p') :
    p'.recordOf .lifecycle = p.recordOf .lifecycle ∧
      p'.recordOf .authority = p.recordOf .authority := by
  have hracks : p'.findings.members.map (fun work => memberKey work.rack) =
      p.findings.members.map fun work => memberKey work.rack := by
    have hsettled := congrArg (List.map fun work => memberKey work.rack) h.alike.members
    rwa [List.map_map, List.map_map] at hsettled
  constructor
  · rw [Passes.recordOf, Passes.recordOf, lifecycleDecision, lifecycleDecision, h.parts,
      h.composedLifecycle, h.degradations, h.still.epoch, h.still.lifecycle]
  · rw [Passes.recordOf, Passes.recordOf, authorityDecision, authorityDecision, podAuthority,
      podAuthority, hracks, h.finalAuthority, h.still.epoch, h.still.incarnation, h.still.granted,
      h.still.revoked]

end Standstill

end Standing

namespace Succeeds

/-- **The frame of a decision.** Between two rounds of which the second goes on from the first, a
decision of which all that it reads is calm is as before, and there is one just if there was one;
a decision on the pod as a whole reads everything, and what the controller adds to it. -/
theorem recordOf_calm (h : Succeeds request p request' p' calm)
    (hstill : s = .lifecycle ∨ s = .authority → Still p p')
    (hcalm : CalmReads request request' calm fun snapshot => Reads snapshot s) :
    p'.recordOf s = p.recordOf s := by
  by_cases hpod : s = .lifecycle ∨ s = .authority
  · have hall : ∀ key, calm key := fun key => hcalm key (.inl (by
      rcases hpod with rfl | rfl
      · exact .lifecycle
      · exact .authority))
    obtain ⟨halike, hdomain, hobligations⟩ := h.alike hall
    have hstandstill : Standstill p p' := ⟨halike, hdomain, hobligations, hstill hpod⟩
    rcases hpod with rfl | rfl
    · exact hstandstill.pod_records.1
    · exact hstandstill.pod_records.2
  · rw [not_or] at hpod
    exact h.recordOf_eq hpod.1 hpod.2 hcalm

end Succeeds

end Records

end PodFabric
