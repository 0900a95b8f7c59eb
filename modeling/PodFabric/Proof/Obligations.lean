import PodFabric.Proof.Trust

/-!
# Satisfied obligations

A verdict is the worst of its findings, so that a satisfied one has no finding against it. For each
kind of obligation this is read back as what the obligation asks for: headroom, a packing of
rack-disjoint domains, established racks with usable pairs (`satisfied_obligation`). The packing is
counted greedily, and what the greedy loop counts exists (`packDomains_family`).
-/

namespace PodFabric

/-! ## The worst finding -/

namespace ObligationStatus

/-- The worst of two findings is satisfied when both are. -/
theorem worst_eq_satisfied {a b : ObligationStatus} :
    worst a b = satisfied ↔ a = satisfied ∧ b = satisfied := by
  cases a <;> cases b <;> decide

/-- Nothing that joins a fold makes up for a worse finding before it. -/
theorem foldl_worst_eq_satisfied : ∀ {statuses : List ObligationStatus} {status},
    statuses.foldl worst status = satisfied ↔
      status = satisfied ∧ ∀ s ∈ statuses, s = satisfied
  | [], status => by simp
  | s :: statuses, status => by
    rw [List.foldl_cons, foldl_worst_eq_satisfied, worst_eq_satisfied, List.forall_mem_cons,
      and_assoc]

end ObligationStatus

/-- A checked product is exact when it is returned. -/
theorem checkedMul_eq_ok {a b c : UInt64} (h : checkedMul a b = .ok c) :
    c.toNat = a.toNat * b.toNat := by
  unfold checkedMul at h
  split at h
  · next hzero =>
    cases h
    rcases hzero with rfl | rfl <;> simp
  · split at h
    · cases h
    · next hne hfits =>
      cases h
      have hpos : 0 < b.toNat := Nat.pos_of_ne_zero fun hb => hne (.inr (UInt64.toNat_inj.1 hb))
      have hle : a.toNat * b.toNat ≤ uint64Max :=
        (Nat.le_div_iff_mul_le hpos).1 (Nat.not_lt.1 hfits)
      have hlt : a.toNat * b.toNat < 2 ^ 64 := lt_of_le_of_lt hle (by simp [uint64Max])
      rw [UInt64.toNat_mul, Nat.mod_eq_of_lt hlt]

/-! ## What an obligation asks for -/

/-- The margin of a requirement, or the margin of the policy if it names none. -/
def CapacityRequirement.margin (policy : Policy) (requirement : CapacityRequirement) : ℕ :=
  (if requirement.marginPercent = 0 then policy.defaultMarginPercent
    else requirement.marginPercent).toNat

/-- The pod has an authoritative aggregate with the headroom that is required, margin included. -/
def HasHeadroom (policy : Policy) (st : PodState) (requirement : CapacityRequirement) : Prop :=
  ∃ aggregate ∈ st.capacity, aggregate.resource = requirement.resource ∧
    (aggregate.status = .ok ∨ aggregate.status = .deduplicated) ∧
    requirement.minimum.toNat + requirement.minimum.toNat * requirement.margin policy / 100 ≤
      aggregate.headroom.toNat

/-- The rack is trusted; once racks are left out that are administratively moved, it is enabled
too. -/
def Serves (st : PodState) (excludeDrained : Bool) (rack : RackId) : Prop :=
  st.HasMember rack fun m => m.Trusted ∧ (excludeDrained = true → m.admin = .enabled)

/-- There are so many declared domains of a kind, no two with a rack in common, each with a rack
that serves. -/
def Disperses (snapshot : PodSnapshot) (st : PodState) (kind : DomainKind) (count : ℕ)
    (excludeDrained : Bool) : Prop :=
  ∃ family : List FailureDomainRecord, family.length = count ∧
    (∀ domain ∈ family, domain ∈ snapshot.domains ∧ domain.kind = kind ∧
      ∃ rack ∈ domain.members, Serves st excludeDrained rack) ∧
    family.Pairwise fun a b => a.members.Disjoint b.members

/-- Two racks are joined by a usable pair. -/
def Joined (st : PodState) (a b : RackId) : Prop :=
  ∃ pair ∈ st.connectivity, pair.status = .usable ∧
    (pair.source = a ∧ pair.target = b ∨ pair.source = b ∧ pair.target = a)

/-- No domain of the kind is in conflict. -/
def Unconflicted (st : PodState) (kind : DomainKind) : Prop :=
  ∀ domain ∈ st.domains, domain.kind = kind → domain.status ≠ .conflicting

/-- What an obligation asks for holds. -/
def Obligation.Holds (request : CompositionRequest) (st : PodState) (obligation : Obligation) :
    Prop :=
  match obligation.kind with
  | .capacityFloor =>
    ∀ requirement ∈ obligation.requirements, HasHeadroom request.policy st requirement
  | .domainDiversity =>
    Unconflicted st obligation.diversityKind ∧
      Disperses request.snapshot st obligation.diversityKind obligation.requiredDomains.toNat false
  | .maintenanceWindow =>
    Unconflicted st obligation.diversityKind ∧
      Disperses request.snapshot st obligation.diversityKind obligation.requiredDomains.toNat
        false ∧
      Disperses request.snapshot st obligation.diversityKind obligation.requiredDomains.toNat true
  | .protectedPath =>
    (∀ rack ∈ obligation.protectedRacks, st.HasMember rack fun m => m.status = .established) ∧
      ∀ a ∈ obligation.protectedRacks, ∀ b ∈ obligation.protectedRacks, a ≠ b → Joined st a b

/-! ## The greedy packing -/

/-- What the greedy loop adds to its count are domains without a rack in common with each other or
with what is used. -/
theorem packDomains_family : ∀ {domains : List DomainWork} {used : List RackId} {count : UInt32},
    ∃ family : List DomainWork, family.Sublist domains ∧
      (family.Pairwise fun a b => a.verdict.declaredMembers.Disjoint b.verdict.declaredMembers) ∧
      (∀ domain ∈ family, domain.verdict.declaredMembers.Disjoint used) ∧
      packDomains used count domains = count + UInt32.ofNat family.length
  | [], used, count => ⟨[], .slnil, .nil, by simp, by simp [packDomains]⟩
  | domain :: rest, used, count => by
    unfold packDomains
    split
    · -- a rack of the domain is used, and the loop goes on without it
      obtain ⟨family, hsub, hpair, hused, hcount⟩ := @packDomains_family rest used count
      exact ⟨family, hsub.cons domain, hpair, hused, hcount⟩
    · next hnone =>
      obtain ⟨family, hsub, hpair, hused, hcount⟩ :=
        @packDomains_family rest (domain.verdict.declaredMembers ++ used) (count + 1)
      have hdomain : domain.verdict.declaredMembers.Disjoint used := by
        intro rack hrack hin
        exact hnone (List.any_eq_true.2 ⟨rack, hrack, by simpa using hin⟩)
      have hapart : ∀ other ∈ family,
          domain.verdict.declaredMembers.Disjoint other.verdict.declaredMembers ∧
            other.verdict.declaredMembers.Disjoint used := fun other hother =>
        have hdisjoint := List.disjoint_append_right.1 (hused other hother)
        ⟨hdisjoint.1.symm, hdisjoint.2⟩
      refine ⟨domain :: family, hsub.cons_cons domain,
        List.pairwise_cons.2 ⟨fun other hother => (hapart other hother).1, hpair⟩,
        List.forall_mem_cons.2 ⟨hdomain, fun other hother => (hapart other hother).2⟩, ?_⟩
      rw [hcount, List.length_cons, UInt32.ofNat_add, add_assoc, add_comm (1 : UInt32)]
      rfl

/-- The loop never counts more domains than there are in a rack-disjoint family. -/
theorem packDomains_count {domains : List DomainWork} {required : UInt32}
    (h : required ≤ packDomains [] 0 domains) :
    ∃ family : List DomainWork, family.length = required.toNat ∧
      (∀ domain ∈ family, domain ∈ domains) ∧
      family.Pairwise fun a b =>
        a.verdict.declaredMembers.Disjoint b.verdict.declaredMembers := by
  obtain ⟨family, hsub, hpair, -, hcount⟩ := @packDomains_family domains [] 0
  have hlength : required.toNat ≤ family.length := by
    have hle : required.toNat ≤ (packDomains [] 0 domains).toNat := UInt32.le_iff_toNat_le.1 h
    rw [hcount, UInt32.zero_add, UInt32.toNat_ofNat'] at hle
    exact hle.trans (Nat.mod_le _ _)
  have htake := family.take_sublist required.toNat
  exact ⟨family.take required.toNat, List.length_take_of_le hlength,
    fun domain hdomain => hsub.subset (htake.subset hdomain), hpair.sublist htake⟩

/-! ## Findings -/

section Findings
variable {request : CompositionRequest} {p : Passes} {ev : PodEvidence}

/-- A requirement without a finding against it is met, with its margin. -/
theorem requirementFindings_satisfied {requirement : CapacityRequirement}
    (h : ∀ finding ∈ requirementFindings ev requirement, finding.1 = .satisfied) :
    ∃ aggregate ∈ ev.capacity, aggregate.resource = requirement.resource ∧
      (aggregate.status = .ok ∨ aggregate.status = .deduplicated) ∧
      requirement.minimum.toNat + requirement.minimum.toNat * requirement.margin ev.policy / 100 ≤
        aggregate.headroom.toNat := by
  unfold requirementFindings at h
  dsimp only at h
  split at h
  · simp at h
  next aggregate hfind =>
  split at h
  · split at h <;> simp at h
  next husable =>
  have husable : aggregate.status.isUsable = true := not_not.1 husable
  split at h
  · simp at h
  next scaled hscaled =>
  split at h
  · simp at h
  next extra hextra =>
  split at h
  · simp at h
  split at h
  · simp at h
  next hmargin =>
  refine ⟨aggregate, List.mem_of_find?_eq_some hfind, by simpa using List.find?_some hfind,
    by simpa [CapacityStatus.isUsable] using husable, ?_⟩
  obtain ⟨hfits, rfl⟩ := checkedAdd_eq_ok.1 hextra
  have hscaled := checkedMul_eq_ok hscaled
  have hle := UInt64.le_iff_toNat_le.1 (not_lt.1 hmargin)
  rw [UInt64.toNat_add, Nat.mod_eq_of_lt hfits, UInt64.toNat_div, hscaled] at hle
  simpa [CapacityRequirement.margin] using hle

/-! ## Members and domains of the passes -/

/-- A rack that is admissible serves. -/
theorem PassesOf.serves (h : PassesOf request p) {excludeDrained : Bool} {rack : RackId}
    (ha : admissible p.findings.members excludeDrained rack = true) :
    Serves p.draft.finalise excludeDrained rack := by
  unfold admissible at ha
  split at ha
  · cases ha
  next work hfind =>
  simp only [Bool.and_eq_true, Bool.not_eq_true', Bool.and_eq_false_iff, decide_eq_false_iff_not,
    not_not] at ha
  obtain ⟨⟨hflag, husable⟩, hdrained⟩ := ha
  have hmem := mem_of_findMember hfind
  have htrusted := (h.sound hmem).connectivity husable
  rw [← findMember_rack hfind]
  refine h.hasMember hmem ⟨htrusted, fun hexclude => ?_⟩
  rcases hdrained with hkeep | henabled
  · exact absurd (hexclude.symm.trans hkeep) (by decide)
  · exact henabled

/-- What the working record of a domain keeps of its declaration. -/
structure Declares (snapshot : PodSnapshot) (work : DomainWork) : Prop where
  kind : work.verdict.kind = work.kind
  record : ∀ record, work.record = some record → record ∈ snapshot.domains ∧
    record.kind = work.kind ∧ work.verdict.declaredMembers = canonicalise record.members

/-- A domain read declares what its record does. -/
theorem newDomain_declares {snapshot : PodSnapshot} {id : DomainId} :
    Declares snapshot (newDomain snapshot id) := by
  unfold newDomain
  split
  · next record hfind =>
    rw [List.findRev?_eq_find?_reverse] at hfind
    refine ⟨rfl, fun record' h => ?_⟩
    cases h
    exact ⟨List.mem_reverse.1 (List.mem_of_find?_eq_some hfind), rfl, rfl⟩
  · exact ⟨rfl, fun record h => by cases h⟩

/-- Checking a domain leaves what it declares. -/
theorem Declares.checkDomain {snapshot : PodSnapshot} {work : DomainWork}
    {members : List MemberWork} (h : Declares snapshot work) :
    Declares snapshot (checkDomain members work) := by
  unfold PodFabric.checkDomain
  dsimp only
  split
  · exact ⟨h.kind, h.record⟩
  split
  · exact ⟨h.kind, h.record⟩
  split
  · exact ⟨h.kind, h.record⟩
  split
  · exact ⟨h.kind, h.record⟩
  · exact ⟨h.kind, h.record⟩

/-- Marking an overlap leaves what a domain declares. -/
theorem Declares.markOverlap {snapshot : PodSnapshot} {work : DomainWork}
    {domains : List DomainWork} {members : List MemberWork} (h : Declares snapshot work) :
    Declares snapshot (markOverlap domains members work) := by
  unfold PodFabric.markOverlap
  dsimp only
  split
  · exact h
  · exact ⟨h.kind, h.record⟩

/-- Every judged domain declares what its record does. -/
theorem PassesOf.declares (h : PassesOf request p) {work : DomainWork}
    (hw : work ∈ p.findings.domains) : Declares request.snapshot work := by
  rw [h.domains] at hw
  obtain ⟨checked, hchecked, rfl⟩ := List.mem_map.1 hw
  obtain ⟨id, -, rfl⟩ := List.mem_map.1 hchecked
  exact newDomain_declares.checkDomain.markOverlap

/-- A kind that no domain is found in conflict for has none in conflict. -/
theorem PassesOf.unconflicted (h : PassesOf request p) {kind : DomainKind} {excludeDrained : Bool}
    (hc : (diversity p.findings.toPodEvidence kind excludeDrained).conflicted = false) :
    Unconflicted p.draft.finalise kind := by
  intro domain hdomain hkind hconflicting
  obtain ⟨work, hwork, rfl⟩ := mem_finalise_domains.1 hdomain
  have hsame : work.kind = kind := (h.declares hwork).kind.symm.trans hkind
  have hin : work ∈ p.findings.domains.filter fun domain => domain.kind = kind :=
    List.mem_filter.2 ⟨hwork, by simpa using hsame⟩
  simpa [show work.verdict.status = .conflicting from hconflicting] using
    List.any_eq_false.1 hc work hin

/-- Domains that are counted are there. -/
theorem PassesOf.disperses (h : PassesOf request p) {kind : DomainKind} {excludeDrained : Bool}
    {required : UInt32}
    (hcount : required ≤ (diversity p.findings.toPodEvidence kind excludeDrained).count) :
    Disperses request.snapshot p.draft.finalise kind required.toNat excludeDrained := by
  obtain ⟨family, hlength, hcandidates, hpair⟩ := packDomains_count hcount
  have hdeclared : ∀ work ∈ family, ∃ record, work.record = some record ∧
      record ∈ request.snapshot.domains ∧ record.kind = kind ∧
      work.verdict.declaredMembers = canonicalise record.members ∧
      ∃ rack ∈ record.members, Serves p.draft.finalise excludeDrained rack := by
    intro work hwork
    obtain ⟨hin, hcandidate⟩ := List.mem_filter.1 (mem_sortOn.1 (hcandidates work hwork))
    obtain ⟨hdomain, hkind⟩ := List.mem_filter.1 hin
    simp only [DomainWork.implicit, Bool.and_eq_true, Bool.not_eq_true', List.any_eq_true]
      at hcandidate
    obtain ⟨⟨-, hexplicit⟩, rack, hrack, hadmissible⟩ := hcandidate
    obtain ⟨record, hrecord⟩ := Option.isSome_iff_exists.1 (Option.isNone_eq_false_iff.1 hexplicit)
    obtain ⟨hmem, hsame, hmembers⟩ := (h.declares hdomain).record record hrecord
    refine ⟨record, hrecord, hmem, hsame.trans (by simpa using hkind), hmembers, rack, ?_,
      h.serves hadmissible⟩
    exact mem_canonicalise.1 (hmembers ▸ hrack)
  choose! record hrecord hmem hkind hmembers hserves using hdeclared
  refine ⟨family.map record, by rw [List.length_map, hlength], fun domain hdomain => ?_, ?_⟩
  · obtain ⟨work, hwork, rfl⟩ := List.mem_map.1 hdomain
    exact ⟨hmem work hwork, hkind work hwork, hserves work hwork⟩
  · refine List.pairwise_map.2 (hpair.imp_of_mem fun ha hb hdisjoint rack hra hrb => ?_)
    rw [hmembers _ ha, hmembers _ hb] at hdisjoint
    exact hdisjoint (mem_canonicalise.2 hra) (mem_canonicalise.2 hrb)

/-! ## Protected paths -/

/-- A rack without a finding is established. -/
theorem PassesOf.protected_established (h : PassesOf request p) {rack : RackId}
    (hs : ∀ finding ∈ protectedRackFinding p.findings.toPodEvidence rack,
      finding.1 = .satisfied) :
    p.draft.finalise.HasMember rack fun m => m.status = .established := by
  unfold protectedRackFinding at hs
  split at hs
  · next work hfind =>
    split at hs
    · next hflag =>
      have hmem := mem_of_findMember hfind
      rw [← findMember_rack hfind]
      exact h.hasMember hmem ((h.sound hmem).established.1 hflag)
    · simp [protectedRackFinding.unestablished] at hs
  · simp [protectedRackFinding.unestablished] at hs

/-- A pair that carries traffic is of the racks of its key. -/
theorem PassesOf.pair_ends (h : PassesOf request p) {work : PairWork}
    (hw : work ∈ p.findings.pairs) (hc : work.verdict.status.carries = true) :
    work.verdict.source = (ofLex work.key).1 ∧ work.verdict.target = (ofLex work.key).2 := by
  obtain ⟨key, -, hjudge⟩ := mapM_mem h.pairs work hw
  unfold judgePair at hjudge
  obtain ⟨verdict, hverdict, hjudge⟩ := bind_eq_ok.1 hjudge
  rw [pure_eq_ok] at hjudge
  subst hjudge
  exact (conclude_carries hverdict pairFold_witnessed.bad hc).2

/-- A pair without a finding is joined. -/
theorem PassesOf.protected_joined (h : PassesOf request p) {a b : RackId}
    (hs : ∀ finding ∈ protectedPairFinding p.findings.toPodEvidence a b,
      finding.1 = .satisfied) :
    Joined p.draft.finalise a b := by
  unfold protectedPairFinding at hs
  split at hs
  · simp at hs
  next verdict hfind =>
  have husable : verdict.status = .usable := by
    cases hstatus : verdict.status <;> simp [hstatus] at hs ⊢
  obtain ⟨work, hwork, rfl⟩ := Option.map_eq_some_iff.1 hfind
  have hmem := List.mem_of_find?_eq_some hwork
  have hkey : work.key = pairKey a b := by simpa using List.find?_some hwork
  refine ⟨_, mem_finalise_connectivity.2 ⟨work, hmem, rfl⟩, husable, ?_⟩
  obtain ⟨hsource, htarget⟩ := h.pair_ends hmem (by rw [husable]; rfl)
  change work.verdict.source = a ∧ work.verdict.target = b ∨
    work.verdict.source = b ∧ work.verdict.target = a
  rw [hsource, htarget, hkey]
  rcases pairKey_cases a b with hk | hk <;> rw [hk]
  · exact .inl ⟨rfl, rfl⟩
  · exact .inr ⟨rfl, rfl⟩

/-- Two different elements of a list are one of its pairs. -/
theorem mem_pairsOf {α : Type} : ∀ {l : List α} {a b : α}, a ∈ l → b ∈ l → a ≠ b →
    (a, b) ∈ pairsOf l ∨ (b, a) ∈ pairsOf l
  | x :: rest, a, b, ha, hb, hne => by
    unfold pairsOf
    rcases List.mem_cons.1 ha with rfl | hrest
    · have hin : b ∈ rest := (List.mem_cons.1 hb).resolve_left hne.symm
      exact .inl (List.mem_append_left _ (List.mem_map_of_mem hin))
    rcases List.mem_cons.1 hb with rfl | hrest'
    · exact .inr (List.mem_append_left _ (List.mem_map_of_mem hrest))
    exact (mem_pairsOf hrest hrest' hne).imp (List.mem_append_right _) (List.mem_append_right _)

/-- Two racks are joined in either order. -/
theorem Joined.symm {st : PodState} {a b : RackId} (h : Joined st a b) : Joined st b a := by
  obtain ⟨pair, hpair, husable, hends⟩ := h
  exact ⟨pair, hpair, husable, hends.symm⟩

/-! ## Satisfied verdicts -/

/-- An obligation with no finding against it holds. -/
theorem PassesOf.holds (h : PassesOf request p) {obligation : Obligation}
    (hs : ∀ finding ∈ (obligationFindings p.findings.toPodEvidence obligation).1,
      finding.1 = .satisfied) :
    obligation.Holds request p.draft.finalise := by
  unfold obligationFindings at hs
  unfold Obligation.Holds
  cases hkind : obligation.kind with
  | capacityFloor =>
    simp only [hkind] at hs ⊢
    split at hs
    · simp [unsupported] at hs
    intro requirement hrequirement
    obtain ⟨aggregate, haggregate, hresource, hstatus, hheadroom⟩ :=
      requirementFindings_satisfied fun finding hfinding =>
        hs finding (List.mem_flatMap.2 ⟨requirement, hrequirement, hfinding⟩)
    rw [h.policy] at hheadroom
    exact ⟨_, mem_finalise_capacity.2 ⟨aggregate, haggregate, rfl⟩, hresource, hstatus, hheadroom⟩
  | domainDiversity =>
    simp only [hkind] at hs ⊢
    split at hs
    · simp [unsupported] at hs
    split at hs
    · simp [unsupported] at hs
    unfold diversityFindings at hs
    simp only [List.forall_mem_append] at hs
    obtain ⟨hclear, hcount⟩ := hs
    refine ⟨@h.unconflicted _ _ _ false ?_, h.disperses ?_⟩
    · by_contra hconflicted
      simp [hconflicted] at hclear
    · by_contra hshort
      simp [UInt32.not_le.1 hshort] at hcount
  | maintenanceWindow =>
    simp only [hkind] at hs ⊢
    split at hs
    · simp [unsupported] at hs
    split at hs
    · simp [unsupported] at hs
    unfold maintenanceFindings at hs
    simp only [List.forall_mem_append] at hs
    obtain ⟨hclear, hcount⟩ := hs
    refine ⟨@h.unconflicted _ _ _ false ?_, h.disperses ?_, h.disperses ?_⟩
    · by_contra hconflicted
      simp [hconflicted] at hclear
    · by_contra hshort
      simp [UInt32.not_le.1 hshort] at hcount
    · by_contra hshort
      split at hcount
      · simp at hcount
      · simp [UInt32.not_le.1 hshort] at hcount
  | protectedPath =>
    simp only [hkind] at hs ⊢
    split at hs
    · simp [unsupported] at hs
    unfold pathFindings at hs
    simp only [List.forall_mem_append] at hs
    obtain ⟨hracks, hpairs⟩ := hs
    refine ⟨fun rack hrack => ?_, fun a ha b hb hne => ?_⟩
    · exact h.protected_established fun finding hfinding =>
        hracks finding (List.mem_flatMap.2 ⟨rack, hrack, hfinding⟩)
    · have hjoined : ∀ pair ∈ pairsOf obligation.protectedRacks,
          Joined p.draft.finalise pair.1 pair.2 := fun pair hpair =>
        h.protected_joined fun finding hfinding =>
          hpairs finding (List.mem_flatMap.2 ⟨pair, hpair, hfinding⟩)
      rcases mem_pairsOf ha hb hne with hpair | hpair
      · exact hjoined _ hpair
      · exact (hjoined _ hpair).symm

end Findings

/-- **A satisfied obligation holds.** A verdict of a composed state that is satisfied belongs to
exactly one obligation of the snapshot, and what that obligation asks for holds of the state. -/
theorem satisfied_obligation {request : CompositionRequest} {st : PodState}
    (h : compose request = .ok st) {verdict : ObligationVerdict} (hv : verdict ∈ st.obligations)
    (hs : verdict.status = .satisfied) :
    ∃ obligation ∈ request.snapshot.obligations,
      obligation.id = verdict.id ∧ obligation.kind = verdict.kind ∧
      obligation.Holds request st ∧
      ∀ other ∈ request.snapshot.obligations, other.id = verdict.id → other = obligation := by
  obtain ⟨hvalid, -⟩ := validate_request_iff.1 (compose_eq_ok.1 h).1
  obtain ⟨p, -, hof, rfl⟩ := compose_passesOf h
  obtain ⟨judged, hjudged, rfl⟩ := mem_finalise_obligations.1 hv
  rw [hof.obligations] at hjudged
  obtain ⟨obligation, hobligation, rfl⟩ := List.mem_map.1 hjudged
  refine ⟨obligation, hobligation, rfl, rfl, hof.holds fun finding hfinding => ?_,
    fun other hother hid => List.inj_on_of_nodup_map hvalid.obligationIds hother hobligation hid⟩
  have hall := (ObligationStatus.foldl_worst_eq_satisfied.1 hs).2
  exact hall _ (List.mem_map_of_mem hfinding)

/-- The sample pod with one obligation of each kind. -/
def Sample.obliged : CompositionRequest where
  snapshot := { Sample.snapshot with
    obligations := [
      { id := Sample.idOf "floor", kind := .capacityFloor
        requirements := [{
          resource := Sample.bandwidth, minimum := 10, marginPercent := 55 }] },
      { id := Sample.idOf "spread", kind := .domainDiversity, requiredDomains := 1 },
      { id := Sample.idOf "window", kind := .maintenanceWindow, requiredDomains := 1 },
      { id := Sample.idOf "path", kind := .protectedPath
        protectedRacks := [Sample.rackA, Sample.rackB] }] }

/-- The sample's four obligations hold, one of each kind. -/
theorem obliged_holds : ∃ st, compose Sample.obliged = .ok st ∧ st.obligations.length = 4 ∧
    ∀ verdict ∈ st.obligations, ∃ obligation ∈ Sample.obliged.snapshot.obligations,
      obligation.id = verdict.id ∧ obligation.Holds Sample.obliged st := by
  have hrun : (compose Sample.obliged).toOption.map (fun st =>
      st.obligations.map ObligationVerdict.status) = some (List.replicate 4 .satisfied) := by
    decide +kernel
  obtain ⟨st, hst, hview⟩ := composed_of_map hrun
  refine ⟨st, hst, by simpa using congrArg List.length hview, fun verdict hverdict => ?_⟩
  have hsatisfied : verdict.status = .satisfied :=
    List.eq_of_mem_replicate (hview ▸ List.mem_map_of_mem hverdict)
  obtain ⟨obligation, hmem, hid, -, hholds, -⟩ := satisfied_obligation hst hverdict hsatisfied
  exact ⟨obligation, hmem, hid, hholds⟩

end PodFabric
