import PodFabric.Proof.Conflicts

/-!
# Diversity

The greedy packing of rack-disjoint failure domains counts all candidates when they have no rack in
common to begin with. Domains of one kind that are not in conflict have none, provided that the
racks they list are described: a rack that two of them list declares both, and is an overlap that
puts them in conflict (`PassesOf.apart`). So on such evidence the packing is exact
(`diversity_exact`).
-/

namespace PodFabric

/-! ## Restricted diversity -/

/-- A rack that may serve a domain, and is among those asked for if any are. -/
def admissibleWithin (members : List MemberWork) (excludeDrained : Bool)
    (restrict : Option (List RackId)) (rack : RackId) : Bool :=
  admissible members excludeDrained rack && restrict.all fun racks => racks.contains rack

/-- The number of pairwise rack-disjoint domains of a kind that are serviceable by the racks asked
for (`diversity`). -/
def diversityWithin (ev : PodEvidence) (kind : DomainKind) (excludeDrained : Bool)
    (restrict : Option (List RackId)) : DiversityResult :=
  let ofKind := ev.domains.filter fun domain => domain.kind = kind
  let candidates := ofKind.filter fun domain =>
    domain.verdict.status ≠ .conflicting && !domain.implicit &&
      domain.verdict.declaredMembers.any (admissibleWithin ev.members excludeDrained restrict)
  { count := packDomains [] 0
      (sortOn (fun domain => toLex (domain.verdict.declaredMembers.length, domain.id)) candidates)
    conflicted := ofKind.any fun domain => domain.verdict.status = .conflicting
    haveKind := ofKind ≠ [] }

/-- The obligations ask for the diversity without a restriction. -/
theorem diversity_eq (ev : PodEvidence) (kind : DomainKind) (excludeDrained : Bool) :
    diversity ev kind excludeDrained = diversityWithin ev kind excludeDrained none := by
  have hadmissible : admissibleWithin ev.members excludeDrained none =
      admissible ev.members excludeDrained := by
    funext rack
    exact Bool.and_true _
  rw [diversity, diversityWithin, hadmissible]

/-! ## The packing -/

section Packing
variable {domains : List DomainWork} {used : List RackId} {count : UInt32}

/-- Domains without a rack in common are all counted. -/
theorem packDomains_disjoint
    (hapart : domains.Pairwise fun a b =>
      a.verdict.declaredMembers.Disjoint b.verdict.declaredMembers)
    (hfree : ∀ domain ∈ domains, domain.verdict.declaredMembers.Disjoint used) :
    packDomains used count domains = count + UInt32.ofNat domains.length := by
  induction domains generalizing used count with
  | nil => simp [packDomains]
  | cons domain rest ih =>
    rw [List.pairwise_cons] at hapart
    rw [List.forall_mem_cons] at hfree
    have hunused : ¬ domain.verdict.declaredMembers.any
        (fun rack => used.contains rack) = true := by
      intro hany
      obtain ⟨rack, hrack, hused⟩ := List.any_eq_true.1 hany
      exact hfree.1 hrack (by simpa using hused)
    have hrest : ∀ other ∈ rest, other.verdict.declaredMembers.Disjoint
        (domain.verdict.declaredMembers ++ used) := fun other hother =>
      List.disjoint_append_right.2 ⟨(hapart.1 other hother).symm, hfree.2 other hother⟩
    rw [packDomains, if_neg hunused, ih hapart.2 hrest, List.length_cons,
      UInt32.ofNat_add, add_assoc,
      add_comm (1 : UInt32)]
    rfl

end Packing

/-! ## The domains of the passes -/

section Passes
variable {request : CompositionRequest} {p : Passes} {work work' : DomainWork} {rack : RackId}
  {kind : DomainKind} {excludeDrained : Bool} {restrict : Option (List RackId)}

/-- The members a domain declares are those its record lists. -/
theorem newDomain_declaredMembers {snapshot : PodSnapshot} {id : DomainId} :
    (newDomain snapshot id).verdict.declaredMembers = (newDomain snapshot id).declared := by
  unfold newDomain
  split <;> rfl

/-- Checking a domain leaves the members it declares. -/
theorem checkDomain_declaredMembers {members : List MemberWork} :
    (checkDomain members work).verdict.declaredMembers = work.verdict.declaredMembers := by
  unfold checkDomain
  dsimp only
  repeat' split
  all_goals rfl

/-- Marking an overlap leaves the members a domain declares. -/
theorem markOverlap_declaredMembers {domains : List DomainWork} {members : List MemberWork} :
    (markOverlap domains members work).verdict.declaredMembers =
      work.verdict.declaredMembers := by
  unfold markOverlap
  dsimp only
  split <;> rfl

/-- Marking an overlap leaves the kind. -/
theorem markOverlap_kind {domains : List DomainWork} {members : List MemberWork} :
    (markOverlap domains members work).kind = work.kind := by
  unfold markOverlap
  dsimp only
  split <;> rfl

/-- The working record of a domain lists the racks that the domain lists, and has its kind. -/
theorem PassesOf.domain_lists (h : PassesOf request p)
    (hids : (request.snapshot.domains.map FailureDomainRecord.id).Nodup)
    (hw : work ∈ p.findings.domains) :
    (∀ rack, rack ∈ work.verdict.declaredMembers ↔ request.snapshot.Lists work.id rack) ∧
      work.kind = request.snapshot.kindOf work.id := by
  rw [h.domains] at hw
  obtain ⟨checked, hchecked, rfl⟩ := List.mem_map.1 hw
  obtain ⟨id, -, rfl⟩ := List.mem_map.1 hchecked
  rw [markOverlap_declaredMembers, checkDomain_declaredMembers, newDomain_declaredMembers,
    markOverlap_kind, checkDomain_kind, markOverlap_id, checkDomain_id, newDomain_id]
  exact ⟨fun rack => newDomain_declared hids, newDomain_kind hids⟩

/-- The racks that the domains of a kind list are described. -/
def PodSnapshot.DescribesKind (snapshot : PodSnapshot) (kind : DomainKind) : Prop :=
  ∀ record ∈ snapshot.domains, record.kind = kind → ∀ rack ∈ record.members, snapshot.Describes rack

/-- On such evidence the domains of the kind that are not in conflict have no rack in common. -/
theorem PassesOf.apart (h : PassesOf request p)
    (hids : (request.snapshot.domains.map FailureDomainRecord.id).Nodup)
    (hdescribed : request.snapshot.DescribesKind kind)
    (hw : work ∈ p.findings.domains) (hw' : work' ∈ p.findings.domains)
    (hkind : work.kind = kind) (hkind' : work'.kind = kind)
    (hsound : work.verdict.status ≠ .conflicting) (hsound' : work'.verdict.status ≠ .conflicting)
    (hne : work ≠ work') :
    work.verdict.declaredMembers.Disjoint work'.verdict.declaredMembers := by
  have hdistinct : work'.id ≠ work.id := fun hid =>
    hne (List.inj_on_of_nodup_map h.domain_ids hw hw' hid.symm)
  -- a rack that a domain of the kind lists declares it
  have hdeclares : ∀ {d : DomainWork} {rack : RackId}, d ∈ p.findings.domains → d.kind = kind →
      d.verdict.status ≠ .conflicting → rack ∈ d.verdict.declaredMembers →
        d.id ∈ request.snapshot.domainsOf rack := by
    intro d rack hd hdkind hdsound hrack
    have hlists := (h.domain_lists hids hd).1 rack |>.1 hrack
    have hdescribes : request.snapshot.Describes rack := by
      obtain ⟨record, hrecord, hid, hin⟩ := hlists
      have hsame : record.kind = request.snapshot.kindOf d.id := by
        have hfind : request.snapshot.domains.find? (fun record => record.id = d.id) =
            some record := find?_key_eq hids hrecord hid
        rw [PodSnapshot.kindOf, hfind]
        rfl
      exact hdescribed record hrecord
        (hsame.trans ((h.domain_lists hids hd).2.symm.trans hdkind)) rack hin
    by_contra hsilent
    exact hdsound ((h.conflicting_iff hids hd).2 (.denied hlists hdescribes hsilent))
  intro rack hrack hrack'
  refine hsound ((h.conflicting_iff hids hw).2 (.overlapping hdistinct
    (hdeclares hw hkind hsound hrack) (hdeclares hw' hkind' hsound' hrack') ?_))
  rw [← (h.domain_lists hids hw).2, ← (h.domain_lists hids hw').2, hkind, hkind']

/-- A composition judges no more domains than the policy allows. -/
theorem runPasses_domain_bound (h : runPasses request = .ok p) :
    p.findings.domains.length ≤ request.policy.maxDomains.toNat := by
  have hparts := runPasses_passesOf h
  unfold runPasses at h
  obtain ⟨members, hm, h⟩ := bind_eq_ok.1 h
  obtain ⟨epoch, -, h⟩ := bind_eq_ok.1 h
  obtain ⟨⟨domains, members'⟩, hd, -⟩ := bind_eq_ok.1 h
  rw [Result.lift_eq_ok] at hm hd
  unfold evaluateMembers at hm
  obtain ⟨_, -, hm⟩ := bind_eq_ok.1 hm
  rw [pure_eq_ok] at hm
  subst hm
  unfold evaluateDomains at hd
  obtain ⟨_, hbound, -⟩ := bind_eq_ok.1 hd
  rw [ensure_eq_ok] at hbound
  rw [hparts.domains, List.length_map, checkedDomains, List.length_map]
  exact hbound

/-! ## Exactness -/

/-- A declared domain of the kind that is not in conflict and holds an admissible rack. -/
structure DomainWork.Serviceable (ev : PodEvidence) (kind : DomainKind) (excludeDrained : Bool)
    (restrict : Option (List RackId)) (work : DomainWork) : Prop where
  mem : work ∈ ev.domains
  kind : work.kind = kind
  sound : work.verdict.status ≠ .conflicting
  declared : work.implicit = false
  serves : ∃ rack ∈ work.verdict.declaredMembers,
    admissibleWithin ev.members excludeDrained restrict rack = true

/-- Serviceable domains without a rack in common. -/
structure Disperse (ev : PodEvidence) (kind : DomainKind) (excludeDrained : Bool)
    (restrict : Option (List RackId)) (family : List DomainWork) : Prop where
  nodup : family.Nodup
  serviceable : ∀ work ∈ family, work.Serviceable ev kind excludeDrained restrict
  apart : family.Pairwise fun a b => a.verdict.declaredMembers.Disjoint b.verdict.declaredMembers

/-- All serviceable domains. -/
def candidates (ev : PodEvidence) (kind : DomainKind) (excludeDrained : Bool)
    (restrict : Option (List RackId)) : List DomainWork :=
  (ev.domains.filter fun domain => domain.kind = kind).filter fun domain =>
    domain.verdict.status ≠ .conflicting && !domain.implicit &&
      domain.verdict.declaredMembers.any (admissibleWithin ev.members excludeDrained restrict)

/-- The candidates of the packing are the serviceable domains. -/
theorem mem_candidates {ev : PodEvidence} : work ∈ candidates ev kind excludeDrained restrict ↔
    work.Serviceable ev kind excludeDrained restrict := by
  simp only [candidates, List.mem_filter, Bool.and_eq_true, decide_eq_true_eq, Bool.not_eq_true',
    List.any_eq_true]
  constructor
  · rintro ⟨⟨hmem, hkind⟩, ⟨hsound, hdeclared⟩, hserves⟩
    exact ⟨hmem, hkind, hsound, hdeclared, hserves⟩
  · rintro ⟨hmem, hkind, hsound, hdeclared, hserves⟩
    exact ⟨⟨hmem, hkind⟩, ⟨hsound, hdeclared⟩, hserves⟩

/-- What serves without the racks that are moved serves with them. -/
theorem DomainWork.Serviceable.relax {ev : PodEvidence}
    (h : work.Serviceable ev kind true restrict) :
    work.Serviceable ev kind false restrict := by
  obtain ⟨rack, hrack, hadmissible⟩ := h.serves
  refine ⟨h.mem, h.kind, h.sound, h.declared, rack, hrack, ?_⟩
  unfold admissibleWithin admissible at hadmissible ⊢
  cases hmember : findMember ev.members rack with
  | none =>
    rw [hmember] at hadmissible
    cases hadmissible
  | some member =>
    rw [hmember] at hadmissible
    simp only [Bool.and_eq_true] at hadmissible ⊢
    exact ⟨⟨hadmissible.1.1, rfl⟩, hadmissible.2⟩

/-- No domain is judged twice. -/
theorem PassesOf.domains_nodup (h : PassesOf request p) : p.findings.domains.Nodup :=
  List.Nodup.of_map _ h.domain_ids

/-- The serviceable domains have no rack in common. -/
theorem PassesOf.candidates_disperse (h : PassesOf request p)
    (hids : (request.snapshot.domains.map FailureDomainRecord.id).Nodup)
    (hdescribed : request.snapshot.DescribesKind kind) :
    Disperse p.findings.toPodEvidence kind excludeDrained restrict
      (candidates p.findings.toPodEvidence kind excludeDrained restrict) where
  nodup := (h.domains_nodup.filter _).filter _
  serviceable _ hwork := mem_candidates.1 hwork
  apart := by
    have hnodup : (candidates p.findings.toPodEvidence kind excludeDrained restrict).Nodup :=
      (h.domains_nodup.filter _).filter _
    refine hnodup.imp_of_mem fun ha hb hne => ?_
    have ha := mem_candidates.1 ha
    have hb := mem_candidates.1 hb
    exact h.apart hids hdescribed ha.mem hb.mem ha.kind hb.kind ha.sound hb.sound hne

/-- They are all counted. -/
theorem PassesOf.diversity_count (h : PassesOf request p)
    (hbound : p.findings.domains.length ≤ request.policy.maxDomains.toNat)
    (hids : (request.snapshot.domains.map FailureDomainRecord.id).Nodup)
    (hdescribed : request.snapshot.DescribesKind kind) :
    (diversityWithin p.findings.toPodEvidence kind excludeDrained restrict).count.toNat =
      (candidates p.findings.toPodEvidence kind excludeDrained restrict).length := by
  have hdisperse := @PassesOf.candidates_disperse _ _ _ excludeDrained restrict h hids hdescribed
  have hperm := sortOn_perm (fun domain : DomainWork =>
    toLex (domain.verdict.declaredMembers.length, domain.id))
      (candidates p.findings.toPodEvidence kind excludeDrained restrict)
  have hapart := hperm.symm.pairwise hdisperse.apart fun hab => hab.symm
  have hcount := @packDomains_disjoint _ [] 0 hapart fun domain _ => List.disjoint_nil_right _
  have hlength : (candidates p.findings.toPodEvidence kind excludeDrained restrict).length ≤
      p.findings.domains.length := (List.length_filter_le _ _).trans (List.length_filter_le _ _)
  have hfits := request.policy.maxDomains.toNat_lt
  refine (congrArg UInt32.toNat hcount).trans ?_
  rw [length_sortOn, UInt32.zero_add, UInt32.toNat_ofNat']
  exact Nat.mod_eq_of_lt (by omega)

end Passes

/-- Where the racks that the domains of a kind list are described, the diversity is the number of
the serviceable domains, and the largest number of them without a rack in common; and leaving out
the racks that are moved never makes it larger. -/
theorem diversity_exact {request : CompositionRequest} {p : Passes} {kind : DomainKind}
    (h : runPasses request = .ok p) (hvalid : request.snapshot.validate request.policy = .ok ())
    (hdescribed : request.snapshot.DescribesKind kind) (excludeDrained : Bool)
    (restrict : Option (List RackId)) :
    (diversityWithin p.findings.toPodEvidence kind excludeDrained restrict).count.toNat =
      (candidates p.findings.toPodEvidence kind excludeDrained restrict).length ∧
    (∃ family, Disperse p.findings.toPodEvidence kind excludeDrained restrict family ∧
      family.length =
      (diversityWithin p.findings.toPodEvidence kind excludeDrained restrict).count.toNat) ∧
    (∀ family, Disperse p.findings.toPodEvidence kind excludeDrained restrict family →
      family.length ≤
        (diversityWithin p.findings.toPodEvidence kind excludeDrained restrict).count.toNat) ∧
    (diversityWithin p.findings.toPodEvidence kind true restrict).count ≤
      (diversityWithin p.findings.toPodEvidence kind false restrict).count := by
  have hids := (validate_snapshot_iff.1 hvalid).domainIds
  have hparts := runPasses_passesOf h
  have hcount := fun excludeDrained => @PassesOf.diversity_count _ _ kind excludeDrained restrict
    hparts (runPasses_domain_bound h) hids hdescribed
  refine ⟨hcount _, ⟨_, hparts.candidates_disperse hids hdescribed, (hcount _).symm⟩, ?_, ?_⟩
  · intro family hfamily
    rw [hcount]
    exact (List.subperm_of_subset hfamily.nodup fun work hwork =>
      mem_candidates.2 (hfamily.serviceable work hwork)).length_le
  · rw [UInt32.le_iff_toNat_le, hcount, hcount]
    exact (List.subperm_of_subset ((hparts.domains_nodup.filter _).filter _) fun work hwork =>
      mem_candidates.2 (mem_candidates.1 hwork).relax).length_le

namespace Sample

/-- Two racks, each in a power domain of its own; the second is draining. -/
def spread : CompositionRequest where
  snapshot := { snapshot with
    members := [{ member rackA ⟨1⟩ with failureDomains := [idOf "power.a"], capacity := [] },
      { member rackB ⟨1⟩ with
        failureDomains := [idOf "power.b"], capacity := [], admin := .draining }]
    links := []
    domains := [{ id := idOf "power.a", kind := .power, members := [rackA] },
      { id := idOf "power.b", kind := .power, members := [rackB] }] }

end Sample

/-- The two domains have no rack in common, and one is left without the rack that is draining. -/
theorem sample_diversity : ∃ p, runPasses Sample.spread = .ok p ∧
    (∃ family, Disperse p.findings.toPodEvidence .power false none family ∧ family.length = 2) ∧
    ∀ family, Disperse p.findings.toPodEvidence .power true none family → family.length ≤ 1 := by
  have hcounts : (runPasses Sample.spread).toOption.map (fun p =>
      ((diversityWithin p.findings.toPodEvidence .power false none).count,
        (diversityWithin p.findings.toPodEvidence .power true none).count)) = some (2, 1) := by
    decide +kernel
  have hdescribed : Sample.spread.snapshot.DescribesKind .power := by
    unfold PodSnapshot.DescribesKind PodSnapshot.Describes
    decide +kernel
  have hvalid : Sample.spread.snapshot.validate Sample.spread.policy = .ok () := by decide +kernel
  cases hp : runPasses Sample.spread with
  | error fault =>
    rw [hp] at hcounts
    cases hcounts
  | ok p =>
    rw [hp] at hcounts
    obtain ⟨hall, hleft⟩ := Prod.mk.inj (Option.some.inj hcounts)
    obtain ⟨-, ⟨family, hdisperse, hlength⟩, -⟩ := diversity_exact hp hvalid hdescribed false none
    obtain ⟨-, -, hlargest, -⟩ := diversity_exact hp hvalid hdescribed true none
    rw [hall] at hlength
    rw [hleft] at hlargest
    exact ⟨p, rfl, ⟨family, hdisperse, hlength⟩, hlargest⟩

end PodFabric
