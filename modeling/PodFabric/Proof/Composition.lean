import PodFabric.Engine.Composer
import PodFabric.Proof.Members

/-!
# What a composition consists of

The inversion of `compose`: an accepted request passes its checks, and the composed state is the
finished draft of passes whose parts are those of the single passes (`PassesOf`). Lookups in the
working records are read back as records of the racks they are asked for.
-/

namespace PodFabric

/-- The working records of the racks before overlaps are noted. -/
def initialMembers (request : CompositionRequest) : List MemberWork :=
  (coveredRacks request).map (memberWork request)

/-- The parts of the passes of a request. -/
structure PassesOf (request : CompositionRequest) (p : Passes) : Prop where
  racks : (coveredRacks request).length ≤ request.policy.maxMembers.toNat
  policy : p.findings.policy = request.policy
  snapshot : p.findings.snapshot = request.snapshot
  context : p.findings.context = request.context
  epoch : adoptGenerationAdvances request.context.epoch (initialMembers request) =
    .ok p.findings.epoch
  domains : p.findings.domains =
    (checkedDomains request.snapshot (initialMembers request)).map
      (markOverlap (checkedDomains request.snapshot (initialMembers request))
        (initialMembers request))
  members : p.findings.members =
    (initialMembers request).map
      (noteOverlap (checkedDomains request.snapshot (initialMembers request)))
  ledger : ∃ ledger, evaluateCapacity request.policy p.findings.members = .ok ledger ∧
    p.findings.capacity = ledger.byResource ∧ p.domainCapacity = ledger.byDomain
  pairs : evaluateConnectivity p.findings.toEvidence = .ok p.findings.pairs
  obligations : p.findings.obligations =
    request.snapshot.obligations.map (judgeObligation p.findings.toPodEvidence)

section Inversion
variable {request : CompositionRequest} {p : Passes} {st : PodState}

/-- The passes of a composition, stage by stage. -/
theorem runPasses_passesOf (h : runPasses request = .ok p) : PassesOf request p := by
  unfold runPasses at h
  obtain ⟨members, hm, h⟩ := bind_eq_ok.1 h
  obtain ⟨epoch, he, h⟩ := bind_eq_ok.1 h
  obtain ⟨⟨domains, members'⟩, hd, h⟩ := bind_eq_ok.1 h
  obtain ⟨ledger, hl, h⟩ := bind_eq_ok.1 h
  obtain ⟨pairs, hp, h⟩ := bind_eq_ok.1 h
  rw [Result.lift_eq_ok] at hm he hd hl
  unfold evaluateMembers at hm
  obtain ⟨_, hcount, hm⟩ := bind_eq_ok.1 hm
  rw [ensure_eq_ok] at hcount
  rw [pure_eq_ok] at hm
  unfold evaluateDomains at hd
  obtain ⟨_, -, hd⟩ := bind_eq_ok.1 hd
  rw [pure_eq_ok, Prod.mk.injEq] at hd
  obtain ⟨rfl, rfl⟩ := hd
  rw [pure_eq_ok] at h
  subst hm h
  exact ⟨hcount, rfl, rfl, rfl, he, rfl, rfl, ⟨ledger, hl, rfl, rfl⟩, hp, rfl⟩

/-- The domains are within their bound. -/
theorem runPasses_count (h : runPasses request = .ok p) :
    (coveredDomains request.snapshot (initialMembers request)).length ≤
      request.policy.maxDomains.toNat := by
  unfold runPasses at h
  obtain ⟨members, hm, h⟩ := bind_eq_ok.1 h
  obtain ⟨_, -, h⟩ := bind_eq_ok.1 h
  obtain ⟨_, hd, -⟩ := bind_eq_ok.1 h
  rw [Result.lift_eq_ok] at hm hd
  unfold evaluateMembers at hm
  obtain ⟨_, -, hm⟩ := bind_eq_ok.1 hm
  rw [pure_eq_ok] at hm
  subst hm
  unfold evaluateDomains at hd
  obtain ⟨_, hcount, -⟩ := bind_eq_ok.1 hd
  exact ensure_eq_ok.1 hcount

/-- Passes made of the parts of a request are those it runs. -/
theorem runPasses_of_parts (h : PassesOf request p)
    (hcount : (coveredDomains request.snapshot (initialMembers request)).length ≤
      request.policy.maxDomains.toNat) : runPasses request = .ok p := by
  obtain ⟨⟨⟨⟨policy, snapshot, members, domains⟩, capacity, pairs⟩, context, epoch, obligations⟩,
    domainCapacity⟩ := p
  obtain ⟨hbound, rfl, rfl, rfl, hepoch, hdomains, hmembers, ⟨ledger, hledger, hcapacity, hsplit⟩,
    hpairs, hobligations⟩ := h
  dsimp only at hepoch hdomains hmembers hledger hcapacity hsplit hpairs hobligations
  have hm : evaluateMembers request = .ok (initialMembers request) := by
    unfold evaluateMembers
    exact bind_eq_ok.2 ⟨(), ensure_eq_ok.2 hbound, rfl⟩
  have hd : evaluateDomains request (initialMembers request) = .ok (domains, members) := by
    unfold evaluateDomains
    refine bind_eq_ok.2 ⟨(), ensure_eq_ok.2 hcount, ?_⟩
    rw [hdomains, hmembers]
    rfl
  unfold runPasses
  rw [hm, hcapacity, hsplit, hobligations]
  refine bind_eq_ok.2 ⟨_, rfl, bind_eq_ok.2 ⟨_, Result.lift_eq_ok.2 hepoch,
    bind_eq_ok.2 ⟨_, Result.lift_eq_ok.2 hd, bind_eq_ok.2 ⟨_, Result.lift_eq_ok.2 hledger,
      bind_eq_ok.2 ⟨_, hpairs, ?_⟩⟩⟩⟩⟩
  rw [hcapacity]
  rfl

/-- An accepted request passes its checks, and the state is its finished draft. -/
theorem compose_eq_ok : compose request = .ok st ↔
    request.validate = .ok () ∧ ∃ p, runPasses request = .ok p ∧ st = p.draft.finalise := by
  unfold compose
  simp only [bind_eq_ok, Result.lift_eq_ok, pure_eq_ok]
  constructor
  · rintro ⟨_, hv, p, hp, rfl⟩
    exact ⟨hv, p, hp, rfl⟩
  · rintro ⟨hv, p, hp, rfl⟩
    exact ⟨(), hv, p, hp, rfl⟩

/-- The state of an accepted request, with the parts it is made of. -/
theorem compose_passesOf (h : compose request = .ok st) :
    ∃ p, runPasses request = .ok p ∧ PassesOf request p ∧ st = p.draft.finalise := by
  obtain ⟨-, p, hp, rfl⟩ := compose_eq_ok.1 h
  exact ⟨p, hp, runPasses_passesOf hp, rfl⟩

/-- What a run of `compose` shows of its state. -/
theorem composed_of_map {α : Type} {view : PodState → α} {value : α}
    (h : (compose request).toOption.map view = some value) :
    ∃ st, compose request = .ok st ∧ view st = value := by
  cases hst : compose request with
  | error fault => simp [hst, Except.toOption] at h
  | ok st => exact ⟨st, rfl, by simpa [hst, Except.toOption] using h⟩

end Inversion

/-! ## The finished state -/

section Finished
variable {p : Passes}

/-- The composed members are the verdicts on the racks. -/
theorem mem_finalise_members {m : MemberVerdict} :
    m ∈ p.draft.finalise.members ↔
      ∃ work ∈ p.findings.members, work.verdict.canonicalise = m := by
  simp [PodState.finalise, PodState.canonicalise, Passes.draft]

/-- The composed connectivity is made of the verdicts on the pairs. -/
theorem mem_finalise_connectivity {c : ConnectivityVerdict} :
    c ∈ p.draft.finalise.connectivity ↔
      ∃ work ∈ p.findings.pairs, work.verdict.canonicalise = c := by
  simp [PodState.finalise, PodState.canonicalise, Passes.draft]

/-- The composed capacity is made of the pod's aggregates. -/
theorem mem_finalise_capacity {a : CapacityAggregate} :
    a ∈ p.draft.finalise.capacity ↔ ∃ b ∈ p.findings.capacity, b.canonicalise = a := by
  simp [PodState.finalise, PodState.canonicalise, Passes.draft]

/-- The composed breakdown is made of the domains' aggregates. -/
theorem mem_finalise_domainCapacity {a : CapacityAggregate} :
    a ∈ p.draft.finalise.domainCapacity ↔ ∃ b ∈ p.domainCapacity, b.canonicalise = a := by
  simp [PodState.finalise, PodState.canonicalise, Passes.draft]

/-- The composed domains are the verdicts on the domains. -/
theorem mem_finalise_domains {d : DomainVerdict} :
    d ∈ p.draft.finalise.domains ↔
      ∃ work ∈ p.findings.domains, work.verdict.canonicalise = d := by
  simp [PodState.finalise, PodState.canonicalise, Passes.draft]

/-- The composed obligations are the verdicts on the obligations. -/
theorem mem_finalise_obligations {o : ObligationVerdict} :
    o ∈ p.draft.finalise.obligations ↔
      ∃ verdict ∈ p.findings.obligations, verdict.canonicalise = o := by
  simp [PodState.finalise, PodState.canonicalise, Passes.draft]

/-- The composed state names the pod of the evidence. -/
@[simp] theorem finalise_pod : p.draft.finalise.pod = p.findings.snapshot.pod := rfl

/-- The composed state carries the adopted epoch. -/
@[simp] theorem finalise_epoch : p.draft.finalise.epoch = p.findings.epoch := rfl

/-- The composed state carries the controller's incarnation. -/
@[simp] theorem finalise_incarnation :
    p.draft.finalise.incarnation = p.findings.context.incarnation := rfl

/-- The composed state carries the composed lifecycle. -/
@[simp] theorem finalise_lifecycle :
    p.draft.finalise.lifecycle = composedLifecycle p.findings := rfl

/-- The composed state carries the pod's authority. -/
@[simp] theorem finalise_authority : p.draft.finalise.authority = podAuthority p.findings := rfl

end Finished

/-! ## Working records -/

section Records
variable {request : CompositionRequest} {p : Passes} {rack : RackId} {work : MemberWork}

/-- The work on a rack is about the rack. -/
@[simp] theorem memberWork_rack : (memberWork request rack).rack = rack :=
  evaluateMember_keeps.rack

/-- The work on a rack keeps the first record of it. -/
theorem memberWork_head : (memberWork request rack).record =
    (request.snapshot.members.filter fun member => member.rack = rack).head? :=
  evaluateMember_keeps.record

/-- What a member of the passes is: the working record of a covered rack, with the overlaps
noted. -/
theorem PassesOf.mem_members (h : PassesOf request p) :
    work ∈ p.findings.members ↔ ∃ rack ∈ coveredRacks request,
      noteOverlap (checkedDomains request.snapshot (initialMembers request))
        (memberWork request rack) = work := by
  simp [h.members, initialMembers]

/-- The work found for a rack is about it. -/
theorem findMember_rack {members : List MemberWork} (h : findMember members rack = some work) :
    work.rack = rack := by
  simpa using List.find?_some h

/-- The work found for a rack is one of the list. -/
theorem mem_of_findMember {members : List MemberWork} (h : findMember members rack = some work) :
    work ∈ members := List.mem_of_find?_eq_some h

/-- The racks of the working records are the covered racks, in order. -/
theorem PassesOf.map_rack (h : PassesOf request p) :
    p.findings.members.map MemberWork.rack = coveredRacks request := by
  simp only [h.members, initialMembers, List.map_map]
  conv_rhs => rw [← List.map_id (coveredRacks request)]
  exact List.map_congr_left fun rack _ => by simp [noteOverlap]

/-- Each rack has one working record. -/
theorem PassesOf.members_unique (h : PassesOf request p) {work work' : MemberWork}
    (hw : work ∈ p.findings.members) (hw' : work' ∈ p.findings.members)
    (hr : work.rack = work'.rack) : work = work' :=
  List.inj_on_of_nodup_map (h.map_rack ▸ canonicalise_nodup _) hw hw' hr

end Records

/-! ## A sample pod -/

namespace Sample

/-- An identifier written as a string. -/
def idOf {tag : IdTag} (s : String) (h : isCanonicalId (text s) = true := by decide) :
    BasicId tag :=
  ⟨text s, .inr h⟩

/-- A digest that is not zero. -/
def digest : Digest := ⟨List.replicate 32 1, rfl⟩

/-- A rack. -/
def rackA : RackId := idOf "a"

/-- Another rack. -/
def rackB : RackId := idOf "b"

/-- A failure domain. -/
def power : DomainId := idOf "power"

/-- A resource class. -/
def bandwidth : ResourceClass := idOf "bandwidth"

/-- A healthy rack of the power domain that offers some bandwidth. -/
def member (rack : RackId) (generation : RackGeneration) : MemberRecord where
  rack := rack
  generation := generation
  digest := digest
  rnfSchema := "rnf.descriptor/1"
  health := .ok
  failureDomains := [idOf "power"]
  capacity := [{
    resource := idOf "bandwidth", exclusivity := ⟨rack.token, rack.canonical⟩, amount := 10
    domain := idOf "power" }]
  provenance := { quality := .real, klass := .attested }

/-- A link that is up, observed at generation one of both racks. -/
def link : LinkRecord where
  id := idOf "link"
  a := { rack := rackA }
  b := { rack := rackB }
  domain := idOf "power"
  resource := idOf "bandwidth"
  capacity := 5
  oper := .up
  aGeneration := ⟨1⟩
  bGeneration := ⟨1⟩

/-- A pod of two racks in one power domain, joined by a link. -/
def snapshot : PodSnapshot where
  pod := idOf "pod"
  schema := snapshotSchema
  members := [member rackA ⟨1⟩, member rackB ⟨1⟩]
  links := [link]
  domains := [{ id := idOf "power", kind := .power, members := [rackA, rackB] }]
  observedAt := 100

/-- The sample's request. -/
def request : CompositionRequest := { snapshot }

end Sample

end PodFabric
