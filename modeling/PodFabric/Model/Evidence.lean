import PodFabric.Model.Primitives
import PodFabric.Lib.Canonical

/-!
# Evidence

The records a composition round consumes: capacity claims, members, links, routes, failure domains
and obligations, gathered in a snapshot, and the policy with the bounds they are held to.
-/

namespace PodFabric

/-! ## Capacity claims -/

/-- A capacity claim as reported by an owning subsystem. -/
@[ext] structure CapacityClaim where
  resource : ResourceClass := .nil
  exclusivity : ExclusivityKey := .nil
  amount : UInt64 := 0
  reserved : UInt64 := 0
  domain : DomainId := .nil
  provenance : Provenance := {}
  deriving DecidableEq, Inhabited

/-- A requirement expressed by an obligation. -/
@[ext] structure CapacityRequirement where
  resource : ResourceClass := .nil
  minimum : UInt64 := 0
  marginPercent : UInt32 := 0
  deriving DecidableEq, Inhabited

/-! ## Links, routes and failure domains -/

/-- One end of a link: a port of a rack, at a generation of the rack. -/
@[ext] structure LinkEndpoint where
  rack : RackId := .nil
  port : PortRef := .nil
  deriving DecidableEq, Inhabited

/-- An inter-rack link with the rack generations in force when it was observed. -/
@[ext] structure LinkRecord where
  id : LinkId := .nil
  a : LinkEndpoint := {}
  b : LinkEndpoint := {}
  domain : DomainId := .nil
  resource : ResourceClass := .nil
  capacity : UInt64 := 0
  admin : AdminState := .enabled
  oper : OperationalState := .unknown
  aGeneration : RackGeneration := {}
  bGeneration : RackGeneration := {}
  route : RouteRef := .nil
  provenance : Provenance := {}
  observedAt : Nanos := 0
  deriving DecidableEq, Inhabited

/-- The state a route is reported in. -/
inductive RouteState
  | installed | pending | withdrawn | failed | unknown
  deriving DecidableEq, Repr

/-- The name of a route state in the text (`to_string`). -/
def RouteState.toText : RouteState → Text
  | installed => "installed"
  | pending => "pending"
  | withdrawn => "withdrawn"
  | failed => "failed"
  | unknown => "unknown"

/-- A reference to a routing decision, with the generation of each rack on its path. -/
@[ext] structure RouteEvidence where
  ref : RouteRef := .nil
  generation : RouteGeneration := {}
  authorityDigest : Digest := .zero
  path : List RackId := []
  pathGenerations : List RackGeneration := []
  resource : ResourceClass := .nil
  committedCapacity : UInt64 := 0
  state : RouteState := .unknown
  provenance : Provenance := {}
  observedAt : Nanos := 0
  deriving DecidableEq, Inhabited

/-- The kinds of failure domains. -/
inductive DomainKind
  | rack | power | switchPlane | row | site | unknown
  deriving DecidableEq, Repr

/-- The name of a kind of domain in the text (`to_string`). -/
def DomainKind.toText : DomainKind → Text
  | rack => "rack"
  | power => "power"
  | switchPlane => "switch-plane"
  | row => "row"
  | site => "site"
  | unknown => "unknown"

/-- The kinds in the order of their underlying value. -/
def DomainKind.all : List DomainKind := [rack, power, switchPlane, row, site, unknown]

/-- A failure domain and the racks and links declared to be in it. -/
@[ext] structure FailureDomainRecord where
  id : DomainId := .nil
  kind : DomainKind := .unknown
  members : List RackId := []
  description : Text := []
  provenance : Provenance := {}
  deriving DecidableEq, Inhabited

/-! ## Members and obligations -/

/-- What a rack's own subsystem reports about it. -/
@[ext] structure MemberRecord where
  rack : RackId := .nil
  generation : RackGeneration := {}
  digest : Digest := .zero
  rnfSchema : Text := []
  membership : MembershipState := .established
  admin : AdminState := .enabled
  health : HealthState := .unknown
  failureDomains : List DomainId := []
  capacity : List CapacityClaim := []
  ports : List PortRef := []
  provenance : Provenance := {}
  observedAt : Nanos := 0
  deriving DecidableEq, Inhabited

/-- The generation the pod last accepted for a rack. -/
@[ext] structure MemberExpectation where
  rack : RackId := .nil
  generation : RackGeneration := {}
  digest : Digest := .zero
  membership : MembershipState := .joining
  deriving DecidableEq, Inhabited

namespace MemberExpectation

/-- What expectations are ordered by. -/
def key (e : MemberExpectation) : RackId ×ₗ RackGeneration ×ₗ Digest ×ₗ ℕ :=
  toLex (e.rack, toLex (e.generation, toLex (e.digest, e.membership.ctorIdx)))

/-- Expectations with the same key are equal. -/
theorem key_injective : Function.Injective key := by
  intro p q h
  simp only [key, EmbeddingLike.apply_eq_iff_eq, Prod.mk.injEq] at h
  exact MemberExpectation.ext h.1 h.2.1 h.2.2.1
    (Function.LeftInverse.injective MembershipState.ofNat_ctorIdx h.2.2.2)

instance : LinearOrder MemberExpectation := LinearOrder.ofKey key key_injective

end MemberExpectation

/-- The kinds of obligations. -/
inductive ObligationKind
  | protectedPath | capacityFloor | domainDiversity | maintenanceWindow
  deriving DecidableEq, Repr

/-- The name of a kind of obligation in the text (`to_string`). -/
def ObligationKind.toText : ObligationKind → Text
  | protectedPath => "protected-path"
  | capacityFloor => "capacity-floor"
  | domainDiversity => "domain-diversity"
  | maintenanceWindow => "maintenance-window"

/-- A protected obligation. -/
@[ext] structure Obligation where
  id : ObligationId := .nil
  kind : ObligationKind := .capacityFloor
  tenant : TenantId := .nil
  description : Text := []
  protectedRacks : List RackId := []
  requiredDomains : UInt32 := 0
  diversityKind : DomainKind := .power
  requirements : List CapacityRequirement := []
  mandatory : Bool := true
  provenance : Provenance := {}
  deriving DecidableEq, Inhabited

/-! ## Policy -/

/-- The nanoseconds of a second. -/
def nanosPerSecond : Nanos := 1000000000

/-- Composition policy and its hard bounds. -/
structure Policy where
  maxMembers : UInt32 := 4096
  maxLinks : UInt32 := 65536
  maxRoutes : UInt32 := 65536
  maxDomains : UInt32 := 4096
  maxObligations : UInt32 := 4096
  maxCapacityClaims : UInt32 := 262144
  maxPortsPerMember : UInt32 := 4096
  maxCapacityAmount : UInt64 := 0x1000000000000
  maxCapacityTotal : UInt64 := 0x100000000000000
  evidenceTtl : Nanos := 30 * nanosPerSecond
  clockSkew : Nanos := 5 * nanosPerSecond
  minEstablishedMembers : UInt32 := 1
  requireFullCoverage : Bool := false
  requireAttestedJoin : Bool := true
  requireAuthorityToken : Bool := false
  supportedRnfSchemas : List Text := [text "rnf.descriptor/1"]
  defaultMarginPercent : UInt32 := 0
  maxJournalRecordBytes : UInt64 := 1048576
  maxJournalBytes : UInt64 := 67108864
  deriving DecidableEq, Inhabited

/-- Validation of the policy itself (`validate`). -/
def Policy.validate (policy : Policy) : Result Unit := do
  ensure (policy.maxCapacityClaims ≤ 0x1000000)
    ⟨.invalid, "policy: max_capacity_claims is unreasonably large"⟩
  ensure (policy.maxCapacityAmount ≠ 0)
    ⟨.invalid, "policy: max_capacity_amount must be positive"⟩
  ensure (policy.maxCapacityAmount ≤ policy.maxCapacityTotal)
    ⟨.invalid, "policy: max_capacity_total must not be smaller than max_capacity_amount"⟩
  ensure (0 ≤ policy.evidenceTtl) ⟨.invalid, "policy: evidence_ttl must not be negative"⟩
  ensure (0 ≤ policy.clockSkew) ⟨.invalid, "policy: clock_skew must not be negative"⟩
  ensure (64 ≤ policy.maxJournalRecordBytes)
    ⟨.invalid, "policy: max_journal_record_bytes is too small"⟩
  ensure (policy.maxJournalRecordBytes ≤ policy.maxJournalBytes)
    ⟨.invalid, "policy: max_journal_bytes must cover at least one record"⟩
  ensure (policy.supportedRnfSchemas ≠ [])
    ⟨.invalid, "policy: at least one Rack Network Fabric schema must be accepted"⟩

/-! ## Snapshots -/

/-- The schema of the documents this version writes. -/
def snapshotSchema : Text := "podfabric.snapshot/1"

/-- Evidence supplied by the surrounding system for one composition round. -/
@[ext] structure PodSnapshot where
  pod : PodId := .nil
  schema : Text := []
  members : List MemberRecord := []
  links : List LinkRecord := []
  routes : List RouteEvidence := []
  domains : List FailureDomainRecord := []
  obligations : List Obligation := []
  provenance : Provenance := {}
  observedAt : Nanos := 0
  deriving DecidableEq, Inhabited

/-- A collection may not exceed its bound (`bounded`). -/
def bounded (count : ℕ) (limit : UInt32) (what : Text) : Result Unit :=
  ensure (count ≤ limit.toNat)
    ⟨.exhausted, text "snapshot declares more " ++ what ++ text " than the policy allows"⟩

/-- The checks of one capacity claim. -/
def CapacityClaim.validate (claim : CapacityClaim) (policy : Policy) : Result Unit := do
  ensure (claim.resource ≠ .nil ∧ claim.exclusivity ≠ .nil ∧ claim.domain ≠ .nil)
    ⟨.invalid, "capacity claim is missing a resource, key or domain"⟩
  ensure (claim.amount ≤ policy.maxCapacityAmount)
    ⟨.invalid, "capacity claim amount exceeds the policy bound"⟩
  ensure (claim.reserved ≤ claim.amount)
    ⟨.invalid, "capacity claim reserves more than it offers"⟩

/-- The checks made of the first record of a rack. -/
def MemberRecord.validate (member : MemberRecord) (policy : Policy) : Result Unit := do
  ensure (¬ member.generation.isZero) ⟨.invalid, "member record has a zero generation"⟩
  ensure (¬ member.digest.isZero) ⟨.invalid, "member record has a zero descriptor digest"⟩
  ensure (member.rnfSchema ≠ [])
    ⟨.invalid, "member record has no Rack Network Fabric schema revision"⟩
  bounded member.failureDomains.length policy.maxDomains "member failure domains"
  bounded member.ports.length policy.maxPortsPerMember "member ports"
  ensure member.failureDomains.Nodup ⟨.invalid, "member record repeats a failure domain"⟩
  ensure member.ports.Nodup ⟨.invalid, "member record repeats a port reference"⟩
  member.capacity.forM (CapacityClaim.validate · policy)
  ensure (member.capacity.map fun claim => (claim.resource, claim.exclusivity)).Nodup
    ⟨.invalid, "member record repeats a capacity claim for the same physical resource"⟩

/-- The loop over the member records. `racks` are those already seen: a duplicate rack record is a
conflict the composition reports, so it is passed over here. Returns the number of claims. -/
def validateMembers (policy : Policy) : List RackId → List MemberRecord → Result ℕ
  | _, [] => .ok 0
  | racks, member :: rest => do
    ensure (member.rack ≠ .nil) ⟨.invalid, "member record has no rack identity"⟩
    if member.rack ∈ racks then validateMembers policy racks rest
    else
      member.validate policy
      let claims ← validateMembers policy (member.rack :: racks) rest
      return member.capacity.length + claims

/-- The loop over records with an identity that must not repeat. -/
def validateDistinct {α ι : Type} [DecidableEq ι] (id : α → ι) (isNil : ι → Bool)
    (missing duplicated : Text) (check : α → Result Unit) : List ι → List α → Result Unit
  | _, [] => .ok ()
  | seen, item :: rest => do
    ensure (¬ isNil (id item)) ⟨.invalid, missing⟩
    ensure (id item ∉ seen) ⟨.invalid, duplicated⟩
    check item
    validateDistinct id isNil missing duplicated check (id item :: seen) rest

/-- The checks of one link. -/
def LinkRecord.validate (policy : Policy) (link : LinkRecord) : Result Unit := do
  ensure (link.a.rack ≠ .nil ∧ link.b.rack ≠ .nil)
    ⟨.invalid, "link endpoint has no rack identity"⟩
  ensure (link.a.rack ≠ link.b.rack) ⟨.invalid, "link joins a rack to itself"⟩
  ensure (link.resource ≠ .nil) ⟨.invalid, "link record has no resource class"⟩
  ensure (link.domain ≠ .nil) ⟨.invalid, "link record has no failure-domain attribution"⟩
  ensure (link.capacity ≤ policy.maxCapacityAmount)
    ⟨.invalid, "link capacity exceeds the policy bound"⟩

/-- The loop over the hops of a route. -/
def validateHops : List RackId → List RackId → Result Unit
  | _, [] => .ok ()
  | hops, hop :: rest => do
    ensure (hop ≠ .nil) ⟨.invalid, "route path contains a nil rack identity"⟩
    ensure (hop ∉ hops) ⟨.invalid, "route path revisits a rack"⟩
    validateHops (hop :: hops) rest

/-- The checks of one route. -/
def RouteEvidence.validate (policy : Policy) (route : RouteEvidence) : Result Unit := do
  bounded route.path.length policy.maxMembers "route path entries"
  ensure (route.path ≠ []) ⟨.invalid, "route record has an empty path"⟩
  ensure (route.pathGenerations.length = route.path.length)
    ⟨.invalid, "route path and path generations differ in length"⟩
  validateHops [] route.path
  ensure (route.resource ≠ .nil) ⟨.invalid, "route record has no resource class"⟩
  ensure (route.committedCapacity ≤ policy.maxCapacityAmount)
    ⟨.invalid, "route committed capacity exceeds the policy bound"⟩

/-- The checks of one domain. -/
def FailureDomainRecord.validate (policy : Policy) (domain : FailureDomainRecord) :
    Result Unit := do
  bounded domain.members.length policy.maxMembers "failure domain members"
  ensure domain.members.Nodup ⟨.invalid, "failure domain repeats a member rack"⟩
  ensure (isValidUtf8 domain.description)
    ⟨.invalid, "failure domain description is not valid UTF-8"⟩

/-- The checks of one requirement. -/
def CapacityRequirement.validate (policy : Policy) (requirement : CapacityRequirement) :
    Result Unit := do
  ensure (requirement.resource ≠ .nil)
    ⟨.invalid, "obligation requirement has no resource class"⟩
  ensure (requirement.minimum ≤ policy.maxCapacityAmount)
    ⟨.invalid, "obligation requirement exceeds the policy bound"⟩

/-- The checks of one obligation. -/
def Obligation.validate (policy : Policy) (obligation : Obligation) : Result Unit := do
  bounded obligation.protectedRacks.length policy.maxMembers "obligation racks"
  ensure obligation.protectedRacks.Nodup ⟨.invalid, "obligation repeats a protected rack"⟩
  bounded obligation.requirements.length policy.maxDomains "obligation requirements"
  obligation.requirements.forM (CapacityRequirement.validate policy)
  ensure (isValidUtf8 obligation.description)
    ⟨.invalid, "obligation description is not valid UTF-8"⟩

/-- Validation of a snapshot's well-formedness, independent of any recorded expectation
(`validate`). -/
def PodSnapshot.validate (snapshot : PodSnapshot) (policy : Policy) : Result Unit := do
  policy.validate
  ensure (snapshot.schema = snapshotSchema)
    ⟨.unsupported, "snapshot schema revision is not supported"⟩
  ensure (snapshot.pod ≠ .nil) ⟨.invalid, "snapshot has no pod identity"⟩
  ensure (snapshot.observedAt ≠ 0) ⟨.invalid, "snapshot has no observation time"⟩
  ensure (isValidUtf8 snapshot.provenance.detail)
    ⟨.invalid, "snapshot provenance detail is not valid UTF-8"⟩
  bounded snapshot.members.length policy.maxMembers "members"
  bounded snapshot.links.length policy.maxLinks "links"
  bounded snapshot.routes.length policy.maxRoutes "routes"
  bounded snapshot.domains.length policy.maxDomains "failure domains"
  bounded snapshot.obligations.length policy.maxObligations "obligations"
  let totalClaims ← validateMembers policy [] snapshot.members
  bounded totalClaims policy.maxCapacityClaims "capacity claims"
  validateDistinct LinkRecord.id BasicId.isNil "link record has no identity"
    "link identity is duplicated" (LinkRecord.validate policy) [] snapshot.links
  validateDistinct RouteEvidence.ref BasicId.isNil "route record has no reference"
    "route reference is duplicated" (RouteEvidence.validate policy) [] snapshot.routes
  validateDistinct FailureDomainRecord.id BasicId.isNil "failure domain has no identity"
    "failure domain identity is duplicated" (FailureDomainRecord.validate policy) []
    snapshot.domains
  validateDistinct Obligation.id BasicId.isNil "obligation has no identity"
    "obligation identity is duplicated" (Obligation.validate policy) [] snapshot.obligations

/-- Canonical form: records sorted by identity, their lists sorted (`canonicalise`). -/
def PodSnapshot.canonicalise (snapshot : PodSnapshot) : PodSnapshot :=
  { snapshot with
    members := (sortOn MemberRecord.rack snapshot.members).map fun member =>
      { member with
        failureDomains := PodFabric.canonicalise member.failureDomains
        ports := PodFabric.canonicalise member.ports
        capacity := sortOn (fun claim => toLex (claim.resource, claim.exclusivity))
          member.capacity }
    links := sortOn LinkRecord.id snapshot.links
    routes := sortOn RouteEvidence.ref snapshot.routes
    domains := (sortOn FailureDomainRecord.id snapshot.domains).map fun domain =>
      { domain with members := PodFabric.canonicalise domain.members }
    obligations := (sortOn Obligation.id snapshot.obligations).map fun obligation =>
      { obligation with
        protectedRacks := PodFabric.canonicalise obligation.protectedRacks
        requirements := sortOn CapacityRequirement.resource obligation.requirements } }

end PodFabric
