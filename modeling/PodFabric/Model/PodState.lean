import PodFabric.Model.Evidence

/-!
# The pod state

The document a composition produces: lifecycle, verdicts, capacity aggregates, decisions with their
dependencies, fences and the pod's own authority, with its canonical form.
-/

namespace PodFabric

/-! ## Lifecycle -/

/-- The lifecycle of a pod. -/
inductive LifecycleState
  | constructing | active | degraded | partitioned | recovering | maintenance | draining | retired
  deriving DecidableEq, Repr

namespace LifecycleState

/-- The name of a lifecycle state (`to_string`). -/
def toText : LifecycleState → Text
  | constructing => "constructing"
  | active => "active"
  | degraded => "degraded"
  | partitioned => "partitioned"
  | recovering => "recovering"
  | maintenance => "maintenance"
  | draining => "draining"
  | retired => "retired"

/-- Legal lifecycle transitions (`is_legal_transition`). -/
def legal (source target : LifecycleState) : Bool :=
  source = target ||
    match source with
    | constructing =>
      target ∈ [active, degraded, partitioned, recovering, maintenance, draining, retired]
    | active => target ∈ [degraded, partitioned, recovering, maintenance, draining, retired]
    | degraded => target ∈ [active, partitioned, recovering, maintenance, draining, retired]
    | partitioned => target ∈ [recovering, retired]
    | recovering => target ∈ [active, degraded, partitioned, retired]
    | maintenance => target ∈ [active, degraded, partitioned, recovering, retired]
    | draining => target ∈ [active, degraded, partitioned, recovering, maintenance, retired]
    | retired => false

/-- The lifecycle that follows `current` when `desired` is asked for (`next_lifecycle`). -/
def next (current desired : LifecycleState) : LifecycleState :=
  if current = retired then retired
  else if legal current desired then desired
  else if current = partitioned ∧ (desired = active ∨ desired = degraded) then recovering
  else if desired = active ∨ desired = degraded then
    if current = recovering then desired else partitioned
  else if desired = recovering then partitioned
  else current

/-- A request for a legal transition is granted. -/
theorem next_of_legal {current desired : LifecycleState} (h : legal current desired = true) :
    next current desired = desired := by
  cases current <;> cases desired <;> first | rfl | cases h

/-- A retired pod stays retired. -/
theorem next_retired (desired : LifecycleState) : next retired desired = retired := by
  cases desired <;> rfl

end LifecycleState

/-! ## Verdicts -/

/-- What a rack of the pod is judged to be. -/
inductive MemberStatus
  | established | joining | stale | fenced | conflicting | retiring | unsupported | missing
  deriving DecidableEq, Repr

/-- The name of a member's status (`to_string`). -/
def MemberStatus.toText : MemberStatus → Text
  | established => "established"
  | joining => "joining"
  | stale => "stale"
  | fenced => "fenced"
  | conflicting => "conflicting"
  | retiring => "retiring"
  | unsupported => "unsupported"
  | missing => "missing"

/-- What a link, a route or a pair of racks is judged to be. -/
inductive LinkStatus
  | usable | degraded | blocked | conflicting | stale | indeterminate | unsupported
  deriving DecidableEq, Repr

/-- The name of a link's status (`to_string`). -/
def LinkStatus.toText : LinkStatus → Text
  | usable => "usable"
  | degraded => "degraded"
  | blocked => "blocked"
  | conflicting => "conflicting"
  | stale => "stale"
  | indeterminate => "indeterminate"
  | unsupported => "unsupported"

/-- What an obligation is judged to be. -/
inductive ObligationStatus
  | satisfied | atRisk | violated | indeterminate | unsupported
  deriving DecidableEq, Repr

/-- The name of an obligation's status (`to_string`). -/
def ObligationStatus.toText : ObligationStatus → Text
  | satisfied => "satisfied"
  | atRisk => "at-risk"
  | violated => "violated"
  | indeterminate => "indeterminate"
  | unsupported => "unsupported"

/-- What a failure domain is judged to be. -/
inductive DomainStatus
  | ok | degraded | conflicting | incomplete | indeterminate
  deriving DecidableEq, Repr

/-- The name of a domain's status (`to_string`). -/
def DomainStatus.toText : DomainStatus → Text
  | ok => "ok"
  | degraded => "degraded"
  | conflicting => "conflicting"
  | incomplete => "incomplete"
  | indeterminate => "indeterminate"

/-- What the capacity of a resource is judged to be. -/
inductive CapacityStatus
  | ok | deduplicated | conflicting | incomplete | indeterminate | exhausted | unsupported
  deriving DecidableEq, Repr

/-- The name of a capacity's status (`to_string`). -/
def CapacityStatus.toText : CapacityStatus → Text
  | ok => "OK"
  | deduplicated => "DEDUPLICATED"
  | conflicting => "CONFLICTING"
  | incomplete => "INCOMPLETE"
  | indeterminate => "INDETERMINATE"
  | exhausted => "EXHAUSTED"
  | unsupported => "UNSUPPORTED"

/-- The verdict on a rack. -/
@[ext] structure MemberVerdict where
  rack : RackId := .nil
  status : MemberStatus := .missing
  generation : RackGeneration := {}
  digest : Digest := .zero
  membership : MembershipState := .joining
  admin : AdminState := .enabled
  health : HealthState := .unknown
  domains : List DomainId := []
  reasons : List Reason := []
  deriving DecidableEq, Inhabited

/-- The verdict on a pair of racks. -/
@[ext] structure ConnectivityVerdict where
  source : RackId := .nil
  target : RackId := .nil
  status : LinkStatus := .indeterminate
  resource : ResourceClass := .nil
  usableCapacity : UInt64 := 0
  links : List LinkId := []
  routes : List RouteRef := []
  reasons : List Reason := []
  deriving DecidableEq, Inhabited

/-- The verdict on a failure domain. -/
@[ext] structure DomainVerdict where
  id : DomainId := .nil
  kind : DomainKind := .unknown
  status : DomainStatus := .ok
  declaredMembers : List RackId := []
  effectiveMembers : List RackId := []
  reasons : List Reason := []
  deriving DecidableEq, Inhabited

/-- The verdict on an obligation. -/
@[ext] structure ObligationVerdict where
  id : ObligationId := .nil
  kind : ObligationKind := .capacityFloor
  status : ObligationStatus := .indeterminate
  satisfiedDomains : UInt32 := 0
  reasons : List Reason := []
  deriving DecidableEq, Inhabited

/-! ## Capacity aggregates -/

/-- One unit of capacity in an aggregate, counted or not, with the owner that reported it. -/
@[ext] structure CapacityContribution where
  owner : RackId := .nil
  viaLink : LinkId := .nil
  exclusivity : ExclusivityKey := .nil
  amount : UInt64 := 0
  reserved : UInt64 := 0
  domain : DomainId := .nil
  provenance : Provenance := {}
  counted : Bool := true
  notCountedReason : Reason := {}
  deriving DecidableEq, Inhabited

namespace CapacityContribution

/-- What contributions are ordered by: all their fields. -/
def key (c : CapacityContribution) : RackId ×ₗ LinkId ×ₗ ExclusivityKey ×ₗ UInt64 ×ₗ UInt64 ×ₗ
    DomainId ×ₗ Provenance ×ₗ Bool ×ₗ Reason :=
  toLex (c.owner, toLex (c.viaLink, toLex (c.exclusivity, toLex (c.amount, toLex (c.reserved,
    toLex (c.domain, toLex (c.provenance, toLex (c.counted, c.notCountedReason))))))))

/-- Contributions with the same key are equal. -/
theorem key_injective : Function.Injective key := by
  intro p q h
  simp only [key, EmbeddingLike.apply_eq_iff_eq, Prod.mk.injEq] at h
  obtain ⟨ho, hv, hx, ha, hr, hd, hp, hc, hn⟩ := h
  exact CapacityContribution.ext ho hv hx ha hr hd hp hc hn

instance : LinearOrder CapacityContribution := LinearOrder.ofKey key key_injective

end CapacityContribution

/-- The capacity of a resource class in the pod, or in one of its domains. -/
@[ext] structure CapacityAggregate where
  resource : ResourceClass := .nil
  domain : DomainId := .nil
  total : UInt64 := 0
  reserved : UInt64 := 0
  headroom : UInt64 := 0
  status : CapacityStatus := .ok
  contributions : List CapacityContribution := []
  reasons : List Reason := []
  deriving DecidableEq, Inhabited

/-! ## Decisions and fences -/

/-- The kinds of decisions. -/
inductive DecisionKind
  | podLifecycle | memberState | connectivity | domainState | capacityAggregate | domainCapacity
  | obligationState | podAuthority
  deriving DecidableEq, Repr

/-- The kind's part of a decision's identity (`to_string`). -/
def DecisionKind.toText : DecisionKind → Text
  | podLifecycle => "lifecycle"
  | memberState => "member"
  | connectivity => "connectivity"
  | domainState => "domain"
  | capacityAggregate => "capacity"
  | domainCapacity => "domain-capacity"
  | obligationState => "obligation"
  | podAuthority => "authority"

/-- The kinds of things a decision can depend on. -/
inductive DepKind
  | member | link | route | domain | obligation | token | epoch | incarnation | decision | lifecycle
  deriving DecidableEq, Repr

/-- The name of a kind of dependency (`to_string`). -/
def DepKind.toText : DepKind → Text
  | member => "member"
  | link => "link"
  | route => "route"
  | domain => "domain"
  | obligation => "obligation"
  | token => "token"
  | epoch => "epoch"
  | incarnation => "incarnation"
  | decision => "decision"
  | lifecycle => "lifecycle"

/-- A dependency edge. -/
@[ext] structure DepKey where
  kind : DepKind := .member
  subject : Text := []
  deriving DecidableEq, Inhabited

namespace DepKey

/-- What dependencies are ordered by: the kind, then the subject. -/
def key (d : DepKey) : ℕ ×ₗ Text := toLex (d.kind.ctorIdx, d.subject)

/-- Dependencies with the same key are equal. -/
theorem key_injective : Function.Injective key := by
  intro p q h
  simp only [key, EmbeddingLike.apply_eq_iff_eq, Prod.mk.injEq] at h
  exact DepKey.ext (Function.LeftInverse.injective DepKind.ofNat_ctorIdx h.1) h.2

instance : LinearOrder DepKey := LinearOrder.ofKey key key_injective

end DepKey

/-- A derived fact with the inputs it used. -/
@[ext] structure DecisionRecord where
  id : DecisionId := .nil
  kind : DecisionKind := .podLifecycle
  status : Code := .ok
  deps : List DepKey := []
  fingerprint : Digest := .zero
  reasons : List Reason := []
  deriving DecidableEq, Inhabited

/-- The kinds of things that are fenced. -/
inductive FenceKind
  | member | link | route | token | capacity | pod
  deriving DecidableEq, Repr

/-- The name of a kind of fence (`to_string`). -/
def FenceKind.toText : FenceKind → Text
  | member => "member"
  | link => "link"
  | route => "route"
  | token => "token"
  | capacity => "capacity"
  | pod => "pod"

/-- An instruction to stop using something. -/
@[ext] structure FenceAction where
  kind : FenceKind := .member
  subject : Text := []
  reason : Reason := {}
  deriving DecidableEq, Inhabited

namespace FenceAction

/-- What fences are ordered by: all their fields. -/
def key (f : FenceAction) : ℕ ×ₗ Text ×ₗ Reason :=
  toLex (f.kind.ctorIdx, toLex (f.subject, f.reason))

/-- Fences with the same key are equal. -/
theorem key_injective : Function.Injective key := by
  intro p q h
  simp only [key, EmbeddingLike.apply_eq_iff_eq, Prod.mk.injEq] at h
  exact FenceAction.ext (Function.LeftInverse.injective FenceKind.ofNat_ctorIdx h.1) h.2.1 h.2.2

instance : LinearOrder FenceAction := LinearOrder.ofKey key key_injective

end FenceAction

/-- Folds a byte into the alphabet of canonical identifiers. -/
def foldIdByte (c : UInt8) : UInt8 := if isLowerAlnum c || isSeparator c then c else 95

/-- The identity of a decision whose subject makes no identifier. -/
def DecisionId.invalid : DecisionId :=
  ⟨"decision.invalid", .inr (by decide +kernel)⟩

/-- Deterministic identity of a decision: `<kind>.<subject>`, folded (`make_decision_id`). -/
def makeDecisionId (kind : DecisionKind) (subject : Text) : DecisionId :=
  match BasicId.parse ((kind.toText ++ [46] ++ subject).map foldIdByte) with
  | .ok id => id
  | .error _ => .invalid

/-! ## The state -/

/-- Aggregate authority of the pod itself. -/
@[ext] structure PodAuthority where
  status : Code := .unknown
  epoch : PodEpoch := {}
  incarnation : Incarnation := {}
  establishedMembers : UInt32 := 0
  fencedMembers : UInt32 := 0
  conflictingMembers : UInt32 := 0
  staleMembers : UInt32 := 0
  recovered : Bool := false
  reasons : List Reason := []
  deriving DecidableEq, Inhabited

/-- The pod's answers may be relied on (`authoritative`). -/
def PodAuthority.authoritative (a : PodAuthority) : Bool := a.status = .ok

/-- The composed state of a pod. -/
@[ext] structure PodState where
  pod : PodId := .nil
  schema : Text := []
  epoch : PodEpoch := {}
  incarnation : Incarnation := {}
  lifecycle : LifecycleState := .constructing
  members : List MemberVerdict := []
  connectivity : List ConnectivityVerdict := []
  capacity : List CapacityAggregate := []
  domainCapacity : List CapacityAggregate := []
  domains : List DomainVerdict := []
  obligations : List ObligationVerdict := []
  decisions : List DecisionRecord := []
  authority : PodAuthority := {}
  fences : List FenceAction := []
  degradations : List Reason := []
  stateDigest : Digest := .zero
  decisionDigest : Digest := .zero
  composedAt : Nanos := 0
  provenance : Provenance := {}
  deriving DecidableEq, Inhabited

/-- The revision of the document (`pod_state_schema`). -/
def podStateSchema : Text := "podfabric.podstate/1"

/-! ## Canonical form -/

/-- The verdict with its reasons in order. -/
def MemberVerdict.canonicalise (m : MemberVerdict) : MemberVerdict :=
  { m with
    domains := PodFabric.canonicalise m.domains
    reasons := PodFabric.canonicalise m.reasons }

/-- What the verdicts on pairs are ordered by. -/
def ConnectivityVerdict.key (c : ConnectivityVerdict) : RackId ×ₗ RackId :=
  toLex (c.source, c.target)

/-- The verdict with its lists in order. -/
def ConnectivityVerdict.canonicalise (c : ConnectivityVerdict) : ConnectivityVerdict :=
  { c with
    links := sorted c.links
    routes := sorted c.routes
    reasons := PodFabric.canonicalise c.reasons }

/-- What aggregates are ordered by. -/
def CapacityAggregate.key (a : CapacityAggregate) : ResourceClass ×ₗ DomainId :=
  toLex (a.resource, a.domain)

/-- The aggregate with its lists in order. -/
def CapacityAggregate.canonicalise (a : CapacityAggregate) : CapacityAggregate :=
  { a with
    contributions := sorted a.contributions
    reasons := PodFabric.canonicalise a.reasons }

/-- The verdict with its lists in order. -/
def DomainVerdict.canonicalise (d : DomainVerdict) : DomainVerdict :=
  { d with
    declaredMembers := sorted d.declaredMembers
    effectiveMembers := sorted d.effectiveMembers
    reasons := PodFabric.canonicalise d.reasons }

/-- The verdict with its reasons in order. -/
def ObligationVerdict.canonicalise (o : ObligationVerdict) : ObligationVerdict :=
  { o with reasons := PodFabric.canonicalise o.reasons }

/-- The record with its lists in order. -/
def DecisionRecord.canonicalise (d : DecisionRecord) : DecisionRecord :=
  { d with
    deps := PodFabric.canonicalise d.deps
    reasons := PodFabric.canonicalise d.reasons }

/-- Canonicalises every derived collection (`canonicalise`). -/
def PodState.canonicalise (state : PodState) : PodState :=
  { state with
    members := (sortOn MemberVerdict.rack state.members).map MemberVerdict.canonicalise
    connectivity :=
      (sortOn ConnectivityVerdict.key state.connectivity).map ConnectivityVerdict.canonicalise
    capacity :=
      (sortOn CapacityAggregate.resource state.capacity).map CapacityAggregate.canonicalise
    domainCapacity :=
      (sortOn CapacityAggregate.key state.domainCapacity).map CapacityAggregate.canonicalise
    domains := (sortOn DomainVerdict.id state.domains).map DomainVerdict.canonicalise
    obligations :=
      (sortOn ObligationVerdict.id state.obligations).map ObligationVerdict.canonicalise
    decisions := (sortOn DecisionRecord.id state.decisions).map DecisionRecord.canonicalise
    fences := sorted state.fences
    degradations := PodFabric.canonicalise state.degradations }

end PodFabric
