import PodFabric.Core.Digest

/-!
# Primitives

Counters, incarnations, provenance, health and administrative states, authority tokens and the
reasons attached to verdicts. Enumerations are ordered by their underlying value and records field
by field, as the program's defaulted comparisons order them.
-/

namespace PodFabric

/-- Nanoseconds on the coordinator's clock. -/
abbrev Nanos := Int64

/-! ## Counters and incarnations -/

/-- The counters that must not be confused with each other. -/
inductive SequenceTag
  | rackGeneration | podEpoch | routeGeneration | logSequence | fencingSequence

/-- A strictly monotonic counter. -/
@[ext] structure Sequence (tag : SequenceTag) where
  value : UInt64 := 0
  deriving DecidableEq, Inhabited

namespace Sequence
variable {tag : SequenceTag}

/-- The sequence at its beginning (`is_zero`). -/
def isZero (s : Sequence tag) : Bool := s.value = 0

/-- Overflow of a counter is an error, never a wrap. -/
def next (s : Sequence tag) : Result (Sequence tag) :=
  (checkedAdd s.value 1).map Sequence.mk

/-- A sequence is its value. -/
theorem value_injective : Function.Injective (@Sequence.value tag) :=
  fun _ _ => Sequence.ext

instance : LinearOrder (Sequence tag) := LinearOrder.ofKey Sequence.value value_injective

/-- The successor of a counter is one above it, and exists below the maximum only. -/
theorem next_eq_ok {s s' : Sequence tag} :
    s.next = .ok s' ↔ s.value.toNat + 1 < 2 ^ 64 ∧ s'.value = s.value + 1 := by
  have hadd := @checkedAdd_eq_ok s.value 1
  rw [UInt64.toNat_one] at hadd
  rw [next, map_eq_ok]
  constructor
  · rintro ⟨bumped, h, rfl⟩
    exact hadd.1 h
  · exact fun h => ⟨s'.value, hadd.2 h, rfl⟩

/-- The next value of a sequence is greater. -/
theorem lt_of_next {s s' : Sequence tag} (h : s.next = .ok s') : s < s' := by
  obtain ⟨hlt, hvalue⟩ := next_eq_ok.1 h
  change s.value < s'.value
  rw [hvalue, UInt64.lt_iff_toNat_lt, UInt64.toNat_add, UInt64.toNat_one, Nat.mod_eq_of_lt hlt]
  omega

end Sequence

/-- The generation of a rack's record. -/
abbrev RackGeneration := Sequence .rackGeneration
/-- The epoch of a pod. -/
abbrev PodEpoch := Sequence .podEpoch
/-- The generation of a route. -/
abbrev RouteGeneration := Sequence .routeGeneration
/-- The sequence of a record of the journal. -/
abbrev LogSequence := Sequence .logSequence
/-- The sequence that fences tokens. -/
abbrev FencingSequence := Sequence .fencingSequence

/-- Identity of one controller process lifetime. -/
@[ext] structure Incarnation where
  id : Uuid := .nil
  deriving DecidableEq, Inhabited

namespace Incarnation

/-- The incarnation of no process (`is_nil`). -/
def isNil (i : Incarnation) : Bool := i.id.isNil

/-- The incarnation in the text form of its identifier. -/
def toText (i : Incarnation) : Text := i.id.toText

end Incarnation

/-! ## Evidence -/

/-- Whether evidence describes real hardware. -/
inductive EvidenceQuality
  | real | synthetic | unknown
  deriving DecidableEq, Repr

/-- The name of a quality (`to_string`). -/
def EvidenceQuality.toText : EvidenceQuality → Text
  | real => "REAL"
  | synthetic => "SYNTHETIC"
  | unknown => "UNKNOWN"

/-- How evidence was obtained. -/
inductive EvidenceClass
  | attested | observed | declared | reconstructed
  deriving DecidableEq, Repr

/-- The name of a class of evidence (`to_string`). -/
def EvidenceClass.toText : EvidenceClass → Text
  | attested => "attested"
  | observed => "observed"
  | declared => "declared"
  | reconstructed => "reconstructed"

/-- Where a piece of evidence came from. -/
@[ext] structure Provenance where
  quality : EvidenceQuality := .unknown
  klass : EvidenceClass := .declared
  source : NodeId := .nil
  sourceSequence : UInt64 := 0
  detail : Text := []
  deriving DecidableEq, Inhabited

namespace Provenance

/-- What provenances are ordered by: all their fields. -/
def key (p : Provenance) : ℕ ×ₗ ℕ ×ₗ NodeId ×ₗ UInt64 ×ₗ Text :=
  toLex (p.quality.ctorIdx, toLex (p.klass.ctorIdx, toLex (p.source, toLex (p.sourceSequence,
    p.detail))))

/-- Provenances with the same key are equal. -/
theorem key_injective : Function.Injective key := by
  intro p q h
  simp only [key, EmbeddingLike.apply_eq_iff_eq, Prod.mk.injEq] at h
  obtain ⟨hq, hk, hs, hn, hd⟩ := h
  exact Provenance.ext (Function.LeftInverse.injective EvidenceQuality.ofNat_ctorIdx hq)
    (Function.LeftInverse.injective EvidenceClass.ofNat_ctorIdx hk) hs hn hd

instance : LinearOrder Provenance := LinearOrder.ofKey key key_injective

end Provenance

/-- Coarse health as reported by the owning subsystem. -/
inductive HealthState
  | ok | impaired | critical | unknown
  deriving DecidableEq, Repr

/-- The name of a health state (`to_string`). -/
def HealthState.toText : HealthState → Text
  | ok => "ok"
  | impaired => "impaired"
  | critical => "critical"
  | unknown => "unknown"

/-- The administrative state of a rack or a link. -/
inductive AdminState
  | enabled | disabled | maintenance | draining
  deriving DecidableEq, Repr

/-- The name of an administrative state (`to_string`). -/
def AdminState.toText : AdminState → Text
  | enabled => "enabled"
  | disabled => "disabled"
  | maintenance => "maintenance"
  | draining => "draining"

/-- Whether a link is up. -/
inductive OperationalState
  | up | degraded | down | unknown
  deriving DecidableEq, Repr

/-- The name of an operational state (`to_string`). -/
def OperationalState.toText : OperationalState → Text
  | up => "up"
  | degraded => "degraded"
  | down => "down"
  | unknown => "unknown"

/-- Membership of a rack in the pod. -/
inductive MembershipState
  | joining | established | leaving | fenced | retired
  deriving DecidableEq, Repr

/-- The name of a membership state (`to_string`). -/
def MembershipState.toText : MembershipState → Text
  | joining => "joining"
  | established => "established"
  | leaving => "leaving"
  | fenced => "fenced"
  | retired => "retired"

/-! ## Authority tokens -/

/-- Scope of an authority grant. -/
inductive AuthorityScope
  | pod | member | link | capacityReservation | maintenanceWindow
  deriving DecidableEq, Repr

/-- The name of a token's scope (`to_string`). -/
def AuthorityScope.toText : AuthorityScope → Text
  | pod => "pod"
  | member => "member"
  | link => "link"
  | capacityReservation => "capacity-reservation"
  | maintenanceWindow => "maintenance-window"

/-- A fencing token. -/
@[ext] structure AuthorityToken where
  lease : LeaseId := .nil
  pod : PodId := .nil
  epoch : PodEpoch := {}
  incarnation : Incarnation := {}
  scope : AuthorityScope := .pod
  subject : RackId := .nil
  issuedAt : Nanos := 0
  expiresAt : Nanos := 0
  fencing : FencingSequence := {}
  payloadDigest : Digest := .zero
  deriving DecidableEq, Inhabited

/-- What the check of a token can find. -/
inductive AuthorityVerdictCode
  | valid | noToken | malformed | wrongPod | wrongScope | staleEpoch | staleIncarnation | expired
  | notYetValid | revoked | clockAnomaly
  deriving DecidableEq, Repr

/-- The verdict on a token. -/
structure AuthorityVerdict where
  code : AuthorityVerdictCode := .noToken
  status : Code := .unknown
  detail : Text := []
  deriving DecidableEq

/-- The token is accepted (`valid`). -/
def AuthorityVerdict.valid (v : AuthorityVerdict) : Bool := v.code = .valid

/-! ## Reasons -/

/-- Reason codes attached to decisions, verdicts and fence actions. -/
inductive ReasonCode
  | evidenceMissing | evidenceStale | evidenceFromFuture | generationMismatch
  | generationRegression | digestMismatch | schemaUnsupported | duplicateIdentity
  | domainMembershipConflict | domainOverlap | linkDown | linkAdminDown | linkUnderCapacity
  | linkConflicting | routeWithdrawn | routeStale | routePathMismatch | capacityOvercommit
  | capacityConflict | capacityIncomplete | capacityDeduplicated | obligationUnmet
  | obligationMargin | domainDiversityUnmet | memberFenced | memberDisabled | memberMaintenance
  | memberDraining | memberRetiring | memberUnhealthy | tokenInvalid | tokenExpired
  | incarnationChanged | epochAdvanced | policyBoundExceeded | recoveredHistorical
  | ambiguousCommit | journalTruncated | noUsablePath | clusterRoutingUnavailable
  deriving DecidableEq, Repr

/-- The name of a reason (`to_string`). -/
def ReasonCode.toText : ReasonCode → Text
  | evidenceMissing => "evidence-missing"
  | evidenceStale => "evidence-stale"
  | evidenceFromFuture => "evidence-from-future"
  | generationMismatch => "generation-mismatch"
  | generationRegression => "generation-regression"
  | digestMismatch => "digest-mismatch"
  | schemaUnsupported => "schema-unsupported"
  | duplicateIdentity => "duplicate-identity"
  | domainMembershipConflict => "domain-membership-conflict"
  | domainOverlap => "domain-overlap"
  | linkDown => "link-down"
  | linkAdminDown => "link-admin-down"
  | linkUnderCapacity => "link-under-capacity"
  | linkConflicting => "link-conflicting"
  | routeWithdrawn => "route-withdrawn"
  | routeStale => "route-stale"
  | routePathMismatch => "route-path-mismatch"
  | capacityOvercommit => "capacity-overcommit"
  | capacityConflict => "capacity-conflict"
  | capacityIncomplete => "capacity-incomplete"
  | capacityDeduplicated => "capacity-deduplicated"
  | obligationUnmet => "obligation-unmet"
  | obligationMargin => "obligation-margin"
  | domainDiversityUnmet => "domain-diversity-unmet"
  | memberFenced => "member-fenced"
  | memberDisabled => "member-admin-disabled"
  | memberMaintenance => "member-maintenance"
  | memberDraining => "member-draining"
  | memberRetiring => "member-retiring"
  | memberUnhealthy => "member-unhealthy"
  | tokenInvalid => "token-invalid"
  | tokenExpired => "token-expired"
  | incarnationChanged => "incarnation-changed"
  | epochAdvanced => "epoch-advanced"
  | policyBoundExceeded => "policy-bound-exceeded"
  | recoveredHistorical => "recovered-historical"
  | ambiguousCommit => "ambiguous-commit"
  | journalTruncated => "journal-truncated"
  | noUsablePath => "no-usable-path"
  | clusterRoutingUnavailable => "cluster-routing-unavailable"

/-- Why a verdict is what it is. -/
@[ext] structure Reason where
  code : ReasonCode := .evidenceMissing
  detail : Text := []
  deriving DecidableEq, Inhabited

namespace Reason

/-- What reasons are ordered by: the code, then the detail. -/
def key (r : Reason) : ℕ ×ₗ Text := toLex (r.code.ctorIdx, r.detail)

/-- Reasons with the same key are equal. -/
theorem key_injective : Function.Injective key := by
  intro p q h
  simp only [key, EmbeddingLike.apply_eq_iff_eq, Prod.mk.injEq] at h
  exact Reason.ext (Function.LeftInverse.injective ReasonCode.ofNat_ctorIdx h.1) h.2

instance : LinearOrder Reason := LinearOrder.ofKey key key_injective

/-- The rendering of a reason (`render`). -/
def render (r : Reason) : Text :=
  if r.detail.isEmpty then r.code.toText else r.code.toText ++ ": " ++ r.detail

end Reason

/-- The rendering of a provenance (`render`). -/
def Provenance.render (p : Provenance) : Text :=
  p.quality.toText ++ text "/" ++ p.klass.toText ++
    (if p.source.isNil then [] else text " from " ++ p.source.token) ++
    (if p.detail.isEmpty then [] else text " (" ++ p.detail ++ text ")")

end PodFabric
