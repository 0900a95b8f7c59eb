import PodFabric.Model.PodState
import PodFabric.Lib.OrderedMap

/-!
# The capacity ledger

Claims are recorded under their resource and exclusivity key, usable ones and suppressed ones.
Freezing the ledger settles every key (one claim is counted, the others are shown as uncounted) and
sums the settled keys of a resource into its aggregate and its breakdown by failure domain.
-/

namespace PodFabric

/-- One unit of capacity offered to the pod. -/
@[ext] structure LedgerClaim where
  resource : ResourceClass := .nil
  exclusivity : ExclusivityKey := .nil
  owner : RackId := .nil
  viaLink : LinkId := .nil
  amount : UInt64 := 0
  reserved : UInt64 := 0
  domain : DomainId := .nil
  provenance : Provenance := {}
  deriving DecidableEq, Inhabited

namespace CapacityStatus

/-- How severe a status is (`severity`). -/
def severity : CapacityStatus → ℕ
  | ok => 0
  | deduplicated => 1
  | incomplete => 2
  | indeterminate => 3
  | conflicting => 4
  | exhausted => 5
  | unsupported => 6

/-- The more severe of two statuses (`worst_capacity_status`). -/
def worst (a b : CapacityStatus) : CapacityStatus := if severity b ≤ severity a then a else b

end CapacityStatus

/-- A recorded claim, with the reason why it is suppressed if it is not usable. -/
structure LedgerEntry where
  claim : LedgerClaim
  suppressed : Option Reason := none
  deriving DecidableEq

/-- The ledger: the bounds of the policy and the recorded entries in the order they came. The slot
of a key is made of the entries under that key (`Slot.ofEntries`). -/
structure CapacityLedger where
  policy : Policy
  entries : List LedgerEntry := []

namespace CapacityLedger

/-- The checks of a claim (`validate_claim`). -/
def validateClaim (ledger : CapacityLedger) (claim : LedgerClaim) : Result Unit := do
  ensure (claim.resource ≠ .nil) ⟨.invalid, "capacity claim has no resource class"⟩
  ensure (claim.exclusivity ≠ .nil) ⟨.invalid, "capacity claim has no exclusivity key"⟩
  ensure (claim.domain ≠ .nil) ⟨.invalid, "capacity claim has no failure-domain attribution"⟩
  ensure (claim.amount ≤ ledger.policy.maxCapacityAmount)
    ⟨.invalid, "capacity claim amount exceeds the policy bound"⟩
  ensure (claim.reserved ≤ claim.amount)
    ⟨.invalid, "capacity claim reserves more than it offers"⟩

/-- Records an entry (`record`). -/
def record (ledger : CapacityLedger) (entry : LedgerEntry) : Result CapacityLedger := do
  ledger.validateClaim entry.claim
  return { ledger with entries := ledger.entries ++ [entry] }

/-- Records a claim the caller has decided is usable. -/
def add (ledger : CapacityLedger) (claim : LedgerClaim) : Result CapacityLedger :=
  ledger.record { claim }

/-- Records a claim that must not be counted, with the reason why. -/
def addSuppressed (ledger : CapacityLedger) (claim : LedgerClaim) (reason : Reason) :
    Result CapacityLedger :=
  ledger.record { claim, suppressed := some reason }

end CapacityLedger

/-! ## Slots -/

/-- A claim as a contribution. -/
def LedgerClaim.contribution (claim : LedgerClaim) (counted : Bool) (reason : Reason) :
    CapacityContribution where
  owner := claim.owner
  viaLink := claim.viaLink
  exclusivity := claim.exclusivity
  amount := claim.amount
  reserved := claim.reserved
  domain := claim.domain
  provenance := claim.provenance
  counted := counted
  notCountedReason := reason

/-- The entries of one key. -/
structure Slot where
  usable : List LedgerClaim
  uncounted : List CapacityContribution

/-- The slot of a key: the usable entries as claims, the suppressed ones as contributions. -/
def Slot.ofEntries (entries : List LedgerEntry) : Slot where
  usable := entries.filterMap fun e => if e.suppressed.isNone then some e.claim else none
  uncounted := entries.filterMap fun e => e.suppressed.map (e.claim.contribution false)

/-- The order in which the claims of a key are considered. -/
def LedgerClaim.rank (claim : LedgerClaim) : UInt64 ×ₗ UInt64 ×ₗ RackId ×ₗ DomainId :=
  toLex (claim.amount, toLex (claim.reserved, toLex (claim.owner, claim.domain)))

/-- How the usable claims of a key are settled: the claim that is counted, with the amounts it is
counted at, the others, and whether they disagree. -/
structure Settlement where
  winner : CapacityContribution
  dropped : List CapacityContribution
  conflict : Bool

/-- The running amount and reservation over the claims after the first. -/
def settleAmounts (amount reserved : UInt64) : List LedgerClaim → UInt64 × UInt64
  | [] => (amount, reserved)
  | other :: rest =>
    settleAmounts (min amount other.amount)
      (max reserved (min other.reserved (min amount other.amount))) rest

/-- The reason of a claim that is not counted because another is. -/
def settlementReason (conflict : Bool) : Reason :=
  if conflict then
    ⟨.capacityConflict, "the same physical resource is reported with different magnitudes"⟩
  else
    ⟨.capacityDeduplicated, "the same physical resource is reported by more than one owner"⟩

/-- Settles the usable claims of a key, of which there is at least one. -/
def settle (usable : List LedgerClaim) : Option Settlement :=
  match sortOn LedgerClaim.rank usable with
  | [] => none
  | primary :: others =>
    let conflict := others.any fun other =>
      other.amount ≠ primary.amount ∨ other.reserved ≠ primary.reserved ∨
        other.domain ≠ primary.domain
    let amounts := settleAmounts primary.amount (min primary.reserved primary.amount) others
    some {
      winner := { primary.contribution true {} with amount := amounts.1, reserved := amounts.2 }
      dropped := others.map fun other => other.contribution false (settlementReason conflict)
      conflict }

/-! ## Freezing -/

/-- What the loop over the slots of one resource has accumulated. -/
structure ResourceFold where
  status : CapacityStatus := .ok
  contributions : List CapacityContribution := []
  reasons : List Reason := []
  total : UInt64 := 0
  committed : UInt64 := 0
  domains : OrderedMap DomainId CapacityAggregate := .empty

namespace ResourceFold

/-- The status after an uncounted contribution. -/
def noteUncounted (status : CapacityStatus) (contribution : CapacityContribution) :
    CapacityStatus :=
  let status := status.worst .incomplete
  if contribution.notCountedReason.code = .capacityConflict then status.worst .conflicting
  else if contribution.notCountedReason.code = .capacityDeduplicated then
    status.worst .deduplicated
  else status

/-- The suppressed claims of a slot: shown, and the aggregate is incomplete. -/
def addUncounted (f : ResourceFold) (uncounted : List CapacityContribution) : ResourceFold :=
  { f with
    reasons := f.reasons ++ uncounted.map CapacityContribution.notCountedReason
    contributions := f.contributions ++ uncounted
    status := uncounted.foldl noteUncounted f.status }

/-- The settled claims of a slot: shown, with the reasons of those that are not counted. -/
def addSettled (f : ResourceFold) (s : Settlement) : ResourceFold :=
  let status := if s.dropped ≠ [] ∧ ¬ s.conflict then f.status.worst .deduplicated else f.status
  { f with
    contributions := f.contributions ++ s.winner :: s.dropped
    reasons := f.reasons ++ s.dropped.map CapacityContribution.notCountedReason
    status := if s.conflict then status.worst .conflicting else status }

/-- The counted amount joins the running total, unless the counter overflows. -/
def addTotal (f : ResourceFold) (amount : UInt64) : ResourceFold :=
  match checkedAdd f.total amount with
  | .ok total => { f with total }
  | .error _ =>
    { f with
      status := f.status.worst .indeterminate
      reasons := f.reasons ++ [⟨.policyBoundExceeded, "aggregate capacity overflowed the counter"⟩] }

/-- The reservation joins the running sum, unless the counter overflows. -/
def addCommitted (f : ResourceFold) (reserved : UInt64) : ResourceFold :=
  match checkedAdd f.committed reserved with
  | .ok committed => { f with committed }
  | .error _ => { f with status := f.status.worst .indeterminate }

/-- A total above the policy's bound is not reported as authoritative. -/
def checkTotal (f : ResourceFold) (limit : UInt64) : ResourceFold :=
  if limit < f.total then { f with status := f.status.worst .indeterminate } else f

/-- The breakdown of the domain the counted claim is attributed to; it takes over the status and
the reasons the pod aggregate has at this point. -/
def addDomain (f : ResourceFold) (resource : ResourceClass) (s : Settlement) : ResourceFold :=
  let prior := (f.domains.find? s.winner.domain).getD {}
  { f with
    domains := f.domains.insert s.winner.domain
      { prior with
        resource, domain := s.winner.domain
        contributions := prior.contributions ++ s.winner :: s.dropped
        status := f.status, reasons := f.reasons } }

/-- One pass of the loop over the slots. -/
def addSlot (policy : Policy) (resource : ResourceClass) (f : ResourceFold) (slot : Slot) :
    ResourceFold :=
  let f := f.addUncounted slot.uncounted
  match settle slot.usable with
  | none => { f with status := f.status.worst .incomplete }
  | some s =>
    ((((f.addSettled s).addTotal s.winner.amount).addCommitted s.winner.reserved).checkTotal
      policy.maxCapacityTotal).addDomain resource s

/-- The aggregate of a resource. -/
def finish (f : ResourceFold) (resource : ResourceClass) : CapacityAggregate :=
  let overcommitted := f.total < f.committed
  let reasons := if overcommitted then
    f.reasons ++ [⟨.capacityOvercommit, "reserved capacity exceeds the offered total"⟩]
    else f.reasons
  { resource
    total := f.total
    reserved := f.committed
    headroom := if overcommitted then 0 else f.total - f.committed
    status := if overcommitted then f.status.worst .exhausted else f.status
    contributions := sorted f.contributions
    reasons := canonicalise reasons }

end ResourceFold

/-- The sums over the counted contributions of a domain, up to the first that overflows; the flag
tells whether one did. -/
def domainTotals (total reserved : UInt64) :
    List CapacityContribution → UInt64 × UInt64 × Bool
  | [] => (total, reserved, false)
  | c :: rest =>
    if ¬ c.counted then domainTotals total reserved rest
    else
      match checkedAdd total c.amount, checkedAdd reserved c.reserved with
      | .ok total, .ok reserved => domainTotals total reserved rest
      | _, _ => (total, reserved, true)

/-- The aggregate of a resource in one domain. -/
def finishDomain (a : CapacityAggregate) : CapacityAggregate :=
  let (total, reserved, overflowed) := domainTotals 0 0 a.contributions
  let status := if overflowed then a.status.worst .indeterminate else a.status
  { a with
    total, reserved
    headroom := if total < reserved then 0 else total - reserved
    status := if total < reserved then status.worst .exhausted else status
    contributions := sorted a.contributions
    reasons := canonicalise a.reasons }

namespace CapacityLedger
variable (ledger : CapacityLedger)

/-- The resources with a slot, in order. -/
def resources : List ResourceClass :=
  canonicalise (ledger.entries.map fun e => e.claim.resource)

/-- The slots of a resource, in the order of their keys. -/
def slots (resource : ResourceClass) : List Slot :=
  let entries := ledger.entries.filter fun e => e.claim.resource = resource
  (canonicalise (entries.map fun e => e.claim.exclusivity)).map fun key =>
    Slot.ofEntries (entries.filter fun e => e.claim.exclusivity = key)

/-- The loop of `freeze` over the slots of one resource. -/
def freezeResource (resource : ResourceClass) : ResourceFold :=
  (ledger.slots resource).foldl (ResourceFold.addSlot ledger.policy resource) {}

/-- The aggregates of the pod, by resource. -/
def byResource : List CapacityAggregate :=
  ledger.resources.map fun resource => (ledger.freezeResource resource).finish resource

/-- The breakdowns by resource and failure domain. -/
def byDomain : List CapacityAggregate :=
  ledger.resources.flatMap fun resource =>
    (ledger.freezeResource resource).domains.entries.map fun e => finishDomain e.2

end CapacityLedger

end PodFabric
