import PodFabric.Engine.Members

/-!
# The durable state

Exactly what survives a restart of the controller, and how recovering it can end.
-/

namespace PodFabric

/-- The version of the durable state. -/
def durableStateVersion : UInt16 := 1

/-- What survives a restart. Verdicts do not: they are recomputed from fresh evidence. -/
@[ext] structure DurableState where
  version : UInt16 := durableStateVersion
  pod : PodId := .nil
  epoch : PodEpoch := {}
  writer : Incarnation := {}
  lifecycle : LifecycleState := .constructing
  expectations : List MemberExpectation := []
  tokens : List AuthorityToken := []
  revoked : List LeaseId := []
  admin : List (RackId × AdminState) := []
  fencing : FencingSequence := {}
  lastStateDigest : Digest := .zero
  sequence : UInt64 := 0
  writtenAt : Nanos := 0
  deriving DecidableEq, Inhabited

/-- The record as the store writes it: it assigns the revision and the sequence, and the time if
there is none. -/
def DurableState.stamped (next held : DurableState) (system : Nanos) : DurableState :=
  { next with
    version := durableStateVersion
    sequence := held.sequence + 1
    writtenAt := if next.writtenAt = 0 then system else next.writtenAt }

/-- Outcome of a recovery, as the store reports it. -/
inductive RecoveryOutcome
  | fresh | clean | tornTailRepaired | corruptTailRepaired | ambiguousCommitRolledBack
  | unsupportedVersion | corrupt | refused
  deriving DecidableEq, Repr

/-- The name of a recovery's outcome (`to_string`). -/
def RecoveryOutcome.toText : RecoveryOutcome → Text
  | fresh => "FRESH"
  | clean => "CLEAN"
  | tornTailRepaired => "TORN_TAIL_REPAIRED"
  | corruptTailRepaired => "CORRUPT_TAIL_REPAIRED"
  | ambiguousCommitRolledBack => "AMBIGUOUS_COMMIT_ROLLED_BACK"
  | unsupportedVersion => "UNSUPPORTED_VERSION"
  | corrupt => "CORRUPT"
  | refused => "REFUSED"

end PodFabric
