import PodFabric.Engine.Authority
import PodFabric.Engine.Obligations

/-!
# Lifecycle and authority

What the verdicts amount to: the lifecycle the pod moves to, the degradations it reports, and the
status of its own authority with the reasons that carry it.
-/

namespace PodFabric

/-! ## Outcome codes of verdicts -/

/-- What a decision on a rack reports for its status. -/
def MemberStatus.outcome : MemberStatus → Code
  | established => .ok
  | joining => .incomplete
  | stale => .stale
  | fenced => .stale
  | retiring => .stale
  | conflicting => .conflicting
  | unsupported => .unsupported
  | missing => .stale

/-- What a decision on a domain reports for its status. -/
def DomainStatus.outcome : DomainStatus → Code
  | ok => .ok
  | degraded => .incomplete
  | conflicting => .conflicting
  | incomplete => .incomplete
  | indeterminate => .indeterminate

/-- What a decision on capacity reports for its status. -/
def CapacityStatus.outcome : CapacityStatus → Code
  | ok => .ok
  | deduplicated => .ok
  | incomplete => .incomplete
  | indeterminate => .indeterminate
  | conflicting => .conflicting
  | exhausted => .exhausted
  | unsupported => .unsupported

/-- What all passes over the evidence have established. -/
structure Findings extends PodEvidence where
  context : CompositionContext
  epoch : PodEpoch
  obligations : List ObligationVerdict

section Standing
variable (fd : Findings)

/-! ## Lifecycle -/

/-- The fences of the passes before the lifecycle is decided. -/
def evidenceFences : List FenceAction :=
  memberFences fd.members ++ domainFences fd.domains ++ fd.pairs.flatMap pairFences

/-- Something is less than whole (`has_degradation`). -/
def hasDegradation : Bool :=
  evidenceFences fd ≠ [] ||
  fd.members.any (fun work => work.verdict.status ≠ .established) ||
  fd.pairs.any (fun work => work.verdict.status ≠ .usable) ||
  fd.capacity.any (fun aggregate => ¬ aggregate.status.isUsable) ||
  fd.domains.any (fun work => work.verdict.status ≠ .ok) ||
  fd.obligations.any (fun verdict => verdict.status ≠ .satisfied)

/-- The established members. -/
def establishedMembers : List MemberWork := fd.members.filter MemberWork.established

/-- The evidence speaks of connectivity between racks, or has to. -/
def connectivityExpected : Bool :=
  fd.pairs ≠ [] ∨ (2 ≤ (establishedMembers fd).length ∧ fd.policy.requireFullCoverage)

/-- The lifecycle the evidence alone asks for. -/
def evidenceLifecycle : LifecycleState :=
  let established := (establishedMembers fd).length
  let inMaintenance := (establishedMembers fd).countP fun work => work.verdict.admin = .maintenance
  let moved := (establishedMembers fd).countP fun work => work.verdict.admin ≠ .enabled
  let desired : LifecycleState :=
    if established = 0 then .constructing
    else if 2 ≤ established ∧ connectivityExpected fd ∧
        ¬ fd.pairs.any fun work => work.verdict.status.carries then .partitioned
    else if inMaintenance = established then .maintenance
    else if 0 < moved then .draining
    else if hasDegradation fd ∨ established < fd.policy.minEstablishedMembers.toNat then .degraded
    else .active
  if 2 ≤ established ∧ ¬ connectivityExpected fd then .degraded else desired

/-- The lifecycle asked for, once recovery, an ambiguous commit and an advanced epoch are taken
into account. -/
def desiredLifecycle : LifecycleState :=
  let desired := if fd.context.recoveredFromStore then .recovering else evidenceLifecycle fd
  let desired := if fd.context.ambiguousCommit then .partitioned else desired
  if fd.epoch ≠ fd.context.epoch ∧ desired = .active then .degraded else desired

/-- The lifecycle after the round. -/
def composedLifecycle : LifecycleState :=
  if fd.context.lifecycle = .retired then .retired
  else fd.context.lifecycle.next (desiredLifecycle fd)

/-- The degradations of the round (`evaluate_lifecycle`). -/
def degradations : List Reason :=
  (if 2 ≤ (establishedMembers fd).length ∧ ¬ connectivityExpected fd then
    [⟨.evidenceMissing, "no inter-rack connectivity evidence was supplied"⟩] else []) ++
  (if fd.context.recoveredFromStore then
    [⟨.recoveredHistorical, "the pod restarted and has not re-established authority"⟩] else []) ++
  (if fd.context.ambiguousCommit then
    [⟨.ambiguousCommit, text "the last durable commit could not be confirmed, so the pod treats " ++
      text "its own durable state as indeterminate"⟩] else []) ++
  (if fd.epoch ≠ fd.context.epoch then
    [⟨.epochAdvanced, "the pod epoch advanced because a member generation changed"⟩] else []) ++
  (if fd.context.lifecycle ≠ .retired ∧ composedLifecycle fd ≠ desiredLifecycle fd then
    [⟨.policyBoundExceeded, text "the requested lifecycle transition is not legal from the " ++
      text "current state; the pod advances through the intermediate state instead"⟩] else [])

/-! ## Authority -/

/-- The status of the authority so far, with the reasons that carried it. -/
abbrev AuthorityFold := Code × List Reason

/-- A contribution that is more severe than the status so far takes it over, with its first
reason. -/
def AuthorityFold.raise (f : AuthorityFold) (code : Code) (reasons : List Reason) :
    AuthorityFold :=
  if f.1.severity < code.severity then (code, f.2 ++ reasons.head?.toList) else f

/-- What an obligation contributes, if anything. -/
def obligationOutcome (snapshot : PodSnapshot) (verdict : ObligationVerdict) : Code :=
  match verdict.status with
  | .violated =>
    match snapshot.obligations.find? fun candidate => candidate.id = verdict.id with
    | some source => if source.mandatory then .refused else .stale
    | none => .refused
  | .indeterminate => .incomplete
  | _ => .ok

/-- What the verdicts contribute to the authority. -/
def verdictAuthority : AuthorityFold :=
  let f : AuthorityFold := (.ok, [])
  let f := fd.members.foldl
    (fun f work => f.raise work.verdict.status.outcome work.verdict.reasons) f
  let f := fd.domains.foldl
    (fun f work => f.raise work.verdict.status.outcome work.verdict.reasons) f
  let f := fd.capacity.foldl (fun f a => f.raise a.status.outcome a.reasons) f
  fd.obligations.foldl (fun f verdict => f.raise (obligationOutcome fd.snapshot verdict)
    verdict.reasons) f

/-- A contribution that is joined to the status whatever it is, with its reasons. -/
def AuthorityFold.join (f : AuthorityFold) (code : Code) (reasons : List Reason) :
    AuthorityFold :=
  (f.1.worst code, f.2 ++ reasons)

/-- What the lifecycle and the recovery flags contribute on top. -/
def stateAuthority : AuthorityFold :=
  let f := verdictAuthority fd
  let f := match composedLifecycle fd with
    | .retired => f.join .refused [⟨.memberRetiring, "the pod is retired"⟩]
    | .constructing => f.join .incomplete []
    | _ => f
  let f := if fd.context.recoveredFromStore then
    f.join .indeterminate [⟨.recoveredHistorical,
      "authority from a previous controller incarnation is not carried over"⟩] else f
  if fd.context.ambiguousCommit then
    f.join .indeterminate [⟨.ambiguousCommit,
      "durable state may be torn, so pod authority is indeterminate"⟩] else f

/-- What granted tokens are checked against. -/
def tokenCheck : AuthorityCheck where
  pod := fd.snapshot.pod
  epoch := fd.epoch
  incarnation := fd.context.incarnation
  now := if fd.context.now ≠ 0 then fd.context.now else fd.snapshot.observedAt
  clockSkew := fd.policy.clockSkew
  revoked := fd.context.revokedTokens

/-- The granted tokens that do not hold, with the verdicts on them. -/
def invalidTokens : List (AuthorityToken × AuthorityVerdict) :=
  (fd.context.grantedTokens.map fun token => (token, validateToken token (tokenCheck fd))).filter
    fun p => ¬ p.2.valid

/-- The pod holds a valid token of pod scope. -/
def anyValidPodToken : Bool :=
  fd.context.grantedTokens.any fun token =>
    (validateToken token (tokenCheck fd)).valid && decide (token.scope = .pod)

/-- The fences of the tokens that are not valid. -/
def tokenFences : List FenceAction :=
  (invalidTokens fd).map fun p => ⟨.token, p.1.lease.token, ⟨.tokenInvalid, p.2.detail⟩⟩

/-- The reasons the tokens that are not valid leave to the authority. -/
def tokenReasons : List Reason :=
  (invalidTokens fd).flatMap fun p =>
    ⟨.tokenInvalid, p.2.detail⟩ ::
      if p.2.code = .expired then [⟨.tokenExpired, p.2.detail⟩] else []

/-- The status of the authority and its reasons. -/
def finalAuthority : AuthorityFold :=
  let f := (stateAuthority fd).join .ok (tokenReasons fd)
  if fd.policy.requireAuthorityToken ∧ ¬ anyValidPodToken fd then
    f.join .stale [⟨.tokenInvalid, text "the pod holds no valid pod-scope authority token for " ++
      text "the current epoch and incarnation"⟩]
  else f

/-- How many members have a status among those given. -/
def countStatus (members : List MemberWork) (statuses : List MemberStatus) : UInt32 :=
  (members.countP fun work => work.verdict.status ∈ statuses).toUInt32

/-- The authority of the pod (`evaluate_authority`). -/
def podAuthority : PodAuthority where
  status := (finalAuthority fd).1
  epoch := fd.epoch
  incarnation := fd.context.incarnation
  establishedMembers := countStatus fd.members [.established]
  conflictingMembers := countStatus fd.members [.conflicting]
  staleMembers := countStatus fd.members [.stale, .missing, .fenced, .retiring]
  fencedMembers :=
    countStatus fd.members [.stale, .missing, .fenced, .retiring, .conflicting, .unsupported]
  recovered := fd.context.recoveredFromStore
  reasons := canonicalise (finalAuthority fd).2

/-- The fence of a pod that is not authoritative. -/
def podFences : List FenceAction :=
  if (podAuthority fd).authoritative then []
  else [⟨.pod, fd.snapshot.pod.token,
    (podAuthority fd).reasons.head?.getD ⟨.tokenInvalid, "the pod is not authoritative"⟩⟩]

end Standing

end PodFabric
