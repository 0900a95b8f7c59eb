import PodFabric.Codec.StateText
import PodFabric.Engine.Standing

/-!
# Composition

The passes in order, the decision records they leave behind, and the composed state in its canonical
form with its digests (`compose`).
-/

namespace PodFabric

/-! ## Decisions -/

/-- The dependency on a rack. -/
def memberKey (rack : RackId) : DepKey := ⟨.member, rack.token⟩

/-- What a decision on a pair of racks reports for the status of the pair. -/
def LinkStatus.outcome : LinkStatus → Code
  | usable => .ok
  | degraded => .stale
  | blocked => .unavailable
  | stale => .stale
  | conflicting => .conflicting
  | indeterminate => .indeterminate
  | unsupported => .unsupported

/-- What a decision on an obligation reports for its status. -/
def ObligationStatus.outcome : ObligationStatus → Code
  | satisfied => .ok
  | atRisk => .stale
  | violated => .refused
  | indeterminate => .indeterminate
  | unsupported => .unsupported

/-- What the decision on the lifecycle reports. -/
def LifecycleState.outcome : LifecycleState → Code
  | active => .ok
  | constructing => .incomplete
  | degraded => .stale
  | partitioned => .unavailable
  | recovering => .indeterminate
  | maintenance => .stale
  | draining => .stale
  | retired => .refused

/-- The decision on a rack (`emit_decisions`). -/
def memberDecision (work : MemberWork) : DecisionRecord where
  id := makeDecisionId .memberState work.rack.token
  kind := .memberState
  status := work.verdict.status.outcome
  deps := [memberKey work.rack]
  reasons := work.verdict.reasons

/-- The decision on a failure domain (`emit_decisions`). -/
def domainDecision (work : DomainWork) : DecisionRecord where
  id := makeDecisionId .domainState work.id.token
  kind := .domainState
  status := work.verdict.status.outcome
  deps := ⟨.domain, work.id.token⟩ :: work.verdict.declaredMembers.map memberKey
  reasons := work.verdict.reasons

/-- The owners that contributed to an aggregate. -/
def contributionKeys (aggregate : CapacityAggregate) : List DepKey :=
  (aggregate.contributions.filter fun c => ¬ c.owner.isNil).map fun c => memberKey c.owner

/-- The decision on the capacity of a resource (`emit_decisions`). -/
def capacityDecision (aggregate : CapacityAggregate) : DecisionRecord where
  id := makeDecisionId .capacityAggregate aggregate.resource.token
  kind := .capacityAggregate
  status := aggregate.status.outcome
  deps := contributionKeys aggregate
  reasons := aggregate.reasons

/-- The decision on the capacity of a resource in a domain (`emit_decisions`). -/
def domainCapacityDecision (aggregate : CapacityAggregate) : DecisionRecord where
  id := makeDecisionId .domainCapacity
    (aggregate.resource.token ++ [46] ++ aggregate.domain.token)
  kind := .domainCapacity
  status := aggregate.status.outcome
  deps := ⟨.domain, aggregate.domain.token⟩ :: contributionKeys aggregate
  reasons := aggregate.reasons

/-- The identity of the decision on a pair. -/
def pairDecisionId (key : PairKey) : DecisionId :=
  makeDecisionId .connectivity ((ofLex key).1.token ++ [46] ++ (ofLex key).2.token)

/-- The decision on a pair of racks (`emit_decisions`). -/
def pairDecision (work : PairWork) : DecisionRecord where
  id := pairDecisionId work.key
  kind := .connectivity
  status := work.verdict.status.outcome
  deps := [memberKey (ofLex work.key).1, memberKey (ofLex work.key).2] ++
    work.links.map (fun link => ⟨.link, link.id.token⟩) ++
    work.routes.map fun route => ⟨.route, route.ref.token⟩
  reasons := work.verdict.reasons

/-- The decision on an obligation, with the verdict that carries its identity. -/
def obligationDecision (verdicts : List ObligationVerdict) (obligation : Obligation) :
    DecisionRecord :=
  let verdict := verdicts.find? fun candidate => candidate.id = obligation.id
  { id := makeDecisionId .obligationState obligation.id.token
    kind := .obligationState
    status := (verdict.elim .indeterminate ObligationVerdict.status : ObligationStatus).outcome
    deps := ⟨.obligation, obligation.id.token⟩ ::
      obligation.requirements.map (fun requirement =>
        ⟨.decision, (makeDecisionId .capacityAggregate requirement.resource.token).token⟩) ++
      obligation.protectedRacks.map memberKey ++
      (pairsOf obligation.protectedRacks).map fun p =>
        ⟨.decision, (pairDecisionId (pairKey p.1 p.2)).token⟩
    reasons := verdict.elim [] ObligationVerdict.reasons }

/-- The decisions on the parts of the pod, in the order they are emitted. -/
def partDecisions (fd : Findings) (domainCapacity : List CapacityAggregate) :
    List DecisionRecord :=
  fd.members.map memberDecision ++ fd.domains.map domainDecision ++
    fd.capacity.map capacityDecision ++ domainCapacity.map domainCapacityDecision ++
    fd.pairs.map pairDecision ++
    fd.snapshot.obligations.map (obligationDecision fd.obligations)

/-- The subject of the decisions on the pod itself. -/
def podSubject : Text := "pod"

/-- The decision on the lifecycle: it depends on all the parts. -/
def lifecycleDecision (fd : Findings) (parts : List DecisionRecord) : DecisionRecord where
  id := makeDecisionId .podLifecycle podSubject
  kind := .podLifecycle
  status := (composedLifecycle fd).outcome
  deps := parts.map (fun record => ⟨.decision, record.id.token⟩) ++
    [⟨.epoch, decimal fd.epoch.value.toNat⟩, ⟨.lifecycle, fd.context.lifecycle.toText⟩]
  reasons := degradations fd

/-- The decision on the pod's authority. -/
def authorityDecision (fd : Findings) : DecisionRecord where
  id := makeDecisionId .podAuthority podSubject
  kind := .podAuthority
  status := (podAuthority fd).status
  deps := [⟨.decision, (makeDecisionId .podLifecycle podSubject).token⟩,
      ⟨.epoch, decimal fd.epoch.value.toNat⟩, ⟨.incarnation, fd.context.incarnation.toText⟩] ++
    fd.members.map (fun work => memberKey work.rack) ++
    fd.context.grantedTokens.map (fun token => ⟨.token, token.lease.token⟩) ++
    fd.context.revokedTokens.map fun lease => ⟨.token, lease.token⟩
  reasons := (podAuthority fd).reasons

/-- All decisions of a round (`emit_decisions`). -/
def emitDecisions (fd : Findings) (domainCapacity : List CapacityAggregate) :
    List DecisionRecord :=
  let parts := partDecisions fd domainCapacity
  parts ++ [lifecycleDecision fd parts, authorityDecision fd]

/-! ## The passes -/

/-- The checks of the context (`validate_context`). -/
def validateContext (policy : Policy) (context : CompositionContext) : Result Unit := do
  ensure (context.expectations.length ≤ policy.maxMembers.toNat)
    ⟨.exhausted, "composition context declares too many expectations"⟩
  ensure (context.grantedTokens.length ≤ (policy.maxMembers * 4).toNat)
    ⟨.exhausted, "composition context declares too many authority tokens"⟩
  validateDistinct MemberExpectation.rack BasicId.isNil
    "member expectation has no rack identity" "member expectation is duplicated"
    (fun _ => .ok ()) [] context.expectations

/-- The checks of a request before any pass. -/
def CompositionRequest.validate (request : CompositionRequest) : Result Unit := do
  request.policy.validate
  request.snapshot.validate request.policy
  validateContext request.policy request.context

/-- What a round has established, with the breakdown of the capacity by domain. -/
structure Passes where
  findings : Findings
  domainCapacity : List CapacityAggregate

/-- The passes over the evidence (`run`, up to the lifecycle). -/
def runPasses (request : CompositionRequest) : Outcome Passes := do
  let members ← Result.lift (evaluateMembers request)
  let epoch ← Result.lift (adoptGenerationAdvances request.context.epoch members)
  let (domains, members) ← Result.lift (evaluateDomains request members)
  let ledger ← Result.lift (evaluateCapacity request.policy members)
  let ev : Evidence := { policy := request.policy, snapshot := request.snapshot, members, domains }
  let pairs ← evaluateConnectivity ev
  let evidence : PodEvidence := { toEvidence := ev, capacity := ledger.byResource, pairs }
  let obligations := request.snapshot.obligations.map (judgeObligation evidence)
  let findings : Findings :=
    { toPodEvidence := evidence, context := request.context, epoch, obligations }
  return { findings, domainCapacity := ledger.byDomain }

/-- The state before its collections are canonicalised. -/
def Passes.draft (p : Passes) : PodState :=
  let fd := p.findings
  { pod := fd.snapshot.pod
    schema := podStateSchema
    epoch := fd.epoch
    incarnation := fd.context.incarnation
    lifecycle := composedLifecycle fd
    members := fd.members.map MemberWork.verdict
    connectivity := fd.pairs.map PairWork.verdict
    capacity := fd.capacity
    domainCapacity := p.domainCapacity
    domains := fd.domains.map DomainWork.verdict
    obligations := fd.obligations
    decisions := emitDecisions fd p.domainCapacity
    authority := podAuthority fd
    fences := evidenceFences fd ++ tokenFences fd ++ podFences fd
    degradations := degradations fd
    composedAt := fd.snapshot.observedAt
    provenance := fd.snapshot.provenance }

/-- The record with its fingerprint. -/
def DecisionRecord.seal (record : DecisionRecord) : DecisionRecord :=
  { record with fingerprint := decisionFingerprint record }

/-- Canonical form, fingerprints and digests (`finalise`). -/
def PodState.finalise (state : PodState) : PodState :=
  let state := state.canonicalise
  let state := { state with decisions := state.decisions.map DecisionRecord.seal }
  let state := { state with stateDigest := state.stateDigestOf }
  { state with decisionDigest := state.digestOf }

/-- Composes the pod state from evidence and the pod's recorded expectations. -/
def compose (request : CompositionRequest) : Outcome PodState := do
  Result.lift request.validate
  let passes ← runPasses request
  return passes.draft.finalise

end PodFabric
