import PodFabric.Proof.DecisionText
import PodFabric.Proof.Diversity
import PodFabric.Proof.PathFences
import PodFabric.Proof.StateText

/-!
# What decisions show of verdicts

Of what the passes find about a part of the pod some shows in the decision on it and some does not:
the view of the part has both (`MemberWork.view` and its likes). Two decisions are the same when their
views agree in what shows, and their verdicts are then the same when the views agree in the rest
(`Mirrored`). So the decisions of two rounds that are the same have the same verdicts just when what
shows determines what does not (`PodState.From.shownAlike_iff`).
-/

open List

namespace PodFabric

/-! ## Decisions and verdicts -/

/-- The verdict that a decision stands for. -/
inductive Verdict
  | member (generation : RackGeneration) (digest : Digest) (health : HealthState)
    (admin : AdminState)
  | domain (declared effective : List RackId)
  | aggregate (total reserved headroom : UInt64)
  | pair (status : LinkStatus) (resource : ResourceClass) (capacity : UInt64)
  | obligation (status : ObligationStatus) (satisfied : UInt32) (reasons : List Reason)
  | lifecycle (state : LifecycleState)
  | authority (authority : PodAuthority)
  deriving DecidableEq

section Verdicts

end Verdicts

/-- The authority once the pod is retired. -/
def PodAuthority.retired (authority : PodAuthority) : PodAuthority :=
  { authority with
    status := .refused
    reasons := authority.reasons ++ [⟨.memberRetiring, "the pod is retired"⟩] }

/-- The state once the pod is retired. -/
def PodState.retired (st : PodState) : PodState :=
  { st with lifecycle := .retired, authority := st.authority.retired }

/-- The state is what the passes over an accepted request have led to; the pod may have been retired
since. -/
structure PodState.From (st : PodState) (p : Passes) (retired : Bool) : Prop where
  accepted : ∃ request, request.validate = .ok () ∧ runPasses request = .ok p
  composed : st = if retired then p.draft.finalise.retired else p.draft.finalise

/-- The owners that have contributed to an aggregate. -/
def CapacityAggregate.owners (a : CapacityAggregate) : List RackId :=
  (a.contributions.filter fun c => ¬ c.owner.isNil).map CapacityContribution.owner

/-- What shows of an aggregate beside its name. -/
def CapacityAggregate.shown (a : CapacityAggregate) : Code × List RackId × List Reason :=
  (a.status.outcome, PodFabric.canonicalise a.owners, PodFabric.canonicalise a.reasons)

section Views
-- on the left what shows in the decision, on the right what does not

/-- The decision on a rack shows its coarse status and the reasons. -/
def MemberWork.view (work : MemberWork) :
    (RackId × Code × List Reason) × RackGeneration × Digest × HealthState × AdminState :=
  ((work.rack, work.verdict.status.outcome, canonicalise work.verdict.reasons),
    work.verdict.generation, work.verdict.digest, work.verdict.health, work.verdict.admin)

/-- The decision on a domain shows the racks it lists, but not which of them it has. -/
def DomainWork.view (work : DomainWork) :
    (DomainId × Code × List RackId × List Reason) × List RackId :=
  ((work.id, work.verdict.status.outcome, canonicalise work.verdict.declaredMembers,
    canonicalise work.verdict.reasons), sorted work.verdict.effectiveMembers)

/-- The decision on an aggregate shows the owners, but no amount. -/
def CapacityAggregate.view (a : CapacityAggregate) :
    (DecisionId × Code × List RackId × List Reason) × UInt64 × UInt64 × UInt64 :=
  (((DecisionSubject.resource a.resource).id, a.shown), a.total, a.reserved, a.headroom)

/-- The decision on a pair shows its links and its routes, but not what they carry, nor whether it is
degraded or stale. -/
def PairWork.view (work : PairWork) :
    (PairKey × Code × List LinkId × List RouteRef × List Reason) ×
      Bool × ResourceClass × UInt64 :=
  ((work.key, work.verdict.status.outcome, canonicalise (work.links.map LinkRecord.id),
      canonicalise (work.routes.map RouteEvidence.ref), canonicalise work.verdict.reasons),
    work.verdict.status = .degraded, work.verdict.resource, work.verdict.usableCapacity)

/-- The decision on an obligation shows the decisions and the racks that it is judged by and how, but
not how many domains satisfy it. -/
def Obligation.view (ev : PodEvidence) (obligation : Obligation) :
    (ObligationId × List DecisionId × List RackId × ObligationStatus × List Reason) × UInt32 :=
  let verdict := judgeObligation ev obligation
  ((obligation.id, canonicalise (obligation.uses.map DecisionSubject.id),
    canonicalise obligation.protectedRacks, verdict.status, canonicalise verdict.reasons),
    verdict.satisfiedDomains)

end Views

section Dependencies

/-- The dependencies of some kind on the objects of these identities. -/
def named {tag : IdTag} (kind : DepKind) (ids : List (BasicId tag)) : List DepKey :=
  ids.map fun id => ⟨kind, id.token⟩

variable {tag tag' : IdTag} {kind kind' : DepKind} {ids ids' : List (BasicId tag)}
  {deps deps' : List DepKey}

end Dependencies

/-! ## Views and decisions -/

section Ruled

/-- The composed verdict on a rack. -/
def MemberWork.ruled (work : MemberWork) : Verdict :=
  .member work.verdict.generation work.verdict.digest work.verdict.health work.verdict.admin

/-- The composed verdict on a domain. -/
def DomainWork.ruled (work : DomainWork) : Verdict :=
  .domain (sorted work.verdict.declaredMembers) (sorted work.verdict.effectiveMembers)

/-- The composed aggregate. -/
def CapacityAggregate.ruled (a : CapacityAggregate) : Verdict :=
  .aggregate a.total a.reserved a.headroom

/-- The composed verdict on a pair. -/
def PairWork.ruled (work : PairWork) : Verdict :=
  .pair work.verdict.status work.verdict.resource work.verdict.usableCapacity

/-- The composed verdict on an obligation. -/
def ObligationVerdict.ruled (verdict : ObligationVerdict) : Verdict :=
  .obligation verdict.status verdict.satisfiedDomains (PodFabric.canonicalise verdict.reasons)

/-- The verdict that the composed lifecycle is. -/
def Passes.lifecycleRuled (p : Passes) (retired : Bool) : Verdict :=
  .lifecycle (if retired then .retired else composedLifecycle p.findings)

/-- The verdict that the composed authority is. -/
def Passes.authorityRuled (p : Passes) (retired : Bool) : Verdict :=
  .authority (if retired then (podAuthority p.findings).retired else podAuthority p.findings)

/-- The decision on the lifecycle that the passes emit. -/
def Passes.lifecycleDecision (p : Passes) : DecisionRecord :=
  PodFabric.lifecycleDecision p.findings (partDecisions p.findings p.domainCapacity)

end Ruled

section Mirrored

end Mirrored

/-! ## The verdicts of the decisions -/

/-- The decisions on the parts of the pod, each with the verdict that the passes come to. -/
def Passes.partsDecided (p : Passes) : List (Emission × Verdict) :=
  p.findings.members.map (fun work => (⟨.member work.rack, [], memberDecision work⟩, work.ruled)) ++
    p.findings.domains.map (fun work =>
      (⟨.domain work.id, [], domainDecision work⟩, work.ruled)) ++
    p.findings.capacity.map (fun a =>
      (⟨.resource a.resource, [], capacityDecision a⟩, a.ruled)) ++
    p.domainCapacity.map (fun a =>
      (⟨.slot a.resource a.domain, [], domainCapacityDecision a⟩, a.ruled)) ++
    p.findings.pairs.map (fun work => (⟨.pair work.key, [], pairDecision work⟩, work.ruled)) ++
    p.findings.snapshot.obligations.map fun o =>
      (⟨.obligation o.id, o.uses, obligationDecision p.findings.obligations o⟩,
        (judgeObligation p.findings.toPodEvidence o).ruled)

/-- The decisions that the passes emit, each with the verdict that they come to. -/
def Passes.decided (p : Passes) (retired : Bool) : List (Emission × Verdict) :=
  p.partsDecided ++ [
    (⟨.lifecycle, (partEmissions p.findings p.domainCapacity).map Emission.subject,
      p.lifecycleDecision⟩, p.lifecycleRuled retired),
    (⟨.authority, [.lifecycle], authorityDecision p.findings⟩, p.authorityRuled retired)]

section Declared
variable {request : CompositionRequest} {p : Passes}

end Declared

section Decided
variable {request : CompositionRequest} {p p' : Passes} {retired retired' : Bool}
  {s : DecisionSubject} {record : DecisionRecord} {verdict : Verdict} {st st' : PodState}
  {x x' : Emission × Verdict}

/-- A state from passes is composed for an accepted request. -/
theorem PodState.From.passesOf (h : st.From p retired) : ∃ request, PassesOf request p ∧
    SnapshotValid request.snapshot request.policy := by
  obtain ⟨request, hvalid, hp⟩ := h.accepted
  exact ⟨request, runPasses_passesOf hp, (validate_request_iff.1 hvalid).1⟩

/-- An obligation is judged once, and its decision has the verdict. -/
theorem PassesOf.find_verdict (h : PassesOf request p)
    (hids : (request.snapshot.obligations.map Obligation.id).Nodup) {o : Obligation}
    (ho : o ∈ p.findings.snapshot.obligations) :
    p.findings.obligations.find? (fun candidate => candidate.id = o.id) =
      some (judgeObligation p.findings.toPodEvidence o) := by
  rw [h.snapshot] at ho
  have hids' : (p.findings.obligations.map ObligationVerdict.id).Nodup := by
    rw [h.obligations, List.map_map]
    exact hids
  have hmem : judgeObligation p.findings.toPodEvidence o ∈ p.findings.obligations := by
    rw [h.obligations]
    exact List.mem_map_of_mem ho
  exact find?_key_eq hids' hmem rfl

end Decided

end PodFabric
