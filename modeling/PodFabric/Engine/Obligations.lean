import PodFabric.Engine.Connectivity

/-!
# Obligations

The verdict on each protected obligation, from the capacity aggregates, the failure domains and the
connectivity of the pod.
-/

namespace PodFabric

namespace ObligationStatus

/-- How severe a status is (`severity`). -/
def severity : ObligationStatus → ℕ
  | satisfied => 0
  | atRisk => 1
  | indeterminate => 2
  | unsupported => 3
  | violated => 4

/-- The more severe of two statuses (`worst_obligation`). -/
def worst (a b : ObligationStatus) : ObligationStatus := if severity b ≤ severity a then a else b

end ObligationStatus

/-- The aggregate is authoritative. -/
def CapacityStatus.isUsable (s : CapacityStatus) : Bool := s = ok ∨ s = deduplicated

/-- A finding of an obligation: the status it calls for and why. -/
abbrev Finding := ObligationStatus × Reason

/-- What the passes before this one have established. -/
structure PodEvidence extends Evidence where
  capacity : List CapacityAggregate
  pairs : List PairWork

/-- The aggregate of a resource (`find_capacity`). -/
def findCapacity (capacity : List CapacityAggregate) (resource : ResourceClass) :
    Option CapacityAggregate :=
  capacity.find? fun a => a.resource = resource

section Findings
variable (ev : PodEvidence)

/-! ## Capacity floors -/

/-- What one requirement of a capacity floor finds. -/
def requirementFindings (requirement : CapacityRequirement) : List Finding :=
  let quoted (before after : Text) : Text := before ++ requirement.resource.token ++ after
  match findCapacity ev.capacity requirement.resource with
  | none =>
    [(.indeterminate, ⟨.capacityIncomplete,
      quoted "no capacity evidence exists for resource '" "'"⟩)]
  | some aggregate =>
    if ¬ aggregate.status.isUsable then
      [(if aggregate.status = .exhausted then .violated else .indeterminate,
        ⟨.capacityConflict, quoted "the aggregate for resource '" "' is not authoritative"⟩)]
    else
      let margin := if requirement.marginPercent = 0 then ev.policy.defaultMarginPercent
        else requirement.marginPercent
      match checkedMul requirement.minimum margin.toUInt64 with
      | .error _ =>
        [(.indeterminate, ⟨.policyBoundExceeded, "obligation margin computation overflowed"⟩)]
      | .ok scaled =>
        match checkedAdd requirement.minimum (scaled / 100) with
        | .error _ =>
          [(.indeterminate, ⟨.policyBoundExceeded, "obligation requirement overflowed"⟩)]
        | .ok extra =>
          if aggregate.headroom < requirement.minimum then
            [(.violated, ⟨.obligationUnmet,
              quoted "resource '" "' has less headroom than the obligation floor"⟩)]
          else if aggregate.headroom < extra then
            [(.atRisk, ⟨.obligationMargin,
              quoted "resource '" "' has less than the requested margin above the floor"⟩)]
          else []

/-! ## Diversity -/

/-- A rack-disjoint packing of domains: how many, and whether the kind is in conflict or declared
at all. -/
structure DiversityResult where
  count : UInt32 := 0
  conflicted : Bool := false
  haveKind : Bool := false

/-- A rack that may serve a domain, once administratively moved racks are left out if asked. -/
def admissible (members : List MemberWork) (excludeDrained : Bool) (rack : RackId) : Bool :=
  match findMember members rack with
  | none => false
  | some member =>
    member.established && member.connectivityUsable &&
      !(excludeDrained && decide (member.verdict.admin ≠ .enabled))

/-- The greedy loop over the candidates. -/
def packDomains (used : List RackId) (count : UInt32) : List DomainWork → UInt32
  | [] => count
  | domain :: rest =>
    if domain.verdict.declaredMembers.any fun rack => used.contains rack then
      packDomains used count rest
    else packDomains (domain.verdict.declaredMembers ++ used) (count + 1) rest

/-- The number of pairwise rack-disjoint serviceable domains of a kind (`diversity`). -/
def diversity (kind : DomainKind) (excludeDrained : Bool) : DiversityResult :=
  let ofKind := ev.domains.filter fun domain => domain.kind = kind
  let candidates := ofKind.filter fun domain =>
    domain.verdict.status ≠ .conflicting && !domain.implicit &&
      domain.verdict.declaredMembers.any (admissible ev.members excludeDrained)
  { count := packDomains [] 0
      (sortOn (fun domain => toLex (domain.verdict.declaredMembers.length, domain.id)) candidates)
    conflicted := ofKind.any fun domain => domain.verdict.status = .conflicting
    haveKind := ofKind ≠ [] }

/-- The findings on an obligation of domain diversity, and the number of domains it reports. -/
def diversityFindings (obligation : Obligation) : List Finding × UInt32 :=
  let result := diversity ev obligation.diversityKind false
  ((if result.conflicted then
      [(.indeterminate, ⟨.domainOverlap, text "failure-domain membership is in conflict, so " ++
        text "diversity cannot be decided"⟩)] else []) ++
    (if result.count < obligation.requiredDomains then
      [(.violated, ⟨.domainDiversityUnmet, text "only " ++ decimal result.count.toNat ++
        text " rack-disjoint failure domains are serviceable"⟩)] else []),
    result.count)

/-- The findings on a maintenance obligation: the domains now, and with the candidates drained. -/
def maintenanceFindings (obligation : Obligation) : List Finding :=
  let now := diversity ev obligation.diversityKind false
  let after := diversity ev obligation.diversityKind true
  (if now.conflicted ∨ after.conflicted then
    [(.indeterminate, ⟨.domainOverlap, "failure-domain membership is in conflict"⟩)] else []) ++
  (if now.count < obligation.requiredDomains then
    [(.violated, ⟨.domainDiversityUnmet, "the pod is already below the required domain count"⟩)]
  else if after.count < obligation.requiredDomains then
    [(.atRisk, ⟨.memberDraining, text "draining every maintenance candidate would drop below " ++
      text "the required domain count"⟩)]
  else [])

/-! ## Protected paths -/

/-- A protected rack has to be established. -/
def protectedRackFinding (rack : RackId) : List Finding :=
  match findMember ev.members rack with
  | some member => if member.established then [] else [unestablished]
  | none => [unestablished]
where
  unestablished : Finding :=
    (.violated, ⟨.memberFenced, text "protected rack '" ++ rack.token ++ text "' is not established"⟩)

/-- A pair of protected racks has to be usable. -/
def protectedPairFinding (a b : RackId) : List Finding :=
  match findPair ev.pairs a b with
  | none =>
    [(.indeterminate, ⟨.noUsablePath, text "no connectivity evidence exists between two " ++
      text "protected racks"⟩)]
  | some pair =>
    match pair.status with
    | .usable => []
    | .degraded => [(.atRisk, ⟨.linkUnderCapacity, "a protected rack pair is only degraded"⟩)]
    | .blocked | .stale | .conflicting =>
      [(.violated, ⟨.noUsablePath, "a protected rack pair has no usable connectivity"⟩)]
    | .indeterminate | .unsupported =>
      [(.indeterminate, ⟨.noUsablePath, "a protected rack pair cannot be decided"⟩)]

/-- The pairs of a list, each element with those after it. -/
def pairsOf {α : Type} : List α → List (α × α)
  | [] => []
  | a :: rest => rest.map (a, ·) ++ pairsOf rest

/-- The findings on an obligation of protected paths: on every rack, then on every pair. -/
def pathFindings (obligation : Obligation) : List Finding :=
  obligation.protectedRacks.flatMap (protectedRackFinding ev) ++
    (pairsOf obligation.protectedRacks).flatMap fun p => protectedPairFinding ev p.1 p.2

/-! ## The pass over the obligations -/

/-- An obligation that says too little to be judged. -/
def unsupported (detail : Text) : List Finding :=
  [(.unsupported, ⟨.evidenceMissing, detail⟩)]

/-- The findings of an obligation and the number of domains it reports. -/
def obligationFindings (obligation : Obligation) : List Finding × UInt32 :=
  match obligation.kind with
  | .capacityFloor =>
    if obligation.requirements = [] then
      (unsupported "the capacity obligation names no resource", 0)
    else (obligation.requirements.flatMap (requirementFindings ev), 0)
  | .domainDiversity =>
    if obligation.requiredDomains = 0 then
      (unsupported "the diversity obligation requires no domains", 0)
    else if ¬ (diversity ev obligation.diversityKind false).haveKind then
      (unsupported "the pod declares no failure domain of the required kind", 0)
    else diversityFindings ev obligation
  | .protectedPath =>
    if obligation.protectedRacks = [] then
      (unsupported "the protected-path obligation names no rack", 0)
    else (pathFindings ev obligation, 0)
  | .maintenanceWindow =>
    let after := diversity ev obligation.diversityKind true
    if obligation.requiredDomains = 0 then
      (unsupported "the maintenance obligation requires no domains", 0)
    else if ¬ (diversity ev obligation.diversityKind false).haveKind then
      (unsupported "the pod declares no failure domain of the required kind", after.count)
    else (maintenanceFindings ev obligation, after.count)

/-- The verdict on an obligation: the worst of its findings. -/
def judgeObligation (obligation : Obligation) : ObligationVerdict where
  id := obligation.id
  kind := obligation.kind
  status := ((obligationFindings ev obligation).1.map Prod.fst).foldl ObligationStatus.worst
    .satisfied
  satisfiedDomains := (obligationFindings ev obligation).2
  reasons := canonicalise ((obligationFindings ev obligation).1.map Prod.snd)

end Findings

end PodFabric
