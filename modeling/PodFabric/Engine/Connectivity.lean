import PodFabric.Engine.Domains

/-!
# Connectivity

Every pair of racks that is joined by a link or by hops of a route gets a verdict. Links and routes
are classified one by one, and the outcomes of a pair are folded into its status, its capacity
figure and its reasons.
-/

namespace PodFabric

/-! ## Links and routes -/

namespace LinkStatus

/-- How severe a status is (`severity`). -/
def severity : LinkStatus → ℕ
  | usable => 0
  | degraded => 1
  | stale => 2
  | indeterminate => 3
  | blocked => 4
  | conflicting => 5
  | unsupported => 6

/-- The more severe of two statuses (`worst_link`). -/
def worst (a b : LinkStatus) : LinkStatus := if severity b ≤ severity a then a else b

/-- The object carries traffic. -/
def carries (s : LinkStatus) : Bool := s = usable ∨ s = degraded

end LinkStatus

/-- How a link or a route is classified. -/
structure LinkOutcome where
  status : LinkStatus := .indeterminate
  capacity : UInt64 := 0
  resource : ResourceClass := .nil
  reasons : List Reason := []
  deriving DecidableEq

/-- What the passes before this one have established. -/
structure Evidence where
  policy : Policy
  snapshot : PodSnapshot
  members : List MemberWork
  domains : List DomainWork

section Classify
variable (ev : Evidence)

/-- The routing decision a link cites, judged: nothing if it holds. -/
def citedRoute (link : LinkRecord) : Option (LinkStatus × Reason) :=
  if link.route = .nil then none
  else
    match ev.snapshot.routes.find? fun route => route.ref = link.route with
    | none =>
      some (.indeterminate, ⟨.clusterRoutingUnavailable,
        "the link cites a routing decision that is not present in the evidence"⟩)
    | some referenced =>
      if referenced.state = .withdrawn ∨ referenced.state = .failed then
        some (.blocked, ⟨.routeWithdrawn, "the routing decision cited by the link is gone"⟩)
      else if referenced.state ≠ .installed then
        some (.indeterminate, ⟨.clusterRoutingUnavailable,
          "the cited routing decision is not settled"⟩)
      else none

/-- The fate a link shares with its failure domain: nothing if the domain is sound. -/
def domainFate (link : LinkRecord) : Option (LinkStatus × UInt64 × Reason) :=
  match findDomain ev.domains link.domain with
  | none => none
  | some domain =>
    if domain.record.isNone then none
    else if domain.verdict.status = .conflicting then
      some (.conflicting, 0, ⟨.linkConflicting, "the link failure domain is in conflict"⟩)
    else if domain.verdict.status = .degraded ∨ domain.verdict.status = .incomplete then
      some (.degraded, link.capacity, ⟨.linkUnderCapacity,
        "the link shares fate with an unhealthy failure domain"⟩)
    else none

/-- The outcome of a link (`classify_link`). -/
def classifyLink (link : LinkRecord) : LinkOutcome :=
  let bad (status : LinkStatus) (reason : Reason) : LinkOutcome :=
    { status, resource := link.resource, reasons := [reason] }
  match findMember ev.members link.a.rack, findMember ev.members link.b.rack with
  | some a, some b =>
    if ¬ a.established ∨ ¬ b.established then
      bad .blocked ⟨.memberFenced, "a link endpoint is not an established member"⟩
    else if ¬ a.connectivityUsable ∨ ¬ b.connectivityUsable then
      bad .blocked ⟨.memberUnhealthy, "a link endpoint has no usable health evidence"⟩
    else if link.admin ≠ .enabled then
      bad .blocked ⟨.linkAdminDown, "the link is not administratively enabled"⟩
    else if link.oper = .down then bad .blocked ⟨.linkDown, "the link reports itself down"⟩
    else if link.oper = .unknown then
      bad .indeterminate ⟨.evidenceMissing, "the link operational state is unknown"⟩
    else if link.aGeneration ≠ a.verdict.generation ∨ link.bGeneration ≠ b.verdict.generation then
      bad .stale ⟨.generationMismatch,
        "the link was observed against a superseded rack generation"⟩
    else
      match freshness ev.policy ev.snapshot.observedAt link.observedAt with
      | some reason => bad .stale reason
      | none =>
        match citedRoute ev link with
        | some (status, reason) => bad status reason
        | none =>
          match domainFate ev link with
          | some (status, capacity, reason) =>
            { status, capacity, resource := link.resource, reasons := [reason] }
          | none =>
            if link.oper = .degraded ∨ a.verdict.health = .impaired ∨
                b.verdict.health = .impaired then
              { status := .degraded, capacity := link.capacity, resource := link.resource
                reasons := [⟨.linkUnderCapacity, "the link or one of its endpoints is degraded"⟩] }
            else { status := .usable, capacity := link.capacity, resource := link.resource }
  | _, _ =>
    bad .indeterminate ⟨.evidenceMissing, "the link names a rack that is not a pod member"⟩

/-- The first hop of a route that does not hold, judged: nothing if all hold. -/
def classifyHops : List (RackId × RackGeneration) → Option (LinkStatus × Reason)
  | [] => none
  | (rack, generation) :: rest =>
    match findMember ev.members rack with
    | none =>
      some (.blocked, ⟨.memberFenced, "the route traverses a rack that is not established"⟩)
    | some hop =>
      if ¬ hop.established then
        some (.blocked, ⟨.memberFenced, "the route traverses a rack that is not established"⟩)
      else if generation ≠ hop.verdict.generation then
        some (.stale, ⟨.generationMismatch,
          "the route was installed against a superseded rack generation"⟩)
      else if ¬ hop.connectivityUsable then
        some (.blocked, ⟨.memberUnhealthy, "the route traverses a rack without usable health"⟩)
      else classifyHops rest

/-- The outcome of a route (`classify_route`). -/
def classifyRoute (route : RouteEvidence) : LinkOutcome :=
  let bad (status : LinkStatus) (reason : Reason) : LinkOutcome :=
    { status, resource := route.resource, reasons := [reason] }
  if route.state = .withdrawn ∨ route.state = .failed then
    bad .blocked ⟨.routeWithdrawn, "the routing decision is no longer installed"⟩
  else if route.state ≠ .installed then
    bad .indeterminate ⟨.clusterRoutingUnavailable, "the routing decision is not settled"⟩
  else
    match freshness ev.policy ev.snapshot.observedAt route.observedAt with
    | some reason => bad .stale reason
    | none =>
      match classifyHops ev (route.path.zip route.pathGenerations) with
      | some (status, reason) => bad status reason
      | none =>
        { status := .usable, capacity := route.committedCapacity, resource := route.resource }

end Classify

/-! ## Pairs -/

/-- A pair of racks in order. -/
abbrev PairKey := RackId ×ₗ RackId

/-- The pair of two racks, whichever is named first. -/
def pairKey (left right : RackId) : PairKey :=
  if left < right then toLex (left, right) else toLex (right, left)

/-- A pair that gets a verdict joins two different racks (`add_pair`). -/
def PairKey.proper (key : PairKey) : Bool :=
  (ofLex key).1 ≠ (ofLex key).2 ∧ (ofLex key).1 ≠ .nil ∧ (ofLex key).2 ≠ .nil

/-- The pairs a route serves: its hops, and its ends. -/
def routePairs (route : RouteEvidence) : List PairKey :=
  ((route.path.zip route.path.tail).map fun hop => pairKey hop.1 hop.2) ++
    match route.path.head?, route.path.getLast? with
    | some front, some back => [pairKey front back]
    | _, _ => []

/-- The pair of racks that a link joins. -/
def linkPair (link : LinkRecord) : PairKey := pairKey link.a.rack link.b.rack

/-- The pairs of established members, when the policy asks for full coverage. -/
def coveragePairs (policy : Policy) (members : List MemberWork) : List PairKey :=
  if policy.requireFullCoverage then
    let racks := (members.filter MemberWork.established).map MemberWork.rack
    racks.flatMap fun a => racks.map (pairKey a)
  else []

/-- The pairs that get a verdict, in order. -/
def collectedPairs (ev : Evidence) : List PairKey :=
  canonicalise ((ev.snapshot.links.map linkPair ++ ev.snapshot.routes.flatMap routePairs ++
    coveragePairs ev.policy ev.members).filter PairKey.proper)

/-- The working record of a pair. -/
structure PairWork where
  key : PairKey
  links : List LinkRecord := []
  routes : List RouteEvidence := []
  verdict : ConnectivityVerdict := {}
  deriving DecidableEq

/-- The links and routes of a pair, in the order of the snapshot. -/
def newPair (snapshot : PodSnapshot) (key : PairKey) : PairWork where
  key := key
  links := snapshot.links.filter fun link => linkPair link = key
  routes := snapshot.routes.filter fun route => key ∈ routePairs route

/-- What the loops over the links and the routes of a pair accumulate. -/
structure PairFold where
  anyUsable : Bool := false
  anyDegraded : Bool := false
  worstBad : Option LinkStatus := none
  direct : UInt64 := 0
  routed : UInt64 := 0
  directResources : List ResourceClass := []
  routedResources : List ResourceClass := []
  reasons : List Reason := []

namespace PairFold

/-- The status of one object joins the fold. -/
def addStatus (f : PairFold) (status : LinkStatus) : PairFold :=
  match status with
  | .usable => { f with anyUsable := true }
  | .degraded => { f with anyDegraded := true }
  | bad => { f with worstBad := some (f.worstBad.elim bad (LinkStatus.worst · bad)) }

/-- One pass of the loop over the links. -/
def addLink (f : PairFold) (outcome : LinkOutcome) : PairFold :=
  let f := { f with reasons := f.reasons ++ outcome.reasons }.addStatus outcome.status
  if 0 < outcome.capacity then
    let f := { f with directResources := f.directResources ++ [outcome.resource] }
    match checkedAdd f.direct outcome.capacity with
    | .ok direct => { f with direct }
    | .error _ =>
      { f with reasons := f.reasons ++ [⟨.policyBoundExceeded, "link capacity sum overflowed"⟩] }
  else f

/-- One pass of the loop over the routes. -/
def addRoute (f : PairFold) (outcome : LinkOutcome) : PairFold :=
  let f := { f with reasons := f.reasons ++ outcome.reasons }.addStatus outcome.status
  if f.routed < outcome.capacity then
    { f with routed := outcome.capacity, routedResources := [outcome.resource] }
  else f

/-- The pair carries more than one resource class. -/
def mixedResources (f : PairFold) : Bool :=
  let direct := canonicalise f.directResources
  let routed := canonicalise f.routedResources
  1 < direct.length ∨ 1 < routed.length ∨
    (direct ≠ [] ∧ routed ≠ [] ∧ direct.head? ≠ routed.head?)

/-- The verdict of the pair. With no positive capacity at all there is no resource to read, and
the first element of an empty set is asked for. -/
def conclude (f : PairFold) (verdict : ConnectivityVerdict) : Outcome ConnectivityVerdict :=
  if f.mixedResources then
    .ok { verdict with
      status := .conflicting, usableCapacity := 0
      reasons := f.reasons ++ [⟨.linkConflicting,
        text "the rack pair carries more than one resource class, so no single capacity " ++
          text "figure is authoritative"⟩] }
  else if f.anyUsable ∨ f.anyDegraded then
    match (canonicalise f.directResources).head? <|> (canonicalise f.routedResources).head? with
    | none => .error .undefined
    | some resource =>
      .ok { verdict with
        status := if f.worstBad.isSome ∨ f.anyDegraded then .degraded else .usable
        usableCapacity := max f.direct f.routed, resource, reasons := f.reasons }
  else
    match f.worstBad with
    | some status => .ok { verdict with status, reasons := f.reasons }
    | none =>
      .ok { verdict with
        status := .indeterminate
        reasons := f.reasons ++ [⟨.noUsablePath, "no evidence describes this rack pair"⟩] }

end PairFold

/-- The fold over the links and routes of a pair. -/
def pairFold (ev : Evidence) (work : PairWork) : PairFold :=
  (work.routes.map (classifyRoute ev)).foldl PairFold.addRoute
    ((work.links.map (classifyLink ev)).foldl PairFold.addLink {})

/-- The verdict on a pair. -/
def judgePair (ev : Evidence) (work : PairWork) : Outcome PairWork := do
  let verdict ← (pairFold ev work).conclude {
    source := (ofLex work.key).1, target := (ofLex work.key).2
    links := work.links.map LinkRecord.id, routes := work.routes.map RouteEvidence.ref }
  return { work with verdict }

/-- One working record for each pair, in order (`evaluate_connectivity`). -/
def evaluateConnectivity (ev : Evidence) : Outcome (List PairWork) :=
  (collectedPairs ev).mapM fun key => judgePair ev (newPair ev.snapshot key)

/-- The fences of one pair: of its racks, and of the routes that are gone. -/
def pairFences (work : PairWork) : List FenceAction :=
  (if work.verdict.status = .stale ∨ work.verdict.status = .blocked ∨
      work.verdict.status = .conflicting then
    [⟨.link, work.verdict.source.token ++ [46] ++ work.verdict.target.token,
      work.verdict.reasons.head?.getD ⟨.noUsablePath, "the rack pair is not usable"⟩⟩]
  else []) ++
  (work.routes.filter fun route => route.state = .withdrawn ∨ route.state = .failed).map
    fun route =>
      ⟨.route, route.ref.token, ⟨.routeWithdrawn, "the routing decision is no longer installed"⟩⟩

/-- The verdict on the pair of two racks, if there is evidence of one. -/
def findPair (pairs : List PairWork) (a b : RackId) : Option ConnectivityVerdict :=
  (pairs.find? fun work => work.key = pairKey a b).map PairWork.verdict

end PodFabric
