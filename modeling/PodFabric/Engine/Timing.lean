import PodFabric.Engine.Composer

/-!
# Compositions over exact times

The differences of times that a composition forms are signed, and one that is not a value of 64 bits
is undefined. Here the composition is run again with every such difference taken over the integers
and compared there: it stops where a difference overflows (`Halt.overflow`), and it gives the
verdicts that the exact differences ask for. The functions that form no difference are those of the
composition itself.
-/

namespace PodFabric

/-- The integer is a value of 64 bits. -/
def Representable (n : ℤ) : Prop := -2 ^ 63 ≤ n ∧ n < 2 ^ 63

instance (n : ℤ) : Decidable (Representable n) := inferInstanceAs (Decidable (_ ∧ _))

/-- How a composition over exact times ends without a value. -/
inductive Halt
  | fault (fault : Fault)
  | overflow
  deriving DecidableEq, Repr

/-- A computation on times: it may leave the range of the clock. -/
abbrev Timed (α : Type) := Except Halt α

/-- An outcome that no time is involved in. -/
def Outcome.timed {α : Type} : Outcome α → Timed α
  | .ok a => .ok a
  | .error fault => .error (.fault fault)

/-- The difference of two times. -/
def difference (a b : Nanos) : Timed ℤ :=
  if Representable (a.toInt - b.toInt) then .ok (a.toInt - b.toInt) else .error .overflow

/-! ## Members -/

/-- Why a record observed at `observed` is not fresh, if it is not (`fresh`). -/
def freshnessTimed (policy : Policy) (evaluatedAt observed : Nanos) : Timed (Option Reason) :=
  if observed = 0 ∨ policy.evidenceTtl ≤ 0 then .ok none
  else do
    let age ← difference evaluatedAt observed
    if policy.evidenceTtl.toInt < age then
      return some ⟨.evidenceStale, "evidence is older than the configured lifetime"⟩
    else if age < -policy.clockSkew.toInt then
      return some ⟨.evidenceFromFuture,
        "evidence is stamped further ahead than the clock-skew tolerance"⟩
    else return none

/-- The verdict on a rack with a single record. -/
def judgeRecordTimed (policy : Policy) (evaluatedAt : Nanos) (record : MemberRecord)
    (work : MemberWork) : Timed MemberWork := do
  let work : MemberWork := { work with
    verdict := { work.verdict with
      generation := record.generation
      digest := record.digest
      membership := record.membership
      admin := record.admin
      health := record.health
      domains := canonicalise record.failureDomains } }
  match ← freshnessTimed policy evaluatedAt record.observedAt with
  | some reason => return work.reject .stale reason
  | none =>
    if ¬ schemaSupported policy record.rnfSchema then
      return work.reject .unsupported ⟨.schemaUnsupported,
        text "Rack Network Fabric descriptor revision '" ++ record.rnfSchema ++
          text "' is not accepted by this pod"⟩
    else if record.membership = .retired ∨ record.membership = .leaving then
      return work.reject .retiring
        ⟨.memberRetiring, "the rack has declared that it is leaving the pod"⟩
    else if record.membership = .fenced then
      return work.reject .fenced ⟨.memberFenced, "the rack has declared itself fenced"⟩
    else
      match checkGeneration record work.expectation with
      | .error (status, reason) => return work.reject status reason
      | .ok adopted =>
        let work := { work with adopted }
        if record.membership = .joining then
          return work.reject .joining ⟨.evidenceMissing, "the rack has not finished joining"⟩
        else if adopted ∧ ¬ joinAdmissible policy record then
          return work.reject .joining ⟨.evidenceMissing,
            "the rack is only declared, not attested or observed, so it is not adopted"⟩
        else return work.establish record

/-- The working record of a rack, from the records that claim it and its expectation. -/
def evaluateMemberTimed (policy : Policy) (evaluatedAt : Nanos) (rack : RackId)
    (records : List MemberRecord) (expectation : Option MemberExpectation) : Timed MemberWork :=
  let work := MemberWork.start rack records expectation
  match records with
  | [] =>
    .ok ({ work with verdict := { work.verdict with membership := .established } }.reject .missing
      ⟨.evidenceMissing, "the pod expects this rack but no evidence arrived"⟩)
  | [record] => judgeRecordTimed policy evaluatedAt record work
  | _ :: _ :: _ =>
    .ok (work.reject .conflicting
      ⟨.duplicateIdentity, "more than one record claims this rack in the same observation"⟩)

/-- The working record of a rack of the request. -/
def memberWorkTimed (request : CompositionRequest) (rack : RackId) : Timed MemberWork :=
  evaluateMemberTimed request.policy request.snapshot.observedAt rack
    (request.snapshot.members.filter fun member => member.rack = rack)
    (request.context.expectations.findRev? fun expectation => expectation.rack = rack)

/-- One working record for each covered rack, in order (`evaluate_members`). -/
def evaluateMembersTimed (request : CompositionRequest) : Timed (List MemberWork) := do
  (Result.lift (ensure ((coveredRacks request).length ≤ request.policy.maxMembers.toNat)
    ⟨.exhausted, "composition covers more racks than the policy allows"⟩)).timed
  (coveredRacks request).mapM (memberWorkTimed request)

/-! ## Connectivity -/

/-- The outcome of a link (`classify_link`). -/
def classifyLinkTimed (ev : Evidence) (link : LinkRecord) : Timed LinkOutcome :=
  let bad (status : LinkStatus) (reason : Reason) : LinkOutcome :=
    { status, resource := link.resource, reasons := [reason] }
  match findMember ev.members link.a.rack, findMember ev.members link.b.rack with
  | some a, some b =>
    if ¬ a.established ∨ ¬ b.established then
      .ok (bad .blocked ⟨.memberFenced, "a link endpoint is not an established member"⟩)
    else if ¬ a.connectivityUsable ∨ ¬ b.connectivityUsable then
      .ok (bad .blocked ⟨.memberUnhealthy, "a link endpoint has no usable health evidence"⟩)
    else if link.admin ≠ .enabled then
      .ok (bad .blocked ⟨.linkAdminDown, "the link is not administratively enabled"⟩)
    else if link.oper = .down then .ok (bad .blocked ⟨.linkDown, "the link reports itself down"⟩)
    else if link.oper = .unknown then
      .ok (bad .indeterminate ⟨.evidenceMissing, "the link operational state is unknown"⟩)
    else if link.aGeneration ≠ a.verdict.generation ∨ link.bGeneration ≠ b.verdict.generation then
      .ok (bad .stale ⟨.generationMismatch,
        "the link was observed against a superseded rack generation"⟩)
    else do
      match ← freshnessTimed ev.policy ev.snapshot.observedAt link.observedAt with
      | some reason => return bad .stale reason
      | none =>
        match citedRoute ev link with
        | some (status, reason) => return bad status reason
        | none =>
          match domainFate ev link with
          | some (status, capacity, reason) =>
            return { status, capacity, resource := link.resource, reasons := [reason] }
          | none =>
            if link.oper = .degraded ∨ a.verdict.health = .impaired ∨
                b.verdict.health = .impaired then
              return { status := .degraded, capacity := link.capacity, resource := link.resource
                       reasons := [⟨.linkUnderCapacity,
                         "the link or one of its endpoints is degraded"⟩] }
            else return { status := .usable, capacity := link.capacity, resource := link.resource }
  | _, _ =>
    .ok (bad .indeterminate ⟨.evidenceMissing, "the link names a rack that is not a pod member"⟩)

/-- The outcome of a route (`classify_route`). -/
def classifyRouteTimed (ev : Evidence) (route : RouteEvidence) : Timed LinkOutcome :=
  let bad (status : LinkStatus) (reason : Reason) : LinkOutcome :=
    { status, resource := route.resource, reasons := [reason] }
  if route.state = .withdrawn ∨ route.state = .failed then
    .ok (bad .blocked ⟨.routeWithdrawn, "the routing decision is no longer installed"⟩)
  else if route.state ≠ .installed then
    .ok (bad .indeterminate ⟨.clusterRoutingUnavailable, "the routing decision is not settled"⟩)
  else do
    match ← freshnessTimed ev.policy ev.snapshot.observedAt route.observedAt with
    | some reason => return bad .stale reason
    | none =>
      match classifyHops ev (route.path.zip route.pathGenerations) with
      | some (status, reason) => return bad status reason
      | none =>
        return { status := .usable, capacity := route.committedCapacity
                 resource := route.resource }

/-- The verdict on a pair. -/
def judgePairTimed (ev : Evidence) (work : PairWork) : Timed PairWork := do
  let links ← work.links.mapM (classifyLinkTimed ev)
  let routes ← work.routes.mapM (classifyRouteTimed ev)
  let fold := routes.foldl PairFold.addRoute (links.foldl PairFold.addLink {})
  let verdict ← (fold.conclude {
    source := (ofLex work.key).1, target := (ofLex work.key).2
    links := work.links.map LinkRecord.id, routes := work.routes.map RouteEvidence.ref }).timed
  return { work with verdict }

/-- One working record for each pair, in order (`evaluate_connectivity`). -/
def evaluateConnectivityTimed (ev : Evidence) : Timed (List PairWork) :=
  (collectedPairs ev).mapM fun key => judgePairTimed ev (newPair ev.snapshot key)

/-! ## Tokens -/

/-- The verdict on a token (`validate_token`). -/
def validateTokenTimed (token : AuthorityToken) (check : AuthorityCheck) : Timed AuthorityVerdict :=
  if token.lease = .nil ∨ token.pod = .nil then
    .ok ⟨.malformed, .invalid, "token has no lease identity or no pod identity"⟩
  else if token.expiresAt ≤ token.issuedAt then
    .ok ⟨.malformed, .invalid, "token lease window is empty or inverted"⟩
  else if token.pod ≠ check.pod then
    .ok ⟨.wrongPod, .refused, "token was minted for a different pod"⟩
  else if token.lease ∈ check.revoked then
    .ok ⟨.revoked, .refused, "token lease has been revoked"⟩
  else if token.incarnation ≠ check.incarnation then
    .ok ⟨.staleIncarnation, .stale,
      "token was minted by a controller incarnation that is no longer live"⟩
  else if token.epoch ≠ check.epoch then
    .ok ⟨.staleEpoch, .stale, "token was minted at a superseded pod epoch"⟩
  else do
    let start ← difference token.issuedAt check.clockSkew
    if check.now.toInt < start then
      return ⟨.notYetValid, .stale, "token is not yet valid on the coordinator clock"⟩
    else if token.expiresAt < check.now then
      return ⟨.expired, .stale, "token lease has expired"⟩
    else if check.enforceScope ∧ token.scope ≠ .pod ∧ token.scope ≠ check.required then
      return ⟨.wrongScope, .refused, "token scope does not cover the requested operation"⟩
    else return ⟨.valid, .ok, []⟩

/-! ## The passes -/

/-- The passes over the evidence (`run`, up to the lifecycle). -/
def runPassesTimed (request : CompositionRequest) : Timed Passes := do
  let members ← evaluateMembersTimed request
  let epoch ← (Result.lift (adoptGenerationAdvances request.context.epoch members)).timed
  let (domains, members) ← (Result.lift (evaluateDomains request members)).timed
  let ledger ← (Result.lift (evaluateCapacity request.policy members)).timed
  let ev : Evidence := { policy := request.policy, snapshot := request.snapshot, members, domains }
  let pairs ← evaluateConnectivityTimed ev
  let evidence : PodEvidence := { toEvidence := ev, capacity := ledger.byResource, pairs }
  let obligations := request.snapshot.obligations.map (judgeObligation evidence)
  let findings : Findings :=
    { toPodEvidence := evidence, context := request.context, epoch, obligations }
  return { findings, domainCapacity := ledger.byDomain }

/-- What the passes come to, with the verdicts on the granted tokens. -/
def judgeRequest (request : CompositionRequest) : Outcome (Passes × List AuthorityVerdict) := do
  let p ← runPasses request
  return (p, p.findings.context.grantedTokens.map fun token =>
    validateToken token (tokenCheck p.findings))

/-- What the passes come to over exact times, with the verdicts on the granted tokens. -/
def judgeRequestTimed (request : CompositionRequest) : Timed (Passes × List AuthorityVerdict) := do
  let p ← runPassesTimed request
  let verdicts ← p.findings.context.grantedTokens.mapM fun token =>
    validateTokenTimed token (tokenCheck p.findings)
  return (p, verdicts)

end PodFabric
