import PodFabric.Model.PodState

/-!
# Members

The first passes of a composition: every rack that is described or expected gets a verdict, those
that are not established are fenced, and generation advances move the pod epoch.
-/

namespace PodFabric

/-! ## Requests -/

/-- What the pod already believes. -/
structure CompositionContext where
  epoch : PodEpoch := {}
  incarnation : Incarnation := {}
  expectations : List MemberExpectation := []
  grantedTokens : List AuthorityToken := []
  revokedTokens : List LeaseId := []
  now : Nanos := 0
  recoveredFromStore : Bool := false
  ambiguousCommit : Bool := false
  lifecycle : LifecycleState := .constructing
  deriving DecidableEq, Inhabited

/-- What the composer is given: the policy, the evidence, the previous state and the controller's
own facts. -/
structure CompositionRequest where
  snapshot : PodSnapshot := {}
  context : CompositionContext := {}
  policy : Policy := {}
  deriving DecidableEq, Inhabited

/-! ## The verdict on one rack -/

/-- The working record of a rack. `record` is the first record of the rack. -/
structure MemberWork where
  rack : RackId
  record : Option MemberRecord := none
  recordCount : ℕ := 0
  expectation : Option MemberExpectation := none
  verdict : MemberVerdict
  established : Bool := false
  capacityUsable : Bool := false
  connectivityUsable : Bool := false
  adopted : Bool := false
  deriving DecidableEq

/-- Why a record observed at `observed` is not fresh, if it is not (`fresh`). -/
def freshness (policy : Policy) (evaluatedAt observed : Nanos) : Option Reason :=
  if observed = 0 ∨ policy.evidenceTtl ≤ 0 then none
  else if policy.evidenceTtl < evaluatedAt - observed then
    some ⟨.evidenceStale, "evidence is older than the configured lifetime"⟩
  else if evaluatedAt - observed < -policy.clockSkew then
    some ⟨.evidenceFromFuture,
      "evidence is stamped further ahead than the clock-skew tolerance"⟩
  else none

/-- The schema is one the policy accepts (`schema_supported`). -/
def schemaSupported (policy : Policy) (schema : Text) : Bool :=
  policy.supportedRnfSchemas.contains schema

/-- Whether a record may establish a first sighting or a generation advance. -/
def joinAdmissible (policy : Policy) (record : MemberRecord) : Bool :=
  if record.provenance.quality = .unknown then false
  else if ¬ policy.requireAttestedJoin then true
  else record.provenance.klass = .attested ∨ record.provenance.klass = .observed

namespace MemberWork

/-- The rack is not established, for the given reason. -/
def reject (work : MemberWork) (status : MemberStatus) (reason : Reason) : MemberWork :=
  { work with
    verdict := { work.verdict with status, reasons := work.verdict.reasons ++ [reason] } }

end MemberWork

/-- The reasons a rack's health leaves. -/
def healthReasons : HealthState → List Reason
  | .ok => []
  | .impaired => [⟨.memberUnhealthy, "the rack reports impaired health"⟩]
  | .critical =>
    [⟨.memberUnhealthy, text "the rack reports critical health; its capacity and " ++
      text "links are withheld"⟩]
  | .unknown =>
    [⟨.evidenceMissing, "the rack health is unknown; its capacity and links are withheld"⟩]

/-- The reasons a rack's administrative state leaves. -/
def adminReasons : AdminState → List Reason
  | .enabled => []
  | .maintenance => [⟨.memberMaintenance, "the rack is in an administrative window"⟩]
  | .draining => [⟨.memberDraining, "the rack is draining"⟩]
  | .disabled => [⟨.memberDisabled, "the rack is administratively disabled"⟩]

/-- Whether an established rack carries traffic and capacity. -/
def usableState (health : HealthState) (admin : AdminState) : Bool :=
  (health = .ok ∨ health = .impaired) ∧ admin ≠ .disabled

/-- The record establishes the rack. -/
def MemberWork.establish (work : MemberWork) (record : MemberRecord) : MemberWork :=
  { work with
    established := true
    capacityUsable := usableState record.health record.admin
    connectivityUsable := usableState record.health record.admin
    verdict := { work.verdict with
      status := .established
      reasons := work.verdict.reasons ++ healthReasons record.health ++
        adminReasons record.admin } }

/-- The record's generation against the recorded expectation: whether it is adopted as new, or why
it does not hold. -/
def checkGeneration (record : MemberRecord) :
    Option MemberExpectation → Except (MemberStatus × Reason) Bool
  | none => .ok true
  | some expected =>
    if record.generation < expected.generation then
      .error (.stale, ⟨.generationRegression,
        text "evidence generation " ++ decimal record.generation.value.toNat ++
          text " is behind the recorded generation " ++
          decimal expected.generation.value.toNat⟩)
    else if record.generation = expected.generation then
      if record.digest ≠ expected.digest then
        .error (.conflicting, ⟨.digestMismatch,
          "the recorded generation is reported with a different descriptor digest"⟩)
      else .ok false
    else .ok true

/-- The verdict on a rack with a single record. -/
def judgeRecord (policy : Policy) (evaluatedAt : Nanos) (record : MemberRecord)
    (work : MemberWork) : MemberWork :=
  let work : MemberWork := { work with
    verdict := { work.verdict with
      generation := record.generation
      digest := record.digest
      membership := record.membership
      admin := record.admin
      health := record.health
      domains := canonicalise record.failureDomains } }
  match freshness policy evaluatedAt record.observedAt with
  | some reason => work.reject .stale reason
  | none =>
    if ¬ schemaSupported policy record.rnfSchema then
      work.reject .unsupported ⟨.schemaUnsupported,
        text "Rack Network Fabric descriptor revision '" ++ record.rnfSchema ++
          text "' is not accepted by this pod"⟩
    else if record.membership = .retired ∨ record.membership = .leaving then
      work.reject .retiring
        ⟨.memberRetiring, "the rack has declared that it is leaving the pod"⟩
    else if record.membership = .fenced then
      work.reject .fenced ⟨.memberFenced, "the rack has declared itself fenced"⟩
    else
      match checkGeneration record work.expectation with
      | .error (status, reason) => work.reject status reason
      | .ok adopted =>
        let work := { work with adopted }
        if record.membership = .joining then
          work.reject .joining ⟨.evidenceMissing, "the rack has not finished joining"⟩
        else if adopted ∧ ¬ joinAdmissible policy record then
          work.reject .joining ⟨.evidenceMissing,
            "the rack is only declared, not attested or observed, so it is not adopted"⟩
        else work.establish record

/-- The working record of a rack before it is judged. -/
def MemberWork.start (rack : RackId) (records : List MemberRecord)
    (expectation : Option MemberExpectation) : MemberWork where
  rack := rack
  record := records.head?
  recordCount := records.length
  expectation := expectation
  verdict := { rack }

/-- The working record of a rack, from the records that claim it and its expectation. -/
def evaluateMember (policy : Policy) (evaluatedAt : Nanos) (rack : RackId)
    (records : List MemberRecord) (expectation : Option MemberExpectation) : MemberWork :=
  let work := MemberWork.start rack records expectation
  match records with
  | [] =>
    { work with verdict := { work.verdict with membership := .established } }.reject .missing
      ⟨.evidenceMissing, "the pod expects this rack but no evidence arrived"⟩
  | [record] => judgeRecord policy evaluatedAt record work
  | _ :: _ :: _ =>
    work.reject .conflicting
      ⟨.duplicateIdentity, "more than one record claims this rack in the same observation"⟩

/-! ## The pass over all racks -/

/-- The racks that are described or expected, in order. -/
def coveredRacks (request : CompositionRequest) : List RackId :=
  canonicalise (request.snapshot.members.map MemberRecord.rack ++
    request.context.expectations.map MemberExpectation.rack)

/-- The working record of a rack of the request. -/
def memberWork (request : CompositionRequest) (rack : RackId) : MemberWork :=
  evaluateMember request.policy request.snapshot.observedAt rack
    (request.snapshot.members.filter fun member => member.rack = rack)
    (request.context.expectations.findRev? fun expectation => expectation.rack = rack)

/-- One working record for each covered rack, in order (`evaluate_members`). -/
def evaluateMembers (request : CompositionRequest) : Result (List MemberWork) := do
  ensure ((coveredRacks request).length ≤ request.policy.maxMembers.toNat)
    ⟨.exhausted, "composition covers more racks than the policy allows"⟩
  return (coveredRacks request).map (memberWork request)

/-- The work on a rack, if there is a record of it. -/
def findMember (members : List MemberWork) (rack : RackId) : Option MemberWork :=
  members.find? fun work => work.rack = rack

/-- The fences of the racks that are not established. -/
def memberFences (members : List MemberWork) : List FenceAction :=
  (members.filter fun work => work.verdict.status ≠ .established).map fun work =>
    ⟨.member, work.rack.token,
      work.verdict.reasons.head?.getD ⟨.memberFenced, "the rack is not established"⟩⟩

/-- The epoch after the round: an adopted generation advances it, once for any number of joins
(`adopt_generation_advances`). -/
def adoptGenerationAdvances (epoch : PodEpoch) (members : List MemberWork) : Result PodEpoch :=
  if members.any fun work => work.established && work.adopted then
    if epoch.isZero then .ok ⟨1⟩ else epoch.next
  else .ok epoch

end PodFabric
