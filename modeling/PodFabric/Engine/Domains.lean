import PodFabric.Engine.Members
import PodFabric.Engine.Ledger

/-!
# Failure domains and capacity

Every declared or referenced failure domain gets a verdict on the consistency of its membership,
overlapping domains of one kind are put in conflict, and the members' capacity claims are entered
in the ledger.
-/

namespace PodFabric

/-! ## One domain -/

/-- The working record of a failure domain; without a record the domain is implicit. -/
structure DomainWork where
  id : DomainId
  kind : DomainKind := .unknown
  record : Option FailureDomainRecord := none
  declared : List RackId := []
  verdict : DomainVerdict := {}
  deriving DecidableEq

/-- The domain is referenced but not declared. -/
def DomainWork.implicit (work : DomainWork) : Bool := work.record.isNone

/-- The working record of a domain before its membership is checked. -/
def newDomain (snapshot : PodSnapshot) (id : DomainId) : DomainWork :=
  match snapshot.domains.findRev? fun domain => domain.id = id with
  | some record =>
    { id, kind := record.kind, record := some record, declared := canonicalise record.members
      verdict := { id, kind := record.kind, declaredMembers := canonicalise record.members } }
  | none => { id, verdict := { id } }

/-- What is wrong with a rack that a domain lists. -/
def listedReason (members : List MemberWork) (id : DomainId) (rack : RackId) : Option Reason :=
  match findMember members rack with
  | none =>
    some ⟨.evidenceMissing, "the failure domain lists a rack that the snapshot does not describe"⟩
  | some member =>
    if member.record.isNone then
      some ⟨.evidenceMissing,
        "the failure domain lists a rack that the snapshot does not describe"⟩
    else if id ∉ member.verdict.domains then
      some ⟨.domainMembershipConflict, "the rack does not declare this failure domain"⟩
    else none

/-- What is wrong with a rack that declares a domain. -/
def declaringReason (declared : List RackId) (id : DomainId) (member : MemberWork) :
    Option Reason :=
  if id ∈ member.verdict.domains ∧ member.rack ∉ declared then
    some ⟨.domainMembershipConflict,
      "the rack declares this failure domain but the domain does not list it"⟩
  else none

/-- The rack can serve a domain it belongs to. -/
def serviceable (members : List MemberWork) (rack : RackId) : Bool :=
  match findMember members rack with
  | none => false
  | some member => member.established && member.connectivityUsable

/-- The membership of a domain, checked in both directions. -/
def checkDomain (members : List MemberWork) (work : DomainWork) : DomainWork :=
  let listed := work.declared.filterMap (listedReason members work.id)
  let declaring := members.filterMap (declaringReason work.declared work.id)
  let effective := canonicalise (work.declared.filter (serviceable members))
  let reasons :=
    (if work.implicit then
      [⟨.evidenceMissing, "the failure domain is referenced but never declared"⟩] else []) ++
    listed ++ declaring
  let conclude (status : DomainStatus) (more : List Reason) : DomainWork :=
    { work with
      verdict := { work.verdict with
        status, effectiveMembers := effective, reasons := reasons ++ more } }
  if (listed ++ declaring).any fun reason => reason.code = .domainMembershipConflict then
    conclude .conflicting []
  else if work.declared = [] then
    conclude .incomplete [⟨.evidenceMissing, "the failure domain has no members"⟩]
  else if effective = [] then
    conclude .degraded [⟨.memberFenced, "no member of the failure domain is established"⟩]
  else if work.implicit then conclude .incomplete []
  else conclude .ok []

/-! ## Overlaps -/

/-- The work on a domain, if it is declared. -/
def findDomain (domains : List DomainWork) (id : DomainId) : Option DomainWork :=
  domains.find? fun work => work.id = id

/-- The domains of a rack that are of one kind, if there are several. -/
def overlapping (domains : List DomainWork) (member : MemberWork) (kind : DomainKind) :
    List DomainId :=
  let ids := member.verdict.domains.filter fun id =>
    ((findDomain domains id).map DomainWork.kind).getD .unknown = kind
  if 2 ≤ ids.length then ids else []

/-- The groups of overlapping domains of a rack, by kind. -/
def overlapGroups (domains : List DomainWork) (member : MemberWork) : List (List DomainId) :=
  (DomainKind.all.map (overlapping domains member)).filter fun ids => ids ≠ []

/-- The domain of a group is put in conflict, with one reason for each group it is in. -/
def markOverlap (domains : List DomainWork) (members : List MemberWork) (work : DomainWork) :
    DomainWork :=
  let groups := (members.flatMap (overlapGroups domains)).filter fun ids => work.id ∈ ids
  if groups = [] then work
  else
    { work with
      verdict := { work.verdict with
        status := .conflicting
        reasons := work.verdict.reasons ++ groups.map fun _ =>
          ⟨.domainOverlap, "the failure domain overlaps another domain of the same kind"⟩ } }

/-- The rack is told of each group. -/
def noteOverlap (domains : List DomainWork) (member : MemberWork) : MemberWork :=
  { member with
    verdict := { member.verdict with
      reasons := member.verdict.reasons ++ (overlapGroups domains member).map fun _ =>
        ⟨.domainOverlap,
          "the rack belongs to more than one failure domain of the same kind"⟩ } }

/-! ## The pass over all domains -/

/-- The domains that are declared or referenced, in order. -/
def coveredDomains (snapshot : PodSnapshot) (members : List MemberWork) : List DomainId :=
  canonicalise (snapshot.domains.map FailureDomainRecord.id ++
    members.flatMap fun work => work.verdict.domains)

/-- The working records of the domains before overlaps are looked for. -/
def checkedDomains (snapshot : PodSnapshot) (members : List MemberWork) : List DomainWork :=
  (coveredDomains snapshot members).map fun id => checkDomain members (newDomain snapshot id)

/-- The domains with their verdicts, and the members with the overlaps noted
(`evaluate_domains`). -/
def evaluateDomains (request : CompositionRequest) (members : List MemberWork) :
    Result (List DomainWork × List MemberWork) := do
  ensure ((coveredDomains request.snapshot members).length ≤ request.policy.maxDomains.toNat)
    ⟨.exhausted, "composition covers more failure domains than allowed"⟩
  let domains := checkedDomains request.snapshot members
  return (domains.map (markOverlap domains members), members.map (noteOverlap domains))

/-- The fences of the domains in conflict. -/
def domainFences (domains : List DomainWork) : List FenceAction :=
  (domains.filter fun work => work.verdict.status = .conflicting).map fun work =>
    ⟨.member, work.id.token, ⟨.domainOverlap, "failure-domain membership is inconsistent"⟩⟩

/-! ## Capacity -/

/-- The ledger entry of a member's claim: usable, or suppressed with the reason why. -/
def ledgerEntry (work : MemberWork) (claim : CapacityClaim) : LedgerEntry where
  claim := {
    resource := claim.resource, exclusivity := claim.exclusivity, owner := work.rack
    amount := claim.amount, reserved := claim.reserved, domain := claim.domain
    provenance := claim.provenance }
  suppressed :=
    if ¬ work.established then
      some ⟨.memberFenced, "capacity from a rack that is not established is not counted"⟩
    else if ¬ work.capacityUsable then
      some ⟨.memberUnhealthy, "capacity from a rack without usable health evidence is not counted"⟩
    else if claim.domain ∉ work.verdict.domains then
      some ⟨.domainMembershipConflict,
        "capacity is attributed to a failure domain the rack does not declare"⟩
    else none

/-- The claims of a member. -/
def memberEntries (work : MemberWork) : List LedgerEntry :=
  match work.record with
  | none => []
  | some record => record.capacity.map (ledgerEntry work)

/-- The ledger with every member's claims (`evaluate_capacity`). -/
def evaluateCapacity (policy : Policy) (members : List MemberWork) : Result CapacityLedger :=
  (members.flatMap memberEntries).foldlM CapacityLedger.record { policy }

end PodFabric
