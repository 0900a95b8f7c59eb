import PodFabric.Model.PodState

/-!
# Rendering of states and decisions

The canonical text of a composed state and of a decision record, and the digests taken of them. The
state digest leaves the decision records out, the decision digest covers the whole document.
-/

namespace PodFabric

/-- Control characters become blanks (`escape_text`). -/
def escapeText (t : Text) : Text := t.map fun c => if c < 0x20 ∨ c = 0x7F then 32 else c

/-- One line: its fields separated by blanks, with the final newline. -/
def textLine (fields : List Text) : Text := [32].intercalate fields ++ [10]

/-- A boolean field of a line. -/
def flagText (b : Bool) : Text := if b then [49] else [48]

/-- The fields a reason adds to a line. -/
def Reason.fields (r : Reason) : List Text :=
  if r.detail.isEmpty then [r.code.toText] else [r.code.toText, escapeText r.detail]

/-- The lines of reasons. -/
def reasonLines (reasons : List Reason) : Text :=
  reasons.flatMap fun r => textLine ("+reason" :: r.fields)

/-- The lines of the pod's authority. -/
def PodAuthority.toLines (a : PodAuthority) : Text :=
  textLine ["authority", a.status.toText, "established", decimal a.establishedMembers.toNat,
    "fenced", decimal a.fencedMembers.toNat, "conflicting", decimal a.conflictingMembers.toNat,
    "stale", decimal a.staleMembers.toNat, "recovered", flagText a.recovered] ++
  reasonLines a.reasons

/-- The lines of the verdict on a rack. -/
def MemberVerdict.toLines (m : MemberVerdict) : Text :=
  textLine ["member", m.rack.toText, "status", m.status.toText, "gen",
    decimal m.generation.value.toNat, "digest", m.digest.toHex, "membership",
    m.membership.toText, "admin", m.admin.toText, "health", m.health.toText] ++
  reasonLines m.reasons ++ m.domains.flatMap fun d => textLine ["+domain", d.toText]

/-- The lines of the verdict on a pair of racks. -/
def ConnectivityVerdict.toLines (c : ConnectivityVerdict) : Text :=
  textLine ["connectivity", c.source.toText, c.target.toText, "status", c.status.toText,
    "resource", c.resource.toText, "capacity", decimal c.usableCapacity.toNat] ++
  (c.links.flatMap fun l => textLine ["+link", l.toText]) ++
  (c.routes.flatMap fun r => textLine ["+route", r.toText]) ++ reasonLines c.reasons

/-- The lines of the verdict on a domain. -/
def DomainVerdict.toLines (d : DomainVerdict) : Text :=
  textLine ["domain", d.id.toText, "kind", d.kind.toText, "status", d.status.toText, "declared",
    decimal d.declaredMembers.length, "effective", decimal d.effectiveMembers.length] ++
  (d.declaredMembers.flatMap fun r => textLine ["+member", r.toText]) ++ reasonLines d.reasons

/-- The line of a contribution. -/
def CapacityContribution.toLine (c : CapacityContribution) : Text :=
  textLine ["+contribution", c.owner.toText, c.exclusivity.toText, decimal c.amount.toNat,
    decimal c.reserved.toNat, c.domain.toText, "counted", flagText c.counted]

/-- The lines of a pod aggregate, with its contributions. -/
def CapacityAggregate.toLines (a : CapacityAggregate) : Text :=
  textLine ["capacity", a.resource.toText, "total", decimal a.total.toNat, "reserved",
    decimal a.reserved.toNat, "headroom", decimal a.headroom.toNat, "status", a.status.toText] ++
  a.contributions.flatMap CapacityContribution.toLine ++ reasonLines a.reasons

/-- The line of a domain's aggregate. -/
def CapacityAggregate.toDomainLine (a : CapacityAggregate) : Text :=
  textLine ["domain-capacity", a.resource.toText, a.domain.toText, "total", decimal a.total.toNat,
    "reserved", decimal a.reserved.toNat, "headroom", decimal a.headroom.toNat, "status",
    a.status.toText]

/-- The lines of the verdict on an obligation. -/
def ObligationVerdict.toLines (o : ObligationVerdict) : Text :=
  textLine ["obligation", o.id.toText, "kind", o.kind.toText, "status", o.status.toText,
    "satisfied-domains", decimal o.satisfiedDomains.toNat] ++ reasonLines o.reasons

/-- The line of a fence. -/
def FenceAction.toLine (f : FenceAction) : Text :=
  textLine ("fence" :: f.kind.toText :: (if f.subject.isEmpty then [45] else f.subject) ::
    f.reason.fields)

/-- The lines of a decision. -/
def DecisionRecord.toLines (d : DecisionRecord) : Text :=
  textLine ["decision", d.id.token, "kind", d.kind.toText, "status", d.status.toText, "deps",
    decimal d.deps.length, "fingerprint", d.fingerprint.toHex] ++
  (d.deps.flatMap fun dep => textLine ["+dep", dep.kind.toText, dep.subject]) ++
  reasonLines d.reasons

/-- The canonical text of a state (`to_text`). -/
def PodState.toText (s : PodState) (includeDecisions : Bool) : Text :=
  textLine [if s.schema.isEmpty then podStateSchema else s.schema] ++
  textLine ["pod", s.pod.toText] ++
  textLine ["epoch", decimal s.epoch.value.toNat] ++
  textLine ["incarnation", s.incarnation.toText] ++
  textLine ["lifecycle", s.lifecycle.toText] ++
  s.authority.toLines ++
  s.members.flatMap MemberVerdict.toLines ++
  s.connectivity.flatMap ConnectivityVerdict.toLines ++
  s.domains.flatMap DomainVerdict.toLines ++
  s.capacity.flatMap CapacityAggregate.toLines ++
  s.domainCapacity.flatMap CapacityAggregate.toDomainLine ++
  s.obligations.flatMap ObligationVerdict.toLines ++
  s.fences.flatMap FenceAction.toLine ++
  (s.degradations.flatMap fun r => textLine ("degradation" :: r.fields)) ++
  (if includeDecisions then s.decisions.flatMap DecisionRecord.toLines else []) ++
  textLine ["composed-at", decimalInt s.composedAt.toInt] ++
  textLine ["digest", s.stateDigest.toHex] ++
  textLine ["decision-digest", s.decisionDigest.toHex] ++
  textLine ["end"]

/-- The canonical text of a decision (`decision_text`). -/
def decisionText (record : DecisionRecord) : Text :=
  record.id.token ++ [124] ++ record.kind.toText ++ [124] ++ record.status.toText ++
  (record.deps.flatMap fun dep => [124] ++ dep.kind.toText ++ [61] ++ dep.subject) ++
  record.reasons.flatMap fun reason => [124] ++ reason.code.toText ++ [61] ++ reason.detail

/-- The fingerprint of a decision: the digest of its text. -/
def decisionFingerprint (record : DecisionRecord) : Digest := .of (decisionText record)

/-- The digest of the whole document (`digest_of`). -/
def PodState.digestOf (s : PodState) : Digest := .of (s.toText true)

/-- The digest of the verdicts alone (`state_digest_of`). -/
def PodState.stateDigestOf (s : PodState) : Digest := .of (s.toText false)

end PodFabric
