import PodFabric.Codec.StateText

/-!
# Rendering of snapshots

The canonical text of a snapshot (`to_text`): one line for each record and, behind it, the lines of
its lists. Free text is written behind the other fields of its line, with control characters
replaced; the schema revision of a member's descriptor is written as it is.
-/

namespace PodFabric

/-- The schema a text document declares in its first line. -/
def textSchema : Text := "podfabric.text/1"

/-- The fields of a provenance (`prov_inline`). -/
def Provenance.fields (p : Provenance) : List Text :=
  [p.quality.toText, p.klass.toText, p.source.toText, decimal p.sourceSequence.toNat]

/-- The field of a free text, which is left out if it is empty. -/
def freeField (t : Text) : List Text := if t.isEmpty then [] else [escapeText t]

/-- The line of a free text, which is left out if it is empty. -/
def freeLine (directive t : Text) : Text :=
  if t.isEmpty then [] else textLine [directive, escapeText t]

/-- The fields of a capacity line. -/
def CapacityClaim.fields (claim : CapacityClaim) : List Text :=
  [text "+capacity", claim.resource.toText, claim.exclusivity.toText, decimal claim.amount.toNat,
    decimal claim.reserved.toNat, claim.domain.toText] ++ claim.provenance.fields ++
    freeField claim.provenance.detail

/-- The fields of a member's own line. -/
def MemberRecord.fields (member : MemberRecord) : List Text :=
  [text "member", member.rack.toText, "gen", decimal member.generation.value.toNat, "digest",
    member.digest.toHex, "rnf", if member.rnfSchema.isEmpty then [45] else member.rnfSchema, "state",
    member.membership.toText, "admin", member.admin.toText, "health", member.health.toText,
    "observed", decimalInt member.observedAt.toInt, "prov"] ++ member.provenance.fields

/-- The lines of a rack: its own, then those of its claims. -/
def MemberRecord.toLines (member : MemberRecord) : Text :=
  textLine member.fields ++ freeLine "+desc" member.provenance.detail ++
  (member.failureDomains.flatMap fun domain => textLine ["+domain", domain.toText]) ++
  (member.ports.flatMap fun port => textLine ["+port", port.toText]) ++
  member.capacity.flatMap fun claim => textLine claim.fields

/-- The fields of a link line. -/
def LinkRecord.fields (link : LinkRecord) : List Text :=
  [text "link", link.id.toText, "a", link.a.rack.toText, link.a.port.toText, "b", link.b.rack.toText,
    link.b.port.toText, "agen", decimal link.aGeneration.value.toNat, "bgen",
    decimal link.bGeneration.value.toNat, "domain", link.domain.toText, "resource",
    link.resource.toText, "capacity", decimal link.capacity.toNat, "admin", link.admin.toText,
    "oper", link.oper.toText, "route", link.route.toText, "observed",
    decimalInt link.observedAt.toInt, "prov"] ++ link.provenance.fields

/-- The lines of a link. -/
def LinkRecord.toLines (link : LinkRecord) : Text :=
  textLine link.fields ++ freeLine "+desc" link.provenance.detail

/-- The fields of a route line. -/
def RouteEvidence.fields (route : RouteEvidence) : List Text :=
  [text "route", route.ref.toText, "gen", decimal route.generation.value.toNat, "digest",
    route.authorityDigest.toHex, "resource", route.resource.toText, "capacity",
    decimal route.committedCapacity.toNat, "state", route.state.toText, "observed",
    decimalInt route.observedAt.toInt, "prov"] ++ route.provenance.fields

/-- The lines of a route. A hop without a generation of its own is written with zero. -/
def RouteEvidence.toLines (route : RouteEvidence) : Text :=
  textLine route.fields ++ freeLine "+desc" route.provenance.detail ++
  route.path.zipIdx.flatMap fun hop => textLine ["+hop", hop.1.toText,
    decimal (route.pathGenerations.getD hop.2 {}).value.toNat]

/-- The fields of a domain line. -/
def FailureDomainRecord.fields (domain : FailureDomainRecord) : List Text :=
  [text "fdom", domain.id.toText, "kind", domain.kind.toText, "prov"] ++ domain.provenance.fields ++
    freeField domain.provenance.detail

/-- The lines of a domain. -/
def FailureDomainRecord.toLines (domain : FailureDomainRecord) : Text :=
  textLine domain.fields ++ freeLine "+desc" domain.description ++
  domain.members.flatMap fun rack => textLine ["+member", rack.toText]

/-- The fields of a requirement line. -/
def CapacityRequirement.fields (requirement : CapacityRequirement) : List Text :=
  ["+require", requirement.resource.toText, decimal requirement.minimum.toNat,
    decimal requirement.marginPercent.toNat]

/-- The fields of an obligation line. -/
def Obligation.fields (obligation : Obligation) : List Text :=
  [text "obligation", obligation.id.toText, "kind", obligation.kind.toText, "tenant",
    obligation.tenant.toText, "mandatory", flagText obligation.mandatory, "domains",
    decimal obligation.requiredDomains.toNat, "diversity", obligation.diversityKind.toText,
    "prov"] ++ obligation.provenance.fields ++ freeField obligation.provenance.detail

/-- The lines of an obligation: its own, then those of what it requires. -/
def Obligation.toLines (obligation : Obligation) : Text :=
  textLine obligation.fields ++ freeLine "+desc" obligation.description ++
  (obligation.protectedRacks.flatMap fun rack => textLine ["+rack", rack.toText]) ++
  obligation.requirements.flatMap fun requirement => textLine requirement.fields

/-- The lines in front of the records. The first one names the exchange format; the revision of the
snapshot document has a line of its own. -/
def PodSnapshot.headerLines (s : PodSnapshot) : Text :=
  textLine [textSchema] ++
  textLine ["schema", if s.schema.isEmpty then snapshotSchema else s.schema] ++
  textLine ["pod", s.pod.toText] ++
  textLine ["observed-at", decimalInt s.observedAt.toInt] ++
  textLine ("prov" :: s.provenance.fields) ++ freeLine "+detail" s.provenance.detail

/-- The canonical text of a snapshot (`to_text`). -/
def PodSnapshot.toText (s : PodSnapshot) : Text :=
  s.headerLines ++ s.members.flatMap MemberRecord.toLines ++ s.links.flatMap LinkRecord.toLines ++
  s.routes.flatMap RouteEvidence.toLines ++ s.domains.flatMap FailureDomainRecord.toLines ++
  s.obligations.flatMap Obligation.toLines ++ textLine ["end"]

end PodFabric
