import PodFabric.Core.Bytes
import PodFabric.Model.Evidence

/-!
# Binary encoding of evidence

The canonical binary encoding of snapshots, of the records they are made of, and of expectations and
tokens: for each record what is written and what is read, field by field. Decoding checks
enumerations against their range and identities against their canonical form.
-/

namespace PodFabric

/-- Binary revision of the encoding. -/
def binaryVersion : UInt16 := 1

/-! ## Identities, enumerations and digests -/

/-- Writes an identifier (`put_typed_id`). -/
def putTypedId {tag : IdTag} (id : BasicId tag) : ByteWriter Unit := putString id.token

/-- Reads an identifier (`get_typed_id`). -/
def getTypedId {tag : IdTag} (what : Text) : ByteReader (BasicId tag) := do
  let token ← getString
  if token.isEmpty then return .nil
  match (BasicId.parse token : Result (BasicId tag)) with
  | .ok id => return id
  | .error _ =>
    throw ⟨.invalid, text "field '" ++ what ++ text "' is not a canonical identity"⟩

/-- The underlying value of an enumeration. -/
def putEnum (raw : ℕ) : ByteWriter Unit := putU8 raw.toUInt8

/-- An enumeration whose largest value is `max`, with the status for a value out of range. -/
def getRanged {α : Type} (ofNat : ℕ → α) (max : ℕ) (status : Status) : ByteReader α := do
  let raw ← getU8
  getCheck (raw.toNat ≤ max) status
  return ofNat raw.toNat

/-- Reads an enumeration, given by its number (`get_enum`). -/
def getEnum {α : Type} (ofNat : ℕ → α) (max : ℕ) (what : Text) : ByteReader α :=
  getRanged ofNat max
    ⟨.invalid, text "field '" ++ what ++ text "' has an out-of-range value"⟩

/-- Writes the sixteen bytes of an identifier. -/
def putUuid (id : Uuid) : ByteWriter Unit := putRaw id.bytes

/-- Reads the sixteen bytes of an identifier. -/
def getUuid : ByteReader Uuid := do
  let raw ← getRaw 16
  if h : raw.length = 16 then return ⟨raw, h⟩
  else throw ⟨.internal, []⟩

/-- Writes the bytes of a digest. -/
def putDigest (digest : Digest) : ByteWriter Unit := putRaw digest.bytes

/-- Reads the bytes of a digest. -/
def getDigest : ByteReader Digest := do
  let raw ← getRaw 32
  if h : raw.length = 32 then return ⟨raw, h⟩
  else throw ⟨.internal, []⟩

/-! ## Provenance and capacity -/

/-- Writes a provenance (`put_provenance`). -/
def putProvenance (p : Provenance) : ByteWriter Unit := do
  putEnum p.quality.ctorIdx
  putEnum p.klass.ctorIdx
  putTypedId p.source
  putU64 p.sourceSequence
  putString p.detail

/-- Reads a provenance (`get_provenance`). -/
def getProvenance : ByteReader Provenance := do
  let quality ← getRanged EvidenceQuality.ofNat 2
    ⟨.invalid, "provenance quality value out of range"⟩
  let klass ← getRanged EvidenceClass.ofNat 3 ⟨.invalid, "provenance class value out of range"⟩
  let source ← getTypedId "provenance.source"
  let sourceSequence ← getU64
  let detail ← getString
  return { quality, klass, source, sourceSequence, detail }

/-- Writes a capacity claim (`put_claim`). -/
def putClaim (claim : CapacityClaim) : ByteWriter Unit := do
  putTypedId claim.resource
  putTypedId claim.exclusivity
  putU64 claim.amount
  putU64 claim.reserved
  putTypedId claim.domain
  putProvenance claim.provenance

/-- Reads a capacity claim (`get_claim`). -/
def getClaim : ByteReader CapacityClaim := do
  let resource ← getTypedId "capacity.resource"
  let exclusivity ← getTypedId "capacity.exclusivity"
  let amount ← getU64
  let reserved ← getU64
  let domain ← getTypedId "capacity.domain"
  let provenance ← getProvenance
  return { resource, exclusivity, amount, reserved, domain, provenance }

/-! ## The records of a snapshot -/

/-- Writes the record of a rack. -/
def putMember (member : MemberRecord) : ByteWriter Unit := do
  putTypedId member.rack
  putU64 member.generation.value
  putDigest member.digest
  putString member.rnfSchema
  putEnum member.membership.ctorIdx
  putEnum member.admin.ctorIdx
  putEnum member.health.ctorIdx
  putSequence putTypedId member.failureDomains
  putSequence putClaim member.capacity
  putSequence putTypedId member.ports
  putProvenance member.provenance
  putI64 member.observedAt

/-- Reads the record of a rack. -/
def getMember : ByteReader MemberRecord := do
  let rack ← getTypedId "member.rack"
  let generation ← getU64
  let digest ← getDigest
  let rnfSchema ← getString
  let membership ← getEnum MembershipState.ofNat 4 "member.membership"
  let admin ← getEnum AdminState.ofNat 3 "member.admin"
  let health ← getEnum HealthState.ofNat 3 "member.health"
  let failureDomains ← getSequence 1 (getTypedId "member.domain")
  let capacity ← getSequence 24 getClaim
  let ports ← getSequence 1 (getTypedId "member.port")
  let provenance ← getProvenance
  let observedAt ← getI64
  return { rack, generation := ⟨generation⟩, digest, rnfSchema, membership, admin, health,
           failureDomains, capacity, ports, provenance, observedAt }

/-- Writes the record of a link. -/
def putLink (link : LinkRecord) : ByteWriter Unit := do
  putTypedId link.id
  putTypedId link.a.rack
  putTypedId link.a.port
  putTypedId link.b.rack
  putTypedId link.b.port
  putTypedId link.domain
  putTypedId link.resource
  putU64 link.capacity
  putEnum link.admin.ctorIdx
  putEnum link.oper.ctorIdx
  putU64 link.aGeneration.value
  putU64 link.bGeneration.value
  putTypedId link.route
  putProvenance link.provenance
  putI64 link.observedAt

/-- Reads the record of a link. -/
def getLink : ByteReader LinkRecord := do
  let id ← getTypedId "link.id"
  let aRack ← getTypedId "link.a.rack"
  let aPort ← getTypedId "link.a.port"
  let bRack ← getTypedId "link.b.rack"
  let bPort ← getTypedId "link.b.port"
  let domain ← getTypedId "link.domain"
  let resource ← getTypedId "link.resource"
  let capacity ← getU64
  let admin ← getEnum AdminState.ofNat 3 "link.admin"
  let oper ← getEnum OperationalState.ofNat 3 "link.oper"
  let aGeneration ← getU64
  let bGeneration ← getU64
  let route ← getTypedId "link.route"
  let provenance ← getProvenance
  let observedAt ← getI64
  return { id, a := ⟨aRack, aPort⟩, b := ⟨bRack, bPort⟩, domain, resource, capacity, admin, oper,
           aGeneration := ⟨aGeneration⟩, bGeneration := ⟨bGeneration⟩, route, provenance,
           observedAt }

/-- Writes the evidence of a route. -/
def putRoute (route : RouteEvidence) : ByteWriter Unit := do
  putTypedId route.ref
  putU64 route.generation.value
  putDigest route.authorityDigest
  putSequence putTypedId route.path
  putSequence (fun generation => putU64 generation.value) route.pathGenerations
  putTypedId route.resource
  putU64 route.committedCapacity
  putEnum route.state.ctorIdx
  putProvenance route.provenance
  putI64 route.observedAt

/-- A generation on its own. -/
def getGeneration : ByteReader RackGeneration := do
  let value ← getU64
  return ⟨value⟩

/-- Reads the evidence of a route. -/
def getRoute : ByteReader RouteEvidence := do
  let ref ← getTypedId "route.ref"
  let generation ← getU64
  let authorityDigest ← getDigest
  let path ← getSequence 1 (getTypedId "route.path")
  let pathGenerations ← getSequence 8 getGeneration
  let resource ← getTypedId "route.resource"
  let committedCapacity ← getU64
  let state ← getEnum RouteState.ofNat 4 "route.state"
  let provenance ← getProvenance
  let observedAt ← getI64
  return { ref, generation := ⟨generation⟩, authorityDigest, path, pathGenerations, resource,
           committedCapacity, state, provenance, observedAt }

/-- Writes the record of a domain. -/
def putDomain (domain : FailureDomainRecord) : ByteWriter Unit := do
  putTypedId domain.id
  putEnum domain.kind.ctorIdx
  putSequence putTypedId domain.members
  putString domain.description
  putProvenance domain.provenance

/-- Reads the record of a domain. -/
def getDomain : ByteReader FailureDomainRecord := do
  let id ← getTypedId "domain.id"
  let kind ← getEnum DomainKind.ofNat 5 "domain.kind"
  let members ← getSequence 1 (getTypedId "domain.member")
  let description ← getString
  let provenance ← getProvenance
  return { id, kind, members, description, provenance }

/-- Writes a capacity requirement. -/
def putRequirement (requirement : CapacityRequirement) : ByteWriter Unit := do
  putTypedId requirement.resource
  putU64 requirement.minimum
  putU32 requirement.marginPercent

/-- Reads a capacity requirement. -/
def getRequirement : ByteReader CapacityRequirement := do
  let resource ← getTypedId "obligation.resource"
  let minimum ← getU64
  let marginPercent ← getU32
  return { resource, minimum, marginPercent }

/-- Writes an obligation. -/
def putObligation (obligation : Obligation) : ByteWriter Unit := do
  putTypedId obligation.id
  putEnum obligation.kind.ctorIdx
  putTypedId obligation.tenant
  putString obligation.description
  putSequence putTypedId obligation.protectedRacks
  putU32 obligation.requiredDomains
  putEnum obligation.diversityKind.ctorIdx
  putSequence putRequirement obligation.requirements
  putBool obligation.mandatory
  putProvenance obligation.provenance

/-- Reads an obligation. -/
def getObligation : ByteReader Obligation := do
  let id ← getTypedId "obligation.id"
  let kind ← getEnum ObligationKind.ofNat 3 "obligation.kind"
  let tenant ← getTypedId "obligation.tenant"
  let description ← getString
  let protectedRacks ← getSequence 1 (getTypedId "obligation.rack")
  let requiredDomains ← getU32
  let diversityKind ← getEnum DomainKind.ofNat 5 "obligation.kind"
  let requirements ← getSequence 16 getRequirement
  let mandatory ← getBool
  let provenance ← getProvenance
  return { id, kind, tenant, description, protectedRacks, requiredDomains, diversityKind,
           requirements, mandatory, provenance }

/-! ## Expectations and tokens -/

/-- Writes an expected member. -/
def putExpectation (expectation : MemberExpectation) : ByteWriter Unit := do
  putTypedId expectation.rack
  putU64 expectation.generation.value
  putDigest expectation.digest
  putEnum expectation.membership.ctorIdx

/-- Reads an expected member. -/
def getExpectation : ByteReader MemberExpectation := do
  let rack ← getTypedId "expectation.rack"
  let generation ← getU64
  let digest ← getDigest
  let membership ← getEnum MembershipState.ofNat 4 "expectation.membership"
  return { rack, generation := ⟨generation⟩, digest, membership }

/-- Writes a token. -/
def putToken (token : AuthorityToken) : ByteWriter Unit := do
  putTypedId token.lease
  putTypedId token.pod
  putU64 token.epoch.value
  putUuid token.incarnation.id
  putEnum token.scope.ctorIdx
  putTypedId token.subject
  putI64 token.issuedAt
  putI64 token.expiresAt
  putU64 token.fencing.value
  putDigest token.payloadDigest

/-- Reads a token. -/
def getToken : ByteReader AuthorityToken := do
  let lease ← getTypedId "token.lease"
  let pod ← getTypedId "token.pod"
  let epoch ← getU64
  let incarnation ← getUuid
  let scope ← getEnum AuthorityScope.ofNat 4 "token.scope"
  let subject ← getTypedId "token.subject"
  let issuedAt ← getI64
  let expiresAt ← getI64
  let fencing ← getU64
  let payloadDigest ← getDigest
  return { lease, pod, epoch := ⟨epoch⟩, incarnation := ⟨incarnation⟩, scope, subject, issuedAt,
           expiresAt, fencing := ⟨fencing⟩, payloadDigest }

/-! ## Snapshots -/

/-- Writes a snapshot. -/
def putSnapshot (snapshot : PodSnapshot) : ByteWriter Unit := do
  putU16 binaryVersion
  putTypedId snapshot.pod
  putString snapshot.schema
  putSequence putMember snapshot.members
  putSequence putLink snapshot.links
  putSequence putRoute snapshot.routes
  putSequence putDomain snapshot.domains
  putSequence putObligation snapshot.obligations
  putProvenance snapshot.provenance
  putI64 snapshot.observedAt

/-- Reads a snapshot. -/
def getSnapshot : ByteReader PodSnapshot := do
  let version ← getU16
  getCheck (version = binaryVersion)
    ⟨.unsupported, "snapshot encoding version is not supported"⟩
  let pod ← getTypedId "pod"
  let schema ← getString
  let members ← getSequence 8 getMember
  let links ← getSequence 16 getLink
  let routes ← getSequence 12 getRoute
  let domains ← getSequence 8 getDomain
  let obligations ← getSequence 12 getObligation
  let provenance ← getProvenance
  let observedAt ← getI64
  return { pod, schema, members, links, routes, domains, obligations, provenance, observedAt }

/-- The encoding of a snapshot, by a writer with the given limit (`encode`). -/
def PodSnapshot.encode (snapshot : PodSnapshot) (limit : ℕ) : Result (List UInt8) :=
  (putSnapshot snapshot).document limit

/-- The status for what follows a document (`expect_end`). -/
def trailingBytes : Status := ⟨.invalid, "trailing bytes after the end of the document"⟩

/-- The snapshot that bytes encode (`decode`). -/
def PodSnapshot.decode (bytes : List UInt8) : Result PodSnapshot :=
  getSnapshot.document trailingBytes bytes

end PodFabric
