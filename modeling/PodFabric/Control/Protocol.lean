import PodFabric.Control.Server
import PodFabric.Persist.Encoding

/-!
# Protocol messages

The binary encoding of requests and responses. Decoding holds each enumeration against a bound of
its own. Only a request to apply evidence carries a snapshot.
-/

namespace PodFabric

/-- The version of the messages. -/
def protocolVersion : UInt16 := 1

/-- The number of a kind on the wire. -/
def MessageKind.number (kind : MessageKind) : UInt16 := (kind.ctorIdx + 1).toUInt16

/-- The error of a kind that is not known. -/
def unknownKind : Status := ⟨.invalid, "request kind is not recognised"⟩

/-- The kinds from `Hello` to `Erase`. -/
def IsKind (number : UInt16) : Prop :=
  MessageKind.hello.number ≤ number ∧ number ≤ MessageKind.erase.number

instance (number : UInt16) : Decidable (IsKind number) :=
  inferInstanceAs (Decidable (_ ∧ _))

/-- Reads the kind of a request. -/
def getKind : ByteReader MessageKind := do
  let number ← getU16
  getCheck (IsKind number) unknownKind
  return .ofNat (number.toNat - 1)

/-- Writes a request. -/
def putRequest (request : Request) : ByteWriter Unit := do
  putCheck (IsKind request.kind.number) unknownKind
  putU16 protocolVersion
  putU16 request.kind.number
  putU64 request.nonce
  putTypedId request.rack
  putEnum request.admin.ctorIdx
  putBool request.clearAdmin
  putEnum request.scope.ctorIdx
  putI64 request.lifetime
  putToken request.token
  putTypedId request.lease
  putBool (request.kind = .apply)
  if request.kind = .apply then putSnapshot request.snapshot

/-- The snapshot that follows a request, or the default one. -/
def getAttached (hasSnapshot : Bool) : ByteReader PodSnapshot :=
  if hasSnapshot then getSnapshot else return {}

/-- Reads a request. -/
def getRequest : ByteReader Request := do
  let version ← getU16
  getCheck (version = protocolVersion) ⟨.unsupported, "protocol revision is not supported"⟩
  let kind ← getKind
  let nonce ← getU64
  let rack ← getTypedId "request.rack"
  let admin ← getRanged AdminState.ofNat 3 ⟨.invalid, "request admin mode is out of range"⟩
  let clearAdmin ← getBool
  let scope ← getRanged AuthorityScope.ofNat 4
    ⟨.invalid, "request authority scope is out of range"⟩
  let lifetime ← getI64
  let token ← getToken
  let lease ← getTypedId "request.lease"
  let hasSnapshot ← getBool
  let snapshot ← getAttached hasSnapshot
  return { kind, snapshot, rack, admin, clearAdmin, scope, lifetime, token, lease, nonce }

/-- Writes a response. -/
def putResponse (response : Response) : ByteWriter Unit := do
  putU16 protocolVersion
  putEnum response.code.ctorIdx
  putString response.message
  putU64 response.epoch.value
  putUuid response.incarnation.id
  putEnum response.lifecycle.ctorIdx
  putDigest response.stateDigest
  putEnum response.outcome.ctorIdx
  putBool response.revalidationSound
  putString response.revalidation
  putText response.text
  putBool response.textTruncated
  putEnum response.recovery.ctorIdx
  putBool response.ambiguousCommit
  putU32 response.establishedMembers
  putU32 response.fencedMembers
  putU32 response.staleMembers
  putU32 response.conflictingMembers
  putToken response.token
  putEnum response.verdict.ctorIdx
  putString response.verdictDetail
  putU64 response.nonce

/-- Reads a response. -/
def getResponse : ByteReader Response := do
  let version ← getU16
  getCheck (version = protocolVersion) ⟨.unsupported, "protocol revision is not supported"⟩
  let code ← getRanged Code.ofNat 15 ⟨.invalid, "response code is out of range"⟩
  let message ← getString
  let epoch ← getU64
  let incarnation ← getUuid
  let lifecycle ← getRanged LifecycleState.ofNat 7 ⟨.invalid, "response lifecycle is out of range"⟩
  let stateDigest ← getDigest
  let outcome ← getRanged PodController.ApplyOutcome.ofNat 4
    ⟨.invalid, "response outcome is out of range"⟩
  let revalidationSound ← getBool
  let revalidation ← getString
  let text ← getText
  let textTruncated ← getBool
  let recovery ← getRanged RecoveryOutcome.ofNat 7
    ⟨.invalid, "response recovery outcome is out of range"⟩
  let ambiguousCommit ← getBool
  let establishedMembers ← getU32
  let fencedMembers ← getU32
  let staleMembers ← getU32
  let conflictingMembers ← getU32
  let token ← getToken
  let verdict ← getRanged AuthorityVerdictCode.ofNat 10
    ⟨.invalid, "response authority verdict is out of range"⟩
  let verdictDetail ← getString
  let nonce ← getU64
  return { code, message, epoch := ⟨epoch⟩, incarnation := ⟨incarnation⟩, lifecycle, stateDigest,
           outcome, revalidationSound, revalidation, text, textTruncated, recovery,
           ambiguousCommit, establishedMembers, fencedMembers, staleMembers, conflictingMembers,
           token, verdict, verdictDetail, nonce }

/-- The encoding of a request (`encode_request`). -/
def Request.encode (request : Request) : Result (List UInt8) :=
  (putRequest request).document codecLimits.maxDocumentBytes

/-- The request that bytes encode (`decode_request`). -/
def Request.decode (bytes : List UInt8) : Result Request :=
  getRequest.document trailingBytes bytes

/-- The encoding of a response (`encode_response`). A server that cannot encode its response drops
the connection. -/
def Response.encode (response : Response) : Result (List UInt8) :=
  (putResponse response).document codecLimits.maxDocumentBytes

/-- The response that bytes encode (`decode_response`). -/
def Response.decode (bytes : List UInt8) : Result Response :=
  getResponse.document trailingBytes bytes

end PodFabric
