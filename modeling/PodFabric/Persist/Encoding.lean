import PodFabric.Codec.Binary
import PodFabric.Persist.DurableState

/-!
# Binary encoding of the durable state

The encoding has an explicit revision, so that a record of another one is refused rather than
misread. Decoding sorts the expectations and rejects two for one rack.
-/

namespace PodFabric

/-- Writes an override: the rack, then its administrative state. -/
def putOverride (entry : RackId × AdminState) : ByteWriter Unit := do
  putTypedId entry.1
  putEnum entry.2.ctorIdx

/-- Reads an override. -/
def getOverride : ByteReader (RackId × AdminState) := do
  let rack ← getTypedId "durable.admin.rack"
  let mode ← getRanged AdminState.ofNat 3
    ⟨.invalid, "durable state has an out-of-range admin mode"⟩
  return (rack, mode)

/-- Writes the durable state. -/
def putDurableState (state : DurableState) : ByteWriter Unit := do
  putU16 state.version
  putTypedId state.pod
  putU64 state.epoch.value
  putUuid state.writer.id
  putEnum state.lifecycle.ctorIdx
  putSequence putExpectation state.expectations
  putSequence putToken state.tokens
  putSequence putTypedId state.revoked
  putSequence putOverride state.admin
  putU64 state.fencing.value
  putDigest state.lastStateDigest
  putU64 state.sequence
  putI64 state.writtenAt

/-- Reads the durable state. -/
def getDurableState : ByteReader DurableState := do
  let version ← getU16
  getCheck (version = durableStateVersion)
    ⟨.unsupported, "durable state revision is not supported"⟩
  let pod ← getTypedId "durable.pod"
  let epoch ← getU64
  let writer ← getUuid
  let lifecycle ← getRanged LifecycleState.ofNat 7
    ⟨.invalid, "durable state has an out-of-range lifecycle"⟩
  let expectations ← getSequence 8 getExpectation
  let tokens ← getSequence 16 getToken
  let revoked ← getSequence 1 (getTypedId "durable.revoked")
  let admin ← getSequence 2 getOverride
  let fencing ← getU64
  let lastStateDigest ← getDigest
  let sequence ← getU64
  let writtenAt ← getI64
  return { version, pod, epoch := ⟨epoch⟩, writer := ⟨writer⟩, lifecycle, expectations, tokens,
           revoked, admin, fencing := ⟨fencing⟩, lastStateDigest, sequence, writtenAt }

namespace DurableState

/-- The encoding of a durable state (`encode`). -/
def encode (state : DurableState) : Result (List UInt8) :=
  (putDurableState state).document codecLimits.maxDocumentBytes

/-- The durable state that bytes encode, its expectations sorted (`decode`). -/
def decode (bytes : List UInt8) : Result DurableState := do
  let state ← getDurableState.document trailingBytes bytes
  let expectations := sorted state.expectations
  ensure (expectations.IsChain fun a b => a.rack ≠ b.rack)
    ⟨.invalid, "durable state repeats a member expectation"⟩
  return { state with expectations }

end DurableState

end PodFabric
