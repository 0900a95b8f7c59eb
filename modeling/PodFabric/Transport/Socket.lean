import PodFabric.Transport.Frame
import PodFabric.Lib.Proc
import PodFabric.Lib.Stream

/-!
# Sockets

A connection to a peer: what the peer sends arrives in pieces, and a call that receives or sends may
fail. Frames are read and written whole. Endpoints are named by a host and a port.
-/

namespace PodFabric.Transport

/-- What a peer sends. A call that receives may fail with a text. -/
abbrev Incoming := Arrivals UInt8 Text

/-- What is yet to arrive from the peer, and what was sent to it. -/
structure Socket where
  incoming : Incoming
  outgoing : List UInt8 := []

/-- A procedure that uses a socket. -/
abbrev Transfer := Proc Status Socket

/-- What was received, or what is reported instead: `closed` if the peer has closed before. -/
def received (closed : Status) : Except (Option Text) (List UInt8) → Result (List UInt8)
  | .ok bytes => .ok bytes
  | .error none => .error closed
  | .error (some error) => .error ⟨.unavailable, error⟩

/-- Receives `n` bytes (the loops over `recv_some`). -/
def receiveAll (n : ℕ) (closed : Status) : Transfer (List UInt8) := do
  let socket ← get
  modify fun socket => { socket with incoming := (socket.incoming.fill n).2 }
  liftM (received closed (socket.incoming.fill n).1)

/-- How a send fails, if it does: behind this number of bytes, with this text. -/
abbrev SendFailure := Option (ℕ × Text)

/-- Sends all of the data, unless that fails before its end. -/
def sendAll (data : List UInt8) (failure : SendFailure) : Transfer Unit :=
  match failure.filter fun f => f.1 < data.length with
  | none => modify fun socket => { socket with outgoing := socket.outgoing ++ data }
  | some (sent, error) => do
    modify fun socket => { socket with outgoing := socket.outgoing ++ data.take sent }
    throw ⟨.unavailable, error⟩

/-- Reads exactly one frame. The limits are enforced before the payload is received. -/
def readFrame (maxPayload : ℕ) : Transfer Frame := do
  let headerBytes ← receiveAll frameHeaderSize ⟨.cancelled, "the peer closed the connection"⟩
  let header ← liftM (parseFrameHeader headerBytes)
  liftM (ensure (header.length.toNat ≤ maxPayload)
    (⟨.exhausted, "frame payload exceeds the connection limit"⟩ : Status))
  let body ← receiveAll header.length.toNat
    ⟨.incomplete, "the peer closed inside a frame payload"⟩
  let whole := headerBytes ++ body
  let verified ← liftM (parseFrameHeader whole)
  liftM (ensure (verifyFrame whole verified) (⟨.corrupt, "frame checksum mismatch"⟩ : Status))
  return {
    type := verified.type
    flags := verified.flags
    correlation := verified.correlation
    payload := whole.drop frameHeaderSize }

/-- Sends one frame. -/
def writeFrame (frame : Frame) (failure : SendFailure) : Transfer Unit := do
  let encoded ← liftM (encodeFrame frame)
  sendAll encoded failure

/-! ## Endpoints -/

/-- The text of an endpoint: the host, a colon, the port (`format_endpoint`). -/
def formatEndpoint (host : Text) (port : UInt16) : Text := host ++ 58 :: decimal port.toNat

/-- The digits of a port, behind a value read so far. -/
def parsePort : ℕ → Text → Result UInt16
  | port, [] => .ok port.toUInt16
  | port, c :: service =>
    if c < 48 ∨ 57 < c then fail .invalid "endpoint port is not numeric"
    else if 65535 < port * 10 + (c.toNat - 48) then fail .invalid "endpoint port is out of range"
    else parsePort (port * 10 + (c.toNat - 48)) service

/-- What stands before and behind the last colon (`rfind`). -/
def splitEndpoint : Text → Option (Text × Text)
  | [] => none
  | c :: rest =>
    match splitEndpoint rest with
    | some (host, service) => some (c :: host, service)
    | none => if c = 58 then some ([], rest) else none

/-- The host and the port of an endpoint (`parse_endpoint`). -/
def parseEndpoint (t : Text) : Result (Text × UInt16) :=
  match splitEndpoint t with
  | none => fail .invalid "endpoint must be written as host:port"
  | some (host, service) =>
    if host.isEmpty ∨ service.isEmpty then fail .invalid "endpoint must be written as host:port"
    else do
      let port ← parsePort 0 service
      return (host, port)

end PodFabric.Transport
