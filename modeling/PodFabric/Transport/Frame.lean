import PodFabric.Core.Bytes

/-!
# Frames of the wire protocol

Length-prefixed, checksummed framing. The checksum covers everything except itself: the header
before it and the whole payload.
-/

namespace PodFabric.Transport

/-- "PDFB" -/
def frameMagic : UInt32 := 0x50444642

/-- The version of the frames. -/
def frameVersion : UInt16 := 1

/-- The bytes of a frame's header. -/
def frameHeaderSize : ℕ := 28

/-- The payloads that a connection takes. -/
def frameMaxPayload : ℕ := 4 * 1024 * 1024

/-- Frames larger than this are rejected outright. -/
def frameHardMaxPayload : ℕ := 32 * 1024 * 1024

/-- The types of frames. -/
inductive FrameType
  | hello | request | response | error | ping | pong | shutdown | cancel
  deriving DecidableEq, Repr

/-- The underlying value. -/
def FrameType.raw (type : FrameType) : UInt16 := type.ctorIdx.toUInt16 + 1

/-- The header of a frame. -/
structure FrameHeader where
  version : UInt16 := frameVersion
  type : FrameType := .request
  flags : UInt32 := 0
  length : UInt32 := 0
  correlation : UInt64 := 0
  crc : UInt32 := 0
  deriving DecidableEq

/-- A frame: its type, its flags, its correlation and its payload. -/
structure Frame where
  type : FrameType := .request
  flags : UInt32 := 0
  correlation : UInt64 := 0
  payload : List UInt8 := []
  deriving DecidableEq

/-- The part of the header that the checksum covers. -/
def Frame.framing (frame : Frame) : List UInt8 :=
  bytes32 frameMagic ++ bytes16 frameVersion ++ bytes16 frame.type.raw ++ bytes32 frame.flags ++
    bytes32 frame.payload.length.toUInt32 ++ bytes64 frame.correlation

/-- The bytes of a frame (`encode_frame`). -/
def encodeFrame (frame : Frame) : Result (List UInt8) := do
  ensure (frame.payload.length ≤ frameHardMaxPayload)
    ⟨.exhausted, "frame payload exceeds the hard framing limit"⟩
  return frame.framing ++ bytes32 (crc32c (frame.framing ++ frame.payload)) ++ frame.payload

/-- Reads the header of a frame (`parse_frame_header`). -/
def parseFrameHeader (bytes : List UInt8) : Result FrameHeader := do
  ensure (frameHeaderSize ≤ bytes.length) ⟨.incomplete, "frame header is truncated"⟩
  ensure ((bigEndian (bytes.take 4)).toUInt32 = frameMagic)
    ⟨.invalid, "frame magic does not match"⟩
  let version := (bigEndian ((bytes.drop 4).take 2)).toUInt16
  ensure (version = frameVersion) ⟨.unsupported, "frame revision is not supported"⟩
  let type := bigEndian ((bytes.drop 6).take 2)
  ensure (1 ≤ type ∧ type ≤ 8) ⟨.invalid, "frame type is not recognised"⟩
  let length := (bigEndian ((bytes.drop 12).take 4)).toUInt32
  ensure (length.toNat ≤ frameHardMaxPayload)
    ⟨.exhausted, "frame declares a payload beyond the hard limit"⟩
  return {
    version
    type := FrameType.ofNat (type - 1)
    flags := (bigEndian ((bytes.drop 8).take 4)).toUInt32
    length
    correlation := (bigEndian ((bytes.drop 16).take 8)).toUInt64
    crc := (bigEndian ((bytes.drop 24).take 4)).toUInt32 }

/-- Validates the checksum over the whole frame. -/
def verifyFrame (whole : List UInt8) (header : FrameHeader) : Bool :=
  if whole.length ≠ frameHeaderSize + header.length.toNat then false
  else crc32c (whole.take (frameHeaderSize - 4) ++ whole.drop frameHeaderSize) = header.crc

end PodFabric.Transport
