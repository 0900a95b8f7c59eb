import PodFabric.Transport.Frame
import PodFabric.Proof.Checksum

/-!
# Integrity of frames

An encoded frame is accepted as what it was made of, and no byte of it can be replaced unnoticed
(`frame_integrity`).
-/

namespace PodFabric.Transport

variable {frame : Frame} {data : List UInt8}

/-- The framing of a frame has its fixed length. -/
theorem length_framing : frame.framing.length = frameHeaderSize - 4 := rfl

/-- A frame that may be sent, and what is sent for it. -/
theorem encodeFrame_eq_ok : encodeFrame frame = .ok data ↔
    frame.payload.length ≤ frameHardMaxPayload ∧
      frame.framing ++ (bytes32 (crc32c (frame.framing ++ frame.payload)) ++ frame.payload) =
        data := by
  simp only [encodeFrame, check_eq_ok, ensure_eq_ok, pure_eq_ok, List.append_assoc]

/-- The number of a frame's type. -/
theorem toNat_raw (type : FrameType) : type.raw.toNat = type.ctorIdx + 1 := by
  cases type <;> rfl

/-- What is recovered of a frame. -/
def Frame.header (frame : Frame) : FrameHeader where
  type := frame.type
  flags := frame.flags
  length := frame.payload.length.toUInt32
  correlation := frame.correlation
  crc := crc32c (frame.framing ++ frame.payload)

/-- A frame within the bound is read back. -/
theorem parse_frame (h : frame.payload.length ≤ frameHardMaxPayload) :
    parseFrameHeader (frame.framing ++
      (bytes32 (crc32c (frame.framing ++ frame.payload)) ++ frame.payload)) =
        .ok frame.header := by
  have hle : frame.type.ctorIdx + 1 ≤ 8 := by
    cases frame.type <;> decide
  have hfits : (UInt32.ofNat frame.payload.length).toNat ≤ frameHardMaxPayload :=
    (toNat_length h (by decide)).le.trans h
  generalize hdata : frame.framing ++
    (bytes32 (crc32c (frame.framing ++ frame.payload)) ++ frame.payload) = data
  have hmagic : data.take 4 = bytes32 frameMagic := by rw [← hdata]; rfl
  have hversion : (data.drop 4).take 2 = bytes16 frameVersion := by rw [← hdata]; rfl
  have htype : (data.drop 6).take 2 = bytes16 frame.type.raw := by rw [← hdata]; rfl
  have hflags : (data.drop 8).take 4 = bytes32 frame.flags := by rw [← hdata]; rfl
  have hsize : (data.drop 12).take 4 = bytes32 frame.payload.length.toUInt32 := by
    rw [← hdata]
    rfl
  have hcorrelation : (data.drop 16).take 8 = bytes64 frame.correlation := by rw [← hdata]; rfl
  have hcrc : (data.drop 24).take 4 = bytes32 (crc32c (frame.framing ++ frame.payload)) := by
    rw [← hdata]
    rfl
  have hlong : frameHeaderSize ≤ data.length := by
    rw [← hdata]
    simp only [List.length_append, length_framing, length_bytes32, frameHeaderSize]
    omega
  rw [parseFrameHeader, hmagic, hversion, htype, hflags, hsize, hcorrelation, hcrc]
  simp only [bigEndian_bytes16, bigEndian_bytes32, bigEndian_bytes64, toNat_raw, ensure, hlong,
    if_true, UInt32.ofNat_toNat, UInt16.ofNat_toNat, UInt64.ofNat_toNat, Nat.toUInt32,
    Nat.toUInt16, Nat.toUInt64, hfits, Nat.le_add_left, hle, and_self, Nat.add_sub_cancel,
    FrameType.ofNat_ctorIdx]
  rfl

/-- The checksum of a frame that is verified is the one its header has. -/
theorem parseFrameHeader_crc {header : FrameHeader} (h : parseFrameHeader data = .ok header) :
    header.crc = (bigEndian ((data.drop 24).take 4)).toUInt32 := by
  simp only [parseFrameHeader, check_eq_ok, ensure_eq_ok, pure_eq_ok] at h
  obtain ⟨-, -, -, -, -, rfl⟩ := h
  rfl

/-- A frame is accepted when its length and its checksum are right. -/
theorem verifyFrame_eq_true {header : FrameHeader} : verifyFrame data header = true ↔
    data.length = frameHeaderSize + header.length.toNat ∧
      crc32c (data.take (frameHeaderSize - 4) ++ data.drop frameHeaderSize) = header.crc := by
  unfold verifyFrame
  split
  · next h => exact iff_of_false (by simp) fun hv => h hv.1
  · next h => simpa using fun _ => not_not.1 h

/-- A frame is not verified once a byte of it is replaced. -/
theorem verifyFrame_altered {data' : List UInt8} {header : FrameHeader}
    (hdata : encodeFrame frame = .ok data) (h : Altered data data')
    (hparse : parseFrameHeader data' = .ok header) : verifyFrame data' header = false := by
  obtain ⟨hfits, rfl⟩ := encodeFrame_eq_ok.1 hdata
  have hsize : data'.length = frameHeaderSize + frame.payload.length := by
    rw [h.length_eq]
    simp only [List.length_append, length_framing, length_bytes32, frameHeaderSize]
    omega
  rw [Bool.eq_false_iff, ne_eq, verifyFrame_eq_true, parseFrameHeader_crc hparse]
  rintro ⟨-, hcrc⟩
  have hsplit : data' = data'.take 24 ++ ((data'.drop 24).take 4 ++ data'.drop 28) := by
    conv_lhs => rw [← List.take_append_drop 24 data', ← List.take_append_drop 4 (data'.drop 24)]
    rw [List.drop_drop]
  have hsealLength : ((data'.drop 24).take 4).length = 4 := by
    rw [List.length_take, List.length_drop, hsize, frameHeaderSize]
    omega
  rw [hsplit] at h
  refine sealed_altered crc32c_bytes_altered ?_ hsealLength h ?_
  · rw [List.length_take, length_framing, hsize, frameHeaderSize]
    omega
  · refine bigEndian_injective hsealLength ?_
    rw [bigEndian_bytes32]
    change crc32c (data'.take 24 ++ data'.drop 28) = _ at hcrc
    have hlt := @bigEndian_lt ((data'.drop 24).take 4)
    rw [hsealLength] at hlt
    rw [hcrc]
    exact (UInt32.toNat_ofNat_of_lt' hlt).symm

/-- **A frame is recovered as it was sent, and no byte of it can be replaced unnoticed.** -/
theorem frame_integrity {frame : Frame} {data : List UInt8} (hdata : encodeFrame frame = .ok data) :
    (∃ header, parseFrameHeader data = .ok header ∧ verifyFrame data header = true ∧
      header.type = frame.type ∧ header.flags = frame.flags ∧
      header.correlation = frame.correlation ∧ data.drop frameHeaderSize = frame.payload) ∧
    ∀ (k : ℕ) (b : UInt8) (hk : k < data.length), data[k] ≠ b →
      ∀ header, parseFrameHeader (data.set k b) = .ok header →
        verifyFrame (data.set k b) header = false := by
  refine ⟨?_, fun k b hk hb header hparse => verifyFrame_altered hdata (Altered.set hk hb) hparse⟩
  obtain ⟨hfits, rfl⟩ := encodeFrame_eq_ok.1 hdata
  refine ⟨_, parse_frame hfits, verifyFrame_eq_true.2 ⟨?_, rfl⟩, rfl, rfl, rfl, rfl⟩
  change _ = frameHeaderSize + frame.payload.length.toUInt32.toNat
  rw [toNat_length hfits (by decide)]
  simp only [List.length_append, length_framing, length_bytes32, frameHeaderSize]
  omega

namespace Sample

/-- A ping. -/
def ping : Frame := { type := .ping, correlation := 5, payload := [1, 2, 3] }

end Sample

/-- The frame of a ping. -/
theorem ping_integrity : ∃ data, encodeFrame Sample.ping = .ok data ∧
    ∀ header, parseFrameHeader (data.set 15 4) = .ok header →
      verifyFrame (data.set 15 4) header = false := by
  have hdata : encodeFrame Sample.ping = .ok (Sample.ping.framing ++
      (bytes32 (crc32c (Sample.ping.framing ++ Sample.ping.payload)) ++ Sample.ping.payload)) :=
    encodeFrame_eq_ok.2 ⟨by decide, rfl⟩
  exact ⟨_, hdata, (frame_integrity hdata).2 15 4 (by decide) (by decide)⟩

end PodFabric.Transport
