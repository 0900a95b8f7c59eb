import PodFabric.Proof.Transport
import PodFabric.Transport.Socket

/-!
# Frames on a socket

What a socket accepts as a frame is what is sent for one, byte for byte, and reading takes exactly
that off the stream (`read_frame_exact`). No frame begins with another one
(`frames_prefixFree`), so a stream of frames has one reading only. How the bytes are cut into pieces
on their way makes no difference, be the stream well formed or not.
-/

namespace PodFabric.Transport

variable {frame : Frame} {data rest : List UInt8} {header : FrameHeader} {maxPayload : ℕ}
  {socket after : Socket}

/-! ## What is sent for a frame -/

/-- The payload is within the largest size. -/
def Frame.Sendable (frame : Frame) : Prop := frame.payload.length ≤ frameHardMaxPayload

/-- The bytes of a frame that can be sent. -/
def Frame.bytes (frame : Frame) : List UInt8 :=
  frame.framing ++ (bytes32 (crc32c (frame.framing ++ frame.payload)) ++ frame.payload)

/-- A frame is encoded when it can be sent, to its bytes. -/
theorem encodeFrame_eq_bytes :
    encodeFrame frame = .ok data ↔ frame.Sendable ∧ frame.bytes = data := encodeFrame_eq_ok

/-- A frame has its header and its payload. -/
theorem length_bytes : frame.bytes.length = frameHeaderSize + frame.payload.length := by
  simp only [Frame.bytes, List.length_append, length_framing, length_bytes32, frameHeaderSize]
  omega

/-- The header is all that is parsed of a frame. -/
theorem parseFrameHeader_take (h : frameHeaderSize ≤ data.length) :
    parseFrameHeader (data.take frameHeaderSize) = parseFrameHeader data := by
  have hlength : frameHeaderSize ≤ (data.take frameHeaderSize).length := by
    rw [List.length_take, Nat.min_eq_left h]
  have hfield : ∀ n m, n + m ≤ frameHeaderSize →
      ((data.take frameHeaderSize).drop n).take m = (data.drop n).take m := by
    intro n m hle
    rw [List.drop_take, List.take_take, Nat.min_eq_left (by omega)]
  have hmagic : (data.take frameHeaderSize).take 4 = data.take 4 := by
    rw [List.take_take, Nat.min_eq_left (by decide)]
  unfold parseFrameHeader
  rw [hmagic, hfield 4 2 (by decide), hfield 6 2 (by decide), hfield 8 4 (by decide),
    hfield 12 4 (by decide), hfield 16 8 (by decide), hfield 24 4 (by decide)]
  simp only [ensure, hlength, h, if_true]

/-- The header of a frame that can be sent is read back. -/
theorem parse_bytes (h : frame.Sendable) :
    parseFrameHeader (frame.bytes ++ rest) = .ok frame.header := by
  have hle : frameHeaderSize ≤ frame.bytes.length := by
    rw [length_bytes]
    exact Nat.le_add_right _ _
  have hle' : frameHeaderSize ≤ (frame.bytes ++ rest).length := by
    rw [List.length_append]
    exact hle.trans (Nat.le_add_right _ _)
  rw [← parseFrameHeader_take hle', List.take_append_of_le_length hle, parseFrameHeader_take hle]
  exact parse_frame h

/-- The header declares the payload's length. -/
theorem toNat_header_length (h : frame.Sendable) :
    frame.header.length.toNat = frame.payload.length := toNat_length h (by decide)

/-- A frame as it was sent passes the check. -/
theorem verify_bytes (h : frame.Sendable) : verifyFrame frame.bytes frame.header = true := by
  refine verifyFrame_eq_true.2 ⟨?_, rfl⟩
  rw [length_bytes, toNat_header_length h]

/-- Two bytes are those of their number. -/
theorem bytes16_bigEndian {l : List UInt8} (h : l.length = 2) :
    bytes16 (bigEndian l).toUInt16 = l := by
  have hlt := @bigEndian_lt l
  rw [h] at hlt
  refine bigEndian_injective h.symm ?_
  rw [bigEndian_bytes16]
  exact UInt16.toNat_ofNat_of_lt' hlt

/-- Four bytes are those of their number. -/
theorem bytes32_bigEndian {l : List UInt8} (h : l.length = 4) :
    bytes32 (bigEndian l).toUInt32 = l := by
  have hlt := @bigEndian_lt l
  rw [h] at hlt
  refine bigEndian_injective h.symm ?_
  rw [bigEndian_bytes32]
  exact UInt32.toNat_ofNat_of_lt' hlt

/-- Eight bytes are those of their number. -/
theorem bytes64_bigEndian {l : List UInt8} (h : l.length = 8) :
    bytes64 (bigEndian l).toUInt64 = l := by
  have hlt := @bigEndian_lt l
  rw [h] at hlt
  refine bigEndian_injective h.symm ?_
  rw [bigEndian_bytes64]
  exact UInt64.toNat_ofNat_of_lt' hlt

/-- The number of a type is recognised as that of the type. -/
theorem raw_ofNat {n : ℕ} (h : 1 ≤ n ∧ n ≤ 8) : (FrameType.ofNat (n - 1)).raw = n.toUInt16 := by
  obtain ⟨hlow, hhigh⟩ := h
  interval_cases n <;> rfl

/-- The frame that is made of its bytes and their header. -/
def frameOf (data : List UInt8) (header : FrameHeader) : Frame where
  type := header.type
  flags := header.flags
  correlation := header.correlation
  payload := data.drop frameHeaderSize

/-- Bytes that pass all checks are those of a frame. -/
theorem bytes_frameOf (hparse : parseFrameHeader data = .ok header)
    (hverify : verifyFrame data header = true) :
    (frameOf data header).Sendable ∧ (frameOf data header).bytes = data := by
  obtain ⟨hsize, hcrc⟩ := verifyFrame_eq_true.1 hverify
  simp only [parseFrameHeader, check_eq_ok, ensure_eq_ok, pure_eq_ok] at hparse
  obtain ⟨hlong, hmagic, hversion, htype, hfits, hheader⟩ := hparse
  have hfield : ∀ n m, n + m ≤ frameHeaderSize → ((data.drop n).take m).length = m := by
    intro n m hle
    rw [List.length_take, List.length_drop]
    omega
  have hcount : header.length = (bigEndian ((data.drop 12).take 4)).toUInt32 := by rw [← hheader]
  have hpayload : (data.drop frameHeaderSize).length = header.length.toNat := by
    rw [List.length_drop, hsize]
    omega
  have hsendable : (data.drop frameHeaderSize).length ≤ frameHardMaxPayload := by
    rw [hpayload, hcount]
    exact hfits
  refine ⟨hsendable, ?_⟩
  have hlength : (data.drop frameHeaderSize).length.toUInt32 = header.length := by
    rw [hpayload]
    exact UInt32.ofNat_toNat
  have hmagic' : bytes32 frameMagic = data.take 4 := by
    rw [← hmagic]
    exact bytes32_bigEndian (hfield 0 4 (by decide))
  have hversion' : bytes16 frameVersion = (data.drop 4).take 2 := by
    rw [← hversion]
    exact bytes16_bigEndian (hfield 4 2 (by decide))
  have htype' : bytes16 header.type.raw = (data.drop 6).take 2 := by
    rw [← hheader, raw_ofNat htype]
    exact bytes16_bigEndian (hfield 6 2 (by decide))
  have hflags : bytes32 header.flags = (data.drop 8).take 4 := by
    rw [← hheader]
    exact bytes32_bigEndian (hfield 8 4 (by decide))
  have hcount' : bytes32 header.length = (data.drop 12).take 4 := by
    rw [hcount]
    exact bytes32_bigEndian (hfield 12 4 (by decide))
  have hcorrelation : bytes64 header.correlation = (data.drop 16).take 8 := by
    rw [← hheader]
    exact bytes64_bigEndian (hfield 16 8 (by decide))
  have hframing : (frameOf data header).framing = data.take 24 :=
    calc (frameOf data header).framing
      _ = bytes32 frameMagic ++ bytes16 frameVersion ++ bytes16 header.type.raw ++
          bytes32 header.flags ++ bytes32 header.length ++ bytes64 header.correlation := by
        rw [← hlength]
        rfl
      _ = data.take 4 ++ (data.drop 4).take 2 ++ (data.drop 6).take 2 ++ (data.drop 8).take 4 ++
          (data.drop 12).take 4 ++ (data.drop 16).take 8 := by
        rw [hmagic', hversion', htype', hflags, hcount', hcorrelation]
      _ = data.take 24 := by
        rw [← List.take_add, ← List.take_add, ← List.take_add, ← List.take_add, ← List.take_add]
  have hseal : bytes32 (crc32c (data.take 24 ++ data.drop frameHeaderSize)) =
      (data.drop 24).take 4 := by
    have hcrc' : crc32c (data.take 24 ++ data.drop frameHeaderSize) = header.crc := hcrc
    rw [hcrc', ← hheader]
    exact bytes32_bigEndian (hfield 24 4 (by decide))
  have htail : data.drop frameHeaderSize = (data.drop 24).drop 4 := by
    rw [List.drop_drop]
    rfl
  rw [Frame.bytes, hframing]
  change data.take 24 ++ (bytes32 (crc32c (data.take 24 ++ data.drop frameHeaderSize)) ++
    data.drop frameHeaderSize) = data
  rw [hseal, htail, List.take_append_drop, List.take_append_drop]

/-! ## Reading -/

/-- What `receiveAll` returns is what filling the buffer gives. -/
theorem on_receiveAll {n : ℕ} {closed : Status} : (receiveAll n closed).on socket =
    (received closed (socket.incoming.fill n).1,
      { socket with incoming := (socket.incoming.fill n).2 }) := by
  unfold receiveAll
  rw [Proc.on_bind, Proc.on_get]
  dsimp only
  rw [Proc.on_bind, Proc.on_modify]
  exact Proc.on_liftM

/-- What was received was in front of the stream. -/
theorem receiveAll_eq_ok {n : ℕ} {closed : Status} {bytes : List UInt8}
    (h : (receiveAll n closed).on socket = (.ok bytes, after)) :
    bytes.length = n ∧ socket.incoming.front = bytes ++ after.incoming.front ∧
      after.incoming.back = socket.incoming.back ∧ after.outgoing = socket.outgoing := by
  rw [on_receiveAll] at h
  cases hfill : socket.incoming.fill n with
  | mk result rest =>
    rw [hfill, Prod.mk.injEq] at h
    obtain ⟨hresult, rfl⟩ := h
    cases result with
    | ok items =>
      cases hresult
      obtain ⟨hlength, hfront, hback⟩ := Arrivals.fill_eq_ok hfill
      exact ⟨hlength, hfront, hback.symm, rfl⟩
    | error short => cases short <;> cases hresult

/-- What has arrived is received. -/
theorem receiveAll_of_le {n : ℕ} {closed : Status} (h : n ≤ socket.incoming.front.length) :
    ∃ after, (receiveAll n closed).on socket = (.ok (socket.incoming.front.take n), after) ∧
      after.incoming.front = socket.incoming.front.drop n := by
  obtain ⟨rest, hfill, hrest, -⟩ := Arrivals.fill_of_le h
  rw [on_receiveAll, hfill]
  exact ⟨_, rfl, hrest⟩

/-- A frame is read from the bytes that are sent for it. -/
theorem readFrame_eq_ok (h : (readFrame maxPayload).on socket = (.ok frame, after)) :
    frame.Sendable ∧ frame.payload.length ≤ maxPayload ∧
      socket.incoming.front = frame.bytes ++ after.incoming.front ∧
      after.incoming.back = socket.incoming.back ∧ after.outgoing = socket.outgoing := by
  rw [readFrame, Proc.on_bind_eq_ok] at h
  obtain ⟨headerBytes, s₁, hheader, h⟩ := h
  obtain ⟨hsize, hfront, hback, hout⟩ := receiveAll_eq_ok hheader
  simp only [Proc.on_bind_eq_ok, Proc.on_liftM, Prod.mk.injEq, Proc.on_pure] at h
  obtain ⟨header, _, ⟨hparse, rfl⟩, _, _, ⟨hmax, rfl⟩, body, s₂, hbody, verified, _,
    ⟨hverified, rfl⟩, _, _, ⟨hverify, rfl⟩, hframe, rfl⟩ := h
  obtain ⟨hlength, hfront', hback', hout'⟩ := receiveAll_eq_ok hbody
  rw [ensure_eq_ok] at hmax hverify
  obtain ⟨hsendable, hbytes⟩ := bytes_frameOf hverified hverify
  obtain rfl : frameOf (headerBytes ++ body) verified = frame := Except.ok.inj hframe
  have hpayload : (frameOf (headerBytes ++ body) verified).payload = body := by
    rw [frameOf, ← hsize, List.drop_left]
  refine ⟨hsendable, ?_, ?_, hback'.trans hback, hout'.trans hout⟩
  · rw [hpayload, hlength]
    exact hmax
  · rw [hbytes, hfront, hfront', List.append_assoc]

/-- A frame whose bytes arrive is read. -/
theorem readFrame_of_bytes (hsendable : frame.Sendable) (hmax : frame.payload.length ≤ maxPayload)
    (hfront : socket.incoming.front = frame.bytes ++ rest) :
    ∃ after, (readFrame maxPayload).on socket = (.ok frame, after) := by
  have hsize : frameHeaderSize + frame.payload.length ≤ socket.incoming.front.length := by
    rw [hfront, List.length_append, length_bytes]
    exact Nat.le_add_right _ _
  obtain ⟨s₁, hheader, hfront₁⟩ := @receiveAll_of_le socket frameHeaderSize
    ⟨.cancelled, "the peer closed the connection"⟩ ((Nat.le_add_right _ _).trans hsize)
  obtain ⟨s₂, hbody, -⟩ := @receiveAll_of_le s₁ frame.payload.length
    ⟨.incomplete, "the peer closed inside a frame payload"⟩ (by
      rw [hfront₁, List.length_drop]
      omega)
  have hwhole : socket.incoming.front.take frameHeaderSize ++
      s₁.incoming.front.take frame.payload.length = frame.bytes := by
    rw [hfront₁, ← List.take_add, hfront, ← length_bytes, List.take_left]
  have hparse : parseFrameHeader (socket.incoming.front.take frameHeaderSize) =
      .ok frame.header := by
    rw [parseFrameHeader_take ((Nat.le_add_right _ _).trans hsize), hfront]
    exact parse_bytes hsendable
  have hverified : parseFrameHeader frame.bytes = .ok frame.header := by
    rw [← List.append_nil frame.bytes]
    exact parse_bytes hsendable
  refine ⟨s₂, ?_⟩
  rw [readFrame, Proc.on_bind_eq_ok]
  refine ⟨_, s₁, hheader, ?_⟩
  simp only [Proc.on_bind_eq_ok, Proc.on_liftM, Prod.mk.injEq, Proc.on_pure]
  refine ⟨frame.header, s₁, ⟨hparse, rfl⟩, (), s₁, ⟨?_, rfl⟩, s₁.incoming.front.take
    frame.payload.length, s₂, ?_, frame.header, s₂, ⟨?_, rfl⟩, (), s₂, ⟨?_, rfl⟩, ?_, rfl⟩
  · rw [ensure_eq_ok, toNat_header_length hsendable]
    exact hmax
  · rw [toNat_header_length hsendable]
    exact hbody
  · rw [hwhole]
    exact hverified
  · rw [ensure_eq_ok, hwhole]
    exact verify_bytes hsendable
  · rw [hwhole]
    rfl

/-! ## Pieces -/

/-- The same bytes arrive on two sockets, however they are cut. -/
def Socket.Alike (s s' : Socket) : Prop := s.incoming.Alike s'.incoming ∧ s.outgoing = s'.outgoing

/-- Receiving does not depend on how the bytes are cut. -/
theorem receiveAll_respects {n : ℕ} {closed : Status} :
    Proc.Respects Socket.Alike (receiveAll n closed) := by
  intro s s' h
  obtain ⟨hincoming, hout⟩ := h
  obtain ⟨hresult, hrest⟩ := Arrivals.fill_alike (n := n) hincoming
  rw [on_receiveAll, on_receiveAll, hresult]
  exact ⟨rfl, hrest, hout⟩

/-- Reading a frame does not depend on how the bytes are cut. -/
theorem readFrame_respects : Proc.Respects Socket.Alike (readFrame maxPayload) := by
  refine .bind receiveAll_respects fun headerBytes => .bind .liftM fun header => ?_
  refine .bind .liftM fun _ => .bind receiveAll_respects fun body => ?_
  exact .bind .liftM fun verified => .bind .liftM fun _ => .pure

/-- Reading sends nothing. -/
theorem readFrame_outgoing : ((readFrame maxPayload).on socket).2.outgoing = socket.outgoing := by
  have hreceive : ∀ {n : ℕ} {closed : Status},
      Proc.Keeps (fun s : Socket => s.outgoing = socket.outgoing) (receiveAll n closed) := by
    intro n closed s hs
    rw [on_receiveAll]
    exact hs
  have hkeeps : Proc.Keeps (fun s : Socket => s.outgoing = socket.outgoing)
      (readFrame maxPayload) := by
    refine .bind hreceive fun headerBytes => .bind .liftM fun header => ?_
    refine .bind .liftM fun _ => .bind hreceive fun body => ?_
    exact .bind .liftM fun verified => .bind .liftM fun _ => .pure
  exact hkeeps rfl

/-- **Reading is exact.** A frame is read if and only if the bytes that arrive begin with those sent
for it, and exactly these are taken off the stream. What is read does not depend on the pieces in
which the bytes arrive, nor do the errors. -/
theorem read_frame_exact {maxPayload : ℕ} {socket : Socket} :
    (∀ frame, (∃ after, (readFrame maxPayload).on socket = (.ok frame, after)) ↔
      frame.payload.length ≤ maxPayload ∧
        ∃ data, encodeFrame frame = .ok data ∧ data <+: socket.incoming.front) ∧
    (∀ frame after, (readFrame maxPayload).on socket = (.ok frame, after) →
      ∃ data, encodeFrame frame = .ok data ∧
        socket.incoming.front = data ++ after.incoming.front ∧
        after.incoming.back = socket.incoming.back ∧ after.outgoing = socket.outgoing) ∧
    ∀ socket' : Socket, socket.Alike socket' →
      ((readFrame maxPayload).on socket).1 = ((readFrame maxPayload).on socket').1 ∧
        ((readFrame maxPayload).on socket).2.Alike ((readFrame maxPayload).on socket').2 := by
  refine ⟨?_, ?_, fun socket' h => readFrame_respects h⟩
  · intro frame
    constructor
    · rintro ⟨after, h⟩
      obtain ⟨hsendable, hmax, hfront, -⟩ := readFrame_eq_ok h
      exact ⟨hmax, frame.bytes, encodeFrame_eq_bytes.2 ⟨hsendable, rfl⟩, _, hfront.symm⟩
    · rintro ⟨hmax, data, hdata, rest, hrest⟩
      obtain ⟨hsendable, rfl⟩ := encodeFrame_eq_bytes.1 hdata
      exact readFrame_of_bytes hsendable hmax hrest.symm
  · intro frame after h
    obtain ⟨hsendable, -, hfront, hback, hout⟩ := readFrame_eq_ok h
    exact ⟨frame.bytes, encodeFrame_eq_bytes.2 ⟨hsendable, rfl⟩, hfront, hback, hout⟩

end PodFabric.Transport
