import PodFabric.Core.Token

/-!
# Digests and checksums

SHA-256 as the incremental object of the program, the digests it produces, and CRC-32C.
-/

namespace PodFabric

/-! ## SHA-256 -/

/-- The constants of the 64 rounds. -/
def sha256K : List UInt32 := [
  0x428a2f98, 0x71374491, 0xb5c0fbcf, 0xe9b5dba5, 0x3956c25b, 0x59f111f1, 0x923f82a4, 0xab1c5ed5,
  0xd807aa98, 0x12835b01, 0x243185be, 0x550c7dc3, 0x72be5d74, 0x80deb1fe, 0x9bdc06a7, 0xc19bf174,
  0xe49b69c1, 0xefbe4786, 0x0fc19dc6, 0x240ca1cc, 0x2de92c6f, 0x4a7484aa, 0x5cb0a9dc, 0x76f988da,
  0x983e5152, 0xa831c66d, 0xb00327c8, 0xbf597fc7, 0xc6e00bf3, 0xd5a79147, 0x06ca6351, 0x14292967,
  0x27b70a85, 0x2e1b2138, 0x4d2c6dfc, 0x53380d13, 0x650a7354, 0x766a0abb, 0x81c2c92e, 0x92722c85,
  0xa2bfe8a1, 0xa81a664b, 0xc24b8b70, 0xc76c51a3, 0xd192e819, 0xd6990624, 0xf40e3585, 0x106aa070,
  0x19a4c116, 0x1e376c08, 0x2748774c, 0x34b0bcb5, 0x391c0cb3, 0x4ed8aa4a, 0x5b9cca4f, 0x682e6ff3,
  0x748f82ee, 0x78a5636f, 0x84c87814, 0x8cc70208, 0x90befffa, 0xa4506ceb, 0xbef9a3f7, 0xc67178f2]

/-- `v` rotated right by `n` bits. -/
def rotr (v n : UInt32) : UInt32 := (v >>> n) ||| (v <<< (32 - n))

/-- The eight chaining words, and the working variables of a round. -/
structure Sha256State where
  a : UInt32
  b : UInt32
  c : UInt32
  d : UInt32
  e : UInt32
  f : UInt32
  g : UInt32
  h : UInt32
  deriving DecidableEq

/-- The eight initial words (`reset`). -/
def Sha256State.initial : Sha256State :=
  ⟨0x6a09e667, 0xbb67ae85, 0x3c6ef372, 0xa54ff53a, 0x510e527f, 0x9b05688c, 0x1f83d9ab, 0x5be0cd19⟩

/-- The word of four bytes, most significant first. -/
def word32 (b0 b1 b2 b3 : UInt8) : UInt32 :=
  (b0.toUInt32 <<< 24) ||| (b1.toUInt32 <<< 16) ||| (b2.toUInt32 <<< 8) ||| b3.toUInt32

/-- The words of a block, four bytes each. -/
def blockWords : List UInt8 → List UInt32
  | b0 :: b1 :: b2 :: b3 :: rest => word32 b0 b1 b2 b3 :: blockWords rest
  | _ => []

/-- The message schedule, most recent word first, extended by `n` words. -/
def extendSchedule : ℕ → List UInt32 → List UInt32
  | 0, w => w
  | n + 1, w =>
    let w2 := w.getD 1 0
    let w15 := w.getD 14 0
    let s0 := rotr w15 7 ^^^ rotr w15 18 ^^^ (w15 >>> 3)
    let s1 := rotr w2 17 ^^^ rotr w2 19 ^^^ (w2 >>> 10)
    extendSchedule n ((w.getD 15 0 + s0 + w.getD 6 0 + s1) :: w)

/-- One round with its constant and schedule word. -/
def Sha256State.round (s : Sha256State) (k w : UInt32) : Sha256State :=
  let s1 := rotr s.e 6 ^^^ rotr s.e 11 ^^^ rotr s.e 25
  let ch := (s.e &&& s.f) ^^^ (~~~s.e &&& s.g)
  let temp1 := s.h + s1 + ch + k + w
  let s0 := rotr s.a 2 ^^^ rotr s.a 13 ^^^ rotr s.a 22
  let maj := (s.a &&& s.b) ^^^ (s.a &&& s.c) ^^^ (s.b &&& s.c)
  let temp2 := s0 + maj
  ⟨temp1 + temp2, s.a, s.b, s.c, s.d + temp1, s.e, s.f, s.g⟩

/-- The compression of one block into the chaining words. -/
def Sha256State.compress (s : Sha256State) (block : List UInt8) : Sha256State :=
  let w := (extendSchedule 48 (blockWords block).reverse).reverse
  let t := (sha256K.zip w).foldl (fun s kw => s.round kw.1 kw.2) s
  ⟨s.a + t.a, s.b + t.b, s.c + t.c, s.d + t.d, s.e + t.e, s.f + t.f, s.g + t.g, s.h + t.h⟩

/-- The incremental hasher: chaining words, buffered bytes and the number of bytes seen. -/
structure Sha256 where
  state : Sha256State
  buffer : List UInt8
  total : UInt64
  deriving DecidableEq

/-- Nothing is hashed yet. -/
def Sha256.initial : Sha256 := ⟨.initial, [], 0⟩

/-- The loop of `update` over whole blocks; what is left is buffered. `fuel` bounds the number of
blocks. -/
def Sha256.blocks : ℕ → Sha256 → List UInt8 → Sha256
  | 0, h, data => { h with buffer := h.buffer ++ data }
  | fuel + 1, h, data =>
    if data.length < 64 then { h with buffer := h.buffer ++ data }
    else blocks fuel { h with state := h.state.compress (data.take 64) } (data.drop 64)

/-- Absorbs bytes: fills the buffer, then takes whole blocks from the input. -/
def Sha256.update (h : Sha256) (data : List UInt8) : Sha256 :=
  let h := { h with total := h.total + data.length.toUInt64 }
  if h.buffer = [] then h.blocks (data.length / 64) data
  else
    let buffer := h.buffer ++ data.take (64 - h.buffer.length)
    let rest := data.drop (64 - h.buffer.length)
    if buffer.length = 64 then
      Sha256.blocks (rest.length / 64) { h with state := h.state.compress buffer, buffer := [] } rest
    else { h with buffer := buffer }

/-- The bytes of a word, most significant first. -/
def bytes32 (v : UInt32) : List UInt8 :=
  [(v >>> 24).toUInt8, (v >>> 16).toUInt8, (v >>> 8).toUInt8, v.toUInt8]

/-- The bytes of a double word, most significant first. -/
def bytes64 (v : UInt64) : List UInt8 :=
  [(v >>> 56).toUInt8, (v >>> 48).toUInt8, (v >>> 40).toUInt8, (v >>> 32).toUInt8,
    (v >>> 24).toUInt8, (v >>> 16).toUInt8, (v >>> 8).toUInt8, v.toUInt8]

/-- A word has four bytes. -/
@[simp] theorem length_bytes32 (v : UInt32) : (bytes32 v).length = 4 := rfl

/-- A double word has eight bytes. -/
@[simp] theorem length_bytes64 (v : UInt64) : (bytes64 v).length = 8 := rfl

/-- The digest of the eight words, the most significant byte first. -/
def Sha256State.toBytes (s : Sha256State) : List UInt8 :=
  bytes32 s.a ++ bytes32 s.b ++ bytes32 s.c ++ bytes32 s.d ++ bytes32 s.e ++ bytes32 s.f ++
    bytes32 s.g ++ bytes32 s.h

/-- The padding loop: zero bytes until 56 bytes are buffered. -/
def Sha256.pad : ℕ → Sha256 → Sha256
  | 0, h => h
  | fuel + 1, h => if h.buffer.length = 56 then h else pad fuel (h.update [0])

/-- Pads, appends the bit length and returns the digest with the object in its initial state. -/
def Sha256.finish (h : Sha256) : List UInt8 × Sha256 :=
  let bitLength := h.total * 8
  let h := Sha256.pad 64 (h.update [0x80])
  ((h.state.compress (h.buffer ++ bytes64 bitLength)).toBytes, .initial)

/-! ## Digests -/

/-- A 32-byte content digest. -/
@[ext] structure Digest where
  bytes : List UInt8
  size : bytes.length = 32
  deriving DecidableEq

namespace Digest

/-- The all-zero digest. -/
def zero : Digest := ⟨List.replicate 32 0, rfl⟩

instance : Inhabited Digest := ⟨zero⟩

/-- The digest of a byte string. -/
def of (data : List UInt8) : Digest := ⟨(Sha256.initial.update data).finish.1, rfl⟩

/-- No bit of the digest is set (`is_zero`). -/
def isZero (d : Digest) : Bool := d.bytes.all (· = 0)

/-- The digest in hexadecimal digits (`to_hex`). -/
def toHex (d : Digest) : Text := hexBytes d.bytes

/-- A digest is its bytes. -/
theorem bytes_injective : Function.Injective Digest.bytes := fun _ _ => Digest.ext

instance : LinearOrder Digest := LinearOrder.ofKey Digest.bytes bytes_injective

end Digest

/-! ## CRC-32C -/

/-- One step of the table's construction. -/
def crc32cBit (crc : UInt32) : UInt32 :=
  if crc &&& 1 ≠ 0 then (crc >>> 1) ^^^ 0x82F63B78 else crc >>> 1

/-- An entry of the table (`make_crc32c_table`). -/
def crc32cTable (i : UInt32) : UInt32 :=
  (List.range 8).foldl (fun crc _ => crc32cBit crc) i

/-- The checksum state after one more byte. -/
def crc32cUpdate (state : UInt32) (b : UInt8) : UInt32 :=
  crc32cTable ((state ^^^ b.toUInt32) &&& 0xFF) ^^^ (state >>> 8)

/-- The checksum of a byte string. -/
def crc32c (data : List UInt8) : UInt32 := data.foldl crc32cUpdate 0xFFFFFFFF ^^^ 0xFFFFFFFF

end PodFabric
