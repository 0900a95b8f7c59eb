import PodFabric.Core.Digest
import PodFabric.Lib.Codec

/-!
# Bytes

The bounded binary primitives: a writer with a limit and a reader that checks every extent against
the bytes that remain. Each reader mirrors its writer (`Mirrors`), so that the records put together
from them do too.
-/

namespace PodFabric

/-- Bounds on every document (`CodecLimits`). -/
structure CodecLimits where
  maxDocumentBytes : ℕ := 16 * 1024 * 1024
  maxStringBytes : ℕ := 4096
  maxBlobBytes : ℕ := 1024 * 1024
  maxSequenceItems : UInt32 := 1048576

/-- The limits every coder of the program is built with. -/
def codecLimits : CodecLimits := {}

/-- A step of a writer. -/
abbrev ByteWriter := Put Status UInt8

/-- A step of a reader. -/
abbrev ByteReader := Get Status UInt8

/-! ## Numbers -/

/-- The number that bytes spell, most significant first. -/
def bigEndian (bytes : List UInt8) : ℕ := bytes.foldl (fun v b => v * 256 + b.toNat) 0

/-- The bytes of a half word, most significant first. -/
def bytes16 (v : UInt16) : List UInt8 := [(v >>> 8).toUInt8, v.toUInt8]

section Numbers
variable {bs cs : List UInt8}

/-- A byte behind the others is the least significant one. -/
theorem bigEndian_append {b : UInt8} : bigEndian (bs ++ [b]) = bigEndian bs * 256 + b.toNat := by
  simp [bigEndian]

/-- A number of `n` bytes is below `256 ^ n`. -/
theorem bigEndian_lt : bigEndian bs < 256 ^ bs.length := by
  induction bs using List.reverseRecOn with
  | nil => simp [bigEndian]
  | append_singleton bs b ih =>
    have hb := b.toNat_lt
    rw [bigEndian_append, List.length_append, List.length_singleton, Nat.pow_succ]
    omega

/-- Byte strings of one length spell different numbers. -/
theorem bigEndian_injective (hlength : bs.length = cs.length) (h : bigEndian bs = bigEndian cs) :
    bs = cs := by
  induction bs using List.reverseRecOn generalizing cs with
  | nil => exact (List.length_eq_zero_iff.1 hlength.symm).symm
  | append_singleton bs b ih =>
    rcases List.eq_nil_or_concat cs with rfl | ⟨cs, c, rfl⟩
    · simp at hlength
    · have hb := b.toNat_lt
      have hc := c.toNat_lt
      rw [List.concat_eq_append, bigEndian_append, bigEndian_append] at h
      have hlast : b = c := UInt8.toNat_inj.1 (by omega)
      have hfront : bs = cs := ih (by simpa using hlength) (by omega)
      rw [hfront, hlast, List.concat_eq_append]

/-- One more byte of a number. -/
theorem digit_step (v k : ℕ) : v / 2 ^ (k + 8) * 256 + v / 2 ^ k % 256 = v / 2 ^ k := by
  rw [Nat.pow_add, ← Nat.div_div_eq_div_mul]
  exact Nat.div_add_mod' _ _

/-- The bytes of a number of 16 bits give the number back. -/
theorem bigEndian_bytes16 (v : UInt16) : bigEndian (bytes16 v) = v.toNat := by
  have hv := v.toNat_lt
  simp [bigEndian, bytes16, Nat.shiftRight_eq_div_pow]
  omega

/-- The bytes of a number of 32 bits give the number back. -/
theorem bigEndian_bytes32 (v : UInt32) : bigEndian (bytes32 v) = v.toNat := by
  have hv := v.toNat_lt
  simp [bigEndian, bytes32, Nat.shiftRight_eq_div_pow]
  omega

/-- The bytes of a number of 64 bits give the number back. -/
theorem bigEndian_bytes64 (v : UInt64) : bigEndian (bytes64 v) = v.toNat := by
  have hfirst : v.toNat / 2 ^ 56 % 256 = v.toNat / 2 ^ 56 :=
    Nat.mod_eq_of_lt (Nat.div_lt_of_lt_mul v.toNat_lt)
  have h48 : v.toNat / 2 ^ 56 * 256 + v.toNat / 2 ^ 48 % 256 = v.toNat / 2 ^ 48 := digit_step _ 48
  have h40 : v.toNat / 2 ^ 48 * 256 + v.toNat / 2 ^ 40 % 256 = v.toNat / 2 ^ 40 := digit_step _ 40
  have h32 : v.toNat / 2 ^ 40 * 256 + v.toNat / 2 ^ 32 % 256 = v.toNat / 2 ^ 32 := digit_step _ 32
  have h24 : v.toNat / 2 ^ 32 * 256 + v.toNat / 2 ^ 24 % 256 = v.toNat / 2 ^ 24 := digit_step _ 24
  have h16 : v.toNat / 2 ^ 24 * 256 + v.toNat / 2 ^ 16 % 256 = v.toNat / 2 ^ 16 := digit_step _ 16
  have h8 : v.toNat / 2 ^ 16 * 256 + v.toNat / 2 ^ 8 % 256 = v.toNat / 2 ^ 8 := digit_step _ 8
  have h0 : v.toNat / 2 ^ 8 * 256 + v.toNat % 256 = v.toNat := Nat.div_add_mod' _ _
  have hbytes : bigEndian (bytes64 v) =
      (((((((v.toNat / 2 ^ 56 % 256) * 256 + v.toNat / 2 ^ 48 % 256) * 256 +
        v.toNat / 2 ^ 40 % 256) * 256 + v.toNat / 2 ^ 32 % 256) * 256 +
        v.toNat / 2 ^ 24 % 256) * 256 + v.toNat / 2 ^ 16 % 256) * 256 +
        v.toNat / 2 ^ 8 % 256) * 256 + v.toNat % 256 := by
    simp [bigEndian, bytes64, Nat.shiftRight_eq_div_pow]
  rw [hbytes, hfirst, h48, h40, h32, h24, h16, h8, h0]

end Numbers

/-! ## Writing -/

/-- A check of the writer. -/
def putCheck (cond : Prop) [Decidable cond] (status : Status) : ByteWriter Unit :=
  liftM (ensure cond status)

/-- Appends bytes if they fit (`reserve`, `put_raw`). -/
def putRaw (data : List UInt8) : ByteWriter Unit :=
  Put.emit ⟨.exhausted, "encoded document exceeds the configured byte limit"⟩ data

/-- Writes one byte (`put_u8`). -/
def putU8 (v : UInt8) : ByteWriter Unit := putRaw [v]

/-- Writes two bytes, the most significant first (`put_u16`). -/
def putU16 (v : UInt16) : ByteWriter Unit := putRaw (bytes16 v)

/-- Writes four bytes, the most significant first (`put_u32`). -/
def putU32 (v : UInt32) : ByteWriter Unit := putRaw (bytes32 v)

/-- Writes eight bytes, the most significant first (`put_u64`). -/
def putU64 (v : UInt64) : ByteWriter Unit := putRaw (bytes64 v)

/-- Writes a signed number by its bits (`put_i64`). -/
def putI64 (v : Int64) : ByteWriter Unit := putU64 v.toUInt64

/-- Writes a flag as a byte of zero or one (`put_bool`). -/
def putBool (v : Bool) : ByteWriter Unit := putU8 (if v then 1 else 0)

/-- Writes the length of a text, then its bytes (`put_string`). -/
def putString (t : Text) : ByteWriter Unit := do
  putCheck (isValidUtf8 t = true) ⟨.invalid, "string field is not valid UTF-8"⟩
  putCheck (t.length ≤ codecLimits.maxStringBytes)
    ⟨.exhausted, "string field exceeds the maximum length"⟩
  putU32 t.length.toUInt32
  putRaw t

/-- A text, which may be longer than a string. -/
def putText (t : Text) : ByteWriter Unit := do
  putCheck (isValidUtf8 t = true) ⟨.invalid, "text field is not valid UTF-8"⟩
  putCheck (t.length ≤ codecLimits.maxBlobBytes)
    ⟨.exhausted, "text field exceeds the maximum length"⟩
  putU32 t.length.toUInt32
  putRaw t

/-- A sequence header and the items (`put_count`, and the loop that follows it). -/
def putSequence {α : Type} (put : α → ByteWriter Unit) (items : List α) : ByteWriter Unit := do
  putU32 items.length.toUInt32
  items.forM put

/-! ## Reading -/

/-- A check of the reader. -/
def getCheck (cond : Prop) [Decidable cond] (status : Status) : ByteReader Unit :=
  liftM (ensure cond status)

/-- Takes bytes off the front (`raw`). -/
def getRaw (n : ℕ) : ByteReader (List UInt8) :=
  Get.take ⟨.incomplete, "truncated document: field extents exceed the buffer"⟩ n

/-- The bytes of a number, with the message for when they are missing. -/
def getWord (n : ℕ) (message : Text) : ByteReader ℕ := do
  let bytes ← Get.take ⟨.incomplete, message⟩ n
  return bigEndian bytes

/-- Reads one byte. -/
def getU8 : ByteReader UInt8 := do
  let v ← getWord 1 "truncated document: expected one byte"
  return v.toUInt8

/-- Reads two bytes. -/
def getU16 : ByteReader UInt16 := do
  let v ← getWord 2 "truncated document: expected two bytes"
  return v.toUInt16

/-- Reads four bytes. -/
def getU32 : ByteReader UInt32 := do
  let v ← getWord 4 "truncated document: expected four bytes"
  return v.toUInt32

/-- Reads eight bytes. -/
def getU64 : ByteReader UInt64 := do
  let v ← getWord 8 "truncated document: expected eight bytes"
  return v.toUInt64

/-- Reads a signed number by its bits. -/
def getI64 : ByteReader Int64 := do
  let raw ← getU64
  return raw.toInt64

/-- Reads a flag. -/
def getBool : ByteReader Bool := do
  let raw ← getU8
  getCheck (raw ≤ 1) ⟨.invalid, "boolean field is neither 0 nor 1"⟩
  return raw = 1

/-- Reads a text: its length, then its bytes. -/
def getString : ByteReader Text := do
  let length ← getU32
  getCheck (length.toNat ≤ codecLimits.maxStringBytes)
    ⟨.invalid, "string field declares an oversized length"⟩
  let t ← getRaw length.toNat
  getCheck (isValidUtf8 t = true) ⟨.invalid, "string field is not valid UTF-8"⟩
  return t

/-- Reads a text, which may be longer than a string. -/
def getText : ByteReader Text := do
  let length ← getU32
  getCheck (length.toNat ≤ codecLimits.maxBlobBytes)
    ⟨.invalid, "text field declares an oversized length"⟩
  let t ← getRaw length.toNat
  getCheck (isValidUtf8 t = true) ⟨.invalid, "text field is not valid UTF-8"⟩
  return t

/-- A sequence header: the number of items is held against the bound and against the bytes that
remain (`count`). -/
def getCount (maxItems : UInt32) (minItemBytes : ℕ) : ByteReader ℕ := do
  let declared ← getU32
  getCheck (declared ≤ maxItems ∧ declared ≤ codecLimits.maxSequenceItems)
    ⟨.invalid, "sequence declares more items than the configured bound"⟩
  let rest ← get
  getCheck (declared.toNat * (if minItemBytes = 0 then 1 else minItemBytes) ≤ rest.length)
    ⟨.invalid, "sequence declares more items than the remaining bytes allow"⟩
  return declared.toNat

/-- The bound that every sequence is held to (`kMaxCounts`). -/
def maxCounts : UInt32 := 1048576

/-- A sequence of at most `maxCounts` items, each of so many bytes at least. -/
def getSequence {α : Type} (minItemBytes : ℕ) (item : ByteReader α) : ByteReader (List α) := do
  let count ← getCount maxCounts minItemBytes
  Get.many item count

/-! ## Readers mirror writers -/

section Mirrors
variable {α : Type} {n : ℕ} {C : α → Prop} {put : α → ByteWriter Unit} {get : ByteReader α}

/-- A check of the writer, which the reader makes for itself. -/
theorem Mirrors.putCheck {P : α → Prop} [DecidablePred P] {status : Status}
    (h : Mirrors n (fun a => C a ∧ P a) put get) :
    Mirrors n C (fun a => PodFabric.putCheck (P a) status >>= fun _ => put a) get :=
  .checkWrite (h.congr fun a => by rw [ensure_eq_ok])

/-- A check of the reader, which what is written passes. -/
theorem Mirrors.getCheck {P : Prop} [Decidable P] {status : Status} {k : Unit → ByteReader α}
    (h : P → Mirrors n C put (k ())) (hpasses : ∀ a, C a → P) :
    Mirrors n C put (PodFabric.getCheck P status >>= k) :=
  .checkRead (fun hok => h (ensure_eq_ok.1 hok)) fun a ha => ensure_eq_ok.2 (hpasses a ha)

/-- A check of what is left against a size that is written. -/
theorem Mirrors.getRoom {size : ℕ} {status : Status} (h : Mirrors n C put get) (hsize : size ≤ n) :
    Mirrors n C put ((MonadState.get : ByteReader (List UInt8)) >>= fun rest =>
      PodFabric.getCheck (size ≤ rest.length) status >>= fun _ => get) :=
  .lookahead (x := fun m => ensure (size ≤ m) status) h fun _ hm => ensure_eq_ok.2 (hsize.trans hm)

/-- A number is read from the bytes it is written in. -/
theorem word_mirrors {message : Text} {toBytes : α → List UInt8} {toNat : α → ℕ} {ofNat : ℕ → α}
    (hlength : ∀ a, (toBytes a).length = n) (hspells : ∀ a, bigEndian (toBytes a) = toNat a)
    (hof : ∀ a, ofNat (toNat a) = a) (hto : ∀ v, v < 256 ^ n → toNat (ofNat v) = v) :
    Mirrors n (fun _ => True) (fun a => putRaw (toBytes a)) (do
      let v ← getWord n message
      return ofNat v) := by
  have hread : (do let v ← getWord n message; return ofNat v : ByteReader α) =
      Get.take ⟨.incomplete, message⟩ n >>= fun bytes => pure (ofNat (bigEndian bytes)) := by
    simp [getWord]
  rw [hread]
  refine Mirrors.last .take (fun a _ => hlength a) le_rfl fun bytes hbytes =>
    Mirrors.pure fun a => ⟨?_, ?_⟩
  · rintro ⟨-, rfl⟩
    rw [hspells, hof]
  · rintro rfl
    refine ⟨trivial, bigEndian_injective ((hlength _).trans hbytes.symm) ?_⟩
    rw [hspells, hto _ (hbytes ▸ bigEndian_lt)]

/-- `getU8` reads back what `putU8` writes, and nothing else. -/
theorem getU8_mirrors : Mirrors 1 (fun _ => True) putU8 getU8 := by
  have hspells : ∀ v : UInt8, bigEndian [v] = v.toNat := fun v => by simp [bigEndian]
  refine word_mirrors (fun _ => rfl) hspells (fun v => by simp) fun v hv => ?_
  exact UInt8.toNat_ofNat_of_lt hv

/-- `getU16` reads back what `putU16` writes, and nothing else. -/
theorem getU16_mirrors : Mirrors 2 (fun _ => True) putU16 getU16 := by
  refine word_mirrors (fun _ => rfl) bigEndian_bytes16 (fun v => by simp) fun v hv => ?_
  exact UInt16.toNat_ofNat_of_lt hv

/-- `getU32` reads back what `putU32` writes, and nothing else. -/
theorem getU32_mirrors : Mirrors 4 (fun _ => True) putU32 getU32 := by
  refine word_mirrors (fun _ => rfl) bigEndian_bytes32 (fun v => by simp) fun v hv => ?_
  exact UInt32.toNat_ofNat_of_lt hv

/-- `getU64` reads back what `putU64` writes, and nothing else. -/
theorem getU64_mirrors : Mirrors 8 (fun _ => True) putU64 getU64 := by
  refine word_mirrors (fun _ => rfl) bigEndian_bytes64 (fun v => by simp) fun v hv => ?_
  exact UInt64.toNat_ofNat_of_lt hv

/-- `getI64` reads back what `putI64` writes, and nothing else. -/
theorem getI64_mirrors : Mirrors 8 (fun _ => True) putI64 getI64 := by
  refine Mirrors.last (f := Int64.toUInt64) getU64_mirrors (fun _ _ => trivial) le_rfl fun raw _ =>
    Mirrors.pure fun v => ⟨?_, ?_⟩
  · rintro ⟨-, rfl⟩
    rfl
  · rintro rfl
    exact ⟨trivial, rfl⟩

/-- `getBool` reads back what `putBool` writes: it accepts no byte but zero and one. -/
theorem getBool_mirrors : Mirrors 1 (fun _ => True) putBool getBool := by
  refine Mirrors.last (f := fun v : Bool => if v then 1 else 0) getU8_mirrors (fun _ _ => trivial)
    le_rfl fun raw _ => .getCheck (fun hraw => Mirrors.pure fun v => ?_) fun v hv => ?_
  · have hraw : raw = 0 ∨ raw = 1 := by
      have : raw.toNat ≤ 1 := hraw
      rcases Nat.le_one_iff_eq_zero_or_eq_one.1 this with h | h
      · exact .inl (UInt8.toNat_inj.1 h)
      · exact .inr (UInt8.toNat_inj.1 h)
    rcases hraw with rfl | rfl <;> cases v <;> decide
  · rw [← hv.2]
    cases v <;> decide

/-- A length that fits a word is read back from it. -/
theorem toNat_length {l : List α} {m : ℕ} (h : l.length ≤ m) (hm : m < 2 ^ 32) :
    l.length.toUInt32.toNat = l.length :=
  UInt32.toNat_ofNat_of_lt (h.trans_lt hm)

/-- UTF-8 behind its length is read back if the length is within the bound. -/
theorem utf8_mirrors {max : ℕ} {invalid long oversized unreadable : Status} (hmax : max < 2 ^ 32) :
    Mirrors 4 (fun _ => True)
      (fun t : Text => do
        PodFabric.putCheck (isValidUtf8 t = true) invalid
        PodFabric.putCheck (t.length ≤ max) long
        putU32 t.length.toUInt32
        putRaw t)
      (do
        let length ← getU32
        PodFabric.getCheck (length.toNat ≤ max) oversized
        let t ← getRaw length.toNat
        PodFabric.getCheck (isValidUtf8 t = true) unreadable
        return t) := by
  refine .putCheck (.putCheck ?_)
  refine Mirrors.bind (f := fun t : Text => t.length.toUInt32) getU32_mirrors (fun _ _ => trivial)
    fun length _ => .getCheck (fun hlength => ?_) ?_
  · refine Mirrors.last (f := fun t : Text => t) .take ?_ (Nat.zero_le _) fun bytes hbytes =>
      .getCheck (fun hvalid => Mirrors.pure fun t => ?_) ?_
    · rintro t ⟨⟨-, hshort⟩, rfl⟩
      exact (toNat_length hshort hmax).symm
    · constructor
      · exact And.right
      · rintro rfl
        have hshort : t.length ≤ max := hbytes.le.trans hlength
        refine ⟨⟨⟨⟨trivial, hvalid⟩, hshort⟩, ?_⟩, rfl⟩
        exact UInt32.toNat_inj.1 ((toNat_length hshort hmax).trans hbytes)
    · rintro t ⟨⟨⟨⟨-, hvalid⟩, -⟩, -⟩, rfl⟩
      exact hvalid
  · rintro t ⟨⟨-, hshort⟩, rfl⟩
    rw [toNat_length hshort hmax]
    exact hshort

/-- `getString` reads back what `putString` writes, and nothing else. -/
theorem getString_mirrors : Mirrors 4 (fun _ => True) putString getString :=
  utf8_mirrors (by decide)

/-- `getText` reads back what `putText` writes, and nothing else. -/
theorem getText_mirrors : Mirrors 4 (fun _ => True) putText getText :=
  utf8_mirrors (by decide)

/-- A sequence of bounded length is read back. -/
theorem getSequence_mirrors {minItemBytes : ℕ} (h : Mirrors minItemBytes C put get)
    (hpos : 0 < minItemBytes) :
    Mirrors 4 (fun l : List α => l.length ≤ maxCounts.toNat ∧ ∀ a ∈ l, C a) (putSequence put)
      (getSequence minItemBytes get) := by
  have hread : getSequence minItemBytes get = (do
      let declared ← getU32
      getCheck (declared ≤ maxCounts ∧ declared ≤ codecLimits.maxSequenceItems)
        ⟨.invalid, "sequence declares more items than the configured bound"⟩
      let rest ← MonadState.get
      getCheck (declared.toNat * (if minItemBytes = 0 then 1 else minItemBytes) ≤ rest.length)
        ⟨.invalid, "sequence declares more items than the remaining bytes allow"⟩
      Get.many get declared.toNat) := by
    simp [getSequence, getCount]
  rw [hread]
  refine Mirrors.bind (f := fun l : List α => l.length.toUInt32) getU32_mirrors
    (fun _ _ => trivial) fun declared _ => .getCheck (fun hbound => ?_) ?_
  · have hmany : Mirrors (declared.toNat * minItemBytes) (fun l : List α =>
        (l.length ≤ maxCounts.toNat ∧ ∀ a ∈ l, C a) ∧ l.length.toUInt32 = declared)
        (fun l => l.forM put) (Get.many get declared.toNat) := by
      refine (h.many declared.toNat).congr fun l => ⟨?_, ?_⟩
      · rintro ⟨⟨hlength, hall⟩, rfl⟩
        exact ⟨(toNat_length hlength (by decide)).symm, hall⟩
      · rintro ⟨hlength, hall⟩
        have hshort : l.length ≤ maxCounts.toNat := hlength.le.trans hbound.1
        exact ⟨⟨hshort, hall⟩,
          UInt32.toNat_inj.1 ((toNat_length hshort (by decide)).trans hlength)⟩
    refine (hmany.getRoom ?_).weaken (Nat.zero_le _)
    rw [if_neg (by omega)]
  · rintro l ⟨⟨hlength, -⟩, rfl⟩
    have hle : l.length.toUInt32 ≤ maxCounts := by
      change l.length.toUInt32.toNat ≤ maxCounts.toNat
      rw [toNat_length hlength (by decide)]
      exact hlength
    exact ⟨hle, hle⟩

end Mirrors

end PodFabric
