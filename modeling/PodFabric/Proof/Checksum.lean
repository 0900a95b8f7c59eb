import PodFabric.Core.Bytes
import PodFabric.Lib.Checksum

/-!
# What the checksum notices

The entries of the table differ in their upper byte, from which the index can be computed
(`crc32cTable_index`). So a step of the checksum loses nothing, and a byte string has another
checksum once a byte of it is replaced (`crc32c_altered`).
-/

namespace PodFabric

/-- The inverse of a step of the table's construction. -/
def crc32cUnbit (crc : UInt32) : UInt32 :=
  if crc >>> 31 = 1 then ((crc ^^^ 0x82F63B78) <<< 1) ||| 1 else crc <<< 1

/-- The index of the entry of the table with the given upper byte. -/
def crc32cIndex (upper : UInt32) : ℕ :=
  (((List.range 8).foldl (fun crc _ => crc32cUnbit crc) (upper <<< 24)) &&& 0xFF).toNat

/-- The highest byte of a table entry tells which entry it is. -/
theorem crc32cTable_index : ∀ i < 256, crc32cIndex (crc32cTable i.toUInt32 >>> 24) = i := by
  decide +kernel

/-- The part of the state that selects the entry. -/
def crc32cSelect (state : UInt32) (b : UInt8) : UInt32 := (state ^^^ b.toUInt32) &&& 0xFF

variable {s s' : UInt32} {b b' : UInt8}

/-- Which table entry a byte selects. -/
theorem crc32cSelect_toNat : (crc32cSelect s b).toNat = (s.toNat % 256) ^^^ b.toNat := by
  have hb : b.toNat < 256 := b.toNat_lt
  rw [crc32cSelect, UInt32.toNat_and, UInt32.toNat_xor, UInt8.toNat_toUInt32]
  change (s.toNat ^^^ b.toNat) &&& (2 ^ 8 - 1) = _
  rw [Nat.and_two_pow_sub_one_eq_mod, Nat.xor_mod_two_pow]
  change s.toNat % 256 ^^^ b.toNat % 256 = _
  rw [Nat.mod_eq_of_lt hb]

/-- A byte selects an entry of the table. -/
theorem crc32cSelect_lt : (crc32cSelect s b).toNat < 256 := by
  rw [crc32cSelect_toNat]
  exact Nat.xor_lt_two_pow (n := 8) (Nat.mod_lt _ (by decide)) b.toNat_lt

/-- The entry that a step used can be told from the state it leads to. -/
theorem crc32cIndex_update :
    crc32cIndex (crc32cUpdate s b >>> 24) = (crc32cSelect s b).toNat := by
  have hupper : (s >>> 8) >>> 24 = 0 := by
    apply UInt32.toNat_inj.1
    rw [UInt32.toNat_shiftRight, UInt32.toNat_shiftRight]
    change s.toNat >>> 8 >>> 24 = 0
    rw [← Nat.shiftRight_add, Nat.shiftRight_eq_div_pow]
    exact Nat.div_eq_of_lt s.toNat_lt
  have hentry : crc32cUpdate s b >>> 24 =
      crc32cTable (crc32cSelect s b).toNat.toUInt32 >>> 24 := by
    rw [crc32cUpdate, UInt32.shiftRight_xor, hupper, UInt32.xor_zero, Nat.toUInt32,
      UInt32.ofNat_toNat, crc32cSelect]
  rw [hentry]
  exact crc32cTable_index _ crc32cSelect_lt

/-- A step that leads to the same state used the same entry and kept the same upper bytes. -/
theorem crc32cUpdate_inj (h : crc32cUpdate s b = crc32cUpdate s' b') :
    (s.toNat % 256) ^^^ b.toNat = (s'.toNat % 256) ^^^ b'.toNat ∧
      s.toNat / 256 = s'.toNat / 256 := by
  have hindex : (crc32cSelect s b).toNat = (crc32cSelect s' b').toNat := by
    rw [← crc32cIndex_update, ← crc32cIndex_update, h]
  refine ⟨by rw [← crc32cSelect_toNat, ← crc32cSelect_toNat, hindex], ?_⟩
  have hselect : crc32cSelect s b = crc32cSelect s' b' := UInt32.toNat_inj.1 hindex
  have hupper : s >>> 8 = s' >>> 8 := by
    change crc32cTable (crc32cSelect s b) ^^^ (s >>> 8) =
      crc32cTable (crc32cSelect s' b') ^^^ (s' >>> 8) at h
    rw [hselect] at h
    exact (UInt32.xor_right_inj _).1 h
  have hnat := congrArg UInt32.toNat hupper
  rw [UInt32.toNat_shiftRight, UInt32.toNat_shiftRight] at hnat
  change s.toNat >>> 8 = s'.toNat >>> 8 at hnat
  rwa [Nat.shiftRight_eq_div_pow, Nat.shiftRight_eq_div_pow] at hnat

/-- A step of the checksum loses neither the state nor the byte. -/
theorem crc32cUpdate_rolling : Rolling crc32cUpdate where
  state := by
    intro b s s' h
    obtain ⟨hlower, hupper⟩ := crc32cUpdate_inj h
    have hmod := Nat.xor_left_inj.1 hlower
    apply UInt32.toNat_inj.1
    omega
  unit := by
    intro s b b' h
    exact UInt8.toNat_inj.1 (Nat.xor_right_inj.1 (crc32cUpdate_inj h).1)

/-- The replacement of one byte shows in the checksum. -/
theorem crc32c_altered {data data' : List UInt8} (h : Altered data data') :
    crc32c data ≠ crc32c data' := fun hcrc =>
  crc32cUpdate_rolling.foldl_ne h _ ((UInt32.xor_left_inj _).1 hcrc)

/-- The bytes of the checksum. -/
theorem crc32c_bytes_altered {data data' : List UInt8} (h : Altered data data') :
    bytes32 (crc32c data) ≠ bytes32 (crc32c data') := fun hbytes => by
  refine crc32c_altered h (UInt32.toNat_inj.1 ?_)
  rw [← bigEndian_bytes32, hbytes, bigEndian_bytes32]

end PodFabric
