import PodFabric.Control.Controller
import PodFabric.Core.Checked
import PodFabric.Proof.Times

/-!
# Checked arithmetic is exact

Each test of a checked operation is a test of the exact result, and what the test itself evaluates
stays in the type (`checked_arithmetic_exact`). Which side of the type a result can be on, and how a
quotient tells it, depends on the signs of the operands. The operations on amounts and on times are
the checked ones at 64 bits.
-/

namespace PodFabric

/-- The result that checked arithmetic reports for an integer: the integer if the type has it, and
else malformed input. -/
def IntType.exact (t : IntType) (above below : Text) (x : ℤ) : Outcome (Integer t) :=
  if h : t.Fits x then .ok ⟨x, h⟩
  else .error (.status ⟨.invalid, if t.upper < x then above else below⟩)

namespace IntType
variable {t : IntType} {above below : Text} {x : ℤ}

/-- A representable value is returned. -/
theorem exact_of_fits (h : t.Fits x) : t.exact above below x = .ok ⟨x, h⟩ := dif_pos h

/-- A value above the range is refused as such. -/
theorem exact_of_above (h : t.upper < x) :
    t.exact above below x = .error (.status ⟨.invalid, above⟩) := by
  unfold exact
  rw [dif_neg fun hfits => hfits.2.not_gt h, if_pos h]

/-- A value below the range is refused as such. -/
theorem exact_of_below (h : x < t.lower) :
    t.exact above below x = .error (.status ⟨.invalid, below⟩) := by
  have hle : ¬ t.upper < x := by
    have hlow := @lower_nonpos t
    have hup := @upper_nonneg t
    omega
  unfold exact
  rw [dif_neg fun hfits => hfits.1.not_gt h, if_neg hle]

end IntType

namespace Integer
open IntType
variable {lang : Arithmetic Fault} {t : IntType} {a b : Integer t}

/-! The tests of an operation on operands of some signs are a test of its exact result. -/

section Tests
variable {test : Prop} [Decidable test] {x : ℤ} {above below : Text} {next : Outcome (Integer t)}

/-- A test for the upper bound in front of an operation that is exact below it. -/
theorem refuseIf_above (htest : test ↔ t.upper < x) (hlow : t.lower ≤ x)
    (hnext : ∀ h : t.Fits x, next = .ok ⟨x, h⟩) :
    (do refuseIf test above; next) = t.exact above below x := by
  unfold refuseIf
  split
  · next hover => exact (exact_of_above (htest.1 hover)).symm
  · next hover =>
    have hfits : t.Fits x := ⟨hlow, not_lt.1 (mt htest.2 hover)⟩
    rw [exact_of_fits hfits]
    exact hnext hfits

/-- A test for the lower bound in front of an operation that is exact above it. -/
theorem refuseIf_below (htest : test ↔ x < t.lower) (hup : x ≤ t.upper)
    (hnext : ∀ h : t.Fits x, next = .ok ⟨x, h⟩) :
    (do refuseIf test below; next) = t.exact above below x := by
  unfold refuseIf
  split
  · next hunder => exact (exact_of_below (htest.1 hunder)).symm
  · next hunder =>
    have hfits : t.Fits x := ⟨not_lt.1 (mt htest.2 hunder), hup⟩
    rw [exact_of_fits hfits]
    exact hnext hfits

end Tests

/-- A sum that fits is computed without overflow and cast without loss. -/
theorem add_ok (h : t.Fits (a.value + b.value)) :
    (do let sum ← lang.add a b; return sum.cast t) = .ok ⟨a.value + b.value, h⟩ := by
  rw [Arithmetic.add_bind h, cast_of_fits h]
  rfl

/-- The checked sum is the exact sum, or the refusal that is due. -/
theorem checkedAdd_eq : checkedAdd lang a b = t.exact
    (if t.signed then "checked_add: signed overflow" else "checked_add: unsigned overflow")
    "checked_add: signed underflow" (a.value + b.value) := by
  obtain ⟨halow, haup⟩ := a.fits
  obtain ⟨hblow, hbup⟩ := b.fits
  unfold checkedAdd
  cases hs : t.signed with
  | false =>
    have hlow := lower_of_unsigned hs
    have hroom : t.Fits (t.upper - a.value) := ⟨by omega, by omega⟩
    have htest : t.upper - a.value < b.value ↔ t.upper < a.value + b.value := by omega
    rw [if_neg Bool.false_ne_true, if_neg Bool.false_ne_true, Arithmetic.sub_bind hroom,
      cast_of_fits hroom]
    exact refuseIf_above htest (by omega) fun h => add_ok h
  | true =>
    have hlow := lower_of_signed hs
    rw [if_pos rfl, if_pos rfl]
    rcases lt_trichotomy b.value 0 with hb | hb | hb
    · have hroom : t.Fits (t.lower - b.value) := ⟨by omega, by omega⟩
      have htest : a.value < t.lower - b.value ↔ a.value + b.value < t.lower := by omega
      rw [if_neg hb.not_gt, if_pos hb, Arithmetic.sub_bind hroom, cast_of_fits hroom]
      exact refuseIf_below htest (by omega) fun h => add_ok h
    · have hsum : t.Fits (a.value + b.value) := ⟨by omega, by omega⟩
      rw [if_neg hb.not_gt, if_neg hb.not_lt, exact_of_fits hsum]
      exact add_ok hsum
    · have hroom : t.Fits (t.upper - b.value) := ⟨by omega, by omega⟩
      have htest : t.upper - b.value < a.value ↔ t.upper < a.value + b.value := by omega
      rw [if_pos hb, if_neg hb.not_gt, Arithmetic.sub_bind hroom, cast_of_fits hroom]
      exact refuseIf_above htest (by omega) fun h => add_ok h

/-- A difference that fits is computed without overflow and cast without loss. -/
theorem sub_ok (h : t.Fits (a.value - b.value)) :
    (do let difference ← lang.sub a b; return difference.cast t) =
      .ok ⟨a.value - b.value, h⟩ := by
  rw [Arithmetic.sub_bind h, cast_of_fits h]
  rfl

/-- The checked difference is the exact difference, or the refusal that is due. -/
theorem checkedSub_eq : checkedSub lang a b = t.exact "checked_sub: signed overflow"
    (if t.signed then "checked_sub: signed underflow" else "checked_sub: unsigned underflow")
    (a.value - b.value) := by
  obtain ⟨halow, haup⟩ := a.fits
  obtain ⟨hblow, hbup⟩ := b.fits
  unfold checkedSub
  cases hs : t.signed with
  | false =>
    have hlow := lower_of_unsigned hs
    have htest : a.value < b.value ↔ a.value - b.value < t.lower := by omega
    rw [if_neg Bool.false_ne_true, if_neg Bool.false_ne_true]
    exact refuseIf_below htest (by omega) fun h => sub_ok h
  | true =>
    have hlow := lower_of_signed hs
    rw [if_pos rfl, if_pos rfl]
    rcases lt_trichotomy b.value 0 with hb | hb | hb
    · have hroom : t.Fits (t.upper + b.value) := ⟨by omega, by omega⟩
      have htest : t.upper + b.value < a.value ↔ t.upper < a.value - b.value := by omega
      rw [if_pos hb, if_neg hb.not_gt, Arithmetic.add_bind hroom, cast_of_fits hroom]
      exact refuseIf_above htest (by omega) fun h => sub_ok h
    · have hdifference : t.Fits (a.value - b.value) := ⟨by omega, by omega⟩
      rw [if_neg hb.not_lt, if_neg hb.not_gt, exact_of_fits hdifference]
      exact sub_ok hdifference
    · have hroom : t.Fits (t.lower + b.value) := ⟨by omega, by omega⟩
      have htest : a.value < t.lower + b.value ↔ a.value - b.value < t.lower := by omega
      rw [if_neg hb.not_gt, if_pos hb, Arithmetic.add_bind hroom, cast_of_fits hroom]
      exact refuseIf_below htest (by omega) fun h => sub_ok h

/-- A product that fits is computed without overflow and cast without loss. -/
theorem mul_ok (h : t.Fits (a.value * b.value)) :
    (do let product ← lang.mul a b; return product.cast t) = .ok ⟨a.value * b.value, h⟩ := by
  rw [Arithmetic.mul_bind h, cast_of_fits h]
  rfl

/-- The checked product is the exact product, or the refusal that is due. -/
theorem checkedMul_eq : checkedMul lang a b = t.exact
    (if t.signed then "checked_mul: signed overflow" else "checked_mul: unsigned overflow")
    (if t.signed then "checked_mul: signed overflow" else "checked_mul: unsigned overflow")
    (a.value * b.value) := by
  obtain ⟨halow, haup⟩ := a.fits
  obtain ⟨hblow, hbup⟩ := b.fits
  have hlow := @lower_nonpos t
  have hup := @upper_nonneg t
  unfold checkedMul
  by_cases hzero : a.value = 0 ∨ b.value = 0
  · have hproduct : a.value * b.value = 0 := mul_eq_zero.2 hzero
    rw [if_pos hzero, exact_of_fits (hproduct ▸ fits_zero)]
    simp only [hproduct]
    rfl
  rw [if_neg hzero]
  obtain ⟨ha, hb⟩ := not_or.1 hzero
  cases hs : t.signed with
  | false =>
    have hunsigned := lower_of_unsigned hs
    have hpos : 0 < b.value := by omega
    have hquotient : t.Fits (t.upper.tdiv b.value) := fits_upper_tdiv (.inr hpos)
    have htest : t.upper.tdiv b.value < a.value ↔ t.upper < a.value * b.value :=
      tdiv_lt_iff hpos hup
    have hnonneg : 0 ≤ a.value * b.value := mul_nonneg (by omega) hpos.le
    rw [if_neg Bool.false_ne_true, if_neg Bool.false_ne_true, Arithmetic.div_bind hb hquotient,
      cast_of_fits hquotient]
    exact refuseIf_above htest (by omega) fun h => mul_ok h
  | true =>
    rw [if_pos rfl, if_pos rfl]
    -- a product of one sign can only be beyond the limit of that sign
    rcases lt_or_gt_of_ne ha with hneg | hpos <;> rcases lt_or_gt_of_ne hb with hneg' | hpos'
    · have hquotient : t.Fits (t.upper.tdiv a.value) := fits_upper_tdiv (.inl hs)
      have htest : b.value < t.upper.tdiv a.value ↔ t.upper < a.value * b.value := by
        rw [mul_comm]
        exact lt_tdiv_neg_iff hneg hup
      have hnonneg : 0 ≤ a.value * b.value := (mul_pos_of_neg_of_neg hneg hneg').le
      simp only [if_neg hneg.not_gt, if_neg hneg'.not_gt, if_pos ha]
      rw [Arithmetic.div_bind ha hquotient]
      exact refuseIf_above htest (by omega) fun h => mul_ok h
    · have hquotient : t.Fits (t.lower.tdiv b.value) := fits_lower_tdiv hpos'
      have htest : a.value < t.lower.tdiv b.value ↔ a.value * b.value < t.lower :=
        lt_tdiv_iff hpos' hlow
      have hnonpos : a.value * b.value ≤ 0 := (mul_neg_of_neg_of_pos hneg hpos').le
      simp only [if_neg hneg.not_gt, if_pos hpos']
      rw [Arithmetic.div_bind hb hquotient]
      exact refuseIf_below htest (by omega) fun h => mul_ok h
    · have hquotient : t.Fits (t.lower.tdiv a.value) := fits_lower_tdiv hpos
      have htest : b.value < t.lower.tdiv a.value ↔ a.value * b.value < t.lower := by
        rw [mul_comm]
        exact lt_tdiv_iff hpos hlow
      have hnonpos : a.value * b.value ≤ 0 := (mul_neg_of_pos_of_neg hpos hneg').le
      simp only [if_pos hpos, if_neg hneg'.not_gt]
      rw [Arithmetic.div_bind ha hquotient]
      exact refuseIf_below htest (by omega) fun h => mul_ok h
    · have hquotient : t.Fits (t.upper.tdiv b.value) := fits_upper_tdiv (.inl hs)
      have htest : t.upper.tdiv b.value < a.value ↔ t.upper < a.value * b.value :=
        tdiv_lt_iff hpos' hup
      have hnonneg : 0 ≤ a.value * b.value := (mul_pos hpos hpos').le
      simp only [if_pos hpos, if_pos hpos']
      rw [Arithmetic.div_bind hb hquotient]
      exact refuseIf_above htest (by omega) fun h => mul_ok h

end Integer

/-- A result is an integer if the type has it, and else an error that is reported. -/
def Exact {t : IntType} (x : ℤ) (r : Outcome (Integer t)) : Prop :=
  if h : t.Fits x then r = .ok ⟨x, h⟩ else ∃ message, r = .error (.status ⟨.invalid, message⟩)

/-- An exact answer is the value or a refusal, and only the value when it fits. -/
theorem exact_exact {t : IntType} {above below : Text} {x : ℤ} :
    Exact x (t.exact above below x) := by
  unfold Exact
  split
  · next h => exact IntType.exact_of_fits h
  · next h => exact ⟨_, dif_neg h⟩

/-- Checked arithmetic is exact, in every type and on all operands. This does not depend on what the
language does where a type does not have a result or a divisor is zero (`lang`), which may be
undefined behaviour: no expression that is evaluated on the way overflows or divides by zero. -/
theorem checked_arithmetic_exact (lang : Arithmetic Fault) (t : IntType) (a b : Integer t) :
    Exact (a.value + b.value) (Integer.checkedAdd lang a b) ∧
      Exact (a.value - b.value) (Integer.checkedSub lang a b) ∧
      Exact (a.value * b.value) (Integer.checkedMul lang a b) := by
  rw [Integer.checkedAdd_eq, Integer.checkedSub_eq, Integer.checkedMul_eq]
  exact ⟨exact_exact, exact_exact, exact_exact⟩

/-! ## Arithmetic of 64 bits

Amounts are unsigned integers of 64 bits, and times are signed ones.
-/

namespace Integer

/-- The unsigned values of 64 bits. -/
theorem fits_uint64 {x : ℤ} : IntType.uint64.Fits x ↔ 0 ≤ x ∧ x < 2 ^ 64 := by
  have hlow : IntType.uint64.lower = 0 := rfl
  have hup : IntType.uint64.upper = 2 ^ 64 - 1 := rfl
  unfold IntType.Fits
  omega

/-- The signed values of 64 bits. -/
theorem fits_int64 {x : ℤ} : IntType.int64.Fits x ↔ Representable x := by
  have hlow : IntType.int64.lower = -2 ^ 63 := rfl
  have hup : IntType.int64.upper = 2 ^ 63 - 1 := rfl
  unfold IntType.Fits Representable
  omega

/-- A `UInt64` as an integer of its type. -/
def ofUInt64 (a : UInt64) : Integer .uint64 where
  value := a.toNat
  fits := fits_uint64.2 ⟨by omega, by exact_mod_cast a.toNat_lt⟩

/-- An `Int64` as an integer of its type. -/
def ofInt64 (a : Int64) : Integer .int64 where
  value := a.toInt
  fits := fits_int64.2 ⟨a.le_toInt, a.toInt_lt⟩

end Integer

open Integer

section Amounts
variable {a b : UInt64}

/-- A test of an amount against the greatest one is a test of its exact value. -/
theorem exact_uint64 {above below : Text} {n : ℕ} {c : UInt64}
    (hc : n ≤ uint64Max → c.toNat = n) : IntType.uint64.exact above below n =
      (Result.lift (if uint64Max < n then fail .invalid above else .ok c)).map ofUInt64 := by
  have hup : IntType.uint64.upper = uint64Max := rfl
  split
  · next hover =>
    rw [IntType.exact_of_above (by rw [hup]; exact_mod_cast hover)]
    rfl
  · next hover =>
    have hle := not_lt.1 hover
    have hfits : IntType.uint64.Fits n := ⟨Int.natCast_nonneg n, by rw [hup]; exact_mod_cast hle⟩
    rw [IntType.exact_of_fits hfits]
    simp only [Result.lift, Except.map, ofUInt64, hc hle]

/-- The addition of amounts is `checked_add`. -/
theorem checkedAdd_uint64 : Integer.checkedAdd cppArithmetic (ofUInt64 a) (ofUInt64 b) =
    (Result.lift (checkedAdd a b)).map ofUInt64 := by
  have ha := a.toNat_lt
  have htest : uint64Max - a.toNat < b.toNat ↔ uint64Max < a.toNat + b.toNat := by
    unfold uint64Max
    omega
  have hsum : a.toNat + b.toNat ≤ uint64Max → (a + b).toNat = a.toNat + b.toNat := fun hle => by
    rw [UInt64.toNat_add, Nat.mod_eq_of_lt (Nat.lt_of_le_pred (by decide) hle)]
  unfold checkedAdd
  simp only [htest]
  rw [Integer.checkedAdd_eq]
  exact exact_uint64 hsum

/-- The checked product of the model is the one of the template at 64 unsigned bits. -/
theorem checkedMul_test : checkedMul a b =
    if uint64Max < a.toNat * b.toNat then fail .invalid "checked_mul: unsigned overflow"
    else .ok (a * b) := by
  unfold checkedMul
  by_cases hzero : a = 0 ∨ b = 0
  · have hmul : a * b = 0 := by rcases hzero with rfl | rfl <;> simp
    have hnat : a.toNat * b.toNat = 0 := by rcases hzero with rfl | rfl <;> simp
    rw [if_pos hzero, hmul, hnat, if_neg (Nat.not_lt_zero _)]
  · have hpos : 0 < b.toNat :=
      Nat.pos_of_ne_zero fun hb => hzero (.inr (UInt64.toNat_inj.1 hb))
    rw [if_neg hzero]
    simp only [Nat.div_lt_iff_lt_mul hpos]

/-- The product of amounts is `checked_mul`. -/
theorem checkedMul_uint64 : Integer.checkedMul cppArithmetic (ofUInt64 a) (ofUInt64 b) =
    (Result.lift (checkedMul a b)).map ofUInt64 := by
  have hproduct : a.toNat * b.toNat ≤ uint64Max → (a * b).toNat = a.toNat * b.toNat :=
    fun hle => by rw [UInt64.toNat_mul, Nat.mod_eq_of_lt (Nat.lt_of_le_pred (by decide) hle)]
  rw [Integer.checkedMul_eq, checkedMul_test]
  exact exact_uint64 hproduct

end Amounts

section Durations
variable {a b : Nanos}

/-- Tests of a time against the limits are tests of its exact value. -/
theorem exact_int64 {above below : Text} {x : ℤ} {c : Nanos} (hc : Representable x → c.toInt = x) :
    IntType.int64.exact above below x =
      (Result.lift (if 2 ^ 63 ≤ x then fail .invalid above
        else if x < -2 ^ 63 then fail .invalid below else .ok c)).map ofInt64 := by
  have hup : IntType.int64.upper = 2 ^ 63 - 1 := rfl
  have hlow : IntType.int64.lower = -2 ^ 63 := rfl
  split
  · next hover =>
    rw [IntType.exact_of_above (by omega)]
    rfl
  split
  · next hunder =>
    rw [IntType.exact_of_below (by omega)]
    rfl
  · next hover hunder =>
    have hfits : Representable x := ⟨by omega, by omega⟩
    rw [IntType.exact_of_fits (fits_int64.2 hfits)]
    simp only [Result.lift, Except.map, ofInt64, hc hfits]

/-- The addition of times is `checked_add`. -/
theorem checkedAdd_int64 : Integer.checkedAdd cppArithmetic (ofInt64 a) (ofInt64 b) =
    (Result.lift (PodController.checkedAddNanos a b)).map ofInt64 := by
  have htest : 2 ^ 63 - 1 < a.toInt + b.toInt ↔ 2 ^ 63 ≤ a.toInt + b.toInt := by omega
  unfold PodController.checkedAddNanos
  simp only [htest]
  rw [Integer.checkedAdd_eq]
  exact exact_int64 toInt_add_of_representable

/-- The difference of times is `checked_sub`. -/
theorem checkedSub_int64 : Integer.checkedSub cppArithmetic (ofInt64 a) (ofInt64 b) =
    (Result.lift (checkedSubNanos a b)).map ofInt64 := by
  unfold checkedSubNanos
  simp only [sub_over, sub_under]
  rw [Integer.checkedSub_eq]
  exact exact_int64 toInt_sub_of_representable

end Durations

end PodFabric
