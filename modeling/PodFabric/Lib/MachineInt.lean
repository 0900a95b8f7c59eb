import Mathlib.Algebra.Order.Ring.Int
import Mathlib.Tactic.Common
import Mathlib.Tactic.Positivity

/-!
# Integers of a machine

A built-in integer type has a width and may be signed. Operands that are narrower than the standard
integer are promoted to it before an operation; the result is exact if the promoted type has it.
What happens otherwise, and on a division by zero, differs between languages and types, and is left
open (`Arithmetic`): what is shown for every arithmetic never leaves a type and never divides by
zero. Quotients truncate, and whether a product is beyond a limit is told by a comparison with a
quotient, in a way that depends on the signs (`tdiv_lt_iff`, `lt_tdiv_iff`, `lt_tdiv_neg_iff`).
-/

namespace PodFabric

/-! ## Truncated quotients -/

section Quotients
variable {a b limit : ℤ}

/-- A product is beyond a nonnegative limit if its factor is beyond the quotient. -/
theorem tdiv_lt_iff (hb : 0 < b) (hlimit : 0 ≤ limit) : limit.tdiv b < a ↔ limit < a * b := by
  rw [Int.tdiv_eq_ediv_of_nonneg hlimit]
  exact Int.ediv_lt_iff_lt_mul hb

/-- A product is below a limit that is not positive if its factor is below the quotient. -/
theorem lt_tdiv_iff (hb : 0 < b) (hlimit : limit ≤ 0) : a < limit.tdiv b ↔ a * b < limit := by
  have hneg := @tdiv_lt_iff (-a) b (-limit) hb (by omega)
  rw [Int.neg_tdiv, Int.neg_mul] at hneg
  omega

/-- With a negative factor the product is beyond the limit if the other is below the quotient. -/
theorem lt_tdiv_neg_iff (hb : b < 0) (hlimit : 0 ≤ limit) : a < limit.tdiv b ↔ limit < a * b := by
  have hneg := @tdiv_lt_iff (-a) (-b) limit (by omega) hlimit
  rw [Int.tdiv_neg, Int.neg_mul_neg] at hneg
  omega

end Quotients

/-! ## Types -/

/-- A built-in integer type. -/
structure IntType where
  signed : Bool
  width : ℕ
  positive : 0 < width := by decide
  deriving DecidableEq

namespace IntType

/-- The standard signed integer. -/
def int : IntType := ⟨true, 32, by decide⟩

/-- The signed integers of 64 bits. -/
def int64 : IntType := ⟨true, 64, by decide⟩

/-- The unsigned integers of 64 bits. -/
def uint64 : IntType := ⟨false, 64, by decide⟩

variable (t : IntType)

/-- The least value of a type. -/
def lower : ℤ := if t.signed then -2 ^ (t.width - 1) else 0

/-- The greatest value of a type. -/
def upper : ℤ := if t.signed then 2 ^ (t.width - 1) - 1 else 2 ^ t.width - 1

/-- The type has the integer as a value. -/
def Fits (x : ℤ) : Prop := t.lower ≤ x ∧ x ≤ t.upper

instance instDecidableFits (x : ℤ) : Decidable (t.Fits x) := by unfold Fits; infer_instance

/-- The type in which operands of a type are operated on. -/
def promoted : IntType := if t.width < int.width then int else t

variable {t}

/-- A signed type reaches one further below zero than above it. -/
theorem lower_of_signed (h : t.signed = true) : t.lower = -t.upper - 1 := by
  simp [lower, upper, h]

/-- An unsigned type begins at zero. -/
theorem lower_of_unsigned (h : t.signed = false) : t.lower = 0 := by simp [lower, h]

/-- The least value of a type is not positive. -/
theorem lower_nonpos : t.lower ≤ 0 := by
  unfold lower
  split
  · exact Int.neg_nonpos_of_nonneg (by positivity)
  · exact le_rfl

/-- The greatest value of a type is not negative. -/
theorem upper_nonneg : 0 ≤ t.upper := by
  have hpow : ∀ n : ℕ, (0 : ℤ) < 2 ^ n := fun n => by positivity
  unfold upper
  split
  · have := hpow (t.width - 1)
    omega
  · have := hpow t.width
    omega

/-- A type has as many values as its width allows. -/
theorem lower_add_pow : t.lower + 2 ^ t.width = t.upper + 1 := by
  have hpow : (2 : ℤ) ^ t.width = 2 * 2 ^ (t.width - 1) := by
    rw [← pow_succ', Nat.sub_add_cancel t.positive]
  unfold lower upper
  split <;> omega

/-- Promotion keeps every value representable. -/
theorem Fits.promoted {x : ℤ} (h : t.Fits x) : t.promoted.Fits x := by
  unfold IntType.promoted
  split
  · next hw =>
    have hw : t.width ≤ 31 := Nat.le_of_lt_succ hw
    have hpow : (2 : ℤ) ^ t.width ≤ 2 ^ 31 := pow_le_pow_right₀ (by decide) hw
    have hhalf : (2 : ℤ) ^ (t.width - 1) ≤ 2 ^ 31 := pow_le_pow_right₀ (by decide) (by omega)
    have hint : int.lower = -2 ^ 31 ∧ int.upper = 2 ^ 31 - 1 := by decide
    obtain ⟨hlow, hup⟩ := h
    unfold lower at hlow
    unfold upper at hup
    unfold Fits
    rw [hint.1, hint.2]
    split at hlow <;> split at hup <;> omega
  · exact h

/-! The limits are met by the differences and quotients that a check compares with. -/

/-- Zero is representable in every type. -/
theorem fits_zero : t.Fits 0 := ⟨lower_nonpos, upper_nonneg⟩

/-- The greatest value divided by a divisor of an allowed sign is representable. -/
theorem fits_upper_tdiv {b : ℤ} (hb : t.signed = true ∨ 0 < b) : t.Fits (t.upper.tdiv b) := by
  have hup := @upper_nonneg t
  have hle := Int.tdiv_le_self b hup
  refine ⟨?_, hle⟩
  rcases lt_or_ge 0 b with hpos | hneg
  · exact lower_nonpos.trans (Int.tdiv_nonneg hup hpos.le)
  · rw [lower_of_signed (hb.resolve_right hneg.not_gt)]
    have hle := Int.tdiv_le_self (-b) hup
    rw [Int.tdiv_neg] at hle
    omega

/-- The least value divided by a positive divisor is representable. -/
theorem fits_lower_tdiv {b : ℤ} (hb : 0 < b) : t.Fits (t.lower.tdiv b) := by
  have hlow := @lower_nonpos t
  have hup := @upper_nonneg t
  have hle := @Int.tdiv_le_self (-t.lower) b (by omega)
  have hnonneg := @Int.tdiv_nonneg (-t.lower) b (by omega) hb.le
  rw [Int.neg_tdiv] at hle hnonneg
  exact ⟨by omega, by omega⟩

end IntType

/-! ## Values -/

/-- A value of an integer type. -/
structure Integer (t : IntType) where
  value : ℤ
  fits : t.Fits value
  deriving DecidableEq

namespace Integer
variable {t : IntType}

/-- The least value, `std::numeric_limits<T>::min()`. -/
protected def min (t : IntType) : Integer t :=
  ⟨t.lower, le_rfl, IntType.lower_nonpos.trans IntType.upper_nonneg⟩

/-- The greatest value, `std::numeric_limits<T>::max()`. -/
protected def max (t : IntType) : Integer t :=
  ⟨t.upper, IntType.lower_nonpos.trans IntType.upper_nonneg, le_rfl⟩

instance instZeroInteger : Zero (Integer t) := ⟨⟨0, IntType.fits_zero⟩⟩

/-- The integral promotion of an operand. -/
def promote (a : Integer t) : Integer t.promoted := ⟨a.value, a.fits.promoted⟩

/-- Promotion keeps the value. -/
@[simp] theorem value_promote (a : Integer t) : a.promote.value = a.value := rfl

/-- What an integer wraps to in a type. -/
def wrap (t : IntType) (x : ℤ) : Integer t where
  value := t.lower + (x - t.lower) % 2 ^ t.width
  fits := by
    have hpow : (0 : ℤ) < 2 ^ t.width := by positivity
    have hnonneg := Int.emod_nonneg (x - t.lower) hpow.ne'
    have hlt := Int.emod_lt_of_pos (x - t.lower) hpow
    have hwidth := @IntType.lower_add_pow t
    exact ⟨by omega, by omega⟩

/-- What a type has does not wrap. -/
theorem wrap_of_fits {x : ℤ} (h : t.Fits x) : wrap t x = ⟨x, h⟩ := by
  have hwidth := @IntType.lower_add_pow t
  obtain ⟨hlow, hup⟩ := h
  have hmod : (x - t.lower) % 2 ^ t.width = x - t.lower :=
    Int.emod_eq_of_lt (by omega) (by omega)
  have hvalue : t.lower + (x - t.lower) % 2 ^ t.width = x := by omega
  unfold wrap
  simp only [hvalue]

/-- A conversion to a type, `static_cast<T>(a)`. -/
def cast (t : IntType) {s : IntType} (a : Integer s) : Integer t := wrap t a.value

/-- A cast keeps a value the target represents. -/
theorem cast_of_fits {s : IntType} {a : Integer s} (h : t.Fits a.value) :
    a.cast t = ⟨a.value, h⟩ := wrap_of_fits h

end Integer

/-! ## Arithmetic -/

/-- What a language does where a type does not have a result, and where a divisor is zero. -/
structure Arithmetic (ε : Type) where
  beyond : (t : IntType) → ℤ → Except ε (Integer t)
  byZero : (t : IntType) → Except ε (Integer t)

namespace Arithmetic
variable {ε : Type} (lang : Arithmetic ε) {t : IntType}

/-- The result of an operation in a type. -/
def result (t : IntType) (x : ℤ) : Except ε (Integer t) :=
  if h : t.Fits x then .ok ⟨x, h⟩ else lang.beyond t x

/-- The sum, computed in the promoted type. -/
def add (a b : Integer t) : Except ε (Integer t.promoted) :=
  lang.result t.promoted (a.promote.value + b.promote.value)

/-- The difference, computed in the promoted type. -/
def sub (a b : Integer t) : Except ε (Integer t.promoted) :=
  lang.result t.promoted (a.promote.value - b.promote.value)

/-- The product, computed in the promoted type. -/
def mul (a b : Integer t) : Except ε (Integer t.promoted) :=
  lang.result t.promoted (a.promote.value * b.promote.value)

/-- The quotient, computed in the promoted type. -/
def div (a b : Integer t) : Except ε (Integer t.promoted) :=
  if b.promote.value = 0 then lang.byZero t.promoted
  else lang.result t.promoted (a.promote.value.tdiv b.promote.value)

/-! An operation whose result the type of its operands has gives the result. -/

variable {lang} {a b : Integer t} {α : Type} {next : Integer t.promoted → Except ε α}

/-- A representable result is handed on as it is. -/
theorem result_bind {x : ℤ} (h : t.Fits x) :
    (lang.result t.promoted x >>= next) = next ⟨x, h.promoted⟩ := by
  unfold result
  rw [dif_pos h.promoted]
  rfl

/-- A sum that is representable is handed on. -/
theorem add_bind (h : t.Fits (a.value + b.value)) :
    (lang.add a b >>= next) = next ⟨a.value + b.value, h.promoted⟩ := result_bind h

/-- A difference that is representable is handed on. -/
theorem sub_bind (h : t.Fits (a.value - b.value)) :
    (lang.sub a b >>= next) = next ⟨a.value - b.value, h.promoted⟩ := result_bind h

/-- A product that is representable is handed on. -/
theorem mul_bind (h : t.Fits (a.value * b.value)) :
    (lang.mul a b >>= next) = next ⟨a.value * b.value, h.promoted⟩ := result_bind h

/-- A quotient by a non-zero divisor that is representable is handed on. -/
theorem div_bind (hb : b.value ≠ 0) (h : t.Fits (a.value.tdiv b.value)) :
    (lang.div a b >>= next) = next ⟨a.value.tdiv b.value, h.promoted⟩ := by
  unfold div
  rw [if_neg (by rwa [Integer.value_promote])]
  exact result_bind h

end Arithmetic

end PodFabric
