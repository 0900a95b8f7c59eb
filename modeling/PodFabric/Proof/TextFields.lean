import PodFabric.Codec.StateText
import PodFabric.Codec.TextFields

/-!
# Fields are read back

What the field parsers accept, and that each of them gives back the value whose rendering it reads.
-/

namespace PodFabric

/-! ## Numbers -/

/-- The value of a digit string behind a value already read. -/
def digitsValue (value : ℕ) (t : Text) : ℕ := t.foldl (fun v c => 10 * v + (c.toNat - 48)) value

section Numbers
variable {what t : Text} {v r : UInt64} {n : ℕ}

/-- The value of digits is not below the value in front of them. -/
theorem le_digitsValue (n : ℕ) (t : Text) : n ≤ digitsValue n t := by
  induction t generalizing n with
  | nil => exact Nat.le_refl _
  | cons c t ih => exact Nat.le_trans (by omega) (ih (10 * n + (c.toNat - 48)))

/-- The value of a digit's byte. -/
theorem toNat_digit {c : UInt8} (hc : 48 ≤ c.toNat) : (c - 48).toUInt64.toNat = c.toNat - 48 := by
  have hle : (48 : UInt8) ≤ c := UInt8.le_iff_toNat_le.2 hc
  rw [UInt8.toNat_toUInt64, UInt8.toNat_sub_of_le _ _ hle]
  rfl

/-- The test before a step of the digit loop is that the next value leaves the type. -/
theorem overflows_iff {c : UInt8} (hc : 48 ≤ c.toNat ∧ c.toNat ≤ 57) :
    (0xFFFFFFFFFFFFFFFF - (c - 48).toUInt64) / 10 < v ↔ 2 ^ 64 ≤ 10 * v.toNat + (c.toNat - 48) := by
  have hdigit := toNat_digit hc.1
  have hmax : (0xFFFFFFFFFFFFFFFF : UInt64).toNat = 2 ^ 64 - 1 := rfl
  have hle : (c - 48).toUInt64 ≤ (0xFFFFFFFFFFFFFFFF : UInt64) := by
    rw [UInt64.le_iff_toNat_le, hdigit, hmax]
    omega
  rw [UInt64.lt_iff_toNat_lt, UInt64.toNat_div, UInt64.toNat_sub_of_le _ _ hle, hdigit, hmax]
  change (2 ^ 64 - 1 - (c.toNat - 48)) / 10 < v.toNat ↔ _
  omega

/-- The digit loop accepts digits whose value does not leave the type, and returns the value. -/
theorem parseDigits_eq_ok : parseDigits what v t = .ok r ↔
    (∀ c ∈ t, 48 ≤ c.toNat ∧ c.toNat ≤ 57) ∧ digitsValue v.toNat t < 2 ^ 64 ∧
      r.toNat = digitsValue v.toNat t := by
  induction t generalizing v with
  | nil =>
    have hlt := v.toNat_lt
    simp [parseDigits, digitsValue, hlt, UInt64.toNat_inj, eq_comm]
  | cons c t ih =>
    have hdigit : (c < 48 ∨ 57 < c) ↔ ¬ (48 ≤ c.toNat ∧ c.toNat ≤ 57) := by
      rw [UInt8.lt_iff_toNat_lt, UInt8.lt_iff_toNat_lt]
      change c.toNat < 48 ∨ 57 < c.toNat ↔ _
      omega
    rw [parseDigits, List.forall_mem_cons]
    by_cases hc : 48 ≤ c.toNat ∧ c.toNat ≤ 57
    · rw [if_neg fun h => hdigit.1 h hc]
      have hstep : digitsValue v.toNat (c :: t) = digitsValue (10 * v.toNat + (c.toNat - 48)) t :=
        rfl
      by_cases hoverflow : (0xFFFFFFFFFFFFFFFF - (c - 48).toUInt64) / 10 < v
      · have hlarge := (overflows_iff hc).1 hoverflow
        have hgrows := le_digitsValue (10 * v.toNat + (c.toNat - 48)) t
        rw [if_pos hoverflow, hstep]
        simp only [fail, reduceCtorEq, false_iff]
        rintro ⟨-, hlt, -⟩
        omega
      · have hsmall : ¬ 2 ^ 64 ≤ 10 * v.toNat + (c.toNat - 48) := fun h =>
          hoverflow ((overflows_iff hc).2 h)
        have hnext : (v * 10 + (c - 48).toUInt64).toNat = 10 * v.toNat + (c.toNat - 48) := by
          rw [UInt64.toNat_add, UInt64.toNat_mul, toNat_digit hc.1]
          change (v.toNat * 10 % 2 ^ 64 + (c.toNat - 48)) % 2 ^ 64 = _
          omega
        rw [if_neg hoverflow, ih, hnext, ← hstep]
        exact ⟨fun h => ⟨⟨hc, h.1⟩, h.2⟩, fun h => ⟨h.1.2, h.2⟩⟩
    · rw [if_pos (hdigit.2 hc)]
      simp only [fail, reduceCtorEq, false_iff]
      exact fun h => hc h.1.1

/-- The byte of a digit. -/
theorem toNat_digitByte {d : ℕ} (hd : d < 10) : (48 + d.toUInt8).toNat = 48 + d := by
  rw [UInt8.toNat_add, UInt8.toNat_ofNat']
  change (48 + d % 2 ^ 8) % 2 ^ 8 = 48 + d
  omega

/-- Digits written most significant first have the value they were taken from. -/
theorem digitsValue_reverse : ∀ {digits : List ℕ}, (∀ d ∈ digits, d < 10) →
    digitsValue 0 (digits.map fun d => 48 + d.toUInt8).reverse = Nat.ofDigits 10 digits
  | [], _ => rfl
  | d :: digits, h => by
    rw [List.forall_mem_cons] at h
    have hrest := digitsValue_reverse h.2
    rw [digitsValue] at hrest ⊢
    rw [List.map_cons, List.reverse_cons, List.foldl_append, hrest, List.foldl_cons, List.foldl_nil,
      toNat_digitByte h.1, Nat.ofDigits_cons]
    omega

/-- A number is written in digits, and they have its value. -/
theorem decimal_spec (n : ℕ) : decimal n ≠ [] ∧ (∀ c ∈ decimal n, 48 ≤ c.toNat ∧ c.toNat ≤ 57) ∧
    digitsValue 0 (decimal n) = n := by
  have hdigits : ∀ d ∈ Nat.digits 10 n, d < 10 := fun d hd => Nat.digits_lt_base (by decide) hd
  rw [decimal]
  split
  · next hzero =>
    subst hzero
    exact ⟨List.cons_ne_nil _ _, by simp, rfl⟩
  · next hpos =>
    refine ⟨?_, fun c hc => ?_, ?_⟩
    · simpa using Nat.digits_ne_nil_iff_ne_zero.2 hpos
    · rw [List.mem_reverse, List.mem_map] at hc
      obtain ⟨d, hd, rfl⟩ := hc
      have hlt := hdigits d hd
      rw [toNat_digitByte hlt]
      omega
    · rw [digitsValue_reverse hdigits, Nat.ofDigits_digits]

/-- A number of 64 bits has at most twenty digits. -/
theorem decimal_length {n : ℕ} (h : n < 2 ^ 64) : (decimal n).length ≤ 20 := by
  rw [decimal]
  split
  · decide
  · rw [List.length_reverse, List.length_map, Nat.digits_length_le_iff (by decide)]
    omega

/-- A number of 64 bits is read back from its digits. -/
@[simp] theorem parseU64_decimal (n : UInt64) : parseU64 what (decimal n.toNat) = .ok n := by
  obtain ⟨hne, hdigits, hvalue⟩ := decimal_spec n.toNat
  have hlength := decimal_length n.toNat_lt
  rw [parseU64, if_neg (by simp [hne, hlength]), parseDigits_eq_ok, UInt64.toNat_zero, hvalue]
  exact ⟨hdigits, n.toNat_lt, rfl⟩

/-- A number of 32 bits is read back from its digits. -/
@[simp] theorem parseU32_decimal (n : UInt32) : parseU32 what (decimal n.toNat) = .ok n := by
  have hwide := @parseU64_decimal what n.toUInt64
  rw [UInt32.toNat_toUInt64] at hwide
  have hle : ¬ (0xFFFFFFFF : UInt64) < n.toUInt64 := by
    rw [UInt64.lt_iff_toNat_lt, UInt32.toNat_toUInt64]
    have hlt := n.toNat_lt
    change ¬ 2 ^ 32 - 1 < n.toNat
    omega
  rw [parseU32, hwide]
  change (if _ then _ else _) = _
  rw [if_neg hle]
  simp

/-- A number below the bound is its word's value. -/
theorem toNat_ofNat64 {n : ℕ} (h : n < 2 ^ 64) : (UInt64.ofNat n).toNat = n := by
  rw [UInt64.toNat_ofNat', Nat.mod_eq_of_lt h]

/-- A number below the bound is read back from its digits. -/
theorem parseU64_ofNat {n : ℕ} (h : n < 2 ^ 64) :
    parseU64 what (decimal n) = .ok (UInt64.ofNat n) := by
  have hread := @parseU64_decimal what (UInt64.ofNat n)
  rwa [toNat_ofNat64 h] at hread

/-- The text of a number does not begin with a sign. -/
theorem decimal_unsigned (n : ℕ) : (decimal n).head? ≠ some 45 ∧ (decimal n).head? ≠ some 43 := by
  obtain ⟨hne, hdigits, -⟩ := decimal_spec n
  obtain ⟨c, t, ht⟩ := List.exists_cons_of_ne_nil hne
  rw [ht] at hdigits ⊢
  have hc := hdigits c List.mem_cons_self
  constructor
  · rintro h
    rw [Option.some.inj h] at hc
    exact absurd hc.1 (by decide)
  · rintro h
    rw [Option.some.inj h] at hc
    exact absurd hc.1 (by decide)

/-- A signed number is read back from its digits. -/
@[simp] theorem parseI64_decimalInt (i : Int64) : parseI64 what (decimalInt i.toInt) = .ok i := by
  have hlow := i.le_toInt
  have hhigh := i.toInt_lt
  cases hi : i.toInt with
  | ofNat n =>
    rw [hi] at hhigh
    have hn : n < 2 ^ 63 := by
      rw [Int.ofNat_eq_natCast] at hhigh
      omega
    obtain ⟨hminus, hplus⟩ := decimal_unsigned n
    have hvalue : (UInt64.ofNat n).toInt64 = i := by
      rw [UInt64.toInt64_ofNat', ← Int64.toInt_inj, hi, Int64.toInt_ofNat_of_lt hn]
      rfl
    have hsmall : ¬ (0x7FFFFFFFFFFFFFFF : UInt64) < UInt64.ofNat n := by
      rw [UInt64.lt_iff_toNat_lt, toNat_ofNat64 (by omega)]
      change ¬ 2 ^ 63 - 1 < n
      omega
    rw [decimalInt, parseI64]
    simp [hminus, hplus, parseU64_ofNat (show n < 2 ^ 64 by omega), hsmall, hvalue, bind,
      Except.bind, pure, Except.pure]
  | negSucc n =>
    rw [hi] at hlow
    have hn : n + 1 ≤ 2 ^ 63 := by omega
    have hvalue : -(UInt64.ofNat (n + 1)).toInt64 = i := by
      rw [UInt64.toInt64_ofNat', ← Int64.toInt_inj, hi, Int64.toInt_neg_ofNat_of_le hn]
      rfl
    have hsmall : ¬ (0x8000000000000000 : UInt64) < UInt64.ofNat (n + 1) := by
      rw [UInt64.lt_iff_toNat_lt, toNat_ofNat64 (by omega)]
      change ¬ 2 ^ 63 < n + 1
      omega
    have hmin : UInt64.ofNat (n + 1) = 0x8000000000000000 → Int64.minValue = i := by
      intro h
      rw [← hvalue, h]
      rfl
    have hread := @parseU64_ofNat what (n + 1) (by omega)
    generalize UInt64.ofNat (n + 1) = m at hvalue hsmall hmin hread
    rw [decimalInt, parseI64]
    simp only [List.head?_cons, List.tail_cons, true_or, decide_true, if_true, hread, bind,
      Except.bind, pure, Except.pure, if_neg hsmall, hvalue]
    split
    · next h => rw [hmin h]
    · rfl

end Numbers

/-! ## Which texts are numbers -/

/-- One to twenty decimal digits spell a number. -/
structure SpellsNat (t : Text) (n : ℕ) : Prop where
  nonempty : t ≠ []
  short : t.length ≤ 20
  digits : ∀ c ∈ t, 48 ≤ c.toNat ∧ c.toNat ≤ 57
  value : digitsValue 0 t = n

/-- Such digits with at most one sign before them spell a signed number. -/
inductive SpellsInt : Text → ℤ → Prop
  | plain {t : Text} {n : ℕ} : SpellsNat t n → SpellsInt t n
  | plus {t : Text} {n : ℕ} : SpellsNat t n → SpellsInt (43 :: t) n
  | minus {t : Text} {n : ℕ} : SpellsNat t n → SpellsInt (45 :: t) (-n)

section Exact
variable {what t : Text} {r : UInt64} {i : Int64} {n : ℕ}

/-- An unsigned field is read exactly when it spells the number. -/
theorem parseU64_eq_ok : parseU64 what t = .ok r ↔ SpellsNat t r.toNat := by
  rw [parseU64]
  split
  · next hbad =>
    simp only [fail, reduceCtorEq, false_iff]
    intro h
    have hshort := h.short
    exact hbad.elim h.nonempty fun hlong => by omega
  · next hgood =>
    rw [not_or, Nat.not_lt] at hgood
    rw [parseDigits_eq_ok, UInt64.toNat_zero]
    constructor
    · rintro ⟨hdigits, -, hvalue⟩
      exact ⟨hgood.1, hgood.2, hdigits, hvalue.symm⟩
    · intro h
      have hlt := r.toNat_lt
      exact ⟨h.digits, by rw [h.value]; exact hlt, h.value.symm⟩

/-- What is left of a signed number once its sign is read. -/
theorem magnitude_eq_ok {next : UInt64 → Result Int64} {value : ℕ → ℤ}
    (hnext : ∀ m i, next m = .ok i ↔ value m.toNat = i.toInt) :
    (parseU64 what t >>= next) = .ok i ↔ ∃ n, SpellsNat t n ∧ n < 2 ^ 64 ∧ value n = i.toInt := by
  cases hread : parseU64 what t with
  | error status =>
    simp only [bind, Except.bind, reduceCtorEq, false_iff]
    rintro ⟨n, hn, hlt, -⟩
    have hok := (@parseU64_eq_ok what t (UInt64.ofNat n)).2 (by rwa [toNat_ofNat64 hlt])
    rw [hread] at hok
    cases hok
  | ok m =>
    have hm := parseU64_eq_ok.1 hread
    change next m = .ok i ↔ _
    rw [hnext]
    constructor
    · intro h
      exact ⟨m.toNat, hm, m.toNat_lt, h⟩
    · rintro ⟨n, hn, -, h⟩
      rwa [← hn.value, hm.value] at h

/-- Every word is that of a number below the bound. -/
theorem exists_ofNat64 (m : UInt64) : ∃ k < 2 ^ 64, m = UInt64.ofNat k :=
  ⟨m.toNat, m.toNat_lt, UInt64.toNat_inj.1 (toNat_ofNat64 m.toNat_lt).symm⟩

/-- Without a sign in front a magnitude is read when it is within the signed range. -/
theorem positive_eq_ok (m : UInt64) (i : Int64) :
    (if 0x7FFFFFFFFFFFFFFF < m then fail .invalid (fieldMessage what " overflows 64 bits")
      else return m.toInt64 : Result Int64) = .ok i ↔ (m.toNat : ℤ) = i.toInt := by
  have hhigh := i.toInt_lt
  obtain ⟨k, hk, rfl⟩ := exists_ofNat64 m
  have hlimit : (0x7FFFFFFFFFFFFFFF < UInt64.ofNat k) ↔ 2 ^ 63 ≤ k := by
    rw [UInt64.lt_iff_toNat_lt, toNat_ofNat64 hk]
    change 2 ^ 63 - 1 < k ↔ _
    omega
  simp only [hlimit, toNat_ofNat64 hk]
  split
  · next hbig =>
    simp only [fail, reduceCtorEq, false_iff]
    omega
  · next hsmall =>
    change Except.ok _ = _ ↔ _
    rw [Except.ok.injEq, ← Int64.toInt_inj, UInt64.toInt64_ofNat',
      Int64.toInt_ofNat_of_lt (by omega)]

/-- Behind a minus a magnitude is read when its negative is within the signed range. -/
theorem negative_eq_ok (m : UInt64) (i : Int64) :
    (if 0x8000000000000000 < m then fail .invalid (fieldMessage what " underflows 64 bits")
      else if m = 0x8000000000000000 then return Int64.minValue
      else return -m.toInt64 : Result Int64) = .ok i ↔ -(m.toNat : ℤ) = i.toInt := by
  have hlow := i.le_toInt
  obtain ⟨k, hk, rfl⟩ := exists_ofNat64 m
  have hlimit : (0x8000000000000000 < UInt64.ofNat k) ↔ 2 ^ 63 < k := by
    rw [UInt64.lt_iff_toNat_lt, toNat_ofNat64 hk]
    rfl
  have hleast : (UInt64.ofNat k = 0x8000000000000000) ↔ k = 2 ^ 63 := by
    rw [← UInt64.toNat_inj, toNat_ofNat64 hk]
    rfl
  simp only [hlimit, hleast, toNat_ofNat64 hk]
  split
  · next hbig =>
    simp only [fail, reduceCtorEq, false_iff]
    omega
  · next hsmall =>
    split
    · next hmin =>
      change Except.ok _ = _ ↔ _
      rw [Except.ok.injEq, ← Int64.toInt_inj, hmin]
      rfl
    · change Except.ok _ = _ ↔ _
      rw [Except.ok.injEq, ← Int64.toInt_inj, UInt64.toInt64_ofNat',
        Int64.toInt_neg_ofNat_of_le (by omega)]

/-- A digit string does not begin with a sign. -/
theorem SpellsNat.unsigned (h : SpellsNat t n) : t.head? ≠ some 45 ∧ t.head? ≠ some 43 := by
  obtain ⟨c, rest, rfl⟩ := List.exists_cons_of_ne_nil h.nonempty
  have hc := h.digits c List.mem_cons_self
  rw [List.head?_cons, Ne, Ne, Option.some.injEq, Option.some.injEq]
  constructor
  · rintro rfl
    exact absurd hc.1 (by decide)
  · rintro rfl
    exact absurd hc.1 (by decide)

/-- A signed number is spelt by a sign, if there is one, and the digits of its magnitude. -/
theorem spellsInt_iff {v : ℤ} : SpellsInt t v ↔
    ∃ n : ℕ, SpellsNat (if t.head? = some 45 ∨ t.head? = some 43 then t.tail else t) n ∧
      (if t.head? = some 45 then -(n : ℤ) else n) = v := by
  constructor
  · intro h
    cases h with
    | plain h =>
      obtain ⟨hminus, hplus⟩ := h.unsigned
      refine ⟨_, ?_, if_neg hminus⟩
      rw [if_neg (by simp [hminus, hplus])]
      exact h
    | plus h => exact ⟨_, h, rfl⟩
    | minus h => exact ⟨_, h, rfl⟩
  · rintro ⟨n, hn, rfl⟩
    cases t with
    | nil => exact .plain hn
    | cons c rest =>
      simp only [List.head?_cons, Option.some.injEq, List.tail_cons] at hn ⊢
      by_cases hminus : c = 45
      · subst hminus
        exact .minus hn
      · rw [if_neg hminus]
        by_cases hplus : c = 43
        · subst hplus
          exact .plus hn
        · rw [if_neg (by simp [hminus, hplus])] at hn
          exact .plain hn

/-- A signed field is read exactly when it spells the number. -/
theorem parseI64_eq_ok : parseI64 what t = .ok i ↔ SpellsInt t i.toInt := by
  have hlow := i.le_toInt
  have hhigh := i.toInt_lt
  -- the sign decides how the magnitude is turned into the value
  have hnext : ∀ (m : UInt64) (i : Int64), (if t.head? = some 45 then
      if 0x8000000000000000 < m then fail .invalid (fieldMessage what " underflows 64 bits")
      else if m = 0x8000000000000000 then return Int64.minValue
      else return -m.toInt64
    else if 0x7FFFFFFFFFFFFFFF < m then fail .invalid (fieldMessage what " overflows 64 bits")
    else return m.toInt64 : Result Int64) = .ok i ↔
      (if t.head? = some 45 then -(m.toNat : ℤ) else m.toNat) = i.toInt := by
    intro m i
    split
    · exact negative_eq_ok m i
    · exact positive_eq_ok m i
  rw [parseI64, spellsInt_iff]
  simp only [decide_eq_true_eq]
  rw [@magnitude_eq_ok _ _ _ _ (fun n => if t.head? = some 45 then -(n : ℤ) else n) hnext]
  constructor
  · rintro ⟨n, hn, -, hvalue⟩
    exact ⟨n, hn, hvalue⟩
  · rintro ⟨n, hn, hvalue⟩
    refine ⟨n, hn, ?_, hvalue⟩
    split at hvalue <;> omega

/-- The parsers of decimal numbers accept the digit strings of the values of their types, return
these values, and read back what `decimal` and `decimalInt` write. -/
theorem decimal_parsing_exact (what : Text) :
    (∀ t, (∃ r, parseU64 what t = .ok r) ↔ ∃ n < 2 ^ 64, SpellsNat t n) ∧
    (∀ t r, parseU64 what t = .ok r ↔ SpellsNat t r.toNat) ∧
    (∀ t, (∃ r, parseI64 what t = .ok r) ↔ ∃ v : ℤ, -2 ^ 63 ≤ v ∧ v < 2 ^ 63 ∧ SpellsInt t v) ∧
    (∀ t r, parseI64 what t = .ok r ↔ SpellsInt t r.toInt) ∧
    (∀ n : UInt64, parseU64 what (decimal n.toNat) = .ok n) ∧
    ∀ i : Int64, parseI64 what (decimalInt i.toInt) = .ok i := by
  refine ⟨fun t => ?_, fun t r => parseU64_eq_ok, fun t => ?_, fun t r => parseI64_eq_ok,
    fun n => parseU64_decimal n, fun i => parseI64_decimalInt i⟩
  · constructor
    · rintro ⟨r, hr⟩
      exact ⟨r.toNat, r.toNat_lt, parseU64_eq_ok.1 hr⟩
    · rintro ⟨n, hn, h⟩
      exact ⟨UInt64.ofNat n, parseU64_eq_ok.2 (by rwa [toNat_ofNat64 hn])⟩
  · constructor
    · rintro ⟨r, hr⟩
      exact ⟨r.toInt, r.le_toInt, r.toInt_lt, parseI64_eq_ok.1 hr⟩
    · rintro ⟨v, hlow, hhigh, h⟩
      refine ⟨Int64.ofInt v, parseI64_eq_ok.2 ?_⟩
      rwa [Int64.toInt_ofInt_of_le hlow hhigh]

end Exact

/-! ## Enumerations and digests -/

section Tables
variable {what : Text}

/-- A quality is read back from its name. -/
@[simp] theorem parseQuality_toText (q : EvidenceQuality) : parseQuality q.toText = .ok q := by
  cases q <;> rfl

/-- A class of evidence is read back from its name. -/
@[simp] theorem parseClass_toText (k : EvidenceClass) : parseClass k.toText = .ok k := by
  cases k <;> rfl

/-- A membership state is read back from its name. -/
@[simp] theorem parseMembership_toText (m : MembershipState) :
    parseMembership m.toText = .ok m := by
  cases m <;> rfl

/-- An administrative state is read back from its name. -/
@[simp] theorem parseAdmin_toText (a : AdminState) : parseAdmin a.toText = .ok a := by
  cases a <;> rfl

/-- A health state is read back from its name. -/
@[simp] theorem parseHealth_toText (h : HealthState) : parseHealth h.toText = .ok h := by
  cases h <;> rfl

/-- An operational state is read back from its name. -/
@[simp] theorem parseOper_toText (o : OperationalState) : parseOper o.toText = .ok o := by
  cases o <;> rfl

/-- A route state is read back from its name. -/
@[simp] theorem parseRouteState_toText (r : RouteState) : parseRouteState r.toText = .ok r := by
  cases r <;> rfl

/-- A kind of domain is read back from its name. -/
@[simp] theorem parseDomainKind_toText (k : DomainKind) :
    parseDomainKind what k.toText = .ok k := by
  cases k <;> rfl

/-- A kind of obligation is read back from its name. -/
@[simp] theorem parseObligationKind_toText (k : ObligationKind) :
    parseObligationKind k.toText = .ok k := by
  cases k <;> rfl

/-- A flag is read back as the number it is written as. -/
@[simp] theorem parseU32_flagText (b : Bool) :
    parseU32 what (flagText b) = .ok (if b then 1 else 0) := by
  cases b
  · exact parseU32_decimal 0
  · exact parseU32_decimal 1

/-- The digits of the two halves of a byte give the byte back. -/
theorem hexValue_hexDigit (b : UInt8) : hexValue (hexDigit (b >>> 4)) = some (b >>> 4) ∧
    hexValue (hexDigit (b &&& 0x0F)) = some (b &&& 0x0F) ∧
    (b >>> 4) <<< 4 ||| (b &&& 0x0F) = b ∧
    32 < (hexDigit (b >>> 4)).toNat ∧ 32 < (hexDigit (b &&& 0x0F)).toNat := by
  have hall : ∀ k : Fin 256, hexValue (hexDigit (UInt8.ofFin k >>> 4)) = some
      (UInt8.ofFin k >>> 4) ∧
      hexValue (hexDigit (UInt8.ofFin k &&& 0x0F)) = some (UInt8.ofFin k &&& 0x0F) ∧
      (UInt8.ofFin k >>> 4) <<< 4 ||| (UInt8.ofFin k &&& 0x0F) = UInt8.ofFin k ∧
      32 < (hexDigit (UInt8.ofFin k >>> 4)).toNat ∧
      32 < (hexDigit (UInt8.ofFin k &&& 0x0F)).toNat := by
    decide +kernel
  exact hall b.toFin

/-- Bytes are read back from their hexadecimal digits. -/
theorem hexPairs_hexBytes (bytes : List UInt8) : hexPairs (hexBytes bytes) = some bytes := by
  induction bytes with
  | nil => rfl
  | cons b bytes ih =>
    obtain ⟨hhigh, hlow, hboth, -⟩ := hexValue_hexDigit b
    rw [hexBytes, List.flatMap_cons, ← hexBytes, List.cons_append, List.singleton_append,
      hexPairs, ih,
      hhigh, hlow]
    simp [hboth]

/-- A byte has two hexadecimal digits. -/
theorem length_hexBytes (bytes : List UInt8) : (hexBytes bytes).length = 2 * bytes.length := by
  simp [hexBytes, List.length_flatMap, Nat.mul_comm]

/-- Hexadecimal digits are visible. -/
theorem hexBytes_visible {bytes : List UInt8} : ∀ c ∈ hexBytes bytes, 32 < c.toNat := by
  intro c hc
  rw [hexBytes, List.mem_flatMap] at hc
  obtain ⟨b, -, hc⟩ := hc
  obtain ⟨-, -, -, hhigh, hlow⟩ := hexValue_hexDigit b
  simp only [List.mem_cons, List.not_mem_nil, or_false] at hc
  rcases hc with rfl | rfl
  · exact hhigh
  · exact hlow

/-- A digest is read back from its digits. -/
@[simp] theorem parse_toHex (d : Digest) : Digest.parse d.toHex = .ok d := by
  have hlength : d.toHex.length = 64 := by rw [Digest.toHex, length_hexBytes, d.size]
  rw [Digest.parse, dif_pos hlength]
  split
  · next bytes hbytes =>
    have hsame : bytes = d.bytes :=
      Option.some.inj (hbytes.symm.trans (hexPairs_hexBytes d.bytes))
    exact congrArg Except.ok (Digest.ext hsame)
  · next hbytes => rw [Digest.toHex, hexPairs_hexBytes] at hbytes; cases hbytes

end Tables

/-! ## Plain fields -/

/-- A field that cannot be told apart from a token: it is not empty, and all of its bytes are
visible. -/
structure Plain (t : Text) : Prop where
  nonempty : t ≠ []
  visible : ∀ c ∈ t, 32 < c.toNat

namespace Plain

/-- Decimal digits are a plain field. -/
theorem decimal (n : ℕ) : Plain (decimal n) := by
  obtain ⟨hne, hdigits, -⟩ := decimal_spec n
  exact ⟨hne, fun c hc => by have := hdigits c hc; omega⟩

/-- Decimal digits with a sign are a plain field. -/
theorem decimalInt (i : ℤ) : Plain (decimalInt i) := by
  cases i with
  | ofNat n => exact decimal n
  | negSucc n => exact ⟨List.cons_ne_nil _ _, List.forall_mem_cons.2 ⟨by decide, (decimal _).2⟩⟩

/-- Hexadecimal digits are a plain field. -/
theorem toHex (d : Digest) : Plain d.toHex := by
  constructor
  · intro h
    have hlength := length_hexBytes d.bytes
    rw [← Digest.toHex, h, d.size] at hlength
    cases hlength
  · exact hexBytes_visible

end Plain

/-- The bytes of a canonical token are visible, and it is not the token of an absent value. -/
theorem isCanonicalId_plain {t : Text} (h : isCanonicalId t = true) : Plain t ∧ t ≠ [45] := by
  cases t with
  | nil => cases h
  | cons c t =>
    rw [isCanonicalId, List.head?_cons, List.getLast?_cons] at h
    simp only [Bool.and_eq_true, List.all_eq_true] at h
    obtain ⟨⟨⟨-, hfront⟩, -⟩, hall⟩ := h
    refine ⟨⟨List.cons_ne_nil _ _, fun x hx => ?_⟩, ?_⟩
    · have hbyte := hall x hx
      simp only [isLowerAlnum, isSeparator, Bool.or_eq_true, Bool.and_eq_true, decide_eq_true_eq,
        UInt8.le_iff_toNat_le] at hbyte
      rcases hbyte with (h | h) | h
      · exact Nat.lt_of_lt_of_le (by decide) h.1
      · exact Nat.lt_of_lt_of_le (by decide) h.1
      · rcases h with ((rfl | rfl) | rfl) | rfl <;> decide
    · rintro h
      rw [List.cons.inj h |>.1] at hfront
      exact absurd hfront (by decide)

/-- The test for a plain field. -/
theorem plain_iff {t : Text} : Plain t ↔ (!t.isEmpty && t.all fun c => 32 < c.toNat) = true := by
  simp only [Bool.and_eq_true, Bool.not_eq_true', List.isEmpty_eq_false_iff, List.all_eq_true,
    decide_eq_true_eq]
  exact ⟨fun h => ⟨h.1, h.2⟩, fun h => ⟨h.1, h.2⟩⟩

instance (t : Text) : Decidable (Plain t) := decidable_of_iff _ plain_iff.symm

/-- The name of a quality is a plain field. -/
theorem EvidenceQuality.plain (q : EvidenceQuality) : Plain q.toText := by
  cases q <;> exact plain_iff.2 rfl

/-- The name of a class of evidence is a plain field. -/
theorem EvidenceClass.plain (k : EvidenceClass) : Plain k.toText := by
  cases k <;> exact plain_iff.2 rfl

/-- The name of a membership state is a plain field. -/
theorem MembershipState.plain (m : MembershipState) : Plain m.toText := by
  cases m <;> exact plain_iff.2 rfl

/-- The name of an administrative state is a plain field. -/
theorem AdminState.plain (a : AdminState) : Plain a.toText := by
  cases a <;> exact plain_iff.2 rfl

/-- The name of a health state is a plain field. -/
theorem HealthState.plain (h : HealthState) : Plain h.toText := by
  cases h <;> exact plain_iff.2 rfl

/-- The name of an operational state is a plain field. -/
theorem OperationalState.plain (o : OperationalState) : Plain o.toText := by
  cases o <;> exact plain_iff.2 rfl

/-- The name of a route state is a plain field. -/
theorem RouteState.plain (r : RouteState) : Plain r.toText := by
  cases r <;> exact plain_iff.2 rfl

/-- The name of a kind of domain is a plain field. -/
theorem DomainKind.plain (k : DomainKind) : Plain k.toText := by
  cases k <;> exact plain_iff.2 rfl

/-- The name of a kind of obligation is a plain field. -/
theorem ObligationKind.plain (k : ObligationKind) : Plain k.toText := by
  cases k <;> exact plain_iff.2 rfl

/-- The text of a flag is a plain field. -/
theorem plain_flagText (b : Bool) : Plain (flagText b) := by
  cases b <;> exact plain_iff.2 rfl

section Identifiers
variable {tag : IdTag} {id id' : BasicId tag}

/-- The text of an identifier is a plain field. -/
theorem Plain.ident (id : BasicId tag) : Plain id.toText := by
  rw [BasicId.toText]
  split
  · exact ⟨List.cons_ne_nil _ _, by simp⟩
  · next hnil =>
    rcases id.canonical with h | h
    · exact absurd (List.isEmpty_iff.2 h) hnil
    · exact (isCanonicalId_plain h).1

/-- The nil identifier is written as an absent value. -/
theorem blankToEmpty_toText (id : BasicId tag) : blankToEmpty id.toText = id.token := by
  rw [BasicId.toText]
  split
  · next hnil =>
    rw [BasicId.isNil, List.isEmpty_iff] at hnil
    rw [hnil]
    rfl
  · next hnil =>
    rcases id.canonical with h | h
    · exact absurd (List.isEmpty_iff.2 h) hnil
    · rw [blankToEmpty, if_neg (isCanonicalId_plain h).2]

/-- An identifier is read back unless it is nil. -/
theorem parse_token_eq_ok : BasicId.parse id.token = .ok id' ↔ id ≠ .nil ∧ id' = id := by
  rw [BasicId.parse]
  split
  · next h =>
    have hne : id ≠ .nil := by
      rintro rfl
      cases h
    rw [Except.ok.injEq, BasicId.ext_iff, BasicId.ext_iff]
    exact ⟨fun h => ⟨hne, h.symm⟩, fun h => h.2.symm⟩
  · next h =>
    have hnil : id = .nil := BasicId.ext (id.canonical.resolve_right h)
    simp [fail, hnil]

/-- An identifier that may be absent is always read back. -/
theorem parse_optional_eq_ok : (if id.token = [] then .ok .nil else BasicId.parse id.token :
    Result (BasicId tag)) = .ok id' ↔ id' = id := by
  split
  · next h =>
    have hnil : id = .nil := BasicId.ext h
    rw [Except.ok.injEq, hnil]
    exact eq_comm
  · next h =>
    rw [parse_token_eq_ok]
    refine and_iff_right ?_
    rintro rfl
    exact h rfl

end Identifiers

end PodFabric
