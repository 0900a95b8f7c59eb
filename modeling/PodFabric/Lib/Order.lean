import Mathlib

/-!
# Linear orders read off a key

Records are compared field by field, in declaration order, and enumerations by their underlying
value. Both are instances of one construction: a type is ordered by an injective key into a type
that has a linear order (`LinearOrder.ofKey`). The fixed-width integers get the linear order of
their own `≤`.
-/

namespace PodFabric

/-- The linear order of an injective key. Equality stays the type's own decidable equality. -/
@[reducible] def LinearOrder.ofKey {α β : Type} [DecidableEq α] [LinearOrder β] (key : α → β)
    (inj : Function.Injective key) : LinearOrder α where
  le a b := key a ≤ key b
  lt a b := key a < key b
  le_refl a := le_refl (key a)
  le_trans _ _ _ h h' := le_trans h h'
  lt_iff_le_not_ge _ _ := lt_iff_le_not_ge
  le_antisymm _ _ h h' := inj (le_antisymm h h')
  le_total a b := le_total (key a) (key b)
  toDecidableLE a b := inferInstanceAs (Decidable (key a ≤ key b))
  toDecidableLT a b := inferInstanceAs (Decidable (key a < key b))
  toDecidableEq := inferInstance

instance UInt8.instLinearOrder : LinearOrder UInt8 where
  le_refl := UInt8.le_refl
  le_trans _ _ _ := UInt8.le_trans
  lt_iff_le_not_ge a b := by simp only [UInt8.lt_iff_toNat_lt, UInt8.le_iff_toNat_le]; omega
  le_antisymm _ _ := UInt8.le_antisymm
  le_total := UInt8.le_total
  toDecidableLE := inferInstance

instance UInt64.instLinearOrder : LinearOrder UInt64 where
  le_refl := UInt64.le_refl
  le_trans _ _ _ := UInt64.le_trans
  lt_iff_le_not_ge a b := by simp only [UInt64.lt_iff_toNat_lt, UInt64.le_iff_toNat_le]; omega
  le_antisymm _ _ := UInt64.le_antisymm
  le_total := UInt64.le_total
  toDecidableLE := inferInstance

instance Int64.instLinearOrder : LinearOrder Int64 where
  le_refl _ := Int64.le_refl _
  le_trans _ _ _ := Int64.le_trans
  lt_iff_le_not_ge a b := by simp only [Int64.lt_iff_toInt_lt, Int64.le_iff_toInt_le]; omega
  le_antisymm _ _ := Int64.le_antisymm
  le_total := Int64.le_total
  toDecidableLE := inferInstance

end PodFabric
