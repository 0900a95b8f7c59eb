import Mathlib.Algebra.BigOperators.Group.List.Basic
import Mathlib.Algebra.GroupWithZero.Nat
import Mathlib.Data.List.Perm.Basic

/-!
# Filling up to a bound

A loop adds up what still fits below a bound and passes over the rest. Its total depends on the
order in which the elements come: it is that of a full selection (`Full`), which leaves no room for
any element passed over (`fill_full`), and every full selection comes about in some order
(`fill_of_full`).
-/

namespace PodFabric.Filling

open List

section
variable {α : Type} {weight : α → ℕ} {bound total : ℕ} {l l' kept dropped : List α}

/-- The elements of a list together. -/
def weigh (weight : α → ℕ) (l : List α) : ℕ := (l.map weight).sum

/-- The total after a loop that adds every element that keeps it below the bound. -/
def fill (weight : α → ℕ) (bound : ℕ) : ℕ → List α → ℕ
  | total, [] => total
  | total, a :: l =>
    fill weight bound (if total + weight a < bound then total + weight a else total) l

/-- A full selection: the elements kept stay below the bound together, and none of those dropped
would with them. -/
structure Full (weight : α → ℕ) (bound : ℕ) (kept dropped : List α) : Prop where
  fits : weigh weight kept < bound
  tight : ∀ a ∈ dropped, bound ≤ weigh weight kept + weight a

/-- Nothing weighs nothing. -/
@[simp] theorem weigh_nil : weigh weight [] = 0 := rfl

/-- The first element and the others. -/
@[simp] theorem weigh_cons {a : α} : weigh weight (a :: l) = weight a + weigh weight l := by
  rw [weigh, weigh, List.map_cons, List.sum_cons]

/-- The weight does not depend on the order. -/
theorem weigh_perm (hp : l ~ l') : weigh weight l = weigh weight l' := (hp.map weight).sum_eq

/-- A loop over two lists goes over one after the other. -/
theorem fill_append : fill weight bound total (l ++ l') =
    fill weight bound (fill weight bound total l) l' := by
  induction l generalizing total with
  | nil => rfl
  | cons a l ih => exact ih

/-- Where everything fits, everything is added. -/
theorem fill_of_fits (h : total + weigh weight l < bound) :
    fill weight bound total l = total + weigh weight l := by
  induction l generalizing total with
  | nil => rfl
  | cons a l ih =>
    rw [weigh_cons] at h ⊢
    rw [fill, if_pos (by omega), ih (by omega)]
    omega

/-- Where nothing fits, nothing is added. -/
theorem fill_of_tight (h : ∀ a ∈ l, bound ≤ total + weight a) :
    fill weight bound total l = total := by
  induction l with
  | nil => rfl
  | cons a l ih =>
    have ha := h a List.mem_cons_self
    rw [fill, if_neg (by omega)]
    exact ih fun b hb => h b (List.mem_cons_of_mem _ hb)

/-- The loop adds up a selection that leaves no room for what it passes over. Induction on the
list. -/
theorem fill_selects (h : total < bound) : ∃ kept dropped, l ~ kept ++ dropped ∧
    fill weight bound total l = total + weigh weight kept ∧
    total + weigh weight kept < bound ∧
    ∀ a ∈ dropped, bound ≤ total + weigh weight kept + weight a := by
  induction l generalizing total with
  | nil => exact ⟨[], [], .refl _, rfl, h, fun a ha => by cases ha⟩
  | cons a l ih =>
    by_cases hfits : total + weight a < bound
    · obtain ⟨kept, dropped, hp, htotal, hbelow, htight⟩ := ih hfits
      refine ⟨a :: kept, dropped, hp.cons a, ?_, ?_, fun b hb => ?_⟩
      · rw [fill, if_pos hfits, htotal, weigh_cons, Nat.add_assoc]
      · rwa [weigh_cons, ← Nat.add_assoc]
      · rw [weigh_cons, ← Nat.add_assoc]
        exact htight b hb
    · obtain ⟨kept, dropped, hp, htotal, hbelow, htight⟩ := ih h
      refine ⟨kept, a :: dropped, (hp.cons a).trans List.perm_middle.symm, ?_, hbelow,
        fun b hb => ?_⟩
      · rw [fill, if_neg hfits, htotal]
      · rcases List.mem_cons.1 hb with rfl | hb
        · omega
        · exact htight b hb

/-- The total of a loop is that of a full selection. -/
theorem fill_full (h : 0 < bound) : ∃ kept dropped, l ~ kept ++ dropped ∧
    Full weight bound kept dropped ∧ fill weight bound 0 l = weigh weight kept := by
  obtain ⟨kept, dropped, hp, htotal, hfits, htight⟩ := @fill_selects _ weight _ 0 l h
  simp only [Nat.zero_add] at htotal hfits htight
  exact ⟨kept, dropped, hp, ⟨hfits, htight⟩, htotal⟩

/-- A full selection that comes first is the one the loop adds up. -/
theorem fill_of_full (h : Full weight bound kept dropped) :
    fill weight bound 0 (kept ++ dropped) = weigh weight kept := by
  have hkept : fill weight bound 0 kept = weigh weight kept := by
    rw [fill_of_fits (by rw [Nat.zero_add]; exact h.fits), Nat.zero_add]
  rw [fill_append, hkept]
  exact fill_of_tight h.tight

end

end PodFabric.Filling
