import Mathlib.Data.List.Basic
import Mathlib.Logic.Function.Basic
import Mathlib.Tactic.Common

/-!
# Checksums

A checksum that takes in one unit at a time, each by a step that is injective both in the state and
in the unit, tells two lists apart that differ in one unit (`Rolling.foldl_ne`). A frame with the
checksum of all the rest of it in its middle is not intact once a unit is replaced, wherever that
unit is (`sealed_altered`).
-/

namespace PodFabric

/-- One unit of a list is replaced by a different one. -/
inductive Altered {β : Type} : List β → List β → Prop
  | head {b b' : β} {l : List β} : b ≠ b' → Altered (b :: l) (b' :: l)
  | tail {b : β} {l l' : List β} : Altered l l' → Altered (b :: l) (b :: l')

namespace Altered
variable {β : Type} {l l' m m' : List β} {b : β} {k : ℕ}

/-- An alteration keeps the length. -/
theorem length_eq (h : Altered l l') : l'.length = l.length := by
  induction h with
  | head _ => rfl
  | tail _ ih => exact congrArg Nat.succ ih

/-- An altered list differs from the list. -/
theorem ne (h : Altered l l') : l ≠ l' := by
  induction h with
  | head hne => exact fun h => hne (List.cons.inj h).1
  | tail _ ih => exact fun h => ih (List.cons.inj h).2

/-- Setting a place to another value is an alteration. -/
theorem set : ∀ {l : List β} {k : ℕ} (hk : k < l.length), l[k] ≠ b → Altered l (l.set k b)
  | _ :: _, 0, _, hne => .head hne
  | _ :: _, _ + 1, hk, hne => .tail (set (Nat.lt_of_succ_lt_succ hk) hne)

/-- An alteration stays one before a common tail. -/
theorem append_left (h : Altered l l') : Altered (l ++ m) (l' ++ m) := by
  induction h with
  | head hne => exact .head hne
  | tail _ ih => exact .tail ih

/-- An alteration stays one behind a common head. -/
theorem append_right (h : Altered m m') : ∀ l : List β, Altered (l ++ m) (l ++ m')
  | [] => h
  | _ :: l => .tail (append_right h l)

/-- The unit that is replaced is in one part of a list or in the other. -/
theorem of_append : ∀ {l l' m m' : List β}, l'.length = l.length →
    Altered (l ++ m) (l' ++ m') → (Altered l l' ∧ m' = m) ∨ (l' = l ∧ Altered m m')
  | [], [], _, _, _, h => .inr ⟨rfl, h⟩
  | _ :: l, _ :: l', m, m', hlength, h => by
    rw [List.cons_append, List.cons_append] at h
    generalize hlm : l ++ m = lm at h
    generalize hlm' : l' ++ m' = lm' at h
    cases h with
    | head hne =>
      obtain ⟨rfl, rfl⟩ := List.append_inj (hlm.trans hlm'.symm) (Nat.succ.inj hlength).symm
      exact .inl ⟨.head hne, rfl⟩
    | tail h =>
      subst hlm hlm'
      obtain ⟨hfront, rfl⟩ | ⟨rfl, hback⟩ := of_append (Nat.succ.inj hlength) h
      · exact .inl ⟨.tail hfront, rfl⟩
      · exact .inr ⟨rfl, hback⟩

end Altered

/-! ## Rolling checksums -/

/-- A step loses neither the state nor the unit that it takes in. -/
structure Rolling {σ β : Type} (step : σ → β → σ) : Prop where
  state : ∀ b, Function.Injective fun s => step s b
  unit : ∀ s, Function.Injective (step s)

section Rolling
variable {σ β : Type} {step : σ → β → σ}

/-- A rolling fold tells the states it starts from apart. -/
theorem Rolling.foldl_injective (h : Rolling step) :
    ∀ l : List β, Function.Injective fun s => l.foldl step s
  | [] => fun _ _ hs => hs
  | b :: l => fun _ _ hs => h.state b (h.foldl_injective l hs)

/-- The replacement of one unit shows in the state. -/
theorem Rolling.foldl_ne (h : Rolling step) {l l' : List β} (hl : Altered l l') :
    ∀ s, l.foldl step s ≠ l'.foldl step s := by
  induction hl with
  | head hne => exact fun s hs => hne (h.unit s (h.foldl_injective _ hs))
  | tail _ ih => exact fun s => ih (step s _)

end Rolling

/-! ## Sealed frames -/

/-- A frame with a checksum between its head and its body is not intact once a unit of it is
replaced. -/
theorem sealed_altered {β : Type} {sum : List β → List β}
    (hsum : ∀ {l l' : List β}, Altered l l' → sum l ≠ sum l') {head body head' seal' body' : List β}
    (hhead : head'.length = head.length) (hseal : seal'.length = (sum (head ++ body)).length)
    (h : Altered (head ++ (sum (head ++ body) ++ body)) (head' ++ (seal' ++ body'))) :
    seal' ≠ sum (head' ++ body') := by
  obtain ⟨hhead', hrest⟩ | ⟨rfl, hrest⟩ := Altered.of_append hhead h
  · obtain ⟨rfl, rfl⟩ := List.append_inj hrest hseal
    exact hsum hhead'.append_left
  · obtain ⟨hseal', rfl⟩ | ⟨rfl, hbody⟩ := Altered.of_append hseal hrest
    · exact hseal'.ne.symm
    · exact hsum (hbody.append_right head')

end PodFabric
