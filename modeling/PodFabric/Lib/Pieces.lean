import Mathlib.Data.List.TakeWhile
import Mathlib.Data.List.Infix

/-!
# Pieces between separators

A list that is put together from pieces with a separator between them is read back from either end:
a piece without the separator ends where the next separator stands. More generally, a run of
elements of one sort ends at the first one of another (`run_inj`).
-/

namespace PodFabric

section Runs
variable {α : Type} {p : α → Prop} {a a' t t' : List α}

/-- A run of elements ends at the first one that does not belong to it. -/
theorem run_inj (ha : ∀ x ∈ a, p x) (ha' : ∀ x ∈ a', p x) (ht : ∀ x ∈ t.head?, ¬ p x)
    (ht' : ∀ x ∈ t'.head?, ¬ p x) (h : a ++ t = a' ++ t') : a = a' ∧ t = t' := by
  induction a generalizing a' with
  | nil =>
    cases a' with
    | nil => exact ⟨rfl, h⟩
    | cons x a' =>
      have hx : ¬ p x := ht x (by rw [List.nil_append] at h; simp [h])
      exact absurd (ha' x List.mem_cons_self) hx
  | cons x a ih =>
    cases a' with
    | nil =>
      have hx : ¬ p x := ht' x (by rw [List.nil_append] at h; simp [← h])
      exact absurd (ha x List.mem_cons_self) hx
    | cons y a' =>
      rw [List.cons_append, List.cons_append, List.cons.injEq] at h
      obtain ⟨rfl, h⟩ := h
      rw [List.forall_mem_cons] at ha ha'
      obtain ⟨rfl, rfl⟩ := ih ha.2 ha'.2 h
      exact ⟨rfl, rfl⟩

end Runs

section Pieces
variable {α : Type} {sep : α} {a a' b q t t' : List α}

/-- A piece in front of a separator, or of the end, is determined. -/
theorem piece_inj (ha : sep ∉ a) (ha' : sep ∉ a') (ht : ∀ x ∈ t.head?, x = sep)
    (ht' : ∀ x ∈ t'.head?, x = sep) (h : a ++ t = a' ++ t') : a = a' ∧ t = t' := by
  have hpiece : ∀ {piece : List α}, sep ∉ piece → ∀ x ∈ piece, x ≠ sep := fun hnot x hx heq =>
    hnot (heq ▸ hx)
  exact run_inj (hpiece ha) (hpiece ha') (fun x hx => not_not.2 (ht x hx))
    (fun x hx => not_not.2 (ht' x hx)) h

/-- A piece without the separator, and the text behind it, can be read back. -/
theorem piece_inj_sep (ha : sep ∉ a) (ha' : sep ∉ a') (h : a ++ sep :: t = a' ++ sep :: t') :
    a = a' ∧ t = t' := by
  have hhead : ∀ rest : List α, ∀ x ∈ (sep :: rest).head?, x = sep := by
    intro rest x hx
    exact (Option.some.inj hx).symm
  obtain ⟨rfl, htail⟩ := piece_inj ha ha' (hhead t) (hhead t') h
  exact ⟨rfl, List.tail_eq_of_cons_eq htail⟩

/-- A piece behind the last separator is determined. -/
theorem last_piece_inj (ha : sep ∉ a) (ha' : sep ∉ a') (h : t ++ sep :: a = t' ++ sep :: a') :
    t = t' ∧ a = a' := by
  have hreverse := congrArg List.reverse h
  simp only [List.reverse_append, List.reverse_cons, List.append_assoc, List.singleton_append]
    at hreverse
  obtain ⟨hpiece, hrest⟩ := piece_inj_sep (mt List.mem_reverse.1 ha) (mt List.mem_reverse.1 ha')
    hreverse
  exact ⟨List.reverse_injective hrest, List.reverse_injective hpiece⟩

/-- An ending without the separator does not reach over it. -/
theorem suffix_of_not_mem (hq : sep ∉ q) (h : q <:+ t ++ sep :: b) : q <:+ b := by
  have htail : sep :: b <:+ t ++ sep :: b := List.suffix_append _ _
  rcases List.suffix_or_suffix_of_suffix h htail with hshort | hlong
  · rcases List.suffix_cons_iff.1 hshort with rfl | hshort
    · exact absurd List.mem_cons_self hq
    · exact hshort
  · exact absurd (hlong.subset List.mem_cons_self) hq

end Pieces

end PodFabric
