import Mathlib.Data.List.Basic
import Mathlib.Data.List.Nodup
import Mathlib.Data.List.Perm.Subperm

/-!
# Worklists

A search keeps the items it has visited and the queue of those whose successors it has not looked up
yet. Whatever order it takes them in, what it has visited when the queue is empty is the least set
that holds the roots and is closed under successors (`Worklist.exact`).
-/

namespace PodFabric

section Worklist
variable {α : Type} {roots : α → Prop} {next : α → α → Prop}

/-- The set holds the roots and the successors of what it holds. -/
structure IsClosed (roots : α → Prop) (next : α → α → Prop) (S : α → Prop) : Prop where
  roots : ∀ a, roots a → S a
  next : ∀ a b, S a → next a b → S b

/-- What can be reached from the roots. -/
inductive Reachable (roots : α → Prop) (next : α → α → Prop) : α → Prop
  | root {a : α} : roots a → Reachable roots next a
  | step {a b : α} : Reachable roots next a → next a b → Reachable roots next b

/-- What can be reached is closed under the next steps. -/
theorem Reachable.isClosed : IsClosed roots next (Reachable roots next) :=
  ⟨fun _ => .root, fun _ _ => .step⟩

/-- No closed set leaves out what can be reached. -/
theorem Reachable.least {S : α → Prop} (h : IsClosed roots next S) {a : α}
    (ha : Reachable roots next a) : S a := by
  induction ha with
  | root ha => exact h.roots _ ha
  | step _ hnext ih => exact h.next _ _ ih hnext

/-- The items are those of a list that have not been visited, each once. -/
structure Fresh (visited items fresh : List α) : Prop where
  nodup : fresh.Nodup
  mem : ∀ a, a ∈ fresh ↔ a ∈ items ∧ a ∉ visited

/-- The state of a search after some steps: everything visited can be reached, and the successors of
what is no longer queued have been visited. -/
structure Worklist (roots : α → Prop) (next : α → α → Prop) (visited queue : List α) (steps : ℕ) :
    Prop where
  nodup : visited.Nodup
  sound : ∀ a ∈ visited, Reachable roots next a
  roots : ∀ a, roots a → a ∈ visited
  closed : ∀ a ∈ visited, a ∉ queue → ∀ b, next a b → b ∈ visited
  queued : ∀ a ∈ queue, a ∈ visited
  count : steps + queue.length = visited.length

namespace Worklist
variable {visited queue items fresh : List α} {steps : ℕ} {a : α}

/-- The search starts with the roots. -/
theorem start (hitems : ∀ a, a ∈ items ↔ roots a) (hfresh : Fresh [] items fresh) :
    Worklist roots next fresh.reverse fresh 0 := by
  have hmem : ∀ a, a ∈ fresh ↔ roots a := by
    intro a
    rw [hfresh.mem, ← hitems]
    simp
  refine ⟨List.nodup_reverse.2 hfresh.nodup, ?_, ?_, ?_, ?_, by simp⟩
  · intro a ha
    exact .root ((hmem a).1 (List.mem_reverse.1 ha))
  · intro a ha
    exact List.mem_reverse.2 ((hmem a).2 ha)
  · intro a ha hqueue
    exact absurd (List.mem_reverse.1 ha) hqueue
  · intro a ha
    exact List.mem_reverse.2 ha

/-- A step takes an item off the queue and adds its successors that are new. -/
theorem step (h : Worklist roots next visited (a :: queue) steps)
    (hitems : ∀ b, b ∈ items ↔ next a b) (hfresh : Fresh visited items fresh) :
    Worklist roots next (fresh.reverse ++ visited) (queue ++ fresh) (steps + 1) := by
  have ha : a ∈ visited := h.queued a List.mem_cons_self
  refine ⟨?_, ?_, ?_, ?_, ?_, ?_⟩
  · refine (List.nodup_reverse.2 hfresh.nodup).append h.nodup ?_
    intro b hb hvisited
    exact ((hfresh.mem b).1 (List.mem_reverse.1 hb)).2 hvisited
  · intro b hb
    rw [List.mem_append, List.mem_reverse] at hb
    obtain hb | hb := hb
    · exact .step (h.sound a ha) ((hitems b).1 ((hfresh.mem b).1 hb).1)
    · exact h.sound b hb
  · intro b hb
    exact List.mem_append_right _ (h.roots b hb)
  · intro b hb hqueue c hc
    rw [List.mem_append, not_or] at hqueue
    rw [List.mem_append, List.mem_reverse] at hb ⊢
    have hb : b ∈ visited := hb.resolve_left hqueue.2
    by_cases hab : b = a
    · subst hab
      by_cases hvisited : c ∈ visited
      · exact .inr hvisited
      · exact .inl ((hfresh.mem c).2 ⟨(hitems c).2 hc, hvisited⟩)
    · refine .inr (h.closed b hb ?_ c hc)
      rw [List.mem_cons, not_or]
      exact ⟨hab, hqueue.1⟩
  · intro b hb
    rw [List.mem_append] at hb
    rw [List.mem_append, List.mem_reverse]
    obtain hb | hb := hb
    · exact .inr (h.queued b (List.mem_cons_of_mem _ hb))
    · exact .inl hb
  · have hcount := h.count
    simp only [List.length_cons, List.length_append, List.length_reverse] at hcount ⊢
    omega

/-- A search does not take more steps than there are items to reach. -/
theorem steps_le {universe' : List α} (h : Worklist roots next visited queue steps)
    (hbound : ∀ a, Reachable roots next a → a ∈ universe') :
    steps + queue.length ≤ universe'.length := by
  rw [h.count]
  exact (List.subperm_of_subset h.nodup fun a ha => hbound a (h.sound a ha)).length_le

/-- When the queue is empty, what has been visited is what can be reached. -/
theorem exact (h : Worklist roots next visited [] steps) :
    (∀ a, a ∈ visited ↔ Reachable roots next a) ∧ steps = visited.length := by
  refine ⟨fun a => ⟨h.sound a, fun ha => ?_⟩, h.count⟩
  refine Reachable.least (S := fun a => a ∈ visited) ⟨h.roots, fun b c hb hc => ?_⟩ ha
  exact h.closed b hb List.not_mem_nil c hc

end Worklist

end Worklist

end PodFabric
