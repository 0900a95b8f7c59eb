import Mathlib.Data.List.Basic

/-!
# Runs

A system takes one call at a time. Here are the state that a list of calls leads to and the trace of
the calls with the states they are made in. A property that every call keeps holds after every run
(`Run.final_invariant`); what one call of a run brings about and the calls after it keep holds at
its end (`Run.final_of_trace`).
-/

namespace PodFabric

namespace Run
variable {σ κ : Type} (step : σ → κ → σ)

/-- The state after some calls. -/
def final (s : σ) (calls : List κ) : σ := calls.foldl step s

/-- The calls with the states they are made in. -/
def trace : σ → List κ → List (σ × κ)
  | _, [] => []
  | s, call :: calls => (s, call) :: trace (step s call) calls

section Lemmas
variable {step} {s : σ} {call : κ} {calls calls' : List κ}

/-- A run of no calls ends where it begins. -/
@[simp] theorem final_nil : final step s [] = s := rfl

/-- A run takes its first call's step, then runs the others. -/
@[simp] theorem final_cons :
    final step s (call :: calls) = final step (step s call) calls := rfl

/-- A run of two lists of calls runs the second where the first ended. -/
@[simp] theorem final_append :
    final step s (calls ++ calls') = final step (final step s calls) calls' :=
  List.foldl_append

/-- A run of no calls has no steps. -/
@[simp] theorem trace_nil : trace step s [] = [] := rfl

/-- The steps of a run: its first, then those of the rest. -/
@[simp] theorem trace_cons :
    trace step s (call :: calls) = (s, call) :: trace step (step s call) calls := rfl

/-- The steps of a run of two lists of calls. -/
theorem trace_append : ∀ {s : σ} {calls : List κ},
    trace step s (calls ++ calls') =
      trace step s calls ++ trace step (final step s calls) calls'
  | _, [] => rfl
  | s, call :: calls => by
    rw [List.cons_append, trace_cons, trace_append, trace_cons, final_cons, List.cons_append]

/-- A trace that comes in two parts is the trace of two runs, the second from where the first one
ends. -/
theorem trace_eq_append : ∀ {s : σ} {calls : List κ} {front back : List (σ × κ)},
    trace step s calls = front ++ back →
      ∃ first second, calls = first ++ second ∧ trace step s first = front ∧
        trace step (final step s first) second = back
  | s, calls, [], back, h => ⟨[], calls, rfl, rfl, h⟩
  | _, [], _ :: _, _, h => by simp at h
  | s, call :: calls, x :: front, back, h => by
    rw [trace_cons, List.cons_append, List.cons.injEq] at h
    obtain ⟨rfl, h⟩ := h
    obtain ⟨first, second, rfl, rfl, hback⟩ := trace_eq_append h
    exact ⟨call :: first, second, rfl, rfl, hback⟩

/-- A call of a trace is made in the state that the calls before it lead to. -/
theorem trace_eq_cons {front back : List (σ × κ)} {x : σ × κ}
    (h : trace step s calls = front ++ x :: back) :
    ∃ first second, calls = first ++ x.2 :: second ∧ trace step s first = front ∧
      x.1 = final step s first ∧ trace step (step x.1 x.2) second = back := by
  obtain ⟨first, second, rfl, hfront, hback⟩ := trace_eq_append h
  cases second with
  | nil => simp at hback
  | cons call second =>
    rw [trace_cons, List.cons.injEq] at hback
    obtain ⟨rfl, hback⟩ := hback
    exact ⟨first, second, rfl, hfront, rfl, hback⟩

/-- Every step of a run is made by one of its calls. -/
theorem call_of_trace : ∀ {s : σ} {calls : List κ} {x : σ × κ}, x ∈ trace step s calls →
    x.2 ∈ calls
  | _, _ :: _, x, h => by
    rcases List.mem_cons.1 h with rfl | h
    · exact List.mem_cons_self
    · exact List.mem_cons_of_mem _ (call_of_trace h)

/-! ## Invariants -/

/-- What every call of a run keeps holds in every state of it. -/
theorem trace_invariant {P : σ → Prop} : ∀ {s : σ} {calls : List κ}, P s →
    (∀ x ∈ trace step s calls, P x.1 → P (step x.1 x.2)) →
    (∀ x ∈ trace step s calls, P x.1) ∧ P (final step s calls)
  | s, [], hs, _ => ⟨by simp, hs⟩
  | s, call :: calls, hs, hstep => by
    rw [trace_cons] at hstep ⊢
    rw [List.forall_mem_cons] at hstep ⊢
    obtain ⟨htrace, hfinal⟩ := trace_invariant (hstep.1 hs) hstep.2
    exact ⟨⟨hs, htrace⟩, hfinal⟩

/-- What every step of the run keeps holds at its end. Induction on the calls. -/
theorem final_invariant {P : σ → Prop} (hs : P s)
    (hstep : ∀ x ∈ trace step s calls, P x.1 → P (step x.1 x.2)) : P (final step s calls) :=
  (trace_invariant hs hstep).2

/-- What a call of a run brings about holds at its end, if the calls after it keep it. -/
theorem final_of_trace {P : σ → Prop} {front back : List (σ × κ)} {x : σ × κ}
    (h : trace step s calls = front ++ x :: back) (hx : P (step x.1 x.2))
    (hstep : ∀ y ∈ back, P y.1 → P (step y.1 y.2)) : P (final step s calls) := by
  obtain ⟨first, second, rfl, -, hfirst, rfl⟩ := trace_eq_cons h
  rw [final_append, final_cons, ← hfirst]
  exact final_invariant hx hstep

/-- What a call of a run brings about and the calls after it keep holds at a later call. -/
theorem between {P : σ → Prop} {front middle back : List (σ × κ)} {x y : σ × κ}
    (h : trace step s calls = front ++ x :: middle ++ y :: back) (hx : P (step x.1 x.2))
    (hstep : ∀ z ∈ middle, P z.1 → P (step z.1 z.2)) : P y.1 := by
  obtain ⟨first, _, -, hfirst, hy, -⟩ := trace_eq_cons h
  exact hy ▸ final_of_trace hfirst hx hstep

end Lemmas

end Run

end PodFabric
