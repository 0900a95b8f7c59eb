import Mathlib.Tactic.Common

/-!
# Procedures

A procedure works on a state and may fail; what it has done to the state up to then stays. Its
outcome on a state (`Proc.on`) is computed along its steps.
-/

namespace PodFabric

/-- A procedure on states `σ` that fails with an `ε`. -/
abbrev Proc (ε σ : Type) := ExceptT ε (StateM σ)

namespace Proc
variable {ε σ α β : Type}

/-- How a procedure ends on a state, and the state it leaves. -/
def on (p : Proc ε σ α) (s : σ) : Except ε α × σ := (p.run.run s).run

variable {p : Proc ε σ α} {q : α → Proc ε σ β} {s : σ}

/-- Returning leaves the state. -/
@[simp] theorem on_pure {a : α} : (pure a : Proc ε σ α).on s = (.ok a, s) := rfl

/-- Raising leaves the state. -/
@[simp] theorem on_throw {e : ε} : (throw e : Proc ε σ α).on s = (.error e, s) := rfl

/-- Reading the state leaves it. -/
@[simp] theorem on_get : (get : Proc ε σ σ).on s = (.ok s, s) := rfl

/-- Modifying always succeeds. -/
@[simp] theorem on_modify {f : σ → σ} : (modify f : Proc ε σ Unit).on s = (.ok (), f s) := rfl

/-- A lifted computation leaves the state. -/
@[simp] theorem on_liftM {x : Except ε α} : (liftM x : Proc ε σ α).on s = (x, s) := by
  cases x <;> rfl

/-- Two procedures in turn: the second runs on the state the first leaves, unless that failed. -/
theorem on_bind : (p >>= q).on s =
    match p.on s with
    | (.ok a, s') => (q a).on s'
    | (.error e, s') => (.error e, s') := by
  unfold on
  rw [ExceptT.run_bind, StateT.run_bind, Id.run_bind]
  rcases (p.run.run s).run with ⟨x, s'⟩
  cases x <;> rfl

/-- A sequence of two procedures succeeds when both do. -/
theorem on_bind_eq_ok {b : β} {s'' : σ} : (p >>= q).on s = (.ok b, s'') ↔
    ∃ a s', p.on s = (.ok a, s') ∧ (q a).on s' = (.ok b, s'') := by
  rw [on_bind]
  rcases p.on s with ⟨result, s'⟩
  cases result <;> simp

/-! ## Procedures that do not tell states apart -/

/-- The procedure ends in the same way on states that are related, and leaves related states. -/
def Respects (R : σ → σ → Prop) (p : Proc ε σ α) : Prop :=
  ∀ ⦃s s' : σ⦄, R s s' → (p.on s).1 = (p.on s').1 ∧ R (p.on s).2 (p.on s').2

section Respects
variable {R : σ → σ → Prop}

/-- Returning respects every relation of states. -/
theorem Respects.pure {a : α} : Respects R (Pure.pure a : Proc ε σ α) := by
  intro s s' h
  exact ⟨rfl, h⟩

/-- A lifted computation respects every relation of states. -/
theorem Respects.liftM {x : Except ε α} : Respects R (MonadLiftT.monadLift x : Proc ε σ α) := by
  intro s s' h
  have hon : ∀ s : σ, (MonadLiftT.monadLift x : Proc ε σ α).on s = (x, s) := fun s => on_liftM
  rw [hon, hon]
  exact ⟨rfl, h⟩

/-- Procedures in turn respect what each of them does. -/
theorem Respects.bind (hp : Respects R p) (hq : ∀ a, Respects R (q a)) : Respects R (p >>= q) := by
  intro s s' h
  obtain ⟨hresult, hstate⟩ := hp h
  rw [on_bind, on_bind]
  generalize p.on s = left at hresult hstate ⊢
  generalize p.on s' = right at hresult hstate ⊢
  obtain ⟨result, s₁⟩ := left
  obtain ⟨result', s₁'⟩ := right
  obtain rfl : result = result' := hresult
  cases result with
  | error e => exact ⟨rfl, hstate⟩
  | ok a => exact hq a hstate

end Respects

/-! ## Invariants -/

/-- The property of the state outlasts the procedure, however that ends. -/
def Keeps (I : σ → Prop) (p : Proc ε σ α) : Prop := ∀ ⦃s : σ⦄, I s → I (p.on s).2

section Keeps
variable {I : σ → Prop}

/-- Returning keeps every invariant. -/
theorem Keeps.pure {a : α} : Keeps I (Pure.pure a : Proc ε σ α) := by
  intro s h
  exact h

/-- A lifted computation keeps every invariant. -/
theorem Keeps.liftM {x : Except ε α} : Keeps I (MonadLiftT.monadLift x : Proc ε σ α) := by
  intro s h
  have hon : (MonadLiftT.monadLift x : Proc ε σ α).on s = (x, s) := on_liftM
  rw [hon]
  exact h

/-- Procedures in turn keep the invariant each of them keeps. -/
theorem Keeps.bind (hp : Keeps I p) (hq : ∀ a, Keeps I (q a)) : Keeps I (p >>= q) := by
  intro s h
  have hstate := hp h
  rw [on_bind]
  generalize p.on s = found at hstate ⊢
  obtain ⟨result, s'⟩ := found
  cases result with
  | error e => exact hstate
  | ok a => exact hq a hstate

end Keeps

end Proc

end PodFabric
