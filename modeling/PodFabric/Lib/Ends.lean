/-!
# How operations end

What is known of an operation that can fail: which values it may return and which errors it may end
with. The rules follow the sequencing of the operation, so that what holds of its steps is put
together to what holds of the whole.
-/

namespace PodFabric

/-- The operation ends with a value that satisfies `Q`, or with an error that satisfies `E`. -/
def Ends {ε α : Type} (E : ε → Prop) (Q : α → Prop) : Except ε α → Prop
  | .ok a => Q a
  | .error e => E e

section Ends
variable {ε α β : Type} {E : ε → Prop} {P Q : α → Prop} {R : β → Prop} {x y : Except ε α}
  {f : α → Except ε β} {a : α} {e : ε}

/-- A returned value ends in what holds of it. -/
theorem Ends.pure (h : Q a) : Ends E Q (Pure.pure a) := h

/-- A raised error ends in what holds of it. -/
theorem Ends.error (h : E e) : Ends E Q (.error e : Except ε α) := h

/-- A sequence ends as its second step does, for every value the first one may hand on. -/
theorem Ends.bind (hx : Ends E P x) (hf : ∀ a, P a → Ends E R (f a)) : Ends E R (x >>= f) := by
  cases x with
  | ok a => exact hf a hx
  | error e => exact hx

/-- Every computation ends somehow. -/
theorem Ends.any : Ends (fun _ => True) (fun _ => True) x := by
  cases x <;> trivial

/-- What a step hands on need not be known if the rest ends well for all of it. -/
theorem Ends.skip (hf : ∀ a, Ends (fun _ => True) R (f a)) : Ends (fun _ => True) R (x >>= f) :=
  Ends.any.bind fun a _ => hf a

/-- A weaker postcondition holds of every computation a stronger one holds of. -/
theorem Ends.mono (h : Ends E P x) (hPQ : ∀ a, P a → Q a) : Ends E Q x := by
  cases x with
  | ok a => exact hPQ a h
  | error e => exact h

/-- A conditional ends well when each branch does under its condition. -/
theorem Ends.ite {c : Prop} [Decidable c] (hx : c → Ends E Q x) (hy : ¬ c → Ends E Q y) :
    Ends E Q (if c then x else y) := by
  split
  · exact hx ‹_›
  · exact hy ‹_›

/-- What a successful computation returns satisfies its postcondition. -/
theorem Ends.of_ok (h : Ends E Q x) (hx : x = .ok a) : Q a := by
  subst hx
  exact h

/-- What a failed computation raises satisfies its error condition. -/
theorem Ends.of_error (h : Ends E Q x) (hx : x = .error e) : E e := by
  subst hx
  exact h

/-- An operation ends in a given way when each of its ends is of that kind. -/
theorem ends_iff : Ends E Q x ↔ (∀ a, x = .ok a → Q a) ∧ ∀ e, x = .error e → E e := by
  refine ⟨fun h => ⟨fun a => h.of_ok, fun e => h.of_error⟩, fun ⟨hok, herror⟩ => ?_⟩
  cases x with
  | ok a => exact hok a rfl
  | error e => exact herror e rfl

end Ends

end PodFabric
