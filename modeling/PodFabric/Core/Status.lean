import PodFabric.Core.Text

/-!
# Outcomes

Outcome codes with their severity order, statuses, and the results of fallible operations. An
operation that can also run into undefined behaviour or raise an exception has an `Outcome`, which
tells these apart from a reported status.
-/

namespace PodFabric

/-- Outcome codes. -/
inductive Code
  | ok | unknown | unsupported | stale | conflicting | incomplete | indeterminate | refused
  | cancelled | invalid | notFound | alreadyExists | exhausted | corrupt | unavailable | internal
  deriving DecidableEq, Repr

namespace Code

/-- The name of a code (`to_string`). -/
def toText : Code → Text
  | ok => "OK"
  | unknown => "UNKNOWN"
  | unsupported => "UNSUPPORTED"
  | stale => "STALE"
  | conflicting => "CONFLICTING"
  | incomplete => "INCOMPLETE"
  | indeterminate => "INDETERMINATE"
  | refused => "REFUSED"
  | cancelled => "CANCELLED"
  | invalid => "INVALID"
  | notFound => "NOT_FOUND"
  | alreadyExists => "ALREADY_EXISTS"
  | exhausted => "EXHAUSTED"
  | corrupt => "CORRUPT"
  | unavailable => "UNAVAILABLE"
  | internal => "INTERNAL"

/-- Higher means more disqualifying; `ok` is zero. -/
def severity : Code → ℕ
  | ok => 0
  | unknown => 1
  | notFound => 2
  | alreadyExists => 3
  | cancelled => 4
  | incomplete => 5
  | stale => 6
  | unsupported => 7
  | indeterminate => 8
  | conflicting => 9
  | unavailable => 10
  | exhausted => 11
  | refused => 12
  | corrupt => 13
  | invalid => 14
  | internal => 15

/-- The severity tells the codes apart. -/
theorem severity_injective : Function.Injective severity := by
  intro a b h
  cases a <;> cases b <;> first | rfl | exact absurd h (by decide)

/-- The more severe of two codes. -/
def worst (a b : Code) : Code := if severity b ≤ severity a then a else b

/-- The worst of two codes is as severe as the more severe one. -/
@[simp] theorem severity_worst (a b : Code) :
    severity (worst a b) = max (severity a) (severity b) := by
  unfold worst
  split <;> omega

end Code

/-- A code with an explanation. -/
structure Status where
  code : Code
  message : Text
  deriving DecidableEq, Repr

/-- A status as it is logged: its code, then its message. -/
def Status.toText (status : Status) : Text :=
  status.code.toText ++ (if status.message.isEmpty then [] else text ": " ++ status.message)

/-- Either a value or a status (`Result`). -/
abbrev Result (α : Type) := Except Status α

/-- A failed result. -/
def fail {α : Type} (code : Code) (message : Text) : Result α := .error ⟨code, message⟩

/-- How an operation ends without a value: it reports a status, reaches undefined behaviour, or
lets an exception of the standard library escape. -/
inductive Fault
  | status (s : Status)
  | undefined
  | thrown
  deriving DecidableEq, Repr

/-- The outcome of an operation whose code can fail in ways a `Result` does not report. -/
abbrev Outcome (α : Type) := Except Fault α

/-- A result seen as an outcome. -/
def Result.lift {α : Type} : Result α → Outcome α
  | .ok a => .ok a
  | .error s => .error (.status s)

/-- Lifting a result keeps its value. -/
@[simp] theorem Result.lift_eq_ok {α : Type} {r : Result α} {a : α} :
    Result.lift r = .ok a ↔ r = .ok a := by
  cases r <;> simp [Result.lift]

/-! ## Sequencing -/

section Sequencing
variable {ε α β : Type}

/-- A sequence of two steps succeeds when both do. -/
theorem bind_eq_ok {x : Except ε α} {f : α → Except ε β} {b : β} :
    (x >>= f) = .ok b ↔ ∃ a, x = .ok a ∧ f a = .ok b := by
  cases x <;> simp [bind, Except.bind]

/-- A check followed by a step succeeds when the check passes and the step succeeds. -/
theorem check_eq_ok {x : Except ε Unit} {f : Unit → Except ε β} {b : β} :
    (x >>= f) = .ok b ↔ x = .ok () ∧ f () = .ok b := by
  cases x <;> simp [bind, Except.bind]

/-- A mapped step succeeds when the step does. -/
theorem map_eq_ok {x : Except ε α} {f : α → β} {b : β} :
    x.map f = .ok b ↔ ∃ a, x = .ok a ∧ f a = b := by
  cases x <;> simp [Except.map]

/-- A loop that collects results succeeds when every step does. -/
theorem mapM_eq_ok {f : α → Except ε β} : ∀ {l : List α} {ys : List β},
    l.mapM f = .ok ys ↔ List.Forall₂ (fun x y => f x = .ok y) l ys
  | [], ys => by
    rw [List.mapM_nil, List.forall₂_nil_left_iff]
    simp [pure, Except.pure, eq_comm]
  | x :: l, ys => by
    simp only [List.mapM_cons, bind_eq_ok, List.forall₂_cons_left_iff]
    constructor
    · rintro ⟨y, hy, ys', hys, h⟩
      exact ⟨y, ys', hy, mapM_eq_ok.1 hys, by simpa [pure, Except.pure] using h.symm⟩
    · rintro ⟨y, ys', hy, hys, rfl⟩
      exact ⟨y, hy, ys', mapM_eq_ok.2 hys, rfl⟩

/-- What a loop collects is the result of one of its steps. -/
theorem mapM_mem {f : α → Except ε β} {l : List α} {ys : List β} (h : l.mapM f = .ok ys) :
    ∀ y ∈ ys, ∃ x ∈ l, f x = .ok y := by
  have hall := mapM_eq_ok.1 h
  clear h
  induction hall with
  | nil => simp
  | @cons x y l ys hxy _ ih =>
    intro z hz
    rcases List.mem_cons.1 hz with rfl | hz
    · exact ⟨x, by simp, hxy⟩
    · obtain ⟨x', hx', h'⟩ := ih z hz
      exact ⟨x', by simp [hx'], h'⟩

/-- Every element of a list that is mapped without an error has its result among the results. -/
theorem mapM_covers {f : α → Except ε β} {l : List α} {ys : List β} (h : l.mapM f = .ok ys) :
    ∀ x ∈ l, ∃ y ∈ ys, f x = .ok y := by
  have hall := mapM_eq_ok.1 h
  clear h
  induction hall with
  | nil => simp
  | @cons x y l ys hxy _ ih =>
    intro z hz
    rcases List.mem_cons.1 hz with rfl | hz
    · exact ⟨y, by simp, hxy⟩
    · obtain ⟨y', hy', h'⟩ := ih z hz
      exact ⟨y', by simp [hy'], h'⟩

/-- The results of a loop are those of its steps, in their order. -/
theorem mapM_toOption {f : α → Except ε β} {l : List α} {ys : List β} (h : l.mapM f = .ok ys) :
    ys.map some = l.map fun x => (f x).toOption := by
  have hall := mapM_eq_ok.1 h
  clear h
  induction hall with
  | nil => rfl
  | cons hxy _ ih =>
    rw [List.map_cons, List.map_cons, ih, hxy]
    rfl

/-- A loop whose steps have related results collects related lists. -/
theorem mapM_related {R : β → β → Prop} {f f' : α → Except ε β} {l : List α} {ys : List β}
    (hsteps : ∀ x ∈ l, ∀ y, f x = .ok y → ∃ y', f' x = .ok y' ∧ R y y') (h : l.mapM f = .ok ys) :
    ∃ ys', l.mapM f' = .ok ys' ∧ List.Forall₂ R ys ys' := by
  have hall := mapM_eq_ok.1 h
  clear h
  induction hall with
  | nil => exact ⟨[], rfl, .nil⟩
  | @cons x y l ys hxy _ ih =>
    obtain ⟨y', hy', hR⟩ := hsteps x List.mem_cons_self y hxy
    obtain ⟨ys', hys', hRs⟩ := ih fun z hz => hsteps z (List.mem_cons_of_mem _ hz)
    exact ⟨y' :: ys', mapM_eq_ok.2 (.cons hy' (mapM_eq_ok.1 hys')), .cons hR hRs⟩

/-- A loop that collects results fails when one of its steps does. -/
theorem mapM_error {f : α → Except ε β} {e : ε} : ∀ {l : List α},
    l.mapM f = .error e → ∃ x ∈ l, f x = .error e
  | [], h => by cases h
  | x :: l, h => by
    rw [List.mapM_cons] at h
    cases hx : f x with
    | error e' =>
      rw [hx] at h
      cases h
      exact ⟨x, List.mem_cons_self, hx⟩
    | ok y =>
      cases hl : l.mapM f with
      | error e' =>
        rw [hx, hl] at h
        cases h
        obtain ⟨x', hx', herror⟩ := mapM_error hl
        exact ⟨x', List.mem_cons_of_mem _ hx', herror⟩
      | ok ys =>
        rw [hx, hl] at h
        cases h

/-- A check fails with the given status unless its condition holds. -/
def ensure (cond : Prop) [Decidable cond] (e : ε) : Except ε Unit :=
  if cond then .ok () else .error e

/-- A check succeeds when its condition holds. -/
@[simp] theorem ensure_eq_ok {cond : Prop} [Decidable cond] {e : ε} {u : Unit} :
    ensure cond e = .ok u ↔ cond := by
  unfold ensure
  split <;> simp [*]

/-- A returned value is the one returned. -/
@[simp] theorem pure_eq_ok {a b : α} : (pure a : Except ε α) = .ok b ↔ a = b := by
  simp [pure, Except.pure]

end Sequencing

/-! ## Checked arithmetic

The tests of the program compare against the limits of the type; they are made on the values, where
nothing wraps.
-/

/-- The largest value of the type. -/
def uint64Max : ℕ := 2 ^ 64 - 1

/-- Addition that reports an overflow instead of wrapping (`checked_add`). -/
def checkedAdd (a b : UInt64) : Result UInt64 :=
  if uint64Max - a.toNat < b.toNat then fail .invalid "checked_add: unsigned overflow"
  else .ok (a + b)

/-- Multiplication that reports an overflow (`checked_mul`). -/
def checkedMul (a b : UInt64) : Result UInt64 :=
  if a = 0 ∨ b = 0 then .ok 0
  else if uint64Max / b.toNat < a.toNat then fail .invalid "checked_mul: unsigned overflow"
  else .ok (a * b)

/-- A checked sum is returned when it fits in 64 bits. -/
theorem checkedAdd_eq_ok {a b c : UInt64} :
    checkedAdd a b = .ok c ↔ a.toNat + b.toNat < 2 ^ 64 ∧ c = a + b := by
  have hmax : uint64Max - a.toNat < b.toNat ↔ 2 ^ 64 ≤ a.toNat + b.toNat := by
    have := a.toNat_lt
    unfold uint64Max
    omega
  unfold checkedAdd
  split
  · next h =>
    have := hmax.1 h
    simp only [fail, reduceCtorEq, false_iff]
    omega
  · next h =>
    have := mt hmax.2 h
    simp only [Except.ok.injEq]
    constructor
    · exact fun h' => ⟨by omega, h'.symm⟩
    · exact fun h' => h'.2.symm

end PodFabric
