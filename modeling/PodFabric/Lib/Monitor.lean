import Mathlib.Data.List.Basic

/-!
# Waiting for a condition

A thread that waits on a condition variable takes the mutex and evaluates its condition under it. If
the condition does not hold, the thread gives the mutex up and blocks, in one step; a notification
lets it take the mutex again. Between the evaluation and the block the thread holds the mutex, but a
notification that is sent without the mutex comes too early for it. A notification of all threads
leaves none blocked, and a thread that evaluates its condition after it has come to hold does not
block again: what is lost is lost to the threads in between (`Waiter.parking`).
-/

namespace PodFabric

/-- Where a thread is: in a wait for its condition, or elsewhere in its program. -/
inductive Waiter (α : Type)
  /-- it is about to take the mutex, the first time or after a notification -/
  | locking
  /-- it has the mutex, and is about to evaluate the condition -/
  | testing
  /-- it has the mutex, has found that the condition does not hold, and is about to block -/
  | parking
  /-- it has given the mutex up and waits for a notification -/
  | blocked
  | elsewhere (place : α)
  deriving DecidableEq

namespace Waiter
variable {α : Type}

/-- One step of a wait, with what becomes of the mutex. The program goes on at `through`, with the
mutex taken. -/
def step (condition : Bool) (through : α) (locked : Bool) : Waiter α → Bool × Waiter α
  | locking => (true, if locked then locking else testing)
  | testing => (locked, if condition then elsewhere through else parking)
  | parking => (false, blocked)
  | blocked => (locked, blocked)
  | elsewhere place => (locked, elsewhere place)

/-- A notification, or a spurious wakeup. -/
def wake : Waiter α → Waiter α
  | blocked => locking
  | w => w

/-- A notification of all threads. -/
def wakeAll (threads : List (Waiter α)) : List (Waiter α) := threads.map wake

/-- The threads that a notification can wake. -/
def blockedThreads [DecidableEq α] (threads : List (Waiter α)) : List ℕ :=
  (List.range threads.length).filter fun i => threads[i]? = some blocked

/-- A notification of one of the blocked threads, if there are any. -/
def wakeOne [DecidableEq α] (choice : ℕ) (threads : List (Waiter α)) : List (Waiter α) :=
  match (blockedThreads threads)[choice % (blockedThreads threads).length]? with
  | none => threads
  | some i => threads.modify i wake

section Lemmas
variable {condition locked : Bool} {through : α} {w : Waiter α} {threads : List (Waiter α)}

/-- Only a thread whose condition does not hold is about to block. -/
theorem step_parking (h : (step condition through locked w).2 = parking) :
    w = testing ∧ condition = false := by
  cases w with
  | testing =>
    cases condition with
    | false => exact ⟨rfl, rfl⟩
    | true => cases h
  | locking => cases locked <;> cases h
  | parking | blocked | elsewhere => cases h

/-- A thread that is blocked after a step was parking or blocked before it. -/
theorem step_blocked (h : (step condition through locked w).2 = blocked) :
    w = parking ∨ w = blocked := by
  cases w with
  | parking => exact .inl rfl
  | blocked => exact .inr rfl
  | testing => cases condition <;> cases h
  | locking => cases locked <;> cases h
  | elsewhere => cases h

/-- A thread that was woken is not blocked. -/
@[simp] theorem wake_ne_blocked : w.wake ≠ blocked := by
  cases w <;> simp [wake]

/-- Waking leaves a parking thread parking, and makes no thread park. -/
@[simp] theorem wake_eq_parking : w.wake = parking ↔ w = parking := by
  cases w <;> simp [wake]

/-- A notification of all threads leaves none blocked. -/
theorem blocked_not_mem_wakeAll : blocked ∉ wakeAll threads := by
  simp [wakeAll]

/-- Waking all threads keeps the parking ones. -/
@[simp] theorem parking_mem_wakeAll : parking ∈ wakeAll threads ↔ parking ∈ threads := by
  simp [wakeAll]

/-- Waking a thread blocks none, and has none about to block. -/
theorem mem_modify_wake {i : ℕ} (h : w ∈ threads.modify i wake) (hw : w = parking ∨ w = blocked) :
    w ∈ threads := by
  obtain ⟨j, hj⟩ := List.mem_iff_getElem?.1 h
  rw [List.getElem?_modify] at hj
  obtain ⟨v, hv, rfl⟩ := Option.map_eq_some_iff.1 hj
  by_cases hi : i = j
  · rw [if_pos hi] at hw ⊢
    have hparking : v = parking := by simpa using hw
    rw [hparking] at hv ⊢
    exact List.mem_of_getElem? hv
  · rw [if_neg hi]
    exact List.mem_of_getElem? hv

/-- A thread that is parking or blocked after one was woken was so before. -/
theorem mem_wakeOne [DecidableEq α] {choice : ℕ} (h : w ∈ wakeOne choice threads)
    (hw : w = parking ∨ w = blocked) : w ∈ threads := by
  unfold wakeOne at h
  split at h
  · exact h
  · exact mem_modify_wake h hw

end Lemmas

end Waiter

end PodFabric
