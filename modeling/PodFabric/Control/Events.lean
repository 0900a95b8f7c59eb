import PodFabric.Control.Controller
import PodFabric.Lib.Run

/-!
# Events and their delivery

An operation publishes its events to a queue and then dispatches what is pending. Several threads
may dispatch at once: each takes everything out of the queue, calls the observers with no lock held,
and looks at the queue again. An observer may call the controller in turn. A step of a thread is
what it does under one lock, or one call of an observer; an interleaving of the threads is any list
of steps.
-/

namespace PodFabric

/-- The most events that wait to be dispatched. -/
def maxPendingEvents : ℕ := 1024

/-- An event that was accepted: its place in the order of acceptance, and the number of observers
that were subscribed then. -/
structure Posted where
  ticket : ℕ
  event : Event
  subscribed : ℕ
  deriving DecidableEq

/-- What the threads share. The observers go by the order of their subscription. `accepted` and
`delivered` only record what has happened. -/
structure EventQueue where
  pending : List Posted := []
  observers : ℕ := 0
  dispatching : Bool := false
  accepted : List Posted := []
  delivered : List (Posted × ℕ) := []

namespace EventQueue
variable (q : EventQueue)

/-- The event as it is accepted next. -/
def posted (event : Event) : Posted where
  ticket := q.accepted.length
  event := event
  subscribed := q.observers

/-- The event takes its place in the queue. -/
def accept (event : Event) : EventQueue :=
  { q with
    pending := q.pending ++ [q.posted event]
    accepted := q.accepted ++ [q.posted event] }

/-- A full queue drops the event. -/
def publish (event : Event) : EventQueue :=
  if maxPendingEvents ≤ q.pending.length then q else q.accept event

/-- A further observer, if there is room for one (`subscribe`). -/
def subscribe (maxObservers : ℕ) : EventQueue :=
  if maxObservers ≤ q.observers then q else { q with observers := q.observers + 1 }

end EventQueue

/-! ## Threads -/

/-- Where a thread is in a call of the controller. -/
inductive Frame
  /-- it has these events to publish, and then dispatches -/
  | publishing (events : List Event)
  /-- it is about to look at the queue -/
  | dispatching
  /-- it has taken these events, and is about to copy the list of observers -/
  | copying (batch : List Posted)
  /-- it has these calls of observers to make, and then looks at the queue again -/
  | calling (todo : List (Posted × ℕ))
  /-- it runs an observer -/
  | observing

/-- What a thread may do next: go on in the call it is in, call the controller, subscribe an
observer, or return from an observer, by an exception or not. -/
inductive Move
  | advance
  | call (events : List Event)
  | subscribe
  | return_

/-- The thread runs code of its own. -/
def outside : List Frame → Bool
  | [] | .observing :: _ => true
  | _ => false

/-- One step of a thread in the calls `stack`, the innermost first. -/
def act (maxObservers : ℕ) (q : EventQueue) : List Frame → Move → EventQueue × List Frame
  | .publishing (event :: events) :: stack, .advance =>
    (q.publish event, .publishing events :: stack)
  | .publishing [] :: stack, .advance => (q, .dispatching :: stack)
  | .dispatching :: stack, .advance =>
    if q.pending.isEmpty then ({ q with dispatching := false }, stack)
    else ({ q with pending := [], dispatching := true }, .copying q.pending :: stack)
  | .copying batch :: stack, .advance =>
    (q, .calling (batch.flatMap fun p => (List.range q.observers).map (p, ·)) :: stack)
  | .calling (call :: todo) :: stack, .advance =>
    ({ q with delivered := q.delivered ++ [call] }, .observing :: .calling todo :: stack)
  | .calling [] :: stack, .advance =>
    if q.pending.isEmpty then ({ q with dispatching := false }, stack)
    else (q, .dispatching :: stack)
  | .observing :: stack, .return_ => (q, stack)
  | stack, .call events => if outside stack then (q, .publishing events :: stack) else (q, stack)
  | stack, .subscribe => if outside stack then (q.subscribe maxObservers, stack) else (q, stack)
  | stack, _ => (q, stack)

/-- The queue and the threads, each with the calls it is in. -/
structure EventSystem where
  queue : EventQueue := {}
  threads : List (List Frame)

namespace EventSystem

/-- No thread is in a call. -/
def start (threads : ℕ) : EventSystem := { threads := List.replicate threads [] }

/-- One step of the thread of the given number. -/
def next (maxObservers : ℕ) (s : EventSystem) (step : ℕ × Move) : EventSystem :=
  match s.threads[step.1]? with
  | none => s
  | some stack =>
    let (queue, stack) := act maxObservers s.queue stack step.2
    { queue, threads := s.threads.set step.1 stack }

/-- The system after an interleaving of the threads. -/
abbrev run (maxObservers threads : ℕ) (steps : List (ℕ × Move)) : EventSystem :=
  Run.final (next maxObservers) (start threads) steps

/-- Every thread has returned from its calls. -/
def Quiet (s : EventSystem) : Prop := ∀ stack ∈ s.threads, stack = []

end EventSystem

end PodFabric
