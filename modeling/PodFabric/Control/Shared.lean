import PodFabric.Control.Events
import PodFabric.Control.Run

/-!
# A controller that threads share

The operations of a controller exclude each other: an operation takes effect under the write lock
and collects its events there. Its thread publishes them one by one after it has given the lock up,
and then dispatches what is pending; in between, any other thread may go on. An operation that fails
returns at once, but for a round, which publishes and dispatches in any case.
-/

namespace PodFabric

/-- What the threads ask of an open controller. -/
inductive Operation
  | apply (evidence : PodSnapshot)
  | setAdminState (rack : RackId) (state : AdminState)
  | clearAdminState (rack : RackId)
  | retire
  | mintAuthority (scope : AuthorityScope) (subject : RackId) (lifetime : Nanos)
  | revokeAuthority (lease : LeaseId)

/-- What an operation leaves behind, and the events it has for the observers unless it returns at
once. -/
structure Effect where
  world : World
  events : Option (List Event)

/-- What a reply leaves behind: the world, and the events if it succeeds. -/
def Reply.effect {α : Type} (reply : Reply α) : Effect where
  world := ⟨reply.controller, reply.disk⟩
  events := if reply.result.isOk then some reply.events else none

/-- What an operation does to the world, and which events it publishes. -/
def World.operate (w : World) (env : Env) : Operation → Effect
  | .apply evidence =>
    let reply := w.controller.apply w.disk env evidence
    ⟨⟨reply.controller, reply.disk⟩, some reply.events⟩
  | .setAdminState rack state => (w.controller.setAdminState w.disk env rack state).effect
  | .clearAdminState rack => (w.controller.clearAdminState w.disk env rack).effect
  | .retire => (w.controller.retire w.disk env).effect
  | .mintAuthority scope subject lifetime =>
    (w.controller.mintAuthority w.disk env scope subject lifetime).effect
  | .revokeAuthority lease => (w.controller.revokeAuthority w.disk env lease).effect

/-- What a thread does next: it calls the controller, which takes effect, or it goes on as in
`Move`. -/
inductive Deed
  | perform (operation : Operation) (env : Env)
  | advance
  | subscribe
  | return_

/-- The controller, the queue and the threads. The rest only records what has happened: the events
of the operations in the order in which these took effect, the operation that each thread is in, and
those of the events that were accepted. -/
structure SharedController where
  world : World
  system : EventSystem
  history : List (List Event) := []
  current : ℕ → ℕ := fun _ => 0
  origins : List ℕ := []

namespace SharedController
variable (maxObservers : ℕ) (s : SharedController)

/-- A thread moves on. An event that the queue accepts is of the operation that the thread is in. -/
def moved (thread : ℕ) (move : Move) : SharedController :=
  let system := s.system.next maxObservers (thread, move)
  { s with
    system
    origins := s.origins ++ List.replicate
      (system.queue.accepted.length - s.system.queue.accepted.length) (s.current thread) }

/-- An operation takes effect, and leaves its thread with the events to publish. -/
def performed (thread : ℕ) (effect : Effect) : SharedController :=
  match effect.events with
  | none => { s with world := effect.world }
  | some events =>
    { s with
      world := effect.world
      system := s.system.next maxObservers (thread, .call events)
      history := s.history ++ [events]
      current := Function.update s.current thread s.history.length }

/-- The thread runs code of its own. -/
def outside (thread : ℕ) : Bool := s.system.threads[thread]?.any PodFabric.outside

/-- One step of the thread of the given number. -/
def next (step : ℕ × Deed) : SharedController :=
  match step.2 with
  | .perform operation env =>
    if s.outside step.1 then s.performed maxObservers step.1 (s.world.operate env operation) else s
  | .advance => s.moved maxObservers step.1 .advance
  | .subscribe => s.moved maxObservers step.1 .subscribe
  | .return_ => s.moved maxObservers step.1 .return_

/-- Threads that have yet to call the controller. -/
def start (w : World) (threads : ℕ) : SharedController where
  world := w
  system := .start threads

/-- The controller after an interleaving of the threads. -/
abbrev run (w : World) (threads : ℕ) (steps : List (ℕ × Deed)) : SharedController :=
  Run.final (next maxObservers) (start w threads) steps

/-- The steps of an interleaving with the states they are made in. -/
abbrev trace (w : World) (threads : ℕ) (steps : List (ℕ × Deed)) :
    List (SharedController × (ℕ × Deed)) :=
  Run.trace (next maxObservers) (start w threads) steps

end SharedController

end PodFabric
