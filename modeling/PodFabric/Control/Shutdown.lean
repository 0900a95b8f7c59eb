import PodFabric.Lib.Monitor
import PodFabric.Lib.Run

/-!
# The threads of the server

One thread accepts connections and puts them into the queue, the others take them out and serve
them; all of them wait on one condition variable. The server is stopped from outside, or by a
request that a connection carries: either way `stopping_` is set and then all threads are notified,
without the mutex of the queue. A step of a thread is an access to what the threads share; an
interleaving is any list of steps.
-/

namespace PodFabric

/-- Where a thread is when it does not wait. The first four places are of the thread that accepts
connections, the others but for `returned` of the ones that serve them. Both are `entered` when they
come out of a wait, with the mutex taken. -/
inductive Place
  /-- it is about to look at `stopping_` -/
  | looping
  | accepting
  | entered
  /-- it has given the mutex up, and is about to notify -/
  | announcing
  /-- it is about to look at `stopping_` -/
  | serving
  | reading
  /-- it has answered a request for the shutdown, and is about to set `stopping_` -/
  | setting
  /-- it has set `stopping_`, and is about to notify -/
  | notifying
  | returned
  deriving DecidableEq

/-- What the threads share: `stopping_`, the number of connections in the queue, and whether the
mutex of the queue is taken. -/
structure Shared where
  stopping : Bool := false
  queued : ℕ := 0
  locked : Bool := false

/-- What comes in over the network while a thread accepts or reads. -/
inductive Arrival
  | nothing | connection | request | shutdown
  deriving DecidableEq

/-- Whom a step notifies. -/
inductive Signal
  | none | one | all

/-- A step of a thread within a wait. -/
def Shared.wait (m : Shared) (condition : Bool) (w : Waiter Place) :
    Shared × Waiter Place × Signal :=
  let (locked, w) := w.step condition .entered m.locked
  ({ m with locked }, w, .none)

/-- A step of the thread that accepts connections. -/
def acceptLoop (maxPending : ℕ) (arrival : Arrival) (m : Shared) :
    Waiter Place → Shared × Waiter Place × Signal
  | .elsewhere .looping =>
    (m, .elsewhere (if m.stopping then .returned else .accepting), .none)
  | .elsewhere .accepting =>
    (m, if arrival = .connection then .locking else .elsewhere .looping, .none)
  | .elsewhere .entered =>
    if m.stopping then ({ m with locked := false }, .elsewhere .returned, .none)
    else ({ m with queued := m.queued + 1, locked := false }, .elsewhere .announcing, .none)
  | .elsewhere .announcing => (m, .elsewhere .looping, .one)
  | .elsewhere place => (m, .elsewhere place, .none)
  | w => m.wait (m.stopping ∨ m.queued < maxPending) w

/-- A step of a thread that serves connections. -/
def workerLoop (arrival : Arrival) (m : Shared) : Waiter Place → Shared × Waiter Place × Signal
  | .elsewhere .entered =>
    if m.queued = 0 then
      ({ m with locked := false }, if m.stopping then .elsewhere .returned else .locking, .none)
    else ({ m with queued := m.queued - 1, locked := false }, .elsewhere .announcing, .none)
  | .elsewhere .announcing => (m, .elsewhere .serving, .all)
  | .elsewhere .serving => (m, if m.stopping then .locking else .elsewhere .reading, .none)
  | .elsewhere .reading =>
    (m, if arrival = .request then .elsewhere .serving
      else if arrival = .shutdown then .elsewhere .setting else .locking, .none)
  | .elsewhere .setting => ({ m with stopping := true }, .elsewhere .notifying, .none)
  | .elsewhere .notifying => (m, .locking, .all)
  | .elsewhere place => (m, .elsewhere place, .none)
  | w => m.wait (m.stopping ∨ 0 < m.queued) w

/-- How far `stop` has got. -/
inductive Stop
  | outside
  /-- it has set `stopping_`, and is about to notify -/
  | set
  /-- it has notified, and waits for the threads to return -/
  | joining
  | stopped
  deriving DecidableEq

/-- The threads, the first of which accepts connections, and `stop`. -/
structure ServerThreads where
  shared : Shared := {}
  threads : List (Waiter Place)
  stop : Stop := .outside

namespace ServerThreads

/-- The server has been started. -/
def start (workers : ℕ) : ServerThreads where
  threads := .elsewhere .looping :: List.replicate workers .locking

/-- What happens next: a thread takes a step, while something comes in and with a choice of the
thread that it may notify; a thread wakes up without a notification; or `stop` takes a step. -/
inductive Step
  | thread (index : ℕ) (arrival : Arrival) (choice : ℕ)
  | wakeup (index : ℕ)
  | stop

/-- The threads after a signal. -/
def signalled (choice : ℕ) (threads : List (Waiter Place)) : Signal → List (Waiter Place)
  | .none => threads
  | .one => Waiter.wakeOne choice threads
  | .all => Waiter.wakeAll threads

variable (maxPending : ℕ) (s : ServerThreads)

/-- The step of the thread of the given number, which is at `w`. -/
def loop (index : ℕ) (arrival : Arrival) (w : Waiter Place) : Shared × Waiter Place × Signal :=
  if index = 0 then acceptLoop maxPending arrival s.shared w else workerLoop arrival s.shared w

/-- A step of `stop`. Once the threads have returned, the queue is cleared. -/
def stopNext : ServerThreads :=
  match s.stop with
  | .outside => { s with shared := { s.shared with stopping := true }, stop := .set }
  | .set => { s with threads := Waiter.wakeAll s.threads, stop := .joining }
  | .joining =>
    if s.threads.all (· = .elsewhere .returned) then
      { s with shared := { s.shared with queued := 0 }, stop := .stopped }
    else s
  | .stopped => s

/-- A step of the server's threads, or of what stops them from outside. -/
def next : Step → ServerThreads
  | .thread index arrival choice =>
    match s.threads[index]? with
    | none => s
    | some w =>
      let (shared, w, signal) := s.loop maxPending index arrival w
      { s with shared, threads := signalled choice (s.threads.set index w) signal }
  | .wakeup index => { s with threads := s.threads.modify index Waiter.wake }
  | .stop => s.stopNext

/-- The server after an interleaving of the threads. -/
abbrev run (workers : ℕ) (steps : List Step) : ServerThreads :=
  Run.final (next maxPending) (start workers) steps

/-- The steps of an interleaving with the states they are taken in. -/
abbrev trace (workers : ℕ) (steps : List Step) : List (ServerThreads × Step) :=
  Run.trace (next maxPending) (start workers) steps

end ServerThreads

end PodFabric
