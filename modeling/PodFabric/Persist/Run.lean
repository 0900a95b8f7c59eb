import PodFabric.Lib.Run
import PodFabric.Persist.Store

/-!
# Sessions of a store

Between its opening and its closing a store is given states to commit. Some of the commits succeed,
others report an error, and the directory is opened again later. A history goes on over several
sessions.
-/

namespace PodFabric

/-- What is asked of a store: the state to commit, the time of the system, and how the writes to the
journal end. -/
structure CommitCall where
  next : DurableState
  now : Nanos
  writes : List (Option ℕ) := []

namespace Session

/-- One commit of a session. -/
def commit (s : Session) (call : CommitCall) : Except Status Unit × Session :=
  (PodStore.commit call.next call.now).on { s with writes := call.writes }

/-- The session after a commit. -/
def next (s : Session) (call : CommitCall) : Session := (s.commit call).2

/-- The commit returns success. -/
def acknowledges (s : Session) (call : CommitCall) : Bool := (s.commit call).1.isOk

/-- The state that is committed. -/
def written (s : Session) (call : CommitCall) : DurableState :=
  call.next.stamped s.store.state call.now

/-- A state that is committed, and whether the commit succeeds. -/
def outcome (x : Session × CommitCall) : DurableState × Bool :=
  (x.1.written x.2, x.1.acknowledges x.2)

/-- The commits of a session, in order. -/
def attempts (s : Session) (calls : List CommitCall) : List (DurableState × Bool) :=
  (Run.trace next s calls).map outcome

/-- The store is closed and its directory opened again, by a new store with the same options. -/
def reopen (s : Session) (now : Nanos) : Except Status Unit × Session :=
  (PodStore.open now).on (.new s.store.options s.directory)

end Session

/-! ## Histories -/

/-- What is asked of a store over time: to commit, to compact its journal, and to be closed and
opened again. -/
inductive StoreCall
  | commit (call : CommitCall)
  | compact (writes : List (Option ℕ))
  | reopen (now : Nanos)

/-- How the writes of the call to the journal end. -/
def StoreCall.writes : StoreCall → List (Option ℕ)
  | .commit call => call.writes
  | .compact writes => writes
  | .reopen _ => []

namespace Session

/-- One call of a history. -/
def serve (s : Session) : StoreCall → Except Status Unit × Session
  | .commit call => s.commit call
  | .compact writes => PodStore.compact.on { s with writes }
  | .reopen now => s.reopen now

/-- The session after a call. -/
def after (s : Session) (call : StoreCall) : Session := (s.serve call).2

end Session

/-- The state is that of the last commit that succeeded, or of a later one. -/
def Survives (history : List (DurableState × Bool)) (state : DurableState) : Prop :=
  ∃ before ok after, history = before ++ (state, ok) :: after ∧ ∀ later ∈ after, later.2 = false

end PodFabric
