import PodFabric.Lib.Run
import PodFabric.Persist.Store

/-!
# Crashes

A store directory lies on a disk, and what is done to the journal is not durable before the next
sync: a crash leaves a beginning of what was appended since, and a truncation has happened or not. A
checkpoint is replaced durably, and the old one or the new one is there. A crash can come between
the calls of a store and within one, after any of the things that the call does to the files. The
directory is then opened by a new store.
-/

namespace PodFabric

/-! ## The disk -/

/-- The journal after something has been done to it. -/
def journalAfter (journal : List UInt8) (op : DiskOp) : List UInt8 :=
  (Directory.after { journal } op).journal

/-- What a crash leaves of a journal to which these things have been done since its last sync. -/
inductive JournalLeft : List UInt8 → List DiskOp → List UInt8 → Prop
  | lost {journal : List UInt8} {ops : List DiskOp} : JournalLeft journal ops journal
  | part {journal data : List UInt8} {ops : List DiskOp} (n : ℕ) :
      JournalLeft journal (.append data :: ops) (journal ++ data.take n)
  | kept {journal left : List UInt8} {op : DiskOp} {ops : List DiskOp} :
      JournalLeft (journalAfter journal op) ops left → JournalLeft journal (op :: ops) left

/-- The files of a store directory: the checkpoint, the journal as of its last sync, and what has
been done to the journal since. -/
structure Disk where
  checkpoint : Option (List UInt8) := none
  journal : List UInt8 := []
  pending : List DiskOp := []

namespace Disk

/-- The files as a program sees them. -/
def view (d : Disk) : Directory := ⟨d.checkpoint, d.pending.foldl journalAfter d.journal⟩

/-- The disk after something is done to it: a checkpoint is replaced at once, the journal at the
next `sync`. -/
def after (d : Disk) : DiskOp → Disk
  | .replace checkpoint => { d with checkpoint := some checkpoint }
  | .sync => { d with journal := d.view.journal, pending := [] }
  | op => { d with pending := d.pending ++ [op] }

/-- What a crash can leave while these things are done to the files. -/
inductive Crashes : Disk → List DiskOp → Directory → Prop
  | now {d : Disk} {ops : List DiskOp} {left : List UInt8} : JournalLeft d.journal d.pending left →
      Crashes d ops ⟨d.checkpoint, left⟩
  | later {d : Disk} {op : DiskOp} {ops : List DiskOp} {left : Directory} :
      Crashes (d.after op) ops left → Crashes d (op :: ops) left

end Disk

/-! ## Runs with crashes -/

/-- What is asked of a store. -/
inductive DiskCall
  | open (now : Nanos)
  | commit (next : DurableState) (now : Nanos)
  | compact
  | close

/-- A store over its disk, the state that was acknowledged last, and the state whose commit was in
progress at a crash. -/
structure Machine where
  store : PodStore
  disk : Disk := {}
  held : DurableState := {}
  inProgress : Option DurableState := none

/-- What happens to a machine: a call, or a crash, during a call or between two, with what it
leaves of the files. -/
inductive MachineEvent
  | call (call : DiskCall)
  | crash (during : Option DiskCall) (left : Directory)

namespace Machine

/-- A machine with an empty directory. -/
def new (options : StoreOptions) : Machine where
  store := { options }

variable (m : Machine)

/-- The store on the files as it sees them. -/
def session : Session := { store := m.store, directory := m.disk.view }

/-- How a call ends. The directory is opened by a new store, unless the store is open already. -/
def perform : DiskCall → Except Status Unit × Session
  | .open now =>
    (PodStore.open now).on
      (if m.store.isOpen then m.session else .new m.store.options m.disk.view)
  | .commit next now => (PodStore.commit next now).on m.session
  | .compact => PodStore.compact.on m.session
  | .close => PodStore.close.on m.session

/-- What a call does to the files. -/
def ops (during : Option DiskCall) : List DiskOp :=
  match during with
  | none => []
  | some call => (m.perform call).2.log

/-- The state of the commit that a crash comes in. -/
def interrupted : Option DiskCall → Option DurableState
  | some (.commit next now) =>
    if m.store.isOpen then some (next.stamped m.store.state now) else m.inProgress
  | _ => m.inProgress

/-- An opening or a commit that succeeds acknowledges the state of the store. -/
def after (call : DiskCall) : Machine :=
  let (result, s) := m.perform call
  let m := { m with store := s.store, disk := s.log.foldl Disk.after m.disk }
  match call, result with
  | .open _, .ok () | .commit _ _, .ok () => { m with held := s.store.state, inProgress := none }
  | _, _ => m

/-- The machine after an event: a crash leaves the files it can leave, and a new store. -/
def next : MachineEvent → Machine
  | .call call => m.after call
  | .crash during left =>
    { store := { options := m.store.options }
      disk := { checkpoint := left.checkpoint, journal := left.journal }
      held := m.held
      inProgress := m.interrupted during }

/-- The files that a crash leaves are ones that it can leave. -/
def Possible : MachineEvent → Prop
  | .call _ => True
  | .crash during left => m.disk.Crashes (m.ops during) left

/-- The directory is opened next to the state that was acknowledged last, or to the state whose
commit was in progress. -/
def Recovers (now : Nanos) : Prop :=
  ∃ s, (PodStore.open now).on (.new m.store.options m.disk.view) = (.ok (), s) ∧
    (s.store.state = m.held ∨ m.inProgress = some s.store.state)

end Machine

end PodFabric
