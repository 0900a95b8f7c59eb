import PodFabric.Lib.Proc
import PodFabric.Model.Evidence
import PodFabric.Persist.Encoding
import PodFabric.Persist.Journal

/-!
# The pod store

The durable store of a pod: a checkpoint and a write-ahead journal in one directory. The operations
are procedures on the store and its directory. A write to the journal may come short: it then
appends the first bytes of its data and fails. What is done to the directory is logged.
-/

namespace PodFabric

/-! ## The directory -/

/-- The files of a store directory. A journal that does not exist is an empty one. -/
structure Directory where
  checkpoint : Option (List UInt8) := none
  journal : List UInt8 := []
  deriving DecidableEq

/-- What is done to the files: the journal is appended to, truncated and synced, and the checkpoint
is replaced by a complete one. -/
inductive DiskOp
  | append (data : List UInt8)
  | truncate (size : ℕ)
  | sync
  | replace (checkpoint : List UInt8)
  deriving DecidableEq

/-- The directory after something is done to it. -/
def Directory.after (d : Directory) : DiskOp → Directory
  | .append data => { d with journal := d.journal ++ data }
  | .truncate size => { d with journal := d.journal.take size }
  | .sync => d
  | .replace checkpoint => { d with checkpoint := some checkpoint }

/-! ## The store -/

/-- What a store is constructed with. -/
structure StoreOptions where
  policy : Policy := {}
  syncOnCommit : Bool := true
  repairTornTail : Bool := true
  deriving DecidableEq

namespace PodStore

/-- What the store reports of a recovery (`RecoveryReport`). -/
structure Report where
  outcome : RecoveryOutcome := .fresh
  detail : Text := []
  recordsScanned : ℕ := 0
  recordsApplied : ℕ := 0
  recordsSkipped : ℕ := 0
  discardedBytes : ℕ := 0
  ambiguousCommit : Bool := false
  recoveredFromStore : Bool := false
  lastSequence : LogSequence := {}
  recoveredAt : Nanos := 0
  deriving DecidableEq

end PodStore

/-- The store: its options, the state it holds and what its last recovery reports. -/
structure PodStore where
  options : StoreOptions := {}
  state : DurableState := {}
  recovery : PodStore.Report := {}
  checkpointSequence : UInt64 := 0
  haveCheckpoint : Bool := false
  isOpen : Bool := false
  deriving DecidableEq

namespace PodStore

/-- The longest payload of a record (`max_journal_record_bytes`). -/
def recordLimit (store : PodStore) : ℕ := store.options.policy.maxJournalRecordBytes.toNat

end PodStore

/-- A store over its directory. `writes` tells for each write to the journal to come whether it
comes short, and after how many bytes; the writes after these are complete. -/
structure Session where
  store : PodStore
  directory : Directory
  writes : List (Option ℕ) := []
  log : List DiskOp := []
  deriving DecidableEq

/-- A step of the store. -/
abbrev StoreStep := Proc Status Session

namespace Session

/-- The session after something is done to the directory, which the log keeps. -/
def done (s : Session) (op : DiskOp) : Session :=
  { s with directory := s.directory.after op, log := s.log ++ [op] }

/-- A store that has not been opened. -/
def new (options : StoreOptions) (directory : Directory) : Session :=
  { store := { options }, directory }

end Session

/-! ## The journal file -/

/-- Does something to the directory. -/
def perform (op : DiskOp) : StoreStep Unit := modify (·.done op)

/-- Appends to the journal (`File::write`). -/
def fileWrite (data : List UInt8) : StoreStep Unit := do
  if data.isEmpty then return
  let s ← get
  modify fun s => { s with writes := s.writes.tail }
  match s.writes.head?.join with
  | none => perform (.append data)
  | some n =>
    perform (.append (data.take n))
    throw ⟨.unavailable, "short write to file"⟩

/-- A step that may fail without any effect. -/
def attempt {α : Type} (x : Result α) : StoreStep α := liftM x

/-- Changes the store, not the directory. -/
def modifyStore (f : PodStore → PodStore) : StoreStep Unit :=
  modify fun s => { s with store := f s.store }

/-- Changes the report on the recovery. -/
def modifyReport (f : PodStore.Report → PodStore.Report) : StoreStep Unit :=
  modifyStore fun store => { store with recovery := f store.recovery }

/-! ## Checkpoints -/

/-- The bytes a checkpoint begins with. -/
def checkpointMagic : List UInt8 := text "PODFBSN1"

/-- The bytes in front of a checkpoint's body. -/
def checkpointHeader : ℕ := 20

/-- The header of a checkpoint, without its checksum. -/
def checkpointFraming (body : List UInt8) : List UInt8 :=
  checkpointMagic ++ bytes16 durableStateVersion ++ bytes16 0 ++ bytes32 body.length.toUInt32

/-- The bytes of a checkpoint (`encode_checkpoint`). -/
def encodeCheckpoint (state : DurableState) : Result (List UInt8) := do
  let body ← state.encode
  return checkpointFraming body ++ bytes32 (crc32c (checkpointFraming body)) ++ body ++
    (Digest.of body).bytes

/-- The state of a checkpoint file. -/
def decodeCheckpoint (policy : Policy) (bytes : List UInt8) : Result DurableState := do
  ensure (bytes.length ≤ (policy.maxJournalBytes * 4).toNat)
    ⟨.exhausted, "file exceeds the configured maximum size"⟩
  ensure (checkpointHeader + 32 ≤ bytes.length)
    ⟨.corrupt, "checkpoint file is shorter than its framing"⟩
  ensure (bytes.take checkpointMagic.length = checkpointMagic)
    ⟨.corrupt, "checkpoint magic does not match"⟩
  ensure (bigEndian ((bytes.drop 8).take 2) = durableStateVersion.toNat)
    ⟨.unsupported, "checkpoint revision is not supported"⟩
  ensure (bigEndian ((bytes.drop 16).take 4) = (crc32c (bytes.take 16)).toNat)
    ⟨.corrupt, "checkpoint header checksum mismatch"⟩
  let bodyLength := bigEndian ((bytes.drop 12).take 4)
  ensure (bodyLength ≤ (policy.maxJournalBytes * 4).toNat)
    ⟨.exhausted, "checkpoint body exceeds the configured bound"⟩
  ensure (bytes.length = checkpointHeader + bodyLength + 32)
    ⟨.corrupt, "checkpoint length does not match its own header"⟩
  let body := (bytes.drop checkpointHeader).take bodyLength
  ensure ((bytes.drop (checkpointHeader + bodyLength)).take 32 = (Digest.of body).bytes)
    ⟨.corrupt, "checkpoint payload digest mismatch"⟩
  DurableState.decode body

/-- The state of the checkpoint, if there is one (`load_checkpoint`). -/
def loadCheckpoint (policy : Policy) (directory : Directory) : Result (Option DurableState) :=
  match directory.checkpoint with
  | none => .ok none
  | some bytes => (decodeCheckpoint policy bytes).map some

/-! ## Replay -/

/-- What the replay of the records has come to. -/
structure Replay where
  state : DurableState
  openTxn : UInt64 := 0
  pending : List UInt8 := []
  ambiguous : Bool := false
  applied : ℕ := 0
  skipped : ℕ := 0
  fromStore : Bool
  deriving DecidableEq

/-- Why the replay of the records fails. -/
inductive ReplayFault
  | undecoded (status : Status)
  | unmatched

namespace Replay

/-- A decoded state replaces the one that is held. -/
def apply (r : Replay) (payload : List UInt8) : Except (Replay × ReplayFault) Replay :=
  match DurableState.decode payload with
  | .error status => .error (r, .undecoded status)
  | .ok state => .ok { r with state, applied := r.applied + 1, fromStore := true }

/-- The body of the loop over the records. `checkpoint` is the sequence of the checkpoint, whose
records are skipped. -/
def record (checkpoint : Option UInt64) (r : Replay) (record : JournalRecord) :
    Except (Replay × ReplayFault) Replay :=
  if ∃ sequence ∈ checkpoint, record.sequence.value ≤ sequence then
    .ok { r with skipped := r.skipped + 1 }
  else
    match record.type with
    | .checkpoint =>
      let r := if r.openTxn ≠ 0 then { r with ambiguous := true, openTxn := 0, pending := [] } else r
      r.apply record.payload
    | .begin =>
      .ok { r with
        ambiguous := r.ambiguous || r.openTxn ≠ 0
        openTxn := record.sequence.value
        pending := record.payload }
    | .commit =>
      if r.openTxn ≠ record.sequence.value then .error (r, .unmatched)
      else (r.apply r.pending).map fun r => { r with openTxn := 0, pending := [] }

/-- The loop over the records. -/
def records (checkpoint : Option UInt64) (r : Replay) (records : List JournalRecord) :
    Except (Replay × ReplayFault) Replay :=
  records.foldlM (record checkpoint) r

end Replay

namespace PodStore

/-- The sequence up to which the checkpoint covers the journal. -/
def covered (store : PodStore) : Option UInt64 :=
  if store.haveCheckpoint then some store.checkpointSequence else none

/-- Where the loop over the records starts. -/
def replayStart (store : PodStore) : Replay where
  state := store.state
  applied := store.recovery.recordsApplied
  skipped := store.recovery.recordsSkipped
  fromStore := store.recovery.recoveredFromStore

/-- What the loop over the records leaves in the store. -/
def replayed (store : PodStore) (r : Replay) : PodStore :=
  { store with
    state := r.state
    recovery := { store.recovery with
      recordsApplied := r.applied, recordsSkipped := r.skipped
      recoveredFromStore := r.fromStore } }

/-- The end of `replay` when the loop over the records fails. -/
def abandonReplay (r : Replay) (fault : ReplayFault) : StoreStep Unit := do
  modifyStore fun store => store.replayed r
  match fault with
  | .undecoded status => throw status
  | .unmatched =>
    let detail := "a commit record does not match the open transaction"
    modifyReport fun report => { report with outcome := .corrupt, detail := detail }
    throw ⟨.corrupt, detail⟩

/-- The end of `replay` after the loop over the records: a damaged tail is cut off. -/
def finishReplay (scan : JournalScan) (r : Replay) : StoreStep Unit := do
  let { store, .. } ← get
  let ambiguous := r.ambiguous || r.openTxn ≠ 0
  modifyStore fun store => store.replayed r
  modifyReport fun report => { report with
    ambiguousCommit := ambiguous, lastSequence := ⟨r.state.sequence⟩ }
  if scan.status = .clean then
    modifyReport fun report =>
      if ambiguous then
        { report with
          outcome := .ambiguousCommitRolledBack
          detail := "a transaction was opened but never committed" }
      else
        { report with
          outcome := if store.haveCheckpoint ∨ 0 < r.applied then .clean else .fresh }
  else
    attempt (ensure store.options.repairTornTail
      ⟨.corrupt, text "journal tail is damaged and repair is disabled: " ++ scan.detail⟩)
    perform (.truncate scan.validBytes)
    perform .sync
    modifyReport fun report => { report with
      outcome :=
        if ambiguous then .ambiguousCommitRolledBack
        else if scan.status = .tornTail then .tornTailRepaired else .corruptTailRepaired
      detail := scan.detail }

/-- Applies the journal to the state of the checkpoint, and repairs its tail (`replay`). -/
def replay : StoreStep Unit := do
  let { store, directory, .. } ← get
  if directory.journal.length = 0 then
    modifyReport fun report => { report with
      outcome := if store.haveCheckpoint then .clean else .fresh
      lastSequence := ⟨store.checkpointSequence⟩ }
  else
    attempt (ensure (directory.journal.length ≤ (store.options.policy.maxJournalBytes * 2).toNat)
      ⟨.exhausted, "journal exceeds the configured bound and was not replayed"⟩)
    let scan := scanJournal directory.journal store.recordLimit
    attempt (ensure (scan.status ≠ .unsupportedVersion) ⟨.unsupported, scan.detail⟩)
    if scan.status = .corrupt ∨ scan.status = .oversizedRecord then
      modifyReport fun report => { report with outcome := .corrupt, detail := scan.detail }
      throw ⟨.corrupt, text "journal framing is not recoverable: " ++ scan.detail⟩
    else
      modifyReport fun report => { report with
        recordsScanned := scan.records.length, discardedBytes := scan.discardedBytes }
      match store.replayStart.records store.covered scan.records with
      | .error (r, fault) => abandonReplay r fault
      | .ok r => finishReplay scan r

/-! ## Opening and closing -/

/-- Takes over the state of the checkpoint. -/
def loaded (store : PodStore) : Option DurableState → PodStore
  | none => { store with haveCheckpoint := false, checkpointSequence := 0 }
  | some state =>
    { store with
      haveCheckpoint := true
      checkpointSequence := state.sequence
      state
      recovery := { store.recovery with recoveredFromStore := true } }

/-- The end of `open`: a brand new store is given its header before the first commit. -/
def finishOpen (fresh : Bool) (now : Nanos) : StoreStep Unit := do
  if fresh then
    fileWrite (encodeJournalHeader journalVersion)
    perform .sync
  modifyStore fun store =>
    { store with isOpen := true, recovery := { store.recovery with recoveredAt := now } }

/-- Opens the store and recovers what the directory holds. `now` is the time of the system. -/
def «open» (now : Nanos) : StoreStep Unit := do
  let { store, directory, .. } ← get
  attempt (ensure (¬ store.isOpen)
    ⟨.refused, "the pod store is already open in this process"⟩)
  attempt store.options.policy.validate
  match loadCheckpoint store.options.policy directory with
  | .error status =>
    modifyReport fun report => { report with
      outcome := if status.code = .unsupported then .unsupportedVersion else .corrupt
      detail := status.message }
    throw status
  | .ok checkpoint =>
    modifyStore fun store => store.loaded checkpoint
    replay
    finishOpen (directory.journal.isEmpty && checkpoint.isNone) now

/-- Closes the store (`close`). -/
def close : StoreStep Unit := modifyStore fun store => { store with isOpen := false }

/-! ## Committing -/

/-- Writes a checkpoint of the state and begins the journal anew (`compact`). -/
def compact : StoreStep Unit := do
  let { store, .. } ← get
  attempt (ensure store.isOpen ⟨.invalid, "the pod store is not open"⟩)
  perform (.replace (← attempt (encodeCheckpoint store.state)))
  modifyStore fun store =>
    { store with checkpointSequence := store.state.sequence, haveCheckpoint := true }
  -- the journal is truncated only after the checkpoint is durable
  perform (.truncate 0)
  fileWrite (encodeJournalHeader journalVersion)
  let payload ← attempt store.state.encode
  fileWrite (← attempt (encodeRecord ⟨⟨store.state.sequence⟩, .checkpoint, payload⟩
    store.recordLimit))
  perform .sync

/-- Writes a transaction for the next state (`commit`). `now` is the time of the system. -/
def commit (next : DurableState) (now : Nanos) : StoreStep Unit := do
  let { store, .. } ← get
  attempt (ensure store.isOpen ⟨.invalid, "the pod store is not open"⟩)
  let next := next.stamped store.state now
  let body ← attempt next.encode
  let beginFrame ← attempt (encodeRecord ⟨⟨next.sequence⟩, .begin, body⟩ store.recordLimit)
  let commitFrame ← attempt (encodeRecord ⟨⟨next.sequence⟩, .commit, []⟩ store.recordLimit)
  fileWrite beginFrame
  fileWrite commitFrame
  if store.options.syncOnCommit then perform .sync
  modifyStore fun store =>
    { store with
      state := next
      recovery := { store.recovery with lastSequence := ⟨next.sequence⟩ } }
  let { directory, .. } ← get
  if store.options.policy.maxJournalBytes.toNat < directory.journal.length then compact

end PodStore

end PodFabric
