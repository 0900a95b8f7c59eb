import PodFabric.Persist.Store

/-!
# Opening a store on its platform

The lock of a store directory keeps all other stores out, those of the same process too. Here a
store is opened together with its lock, and the platform may refuse each step: the directory, the
lock, the files and what is done to them.
-/

namespace PodFabric

/-- What the platform answers while a store is opened. `acquire` is the answer when the store does
not hold the lock already; `lockKey` is the name of the lock in the process. -/
structure Platform where
  lockKey : Text := []
  ensureDirectory : Result Unit := .ok ()
  acquire : Result Unit := .ok ()
  readCheckpoint : Result Unit := .ok ()
  journalBytes : Result Unit := .ok ()
  openAppend : Result Unit := .ok ()
  size : Result Unit := .ok ()
  seek : Result Unit := .ok ()
  read : Result Unit := .ok ()
  truncate : Result Unit := .ok ()
  sync : Result Unit := .ok ()

/-- A store over the directory of the given path, and whether it holds the lock. -/
structure LockedStore where
  path : Text
  session : Session
  held : Bool := false

namespace PodStore

/-- A store that refuses to open must never be used. -/
def Report.usable (report : Report) : Bool :=
  report.outcome ≠ .corrupt ∧ report.outcome ≠ .refused ∧ report.outcome ≠ .unsupportedVersion

end PodStore

/-! ## Files -/

section Files
variable (p : Platform)

/-- The state of the checkpoint, if there is one (`load_checkpoint`). -/
def Platform.loadCheckpoint (policy : Policy) (directory : Directory) :
    Result (Option DurableState) :=
  match directory.checkpoint with
  | none => .ok none
  | some bytes => do
    ensure (bytes.length ≤ (policy.maxJournalBytes * 4).toNat)
      ⟨.exhausted, "file exceeds the configured maximum size"⟩
    p.readCheckpoint
    (decodeCheckpoint policy bytes).map some

/-- The end of `replay` after the loop over the records. -/
def Platform.finishReplay (scan : JournalScan) (r : Replay) : StoreStep Unit := do
  let { store, .. } ← get
  let ambiguous := r.ambiguous || r.openTxn ≠ 0
  modifyStore fun store => store.replayed r
  modifyReport fun report => { report with
    ambiguousCommit := ambiguous, lastSequence := ⟨r.state.sequence⟩ }
  if scan.status = .clean then
    modifyReport fun report =>
      if ambiguous then
        { report with
          outcome := .ambiguousCommitRolledBack
          detail := "a transaction was opened but never committed" }
      else
        { report with
          outcome := if store.haveCheckpoint ∨ 0 < r.applied then .clean else .fresh }
  else
    attempt (ensure store.options.repairTornTail
      ⟨.corrupt, text "journal tail is damaged and repair is disabled: " ++ scan.detail⟩)
    attempt p.truncate
    perform (.truncate scan.validBytes)
    attempt p.sync
    perform .sync
    modifyReport fun report => { report with
      outcome :=
        if ambiguous then .ambiguousCommitRolledBack
        else if scan.status = .tornTail then .tornTailRepaired else .corruptTailRepaired
      detail := scan.detail }

/-- Applies the journal to the state of the checkpoint, and repairs its tail (`replay`). -/
def Platform.replay : StoreStep Unit := do
  let { store, directory, .. } ← get
  attempt p.size
  if directory.journal.length = 0 then
    modifyReport fun report => { report with
      outcome := if store.haveCheckpoint then .clean else .fresh
      lastSequence := ⟨store.checkpointSequence⟩ }
  else
    attempt (ensure (directory.journal.length ≤ (store.options.policy.maxJournalBytes * 2).toNat)
      ⟨.exhausted, "journal exceeds the configured bound and was not replayed"⟩)
    attempt p.seek
    attempt p.read
    let scan := scanJournal directory.journal store.recordLimit
    attempt (ensure (scan.status ≠ .unsupportedVersion) ⟨.unsupported, scan.detail⟩)
    if scan.status = .corrupt ∨ scan.status = .oversizedRecord then
      modifyReport fun report => { report with outcome := .corrupt, detail := scan.detail }
      throw ⟨.corrupt, text "journal framing is not recoverable: " ++ scan.detail⟩
    else
      modifyReport fun report => { report with
        recordsScanned := scan.records.length, discardedBytes := scan.discardedBytes }
      match store.replayStart.records store.covered scan.records with
      | .error (r, fault) => PodStore.abandonReplay r fault
      | .ok r => p.finishReplay scan r

/-- The end of `open`: a brand new store is given its header before the first commit. -/
def Platform.finishOpen (fresh : Bool) (now : Nanos) : StoreStep Unit := do
  if fresh then
    fileWrite (encodeJournalHeader journalVersion)
    attempt p.sync
    perform .sync
  modifyStore fun store =>
    { store with isOpen := true, recovery := { store.recovery with recoveredAt := now } }

end Files

/-! ## Opening -/

namespace LockedStore

/-- A step of the store that leaves its lock alone. -/
def within {α : Type} (step : StoreStep α) : Proc Status LockedStore α := do
  let s ← get
  let (result, session) := step.on s.session
  set { s with session }
  liftM result

/-- A check made while the store is locked. -/
def attempt {α : Type} (x : Result α) : Proc Status LockedStore α := liftM x

/-- What the store does not hold yet it may be granted (`FileLock::acquire`). -/
def acquire (s : LockedStore) (p : Platform) : Result Unit :=
  if s.held then fail .refused (text "the pod store is already locked by this process: " ++ p.lockKey)
  else p.acquire

/-- Opens the store and recovers what the directory holds. `now` is the time of the system. -/
def «open» (p : Platform) (now : Nanos) : Proc Status LockedStore Unit := do
  let s ← get
  let store := s.session.store
  let directory := s.session.directory
  attempt (ensure (¬ store.isOpen)
    ⟨.refused, "the pod store is already open in this process"⟩)
  attempt store.options.policy.validate
  attempt (ensure (s.path ≠ []) ⟨.invalid, "the pod store directory is empty"⟩)
  attempt p.ensureDirectory
  match s.acquire p with
  | .error status =>
    within (modifyReport fun report => { report with
      outcome := .refused, detail := status.message })
    throw status
  | .ok () =>
    modify fun s => { s with held := true }
    match p.loadCheckpoint store.options.policy directory with
    | .error status =>
      within (modifyReport fun report => { report with
        outcome := if status.code = .unsupported then .unsupportedVersion else .corrupt
        detail := status.message })
      modify fun s => { s with held := false }
      throw status
    | .ok checkpoint =>
      within do
        modifyStore fun store => store.loaded checkpoint
        let existed := p.journalBytes.isOk && ¬ directory.journal.isEmpty
        PodFabric.attempt p.openAppend
        p.replay
        p.finishOpen (¬ existed && checkpoint.isNone) now

end LockedStore

end PodFabric
