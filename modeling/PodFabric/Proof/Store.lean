import PodFabric.Persist.Store
import PodFabric.Proof.Journal

/-!
# What the operations of the store do

A compaction and a commit each execute a plan: the things to be done to the directory, in order. For
each way their writes to the journal end, here is what is done to the directory and what store is
left.
-/

namespace PodFabric

/-! ## Plans -/

/-- What is done of a plan whose execution stops at a write that comes short. -/
inductive Cut : List DiskOp → List DiskOp → Prop
  | here {data : List UInt8} {plan : List DiskOp} (n : ℕ) :
      Cut (.append data :: plan) [.append (data.take n)]
  | later {op : DiskOp} {plan ops : List DiskOp} : Cut plan ops → Cut (op :: plan) (op :: ops)

/-- From one session to another: what is done to the directory, and the store that is left. -/
structure Did (s s' : Session) (ops : List DiskOp) (store : PodStore) : Prop where
  directory : s'.directory = ops.foldl Directory.after s.directory
  log : s'.log = s.log ++ ops
  store : s'.store = store

/-- Two things done to the directory, one after the other. -/
theorem Did.trans {s s' s'' : Session} {ops ops' : List DiskOp} {store store' : PodStore}
    (h : Did s s' ops store) (h' : Did s' s'' ops' store') :
    Did s s'' (ops ++ ops') store' where
  directory := by rw [h'.directory, h.directory, List.foldl_append]
  log := by rw [h'.log, h.log, List.append_assoc]
  store := h'.store

/-- How the execution of a plan ends: all of it is done, or it stops at a write. -/
inductive Executed (s s' : Session) (plan : List DiskOp) (store : PodStore) :
    Except Status Unit → Prop
  | whole : Did s s' plan store → Executed s s' plan store (.ok ())
  | cut {ops : List DiskOp} {e : Status} : Cut plan ops → Did s s' ops store →
      Executed s s' plan store (.error e)

section Writing
variable {s : Session} {data data' : List UInt8}

/-- What writing to the journal does: all of it, or the part that was written. -/
theorem on_fileWrite (hne : data ≠ []) : (fileWrite data).on s =
    match s.writes.head?.join with
    | none => (.ok (), { s with writes := s.writes.tail }.done (.append data))
    | some n => (.error ⟨.unavailable, "short write to file"⟩,
        { s with writes := s.writes.tail }.done (.append (data.take n))) := by
  have hempty : ¬ data.isEmpty = true := fun h => hne (List.isEmpty_iff.1 h)
  unfold fileWrite
  rw [if_neg hempty]
  simp only [Proc.on_bind, Proc.on_get, Proc.on_modify, perform]
  cases s.writes.head?.join with
  | none => rfl
  | some n => rfl

/-- Doing something to the directory succeeds. -/
theorem on_perform {op : DiskOp} : (perform op).on s = (.ok (), s.done op) := rfl

/-- A check leaves everything as it is. -/
theorem on_attempt {α : Type} {x : Result α} : (attempt x).on s = (x, s) := Proc.on_liftM

/-- Changing the store leaves the directory. -/
theorem on_modifyStore {f : PodStore → PodStore} :
    (modifyStore f).on s = (.ok (), { s with store := f s.store }) := rfl

end Writing

/-! ## Compaction -/

/-- The checkpoint file of a state with the given encoding. -/
def checkpointImage (body : List UInt8) : List UInt8 :=
  checkpointFraming body ++ bytes32 (crc32c (checkpointFraming body)) ++ body ++
    (Digest.of body).bytes

/-- A state that is encoded makes a checkpoint. -/
theorem encodeCheckpoint_of_encode {state : DurableState} {body : List UInt8}
    (h : state.encode = .ok body) : encodeCheckpoint state = .ok (checkpointImage body) := by
  rw [encodeCheckpoint, h]
  rfl

namespace PodStore

/-- The record that a compaction leaves. -/
def checkpointRecord (store : PodStore) (body : List UInt8) : JournalRecord :=
  ⟨⟨store.state.sequence⟩, .checkpoint, body⟩

/-- What a compaction does, for a state with the given encoding. -/
def compactPlan (store : PodStore) (body : List UInt8) : List DiskOp :=
  [.replace (checkpointImage body), .truncate 0, .append (encodeJournalHeader journalVersion),
    .append (store.checkpointRecord body).frame, .sync]

/-- The store after its state has been written to the checkpoint. -/
def compacted (store : PodStore) : PodStore :=
  { store with checkpointSequence := store.state.sequence, haveCheckpoint := true }

/-- The journal of a compaction begins with the header. -/
theorem header_ne_nil : encodeJournalHeader journalVersion ≠ [] := by
  rw [← List.length_pos_iff, length_encodeJournalHeader]
  decide

/-- A compaction executes its plan. -/
theorem compact_executed {s : Session} {body : List UInt8} (hopen : s.store.isOpen = true)
    (hbody : s.store.state.encode = .ok body)
    (hfits : body.length ≤ min s.store.recordLimit journalHardMaxRecord) :
    Executed s (compact.on s).2 (s.store.compactPlan body) s.store.compacted (compact.on s).1 := by
  have hrecord : encodeRecord ⟨⟨s.store.state.sequence⟩, .checkpoint, body⟩
      s.store.recordLimit =
        .ok (s.store.checkpointRecord body).frame := encodeRecord_eq_ok.2 ⟨hfits, rfl⟩
  unfold compact
  simp only [Proc.on_bind, Proc.on_get, on_attempt, on_perform, on_modifyStore, hopen, hbody,
    encodeCheckpoint_of_encode hbody, hrecord, ensure, if_true]
  rw [on_fileWrite header_ne_nil]
  dsimp only [Session.done]
  cases hfirst : s.writes.head?.join with
  | some n => exact .cut (.later (.later (.here n))) ⟨rfl, by simp, rfl⟩
  | none =>
    dsimp only
    rw [on_fileWrite JournalRecord.frame_ne_nil]
    dsimp only [Session.done]
    cases hsecond : s.writes.tail.head?.join with
    | some n => exact .cut (.later (.later (.later (.here n)))) ⟨rfl, by simp, rfl⟩
    | none => exact .whole ⟨rfl, by simp [compactPlan], rfl⟩

/-- What a compaction leaves, however its writes end: the new checkpoint, and as much of the new
journal as was written. -/
theorem compact_leaves {s s' : Session} {body : List UInt8} {store' : PodStore}
    {x : Except Status Unit} (h : Executed s s' (s.store.compactPlan body) store' x) :
    s'.store = store' ∧ s'.directory.checkpoint = some (checkpointImage body) ∧
      ((∃ n < journalHeaderSize,
        s'.directory.journal = (encodeJournalHeader journalVersion).take n) ∨
        ∃ n, s'.directory.journal =
          encodeJournalHeader journalVersion ++ (s.store.checkpointRecord body).frame.take n) := by
  cases h with
  | whole hdid =>
    refine ⟨hdid.store, by rw [hdid.directory]; rfl,
      .inr ⟨(s.store.checkpointRecord body).frame.length, ?_⟩⟩
    rw [hdid.directory, List.take_length]
    rfl
  | cut hcut hdid =>
    rw [compactPlan] at hcut
    rcases hcut with _ | _ | _ | hcut | hcut
    · next n =>
      refine ⟨hdid.store, by rw [hdid.directory]; rfl, ?_⟩
      by_cases hn : n < journalHeaderSize
      · exact .inl ⟨n, hn, by rw [hdid.directory]; rfl⟩
      · refine .inr ⟨0, ?_⟩
        have hwhole : (encodeJournalHeader journalVersion).take n =
            encodeJournalHeader journalVersion :=
          List.take_of_length_le (Nat.le_of_not_lt hn)
        rw [hdid.directory, hwhole, List.take_zero]
        rfl
    · exact ⟨hdid.store, by rw [hdid.directory]; rfl, .inr ⟨_, by rw [hdid.directory]; rfl⟩⟩
    · cases hcut with
      | later hcut => cases hcut

/-! ## Commit -/

/-- What a commit needs to begin: the encoding of the state, which fits a record. -/
structure Admits (store : PodStore) (next : DurableState) (body : List UInt8) : Prop where
  isOpen : store.isOpen = true
  encode : next.encode = .ok body
  fits : body.length ≤ min store.recordLimit journalHardMaxRecord

end PodStore

namespace DurableState

/-- The record that begins a transaction. -/
def beginRecord (next : DurableState) (body : List UInt8) : JournalRecord :=
  ⟨⟨next.sequence⟩, .begin, body⟩

/-- The record that commits a transaction. -/
def commitRecord (next : DurableState) : JournalRecord := ⟨⟨next.sequence⟩, .commit, []⟩

end DurableState

namespace PodStore

/-- What a commit does, short of compaction. -/
def commitPlan (store : PodStore) (next : DurableState) (body : List UInt8) : List DiskOp :=
  [.append (next.beginRecord body).frame, .append next.commitRecord.frame] ++
    if store.options.syncOnCommit then [.sync] else []

/-- The store after a commit. -/
def committed (store : PodStore) (next : DurableState) : PodStore :=
  { store with
    state := next
    recovery := { store.recovery with lastSequence := ⟨next.sequence⟩ } }

/-- How a commit ends. -/
inductive Committed (s : Session) (next : DurableState) : Session → Except Status Unit → Prop
  | refused {e : Status} : (∀ body, ¬ s.store.Admits next body) → Committed s next s (.error e)
  | tornBegin {body : List UInt8} {s' : Session} {n : ℕ} {e : Status} : s.store.Admits next body →
      s.writes.head?.join = some n →
      Did s s' [.append ((next.beginRecord body).frame.take n)] s.store →
      Committed s next s' (.error e)
  | tornCommit {body : List UInt8} {s' : Session} {n : ℕ} {e : Status} :
      s.store.Admits next body → s.writes.head?.join = none →
      s.writes.tail.head?.join = some n →
      Did s s' [.append (next.beginRecord body).frame, .append (next.commitRecord.frame.take n)]
        s.store →
      Committed s next s' (.error e)
  | kept {body : List UInt8} {s' : Session} : s.store.Admits next body →
      s.writes.head?.join = none → s.writes.tail.head?.join = none →
      Did s s' (s.store.commitPlan next body) (s.store.committed next) →
      Committed s next s' (.ok ())
  | compacting {body : List UInt8} {s₁ s' : Session} {r : Except Status Unit} :
      s.store.Admits next body →
      s.writes.head?.join = none → s.writes.tail.head?.join = none →
      Did s s₁ (s.store.commitPlan next body) (s.store.committed next) →
      Executed s₁ s' ((s.store.committed next).compactPlan body) (s.store.committed next).compacted
        r →
      Committed s next s' r

/-- The end of a commit, from the point where the transaction has been written. -/
def settle (store : PodStore) (next : DurableState) : StoreStep Unit := do
  modifyStore fun store => store.committed next
  let { directory, .. } ← get
  if store.options.policy.maxJournalBytes.toNat < directory.journal.length then compact

/-- How a commit ends once its records are written. -/
theorem on_settle {store : PodStore} {next : DurableState} {s : Session} :
    (settle store next).on s =
      if store.options.policy.maxJournalBytes.toNat < s.directory.journal.length then
        compact.on { s with store := s.store.committed next }
      else (.ok (), { s with store := s.store.committed next }) := by
  unfold settle
  simp only [Proc.on_bind, Proc.on_get, on_modifyStore]
  split <;> rfl

/-- A commit from the point where its records are encoded. -/
def transact (store : PodStore) (next : DurableState) (body : List UInt8) : StoreStep Unit := do
  fileWrite (next.beginRecord body).frame
  fileWrite next.commitRecord.frame
  if store.options.syncOnCommit then perform .sync
  settle store next

/-- A commit is refused before it writes anything, or it writes its transaction. -/
theorem on_commit {s : Session} {next : DurableState} {now : Nanos} :
    (∃ body, s.store.Admits (next.stamped s.store.state now) body ∧
      (commit next now).on s = (transact s.store (next.stamped s.store.state now) body).on s) ∨
    (∀ body, ¬ s.store.Admits (next.stamped s.store.state now) body) ∧
      ∃ e, (commit next now).on s = (.error e, s) := by
  generalize hnext : next.stamped s.store.state now = written
  unfold commit
  simp only [Proc.on_bind, Proc.on_get, on_attempt, hnext]
  by_cases hopen : s.store.isOpen = true
  swap
  · simp only [ensure, hopen]
    exact .inr ⟨fun body h => hopen h.isOpen, _, rfl⟩
  simp only [ensure, hopen, if_true]
  cases hbody : written.encode with
  | error e =>
    refine .inr ⟨fun body h => ?_, e, rfl⟩
    rw [h.encode] at hbody
    cases hbody
  | ok body =>
    by_cases hfits : body.length ≤ min s.store.recordLimit journalHardMaxRecord
    swap
    · have hrecord : ∃ e, encodeRecord ⟨⟨written.sequence⟩, .begin, body⟩
          s.store.recordLimit = .error e := by
        cases h : encodeRecord ⟨⟨written.sequence⟩, .begin, body⟩
            s.store.recordLimit with
        | error e => exact ⟨e, rfl⟩
        | ok data => exact absurd (encodeRecord_eq_ok.1 h).1 hfits
      obtain ⟨e, he⟩ := hrecord
      simp only [he]
      refine .inr ⟨fun body' h => hfits ?_, e, rfl⟩
      rw [h.encode] at hbody
      cases hbody
      exact h.fits
    · have hbegin : encodeRecord ⟨⟨written.sequence⟩, .begin, body⟩
          s.store.recordLimit =
            .ok (written.beginRecord body).frame := encodeRecord_eq_ok.2 ⟨hfits, rfl⟩
      have hcommit : encodeRecord ⟨⟨written.sequence⟩, .commit, []⟩
          s.store.recordLimit = .ok written.commitRecord.frame :=
        encodeRecord_eq_ok.2 ⟨Nat.zero_le _, rfl⟩
      simp only [hbegin, hcommit]
      refine .inl ⟨body, ⟨hopen, hbody, hfits⟩, ?_⟩
      unfold transact
      by_cases hsync : s.store.options.syncOnCommit = true
      · simp only [hsync, if_true, Proc.on_bind, settle]
        rfl
      · simp only [hsync, Proc.on_bind, settle]
        rfl

/-- The session once the transaction has been written. -/
def transacted (s : Session) (next : DurableState) (body : List UInt8) : Session :=
  let s := ({ s with writes := s.writes.tail.tail }.done
    (.append (next.beginRecord body).frame)).done (.append next.commitRecord.frame)
  if s.store.options.syncOnCommit then s.done .sync else s

/-- What a commit does before it ends. -/
theorem transacted_did {s : Session} {next : DurableState} {body : List UInt8} :
    Did s (transacted s next body) (s.store.commitPlan next body) s.store := by
  unfold transacted commitPlan
  by_cases hsync : s.store.options.syncOnCommit = true
  · simp only [Session.done, hsync, if_true]
    exact ⟨rfl, by simp, rfl⟩
  · simp only [Session.done, hsync]
    exact ⟨rfl, by simp, rfl⟩

/-- Both records of a transaction are written. -/
theorem on_transact {s : Session} {next : DurableState} {body : List UInt8}
    (hfirst : s.writes.head?.join = none) (hsecond : s.writes.tail.head?.join = none) :
    (transact s.store next body).on s =
      (settle s.store next).on (transacted s next body) := by
  unfold transact
  simp only [Proc.on_bind]
  rw [on_fileWrite JournalRecord.frame_ne_nil, hfirst]
  dsimp only
  rw [on_fileWrite JournalRecord.frame_ne_nil]
  dsimp only [Session.done]
  rw [hsecond]
  dsimp only
  unfold transacted
  by_cases hsync : s.store.options.syncOnCommit = true
  · simp only [hsync, if_true, Session.done]
    rfl
  · simp only [hsync, Session.done]
    rfl

/-- A commit ends in one of these ways. -/
theorem commit_committed {s : Session} {next : DurableState} {now : Nanos} :
    Committed s (next.stamped s.store.state now) ((commit next now).on s).2
      ((commit next now).on s).1 := by
  rcases @on_commit s next now with ⟨body, hadmits, hon⟩ | ⟨hnot, e, hon⟩
  swap
  · rw [hon]
    exact .refused hnot
  rw [hon]
  generalize next.stamped s.store.state now = written at hadmits ⊢
  cases hfirst : s.writes.head?.join with
  | some n =>
    unfold transact
    simp only [Proc.on_bind]
    rw [on_fileWrite JournalRecord.frame_ne_nil, hfirst]
    exact .tornBegin hadmits hfirst ⟨rfl, rfl, rfl⟩
  | none =>
    cases hsecond : s.writes.tail.head?.join with
    | some n =>
      unfold transact
      simp only [Proc.on_bind]
      rw [on_fileWrite JournalRecord.frame_ne_nil, hfirst]
      dsimp only
      rw [on_fileWrite JournalRecord.frame_ne_nil]
      dsimp only [Session.done]
      rw [hsecond]
      exact .tornCommit hadmits hfirst hsecond ⟨rfl, by simp, rfl⟩
    | none =>
      have hdone := @transacted_did s written body
      rw [on_transact hfirst hsecond, on_settle]
      have hdid : Did s { transacted s written body with
          store := (transacted s written body).store.committed written }
          (s.store.commitPlan written body) (s.store.committed written) :=
        ⟨hdone.directory, hdone.log, by rw [hdone.store]⟩
      split
      · refine .compacting hadmits hfirst hsecond hdid ?_
        have hexecuted := @compact_executed { transacted s written body with
            store := (transacted s written body).store.committed written }
          body (by rw [hdone.store]; exact hadmits.isOpen) hadmits.encode
          (by rw [hdone.store]; exact hadmits.fits)
        rw [hdone.store] at hexecuted ⊢
        exact hexecuted
      · exact .kept hadmits hfirst hsecond hdid

end PodStore

end PodFabric
