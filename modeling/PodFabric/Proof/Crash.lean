import PodFabric.Persist.Crash
import PodFabric.Proof.Acknowledged

/-!
# What a crash leaves

A crash leaves a beginning of what was done to the journal, with either checkpoint. The header of
the journal apart, it holds the state before the call in which the crash comes or the state after
it: a transaction that is not complete does not change the state, and a checkpoint takes precedence
over the journal that it was made from (`Logs.superseded`).
-/

namespace PodFabric

/-! ## What a crash leaves -/

section Disk
variable {journal left : List UInt8} {ops ops' : List DiskOp} {d : Disk} {directory : Directory}

/-- What is done to a directory reaches its journal. -/
theorem foldl_after_journal : ∀ {ops : List DiskOp} {d : Directory},
    (ops.foldl Directory.after d).journal = ops.foldl journalAfter d.journal
  | [], _ => rfl
  | op :: ops, d => by
    rw [List.foldl_cons, List.foldl_cons, foldl_after_journal]
    cases op <;> rfl

/-- All that was done may be left. -/
theorem JournalLeft.all : ∀ {ops : List DiskOp} {journal : List UInt8},
    JournalLeft journal ops (ops.foldl journalAfter journal)
  | [], _ => .lost
  | _ :: _, _ => .kept .all

/-- A crash loses what came last, or it comes within what came last. -/
theorem JournalLeft.append : ∀ {ops : List DiskOp} {journal : List UInt8},
    JournalLeft journal (ops ++ ops') left →
      JournalLeft journal ops left ∨ JournalLeft (ops.foldl journalAfter journal) ops' left
  | [], _, h => .inr h
  | op :: ops, _, h => by
    cases h with
    | lost => exact .inl .lost
    | part n => exact .inl (.part n)
    | kept h => exact h.append.imp_left .kept

/-- What may be left of some writes may be left of more. -/
theorem JournalLeft.mono : ∀ {ops : List DiskOp} {journal : List UInt8},
    JournalLeft journal ops left → JournalLeft journal (ops ++ ops') left
  | [], _, h => by
    cases h
    exact .lost
  | op :: ops, _, h => by
    cases h with
    | lost => exact .lost
    | part n => exact .part n
    | kept h => exact .kept h.mono

/-- Nothing done leaves the journal. -/
theorem JournalLeft.of_nil (h : JournalLeft journal [] left) : left = journal := by
  cases h
  rfl

/-- Of an append any number of bytes may be left. -/
theorem JournalLeft.of_append {data : List UInt8} (h : JournalLeft journal [.append data] left) :
    ∃ n, left = journal ++ data.take n := by
  cases h with
  | lost => exact ⟨0, by simp⟩
  | part n => exact ⟨n, rfl⟩
  | kept h => exact ⟨data.length, by rw [h.of_nil, List.take_length]; rfl⟩

namespace Disk

/-- A program sees at once what it does. -/
theorem view_after {op : DiskOp} : (d.after op).view = d.view.after op := by
  cases op with
  | append | truncate => simp [after, view, Directory.after, journalAfter]
  | sync => rfl
  | replace => rfl

/-- A program sees at once all that it does. -/
theorem view_foldl : ∀ {ops : List DiskOp} {d : Disk},
    (ops.foldl after d).view = ops.foldl Directory.after d.view
  | [], _ => rfl
  | op :: ops, d => by rw [List.foldl_cons, view_foldl, view_after, List.foldl_cons]

/-- A crash comes while the first things are done, or while the others are. -/
theorem Crashes.append : ∀ {ops : List DiskOp} {d : Disk}, d.Crashes (ops ++ ops') directory →
    d.Crashes ops directory ∨ (ops.foldl after d).Crashes ops' directory
  | [], _, h => .inr h
  | op :: ops, d, h => by
    cases h with
    | now h => exact .inl (.now h)
    | later h => exact h.append.imp_left .later

/-- What a crash can leave early it can leave later. -/
theorem Crashes.mono : ∀ {ops : List DiskOp} {d : Disk}, d.Crashes ops directory →
    d.Crashes (ops ++ ops') directory
  | [], _, h => by
    cases h with
    | now h => exact .now h
  | op :: ops, d, h => by
    cases h with
    | now h => exact .now h
    | later h => exact .later h.mono

/-- A crash between two calls leaves the checkpoint and what the journal may keep. -/
theorem Crashes.of_nil (h : d.Crashes [] directory) :
    ∃ left, JournalLeft d.journal d.pending left ∧ directory = ⟨d.checkpoint, left⟩ := by
  cases h with
  | now h => exact ⟨_, h, rfl⟩

/-- A crash can come after all that is done. -/
theorem Crashes.of_end : ∀ {ops : List DiskOp} {d : Disk},
    (ops.foldl after d).Crashes [] directory → d.Crashes ops directory
  | [], _, h => h
  | _ :: _, _, h => .later (of_end h)

/-- A sync at the end leaves nothing that could not have been left before it. -/
theorem Crashes.of_sync (h : d.Crashes (ops ++ [.sync]) directory) : d.Crashes ops directory := by
  rcases h.append with h | h
  · exact h
  refine .of_end ?_
  cases h with
  | now hleft => exact .now hleft
  | later hsynced =>
    obtain ⟨left, hleft, rfl⟩ := hsynced.of_nil
    rw [hleft.of_nil]
    exact .now .all

/-- What is only done to the journal is not durable. -/
theorem Crashes.of_pending : ∀ {ops : List DiskOp} {d : Disk},
    (∀ op ∈ ops, ∀ d : Disk, d.after op = { d with pending := d.pending ++ [op] }) →
    d.Crashes ops directory →
      ∃ left, JournalLeft d.journal (d.pending ++ ops) left ∧ directory = ⟨d.checkpoint, left⟩
  | [], d, _, h => by
    rw [List.append_nil]
    exact h.of_nil
  | op :: ops, d, hops, h => by
    cases h with
    | now hleft => exact ⟨_, hleft.mono, rfl⟩
    | later hlater =>
      rw [List.forall_mem_cons] at hops
      rw [hops.1] at hlater
      obtain ⟨left, hleft, rfl⟩ := of_pending hops.2 hlater
      exact ⟨left, by simpa using hleft, rfl⟩

/-- A crash while nothing is done loses nothing that was synced. -/
theorem Crashes.of_idle (hsynced : d.pending = []) (h : d.Crashes [] directory) :
    directory = d.view := by
  obtain ⟨left, hleft, rfl⟩ := h.of_nil
  rw [hsynced] at hleft
  rw [hleft.of_nil, view, hsynced]
  rfl

/-- A crash while one thing is done to a journal that was synced. -/
theorem Crashes.of_op {op : DiskOp}
    (hop : ∀ d : Disk, d.after op = { d with pending := d.pending ++ [op] })
    (hsynced : d.pending = []) (h : d.Crashes [op, .sync] directory) :
    ∃ left, JournalLeft d.view.journal [op] left ∧ directory = ⟨d.view.checkpoint, left⟩ := by
  have h : d.Crashes ([op] ++ [.sync]) directory := h
  obtain ⟨left, hleft, rfl⟩ := h.of_sync.of_pending (by simpa using hop)
  rw [hsynced] at hleft
  rw [view, hsynced]
  exact ⟨left, hleft, rfl⟩

/-- What a crash leaves of a journal that is begun anew. -/
theorem left_anew {header record : List UInt8}
    (h : JournalLeft journal (ops ++ [.truncate 0, .append header, .append record]) left) :
    JournalLeft journal ops left ∨ ∃ n, left = header.take n ∨ left = header ++ record.take n := by
  rcases h.append with h | h
  · exact .inl h
  cases h with
  | lost => exact .inl .all
  | kept h =>
    refine .inr ?_
    cases h with
    | lost => exact ⟨0, .inl rfl⟩
    | part n => exact ⟨n, .inl rfl⟩
    | kept h =>
      obtain ⟨n, rfl⟩ := h.of_append
      exact ⟨n, .inr rfl⟩

/-- What a crash leaves during a compaction: the journal as it was, with either checkpoint, or the
beginning of the new one. -/
theorem Crashes.compact {image header record : List UInt8}
    (h : d.Crashes [.replace image, .truncate 0, .append header, .append record, .sync] directory) :
    (∃ journal, JournalLeft d.journal d.pending journal ∧
      (directory = ⟨d.checkpoint, journal⟩ ∨ directory = ⟨some image, journal⟩)) ∨
    ∃ n, directory = ⟨some image, header.take n⟩ ∨
      directory = ⟨some image, header ++ record.take n⟩ := by
  cases h with
  | now h => exact .inl ⟨_, h, .inl rfl⟩
  | later h =>
    have h : Crashes _ ([.truncate 0, .append header, .append record] ++ [.sync]) directory := h
    have hleft := h.of_sync.of_pending (by simp [after])
    obtain ⟨left, hleft, rfl⟩ := hleft
    rcases left_anew hleft with h | ⟨n, rfl | rfl⟩
    · exact .inl ⟨left, h, .inr rfl⟩
    · exact .inr ⟨n, .inl rfl⟩
    · exact .inr ⟨n, .inr rfl⟩

end Disk

end Disk

/-! ## What a directory holds -/

/-- A state that the store can write, and reads back as it is. -/
structure Keepable (policy : Policy) (state : DurableState) : Prop where
  storable : state.Storable
  body : ∃ body, state.encode = .ok body ∧ body.length ≤ journalHardMaxRecord ∧
    (checkpointImage body).length ≤ (policy.maxJournalBytes * 4).toNat

/-- The journal is the frames of these records and the beginning of another one, and is replayed
after the checkpoint. Only a record that opens a transaction can be later than the state. -/
structure Logged (limit : ℕ) (checkpoint : Option DurableState) (journal tail : List UInt8)
    (records : List JournalRecord) (r : Replay) : Prop where
  written : Written limit journal records tail
  torn : TornTail limit tail
  replay : Replay.over checkpoint records = .ok r
  sequences : ∀ record ∈ records,
    record.type = .begin ∨ record.sequence.value ≤ r.state.sequence

/-- The journal holds a state, after the checkpoint. -/
inductive Logs (limit : ℕ) (checkpoint : Option DurableState) :
    List UInt8 → DurableState → Prop
  | empty : Logs limit checkpoint [] (checkpoint.getD {})
  | logged {journal tail : List UInt8} {records : List JournalRecord} {r : Replay} :
      Logged limit checkpoint journal tail records r → Logs limit checkpoint journal r.state

section Logs
variable {limit n : ℕ} {checkpoint : Option DurableState} {journal left tail body : List UInt8}
  {state next : DurableState} {record : JournalRecord} {records : List JournalRecord} {r : Replay}

/-- A log that leads to a state stores it. -/
theorem Logs.stores (h : Logs limit checkpoint journal state) :
    Stores limit checkpoint journal state := by
  cases h with
  | empty => exact .empty rfl
  | logged h => exact .written h.written h.torn h.replay

/-- A journal without damage ends where a record does. -/
theorem Logs.whole (h : Logs limit checkpoint journal state) (hne : journal ≠ [])
    (hclean : (scanJournal journal limit).status = .clean) :
    ∃ records r, Logged limit checkpoint journal [] records r ∧ r.state = state := by
  cases h with
  | empty => exact absurd rfl hne
  | @logged _ tail records r h =>
    by_cases htail : tail = []
    · subst htail
      exact ⟨records, r, h, rfl⟩
    · rw [((scan_written h.written h.torn).2.2 htail).1] at hclean
      cases hclean

/-- A log without a tail scans clean. -/
theorem Logged.clean (h : Logged limit checkpoint journal [] records r) :
    (scanJournal journal limit).status = .clean := (scan_written h.written h.torn).2.1 rfl

/-! A later checkpoint takes precedence over the journal. -/

/-- Records that the checkpoint covers, and records that open a transaction, do not change the
state. -/
theorem Replay.records_superseded : ∀ {records : List JournalRecord} {r : Replay},
    (∀ record ∈ records, record.type = .begin ∨ record.sequence.value ≤ state.sequence) →
    ∃ r', r.records (some state.sequence) records = .ok r' ∧ r'.state = r.state
  | [], r, _ => ⟨r, rfl, rfl⟩
  | record :: records, r, h => by
    rw [List.forall_mem_cons] at h
    have hstep : ∃ r', r.record (some state.sequence) record = .ok r' ∧ r'.state = r.state := by
      unfold Replay.record
      split
      · exact ⟨_, rfl, rfl⟩
      · next hnot =>
        have hbegin := h.1.resolve_right fun hle => hnot ⟨_, rfl, hle⟩
        rw [hbegin]
        exact ⟨_, rfl, rfl⟩
    obtain ⟨r', hr', hstate⟩ := hstep
    obtain ⟨r'', hr'', hstate'⟩ := @records_superseded records r' h.2
    refine ⟨r'', ?_, hstate'.trans hstate⟩
    rw [Replay.records, List.foldlM_cons, hr']
    exact hr''

/-- A checkpoint that is as far as the log supersedes it. -/
theorem Logs.superseded (h : Logs limit checkpoint journal state)
    (hle : state.sequence ≤ next.sequence) : Logs limit (some next) journal next := by
  cases h with
  | empty => exact .empty
  | @logged _ tail records r h =>
    have hsequences : ∀ record ∈ records,
        record.type = .begin ∨ record.sequence.value ≤ next.sequence :=
      fun record hrecord => (h.sequences record hrecord).imp_right fun h => h.trans hle
    obtain ⟨r', hr', hstate⟩ :=
      @Replay.records_superseded next records (.start (some next)) hsequences
    have hreplay : Replay.over (some next) records = .ok r' := hr'
    have hstate : r'.state = next := hstate
    have hlogs := Logs.logged ⟨h.written, h.torn, hreplay, by rwa [hstate]⟩
    rwa [hstate] at hlogs

/-! ## Appending -/

/-- Any part of a record that does not change the state may be appended. -/
theorem Logged.append_take (h : Logged limit checkpoint journal [] records r)
    (hsame : ∃ r', Replay.over checkpoint (records ++ [record]) = .ok r' ∧ r'.state = r.state)
    (hfits : record.payload.length ≤ min limit journalHardMaxRecord)
    (hsequence : record.type = .begin ∨ record.sequence.value ≤ r.state.sequence) :
    Logs limit checkpoint (journal ++ record.frame.take n) r.state := by
  by_cases hn : n < record.frame.length
  · obtain ⟨hwritten, htorn⟩ := h.written.append_torn hfits hn
    exact .logged ⟨hwritten, htorn, h.replay, h.sequences⟩
  · obtain ⟨r', hreplay, hstate⟩ := hsame
    rw [List.take_of_length_le (Nat.le_of_not_lt hn), ← hstate]
    refine .logged ⟨h.written.append hfits, .inl rfl, hreplay, ?_⟩
    rw [List.forall_mem_append, hstate]
    exact ⟨h.sequences, List.forall_mem_singleton.2 hsequence⟩

/-- A transaction that is written brings its state about. -/
theorem Logged.commit (h : Logged limit checkpoint journal [] records r)
    (hcovered : ∀ sequence ∈ checkpoint.map DurableState.sequence, sequence < next.sequence)
    (hdecode : DurableState.decode body = .ok next)
    (hfits : body.length ≤ min limit journalHardMaxRecord)
    (hlater : r.state.sequence < next.sequence) :
    ∃ r', Logged limit checkpoint
      (journal ++ (next.beginRecord body).frame ++ next.commitRecord.frame) []
      (records ++ [next.beginRecord body, next.commitRecord]) r' ∧ r'.state = next := by
  obtain ⟨r', hreplay, hstate⟩ := Replay.over_commit h.replay hcovered hdecode
  refine ⟨r', ⟨?_, .inl rfl, hreplay, ?_⟩, hstate⟩
  · have hbegun : Written limit _ (records ++ [next.beginRecord body]) [] :=
      h.written.append hfits
    have hlanded : Written limit _
        (records ++ [next.beginRecord body] ++ [next.commitRecord]) [] :=
      hbegun.append (Nat.zero_le _)
    rwa [List.append_assoc records] at hlanded
  · rw [List.forall_mem_append, hstate]
    refine ⟨fun record hrecord => (h.sequences record hrecord).imp_right fun h =>
      h.trans hlater.le, ?_⟩
    simp [DurableState.beginRecord, DurableState.commitRecord]

/-- Whatever part of a transaction is written, the journal holds the state before it or after it. -/
theorem Logged.commit_left (h : Logged limit checkpoint journal [] records r)
    (hcovered : ∀ sequence ∈ checkpoint.map DurableState.sequence, sequence < next.sequence)
    (hdecode : DurableState.decode body = .ok next)
    (hfits : body.length ≤ min limit journalHardMaxRecord)
    (hlater : r.state.sequence < next.sequence)
    (hleft : JournalLeft journal
      [.append (next.beginRecord body).frame, .append next.commitRecord.frame] left) :
    Logs limit checkpoint left r.state ∨ Logs limit checkpoint left next := by
  have hbegin := @Replay.over_begin checkpoint records r next body h.replay
  cases hleft with
  | lost => exact .inl (.logged h)
  | part n => exact .inl (h.append_take hbegin hfits (.inl rfl))
  | kept hleft =>
    obtain ⟨n, rfl⟩ := hleft.of_append
    by_cases hn : n < next.commitRecord.frame.length
    · obtain ⟨r', hreplay, hstate⟩ := hbegin
      have hbegun : Written limit _ (records ++ [next.beginRecord body]) [] :=
        h.written.append hfits
      obtain ⟨hwritten, htorn⟩ := hbegun.append_torn (Nat.zero_le _) hn
      rw [← hstate]
      refine .inl (.logged ⟨hwritten, htorn, hreplay, ?_⟩)
      rw [List.forall_mem_append, hstate]
      exact ⟨h.sequences, List.forall_mem_singleton.2 (.inl rfl)⟩
    · obtain ⟨r', hlogged, hstate⟩ := h.commit hcovered hdecode hfits hlater
      have hlogs := Logs.logged hlogged
      rw [hstate] at hlogs
      rw [List.take_of_length_le (Nat.le_of_not_lt hn)]
      exact .inr hlogs

end Logs

/-! ## Directories -/

/-- A directory that a store can go on with: it holds a state, which can be written again. -/
structure Carries (options : StoreOptions) (d : Directory) (checkpoint : Option DurableState)
    (state : DurableState) : Prop where
  load : loadCheckpoint options.policy d = .ok checkpoint
  covered : ∀ sequence ∈ checkpoint.map DurableState.sequence, sequence ≤ state.sequence
  keepable : Keepable options.policy state
  logs : Logs options.policy.maxJournalRecordBytes.toNat checkpoint d.journal state

/-- The shape of a journal is one that can be opened: its header is complete, it is within its
bound, and a tail that is cut short may be repaired. -/
structure Openable (options : StoreOptions) (journal : List UInt8) : Prop where
  header : journal = [] ∨ journalHeaderSize ≤ journal.length
  size : journal.length ≤ (options.policy.maxJournalBytes * 2).toNat
  repair : journal ≠ [] → options.repairTornTail = true ∨
    (scanJournal journal options.policy.maxJournalRecordBytes.toNat).status = .clean

/-- The policy is valid, and its bounds do not wrap. -/
structure StoreOptions.Sound (options : StoreOptions) : Prop where
  valid : options.policy.validate = .ok ()
  bounds : options.policy.maxJournalBytes.toNat * 4 < 2 ^ 64

namespace StoreOptions.Sound
variable {options : StoreOptions} (h : options.Sound)
include h

/-- A sound store's records fit in its journal, and hold what is always written. -/
theorem record_le : 64 ≤ options.policy.maxJournalRecordBytes.toNat ∧
    options.policy.maxJournalRecordBytes.toNat ≤ options.policy.maxJournalBytes.toNat := by
  have hvalid := h.valid
  simp only [Policy.validate, check_eq_ok, ensure_eq_ok] at hvalid
  obtain ⟨-, -, -, -, -, hleast, hmost, -⟩ := hvalid
  exact ⟨UInt64.le_iff_toNat_le.1 hleast, UInt64.le_iff_toNat_le.1 hmost⟩

/-- Twice the bound does not overflow. -/
theorem twice : (options.policy.maxJournalBytes * 2).toNat =
    options.policy.maxJournalBytes.toNat * 2 := by
  have := h.bounds
  rw [UInt64.toNat_mul]
  exact Nat.mod_eq_of_lt (by simp; omega)

/-- Four times the bound does not overflow. -/
theorem fourfold : (options.policy.maxJournalBytes * 4).toNat =
    options.policy.maxJournalBytes.toNat * 4 := by
  rw [UInt64.toNat_mul]
  exact Nat.mod_eq_of_lt h.bounds

/-- A state whose encoding fits a record can be written. -/
theorem keepable {state : DurableState} {body : List UInt8} (hstorable : state.Storable)
    (hbody : state.encode = .ok body) (hfits : body.length ≤
      min options.policy.maxJournalRecordBytes.toNat journalHardMaxRecord) :
    Keepable options.policy state := by
  obtain ⟨hleast, hmost⟩ := h.record_le
  refine ⟨hstorable, body, hbody, hfits.trans (min_le_right ..), ?_⟩
  have hrecord := hfits.trans (min_le_left ..)
  rw [length_checkpointImage, h.fourfold]
  have : checkpointHeader = 20 := rfl
  omega

/-- The state of a store that nothing has been written to. -/
theorem keepable_fresh : Keepable options.policy {} := by
  obtain ⟨hleast, hmost⟩ := h.record_le
  have hlength : (DurableState.encode {}).map List.length = .ok 103 := by decide +kernel
  cases hbody : DurableState.encode {} with
  | error e =>
    rw [hbody] at hlength
    cases hlength
  | ok body =>
    rw [hbody] at hlength
    have hlength : body.length = 103 := Except.ok.inj hlength
    refine ⟨⟨⟨rfl, Nat.zero_le _, Nat.zero_le _, Nat.zero_le _, Nat.zero_le _⟩, .nil⟩, body, hbody,
      by rw [hlength]; decide, ?_⟩
    have : checkpointHeader = 20 := rfl
    rw [length_checkpointImage, h.fourfold, hlength]
    omega

end StoreOptions.Sound

/-- A directory that carries a state can be opened. -/
theorem Carries.canOpen {options : StoreOptions} {d : Directory} {checkpoint : Option DurableState}
    {state : DurableState} (hoptions : options.Sound) (h : Carries options d checkpoint state)
    (hopenable : Openable options d.journal) : PodStore.CanOpen options d checkpoint state :=
  ⟨hoptions.valid, h.load, h.logs.stores, hopenable.size, hopenable.repair⟩

/-! ## Opening -/

namespace PodStore

/-- What opening does to the directory: a new journal is given its header, and a journal that was
not empty may be cut, and then ends where a record does. -/
theorem open_writes {options : StoreOptions} {d : Directory} {now : Nanos} {s' : Session}
    (h : («open» now).on (.new options d) = (.ok (), s')) :
    s'.directory = s'.log.foldl Directory.after d ∧
      (d.journal = [] ∧ s'.log = (if d.checkpoint.isNone then
        [.append (encodeJournalHeader journalVersion), .sync] else []) ∨
      d.journal ≠ [] ∧ (s'.log = [] ∨ ∃ n, s'.log = [.truncate n, .sync]) ∧
        Written options.policy.maxJournalRecordBytes.toNat s'.directory.journal
          (scanJournal d.journal options.policy.maxJournalRecordBytes.toNat).records []) := by
  rw [on_open] at h
  cases hpolicy : options.policy.validate with
  | error e =>
    rw [hpolicy] at h
    cases h
  | ok =>
  cases hload : loadCheckpoint options.policy d with
  | error e =>
    rw [hpolicy, hload] at h
    cases h
  | ok checkpoint =>
  have hnone : checkpoint.isNone = d.checkpoint.isNone := by
    unfold loadCheckpoint at hload
    cases hcheckpoint : d.checkpoint with
    | none =>
      rw [hcheckpoint] at hload
      cases hload
      rfl
    | some bytes =>
      rw [hcheckpoint] at hload
      obtain ⟨state, -, rfl⟩ := map_eq_ok.1 hload
      rfl
  rw [hpolicy, hload] at h
  have hreplay := @replay_replayed (loadedSession options d checkpoint)
  simp only [Proc.on_bind] at h
  rcases hon : replay.on (loadedSession options d checkpoint) with ⟨r, s⟩
  rw [hon] at hreplay h
  have hlimit : (loadedSession options d checkpoint).store.recordLimit =
      options.policy.maxJournalRecordBytes.toNat := by
    rw [recordLimit, loadedSession, loaded_options]
  cases hreplay with
  | failed => cases h
  | empty hempty hdid hwrites hsame hstate =>
    obtain ⟨s'', hfinish, hdone, -⟩ := @on_finishOpen s
      (d.journal.isEmpty && checkpoint.isNone) now fun _ => hwrites
    have hjournal : d.journal = [] := hempty
    have hall := hdid.trans hdone
    have hend := hfinish.symm.trans h
    cases hend
    have hlog := hall.log
    rw [hjournal, hnone] at hlog
    refine ⟨?_, .inl ⟨hjournal, by simpa [loadedSession, Session.new] using hlog⟩⟩
    rw [hall.directory, hall.log]
    rfl
  | recovered hne hdid hsame hreplays hstate hops hwritten =>
    have hne : d.journal ≠ [] := hne
    obtain ⟨s'', hfinish, hdone, -⟩ := @on_finishOpen s
      (d.journal.isEmpty && checkpoint.isNone) now fun hfresh => by simp [hne] at hfresh
    have hfresh : (d.journal.isEmpty && checkpoint.isNone) = false := by simp [hne]
    have hall := hdid.trans hdone
    rw [hfresh] at hall hdone
    have hend := hfinish.symm.trans h
    cases hend
    have hlog := hall.log
    have hdirectory := hdone.directory
    simp only [Bool.false_eq_true, if_false, List.append_nil, List.foldl_nil] at hlog hdirectory
    rw [hlimit] at hwritten
    refine ⟨?_, .inr ⟨hne, ?_, ?_⟩⟩
    · rw [hall.directory, hall.log]
      rfl
    · rw [hlog]
      exact hops
    · rw [hdirectory]
      exact hwritten

end PodStore

/-- An empty log leads to the checkpoint's state. -/
theorem Logs.of_nil {limit : ℕ} {checkpoint : Option DurableState} {journal : List UInt8}
    {state : DurableState} (h : Logs limit checkpoint journal state) (hnil : journal = []) :
    state = checkpoint.getD {} := by
  cases h with
  | empty => rfl
  | logged h => exact absurd hnil h.written.ne_nil

/-- What is found in a journal may be the whole of another one. -/
theorem Logs.rewritten {limit : ℕ} {checkpoint : Option DurableState}
    {journal journal' : List UInt8} {state : DurableState}
    (h : Logs limit checkpoint journal state) (hne : journal ≠ [])
    (hwritten : Written limit journal' (scanJournal journal limit).records []) :
    ∃ records r, Logged limit checkpoint journal' [] records r ∧ r.state = state := by
  cases h with
  | empty => exact absurd rfl hne
  | @logged _ tail records r h =>
    rw [(scan_written h.written h.torn).1] at hwritten
    exact ⟨records, r, ⟨hwritten, .inl rfl, h.replay, h.sequences⟩, rfl⟩

/-- A journal with its header and no records. -/
theorem logs_header {limit : ℕ} {checkpoint : Option DurableState} :
    Logs limit checkpoint (encodeJournalHeader journalVersion) (checkpoint.getD {}) :=
  .logged ⟨written_header, .inl rfl, rfl, by simp⟩

section Opening
variable {options : StoreOptions} {d left : Directory} {checkpoint : Option DurableState}
  {state : DurableState} {now : Nanos} {s' : Session}

/-- With the same checkpoint, a journal that holds the state is enough. -/
theorem Carries.of_logs (h : Carries options d checkpoint state)
    (hcheckpoint : left.checkpoint = d.checkpoint)
    (hlogs : Logs options.policy.maxJournalRecordBytes.toNat checkpoint left.journal state) :
    Carries options left checkpoint state where
  load := by
    rw [loadCheckpoint, hcheckpoint]
    exact h.load
  covered := h.covered
  keepable := h.keepable
  logs := hlogs

/-- The journal after opening holds the state, and ends where a record does. -/
theorem Carries.opened (h : Carries options d checkpoint state)
    (hopen : (PodStore.open now).on (.new options d) = (.ok (), s')) :
    Carries options s'.directory checkpoint state ∧ (s'.directory.journal ≠ [] →
      (scanJournal s'.directory.journal options.policy.maxJournalRecordBytes.toNat).status =
        .clean) ∧
      s'.directory.journal.length ≤ max d.journal.length journalHeaderSize := by
  obtain ⟨hdirectory, ⟨hnil, hlog⟩ | ⟨hne, hlog, hwritten⟩⟩ := PodStore.open_writes hopen
  · have hstate := h.logs.of_nil hnil
    rw [hlog] at hdirectory
    split at hdirectory
    · have hjournal : s'.directory.journal = encodeJournalHeader journalVersion := by
        rw [hdirectory]
        simp [Directory.after, hnil]
      have hcheckpoint : s'.directory.checkpoint = d.checkpoint := by rw [hdirectory]; rfl
      have hlogs := @logs_header options.policy.maxJournalRecordBytes.toNat checkpoint
      rw [← hstate, ← hjournal] at hlogs
      refine ⟨h.of_logs hcheckpoint hlogs, fun _ => ?_, ?_⟩
      · rw [hjournal]
        exact (scan_written written_header (.inl rfl)).2.1 rfl
      · rw [hjournal]
        exact le_max_right _ _
    · rw [hdirectory]
      exact ⟨h, fun hne => absurd hnil hne, le_max_left _ _⟩
  · have hcheckpoint : s'.directory.checkpoint = d.checkpoint := by
      rw [hdirectory]
      rcases hlog with hlog | ⟨n, hlog⟩ <;> rw [hlog] <;> rfl
    have hlength : s'.directory.journal.length ≤ d.journal.length := by
      rw [hdirectory]
      rcases hlog with hlog | ⟨n, hlog⟩
      · rw [hlog]
        exact le_rfl
      · rw [hlog]
        exact List.length_take_le' _ _
    obtain ⟨records, r, hlogged, rfl⟩ := h.logs.rewritten hne hwritten
    exact ⟨h.of_logs hcheckpoint (.logged hlogged), fun _ => hlogged.clean,
      hlength.trans (le_max_left _ _)⟩

/-- A crash while the directory is opened leaves the state there. -/
theorem Carries.crash_open {disk : Disk} (h : Carries options disk.view checkpoint state)
    (hopen : (PodStore.open now).on (.new options disk.view) = (.ok (), s'))
    (hsynced : disk.pending = []) (hcrash : disk.Crashes s'.log left)
    (hheader : left.journal = [] ∨ journalHeaderSize ≤ left.journal.length) :
    Carries options left checkpoint state := by
  obtain ⟨hopened, -⟩ := h.opened hopen
  obtain ⟨hdirectory, hlog⟩ := PodStore.open_writes hopen
  have hidle : s'.log = [] → Carries options left checkpoint state := fun hnone => by
    rw [hnone] at hcrash
    rw [hcrash.of_idle hsynced]
    exact h
  rcases hlog with ⟨hnil, hlog⟩ | ⟨hne, hlog | ⟨n, hlog⟩, -⟩
  · split at hlog
    · rw [hlog] at hcrash hdirectory
      obtain ⟨journal, hleft, rfl⟩ := hcrash.of_op (fun _ => rfl) hsynced
      obtain ⟨n, rfl⟩ := hleft.of_append
      have hjournal : s'.directory.journal = encodeJournalHeader journalVersion := by
        rw [hdirectory]
        simp [Directory.after, hnil]
      refine h.of_logs rfl ?_
      rw [hnil, List.nil_append] at hheader ⊢
      rcases hheader with hnone | hwhole
      · have hlogs := h.logs
        rw [hnil] at hlogs
        rwa [hnone]
      · have hlogs := hopened.logs
        rw [hjournal] at hlogs
        rw [List.length_take, length_encodeJournalHeader] at hwhole
        rwa [List.take_of_length_le (by rw [length_encodeJournalHeader]; omega)]
    · exact hidle hlog
  · exact hidle hlog
  · rw [hlog] at hcrash hdirectory
    obtain ⟨journal, hleft, rfl⟩ := hcrash.of_op (fun _ => rfl) hsynced
    refine h.of_logs rfl ?_
    cases hleft with
    | lost => exact h.logs
    | kept hleft =>
      have hlogs := hopened.logs
      rw [hdirectory] at hlogs
      rw [hleft.of_nil]
      exact hlogs

end Opening

/-! ## Compaction -/

namespace PodStore

/-- What a compaction does when no write comes short: all of its plan, or its beginning if the
encoding of the state does not fit a record. -/
def compactOps (store : PodStore) (body : List UInt8) : List DiskOp :=
  if body.length ≤ min store.recordLimit journalHardMaxRecord then store.compactPlan body
  else (store.compactPlan body).take 3

/-- What compaction does to the files. -/
theorem compact_does {s : Session} {body : List UInt8} (hopen : s.store.isOpen = true)
    (hbody : s.store.state.encode = .ok body) (hwrites : s.writes = []) :
    Did s (compact.on s).2 (s.store.compactOps body) s.store.compacted ∧
      (body.length ≤ min s.store.recordLimit journalHardMaxRecord →
        (compact.on s).1 = .ok ()) := by
  unfold compact
  simp only [Proc.on_bind, Proc.on_get, on_attempt, on_perform, on_modifyStore, hopen, hbody,
    encodeCheckpoint_of_encode hbody, ensure, if_true]
  rw [on_fileWrite header_ne_nil]
  simp only [Session.done, hwrites, List.head?_nil, Option.join_none, List.tail_nil]
  by_cases hfits : body.length ≤ min s.store.recordLimit journalHardMaxRecord
  · have hrecord : encodeRecord ⟨⟨s.store.state.sequence⟩, .checkpoint, body⟩
        s.store.recordLimit = .ok (s.store.checkpointRecord body).frame :=
      encodeRecord_eq_ok.2 ⟨hfits, rfl⟩
    simp only [hrecord]
    rw [on_fileWrite JournalRecord.frame_ne_nil]
    simp only [Session.done, List.head?_nil, Option.join_none, List.tail_nil]
    rw [compactOps, if_pos hfits]
    exact ⟨⟨rfl, by simp [compactPlan], rfl⟩, fun _ => trivial⟩
  · have hrecord : ∃ e, encodeRecord ⟨⟨s.store.state.sequence⟩, .checkpoint, body⟩
        s.store.recordLimit = .error e := by
      cases h : encodeRecord ⟨⟨s.store.state.sequence⟩, .checkpoint, body⟩
          s.store.recordLimit with
      | error e => exact ⟨e, rfl⟩
      | ok data => exact absurd (encodeRecord_eq_ok.1 h).1 hfits
    obtain ⟨e, he⟩ := hrecord
    simp only [he]
    rw [compactOps, if_neg hfits]
    exact ⟨⟨rfl, by simp [compactPlan], rfl⟩, fun h => absurd h hfits⟩

end PodStore

section Compaction
variable {options : StoreOptions} {store : PodStore} {d left : Directory}
  {checkpoint : Option DurableState} {state : DurableState} {body journal : List UInt8} {n : ℕ}

/-- The checkpoint of a state, with a journal that holds the state. -/
theorem Keepable.holds (h : Keepable options.policy state) (hbody : state.encode = .ok body)
    (hlogs : Logs options.policy.maxJournalRecordBytes.toNat (some state) journal state) :
    Carries options ⟨some (checkpointImage body), journal⟩ (some state) state := by
  obtain ⟨body', hbody', hhard, hfits⟩ := h.body
  obtain rfl := Except.ok.inj (hbody'.symm.trans hbody)
  refine ⟨?_, fun sequence hsequence => ?_, h, hlogs⟩
  · simp only [loadCheckpoint, decode_checkpointImage hhard hfits,
      DurableState.decode_of_encode h.storable hbody]
    rfl
  · rw [Option.map_some, Option.mem_some_iff] at hsequence
    exact hsequence.ge

/-- The journal that a compaction begins. -/
theorem logged_compacted (hstate : store.state = state)
    (hfits : body.length ≤ min options.policy.maxJournalRecordBytes.toNat journalHardMaxRecord) :
    Logs options.policy.maxJournalRecordBytes.toNat (some state)
      (encodeJournalHeader journalVersion ++ (store.checkpointRecord body).frame.take n) state := by
  subst hstate
  have hheader : Logged options.policy.maxJournalRecordBytes.toNat (some store.state)
      (encodeJournalHeader journalVersion) [] [] (.start (some store.state)) :=
    ⟨written_header, .inl rfl, rfl, by simp⟩
  exact hheader.append_take (Replay.over_skipped rfl le_rfl) hfits (.inr le_rfl)

/-- The directory after a compaction. -/
theorem Carries.compacted (hoptions : options.Sound) (h : Carries options d checkpoint state)
    (hstore : store.options = options) (hstate : store.state = state)
    (hbody : state.encode = .ok body) :
    Carries options ((store.compactOps body).foldl Directory.after d) (some state) state ∧
      (scanJournal ((store.compactOps body).foldl Directory.after d).journal
        options.policy.maxJournalRecordBytes.toNat).status = .clean ∧
      ((store.compactOps body).foldl Directory.after d).journal.length ≤
        (options.policy.maxJournalBytes * 2).toNat := by
  obtain ⟨hleast, hmost⟩ := hoptions.record_le
  have hlimit : store.recordLimit = options.policy.maxJournalRecordBytes.toNat := by
    rw [PodStore.recordLimit, hstore]
  have hsize : journalHeaderSize = 16 ∧ journalRecordPrefixSize = 20 := ⟨rfl, rfl⟩
  unfold PodStore.compactOps
  rw [hlimit, hoptions.twice]
  split
  · next hfits =>
    have hafter : (store.compactPlan body).foldl Directory.after d =
        ⟨some (checkpointImage body),
          encodeJournalHeader journalVersion ++ (store.checkpointRecord body).frame⟩ := rfl
    have hlogs := @logged_compacted _ store _ body (store.checkpointRecord body).frame.length hstate
      hfits
    rw [List.take_length] at hlogs
    rw [hafter]
    refine ⟨h.keepable.holds hbody hlogs, ?_, ?_⟩
    · exact (scan_written (written_header.append hfits) (.inl rfl)).2.1 rfl
    · rw [List.length_append, length_encodeJournalHeader, JournalRecord.length_frame]
      have hpayload : (store.checkpointRecord body).payload.length = body.length := rfl
      have := hfits.trans (min_le_left ..)
      omega
  · have hafter : ((store.compactPlan body).take 3).foldl Directory.after d =
        ⟨some (checkpointImage body), encodeJournalHeader journalVersion⟩ := rfl
    rw [hafter]
    refine ⟨h.keepable.holds hbody logs_header, ?_, ?_⟩
    · exact (scan_written written_header (.inl rfl)).2.1 rfl
    · rw [length_encodeJournalHeader]
      omega

/-- A crash during a compaction leaves a state that was there before, or the one that is
compacted. -/
theorem Keepable.crash_compact {disk : Disk} {cands : DurableState → Prop}
    (h : Keepable options.policy state) (hstore : store.options = options)
    (hstate : store.state = state) (hbody : state.encode = .ok body) (hcand : cands state)
    (hleft : ∀ journal, JournalLeft disk.journal disk.pending journal → ∃ before,
      cands before ∧ before.sequence ≤ state.sequence ∧
        Carries options ⟨disk.checkpoint, journal⟩ checkpoint before)
    (hcrash : disk.Crashes (store.compactOps body) left)
    (hheader : left.journal = [] ∨ journalHeaderSize ≤ left.journal.length) :
    ∃ checkpoint after, cands after ∧ Carries options left checkpoint after := by
  have hlimit : store.recordLimit = options.policy.maxJournalRecordBytes.toNat := by
    rw [PodStore.recordLimit, hstore]
  -- where the encoding does not fit a record, the record that is written is none
  obtain ⟨record, hrecord, hcrash⟩ : ∃ record, (∀ n,
      Logs options.policy.maxJournalRecordBytes.toNat (some state)
        (encodeJournalHeader journalVersion ++ record.take n) state) ∧
      disk.Crashes [.replace (checkpointImage body), .truncate 0,
        .append (encodeJournalHeader journalVersion), .append record, .sync] left := by
    unfold PodStore.compactOps at hcrash
    rw [hlimit] at hcrash
    split at hcrash
    · next hfits => exact ⟨_, fun n => logged_compacted hstate hfits, hcrash⟩
    · refine ⟨[], fun n => ?_, ?_⟩
      · rw [List.take_nil, List.append_nil]
        exact logs_header
      · have hmono := @Disk.Crashes.mono [.append [], .sync] left _ _ hcrash
        exact hmono
  rcases hcrash.compact with ⟨journal, hjournal, rfl | rfl⟩ | ⟨n, rfl | rfl⟩
  · obtain ⟨before, hbefore, -, hholds⟩ := hleft journal hjournal
    exact ⟨checkpoint, before, hbefore, hholds⟩
  · obtain ⟨before, -, hle, hholds⟩ := hleft journal hjournal
    exact ⟨_, state, hcand, h.holds hbody (hholds.logs.superseded hle)⟩
  · refine ⟨_, state, hcand, h.holds hbody ?_⟩
    rcases hheader with hnone | hwhole
    · have hnone : (encodeJournalHeader journalVersion).take n = [] := hnone
      rw [hnone]
      exact .empty
    · rw [List.length_take, length_encodeJournalHeader] at hwhole
      rw [List.take_of_length_le (by rw [length_encodeJournalHeader]; omega)]
      exact logs_header
  · exact ⟨_, state, hcand, h.holds hbody (hrecord n)⟩

end Compaction

/-! ## Commits -/

namespace PodStore

/-- What a commit does when no write comes short: its transaction, and a compaction if the journal
has grown beyond its bound. -/
theorem commit_does {s : Session} {next written : DurableState} {now : Nanos} {body : List UInt8}
    (hwritten : next.stamped s.store.state now = written) (hadmits : s.store.Admits written body)
    (hwrites : s.writes = []) :
    ∃ s' more store', (commit next now).on s = (.ok (), s') ∧
      Did s s' (s.store.commitPlan written body ++ more) store' ∧
      (more = [] ∧ store' = s.store.committed written ∧
          s'.directory.journal.length ≤ s.store.options.policy.maxJournalBytes.toNat ∨
        more = (s.store.committed written).compactOps body ∧
          store' = (s.store.committed written).compacted ∧
          s.store.options.policy.maxJournalBytes.toNat < ((s.store.commitPlan written
            body).foldl Directory.after s.directory).journal.length) := by
  rcases @on_commit s next now with ⟨body', hadmits', hon⟩ | ⟨hnot, -⟩
  swap
  · rw [hwritten] at hnot
    exact absurd hadmits (hnot body)
  rw [hwritten] at hadmits' hon
  obtain rfl := Except.ok.inj (hadmits'.encode.symm.trans hadmits.encode)
  have hdone := @transacted_did s written body'
  have hfirst : s.writes.head?.join = none := by rw [hwrites]; rfl
  have hsecond : s.writes.tail.head?.join = none := by rw [hwrites]; rfl
  have hrest : (transacted s written body').writes = [] := by
    unfold transacted
    dsimp only [Session.done]
    split <;> rw [hwrites] <;> rfl
  rw [hon, on_transact hfirst hsecond, on_settle]
  have hdid : Did s { transacted s written body' with
      store := (transacted s written body').store.committed written }
      (s.store.commitPlan written body') (s.store.committed written) :=
    ⟨hdone.directory, hdone.log, by rw [hdone.store]⟩
  split
  · next hlarge =>
    rw [hdone.directory] at hlarge
    have hcompact := @compact_does { transacted s written body' with
        store := (transacted s written body').store.committed written } body'
      (by rw [hdone.store]; exact hadmits.isOpen) hadmits.encode hrest
    have hok := hcompact.2 (by rw [hdone.store]; exact hadmits.fits)
    have hall := hdid.trans hcompact.1
    rw [hdone.store] at hall hok
    refine ⟨_, _, _, ?_, hall, .inr ⟨rfl, rfl, hlarge⟩⟩
    rw [hdone.store, ← hok]
  · next hsmall =>
    refine ⟨_, [], _, rfl, by rwa [List.append_nil], .inl ⟨rfl, rfl, ?_⟩⟩
    exact Nat.le_of_not_lt hsmall

end PodStore

section Commits
variable {options : StoreOptions} {store : PodStore} {d left : Directory} {disk : Disk}
  {checkpoint : Option DurableState} {state next : DurableState} {body : List UInt8}
  {more : List DiskOp}

/-- A commit that can be recovered: the journal is not empty, and the state is one that is read
back, with a number of its own. -/
structure Committable (options : StoreOptions) (d : Directory) (checkpoint : Option DurableState)
    (state next : DurableState) (body : List UInt8) : Prop where
  holds : Carries options d checkpoint state
  logged : ∃ records r, Logged options.policy.maxJournalRecordBytes.toNat checkpoint d.journal []
    records r ∧ r.state = state
  encode : next.encode = .ok body
  fits : body.length ≤ min options.policy.maxJournalRecordBytes.toNat journalHardMaxRecord
  storable : next.Storable
  later : state.sequence < next.sequence

namespace Committable

/-- The checkpoint is behind the state to be committed. -/
theorem covered (h : Committable options d checkpoint state next body) :
    ∀ sequence ∈ checkpoint.map DurableState.sequence, sequence < next.sequence :=
  fun sequence hsequence => lt_of_le_of_lt (h.holds.covered sequence hsequence) h.later

/-- When the record is whole, the directory carries the new state. -/
theorem holds_next (hoptions : options.Sound)
    (h : Committable options d checkpoint state next body) (hcheckpoint : left.checkpoint =
      d.checkpoint) (hlogs : Logs options.policy.maxJournalRecordBytes.toNat checkpoint
        left.journal next) : Carries options left checkpoint next where
  load := by
    rw [loadCheckpoint, hcheckpoint]
    exact h.holds.load
  covered := fun sequence hsequence => (h.covered sequence hsequence).le
  keepable := hoptions.keepable h.storable h.encode h.fits
  logs := hlogs

/-- The directory after the transaction. -/
theorem committed (hoptions : options.Sound)
    (h : Committable options d checkpoint state next body) :
    Carries options ((store.commitPlan next body).foldl Directory.after d) checkpoint next ∧
      (scanJournal ((store.commitPlan next body).foldl Directory.after d).journal
        options.policy.maxJournalRecordBytes.toNat).status = .clean := by
  obtain ⟨records, r, hlogged, rfl⟩ := h.logged
  have hafter : (store.commitPlan next body).foldl Directory.after d = { d with
      journal := d.journal ++ (next.beginRecord body).frame ++ next.commitRecord.frame } := by
    rw [PodStore.commitPlan]
    split <;> rfl
  obtain ⟨r', hlogged', rfl⟩ := hlogged.commit h.covered
    (DurableState.decode_of_encode h.storable h.encode) h.fits h.later
  rw [hafter]
  exact ⟨h.holds_next hoptions rfl (.logged hlogged'), hlogged'.clean⟩

/-- A crash during the transaction leaves the state before it or after it. -/
theorem crash_plan (hoptions : options.Sound)
    (h : Committable options disk.view checkpoint state next body) (hsynced : disk.pending = [])
    (hcrash : disk.Crashes (store.commitPlan next body) left) :
    ∃ after, (after = state ∨ after = next) ∧ Carries options left checkpoint after := by
  obtain ⟨records, r, hlogged, rfl⟩ := h.logged
  obtain ⟨journal, hjournal, rfl⟩ : ∃ journal, JournalLeft disk.view.journal
      [.append (next.beginRecord body).frame, .append next.commitRecord.frame] journal ∧
        left = ⟨disk.view.checkpoint, journal⟩ := by
    have hsync : disk.Crashes
        [.append (next.beginRecord body).frame, .append next.commitRecord.frame] left := by
      unfold PodStore.commitPlan at hcrash
      split at hcrash
      · exact hcrash.of_sync
      · rwa [List.append_nil] at hcrash
    obtain ⟨journal, hjournal, hleft⟩ := hsync.of_pending (by simp [Disk.after])
    rw [hsynced] at hjournal
    rw [Disk.view, hsynced]
    exact ⟨journal, hjournal, hleft⟩
  rcases hlogged.commit_left h.covered (DurableState.decode_of_encode h.storable h.encode) h.fits
    h.later hjournal with hlogs | hlogs
  · exact ⟨_, .inl rfl, h.holds.of_logs rfl hlogs⟩
  · exact ⟨_, .inr rfl, h.holds_next hoptions rfl hlogs⟩

/-- A crash during a commit leaves the state before it or after it. -/
theorem crash (hoptions : options.Sound) (hstore : store.options = options)
    (h : Committable options disk.view checkpoint state next body) (hsynced : disk.pending = [])
    (hmore : more = [] ∨ more = (store.committed next).compactOps body)
    (hcrash : disk.Crashes (store.commitPlan next body ++ more) left)
    (hheader : left.journal = [] ∨ journalHeaderSize ≤ left.journal.length) :
    ∃ checkpoint after, (after = state ∨ after = next) ∧ Carries options left checkpoint after := by
  rcases hcrash.append with hcrash | hcrash
  · exact ⟨_, h.crash_plan hoptions hsynced hcrash⟩
  rcases hmore with rfl | rfl
  · exact ⟨_, h.crash_plan hoptions hsynced (.of_end hcrash)⟩
  · have hleft : ∀ journal, JournalLeft ((store.commitPlan next body).foldl Disk.after disk).journal
        ((store.commitPlan next body).foldl Disk.after disk).pending journal → ∃ before,
          (before = state ∨ before = next) ∧ before.sequence ≤ next.sequence ∧ Carries options
            ⟨((store.commitPlan next body).foldl Disk.after disk).checkpoint, journal⟩ checkpoint
              before := fun journal hjournal => by
      obtain ⟨before, hbefore, hholds⟩ :=
        h.crash_plan hoptions hsynced (Disk.Crashes.of_end (.now hjournal))
      refine ⟨before, hbefore, ?_, hholds⟩
      rcases hbefore with rfl | rfl
      · exact h.later.le
      · exact le_rfl
    have hstore : (store.committed next).options = options := hstore
    exact (hoptions.keepable h.storable h.encode h.fits).crash_compact hstore rfl h.encode
      (.inr rfl) hleft hcrash hheader

end Committable

end Commits

end PodFabric
