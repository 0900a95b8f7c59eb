import PodFabric.Persist.Run
import PodFabric.Proof.Reopen

/-!
# Transactions that are rolled back

Opening a store rolls back a transaction that was begun and never committed, and reports it. The
record that began it stays in the journal: every later opening finds it there, and reports it again,
until the journal is begun anew by a compaction (`rollback_reported_iff`).
-/

namespace PodFabric

/-! ## What a replay finds -/

/-- A transaction was found that was never committed. -/
def Replay.unsettled (r : Replay) : Bool := r.ambiguous || r.openTxn ≠ 0

/-- A transaction that is written whole changes nothing about the ones before it. -/
theorem Replay.over_transaction {checkpoint : Option DurableState} {records : List JournalRecord}
    {state : DurableState} {body : List UInt8} {r' : Replay}
    (h : Replay.over checkpoint (records ++ [state.beginRecord body, state.commitRecord]) =
      .ok r') :
    ∃ r, Replay.over checkpoint records = .ok r ∧ r'.unsettled = r.unsettled := by
  rw [Replay.over, Replay.records, List.foldlM_append] at h
  cases hr : Replay.over checkpoint records with
  | error e =>
    rw [Replay.over, Replay.records] at hr
    rw [hr] at h
    cases h
  | ok r =>
    refine ⟨r, rfl, ?_⟩
    rw [Replay.over, Replay.records] at hr
    rw [hr] at h
    change [state.beginRecord body, state.commitRecord].foldlM
      (Replay.record (checkpoint.map DurableState.sequence)) r = .ok r' at h
    simp only [List.foldlM_cons, List.foldlM_nil] at h
    by_cases hskipped : ∃ sequence ∈ checkpoint.map DurableState.sequence,
        state.sequence ≤ sequence
    · rw [Replay.record, DurableState.beginRecord, if_pos hskipped] at h
      simp only [bind, Except.bind] at h
      rw [Replay.record, DurableState.commitRecord, if_pos hskipped] at h
      simp only [pure, Except.pure, Except.ok.injEq] at h
      rw [← h]
      rfl
    · rw [Replay.record, DurableState.beginRecord, if_neg hskipped] at h
      simp only [bind, Except.bind] at h
      rw [Replay.record, DurableState.commitRecord, if_neg hskipped] at h
      simp only [ne_eq, not_true_eq_false, if_false, Replay.apply] at h
      cases hdecode : DurableState.decode body with
      | error e =>
        rw [hdecode] at h
        cases h
      | ok decoded =>
        rw [hdecode] at h
        simp only [Except.map, pure, Except.pure, Except.ok.injEq] at h
        rw [← h]
        simp [Replay.unsettled]

/-! ## What opening reports -/

namespace PodStore

/-- The outcome of a recovery from an intact journal. -/
def outcomeOf (checkpoint : Bool) (r : Replay) : RecoveryOutcome :=
  if r.unsettled then .ambiguousCommitRolledBack
  else if checkpoint ∨ 0 < r.applied then .clean else .fresh

/-- What the end of a replay reports. -/
theorem finishReplay_reports {s s' : Session} {scan : JournalScan} {r : Replay}
    (h : (finishReplay scan r).on s = (.ok (), s')) :
    s'.store.recovery.ambiguousCommit = r.unsettled ∧
      (scan.status = .clean → s'.directory = s.directory ∧
        s'.store.recovery.outcome = outcomeOf s.store.haveCheckpoint r) := by
  unfold finishReplay at h
  simp only [Proc.on_bind, Proc.on_get, on_modifyStore, on_modifyReport] at h
  by_cases hclean : scan.status = .clean
  · rw [if_pos hclean, on_modifyReport, Prod.mk.injEq] at h
    obtain ⟨-, rfl⟩ := h
    unfold outcomeOf Replay.unsettled
    split <;> simp_all
  · rw [if_neg hclean] at h
    by_cases hrepair : s.store.options.repairTornTail = true
    · simp only [Proc.on_bind, on_attempt, ensure, hrepair, if_true, on_perform, on_modifyReport,
        Prod.mk.injEq, true_and] at h
      rw [← h]
      exact ⟨rfl, fun hstatus => absurd hstatus hclean⟩
    · simp only [Proc.on_bind, on_attempt, ensure, hrepair] at h
      cases congrArg Prod.fst h

/-- What a replay reports. -/
theorem replay_reports {s s' : Session} (h : replay.on s = (.ok (), s'))
    (hne : s.directory.journal ≠ []) :
    ∃ r, s.store.replayStart.records s.store.covered
        (scanJournal s.directory.journal s.store.recordLimit).records = .ok r ∧
      s'.store.recovery.ambiguousCommit = r.unsettled ∧
      ((scanJournal s.directory.journal s.store.recordLimit).status = .clean →
        s'.directory = s.directory ∧
          s'.store.recovery.outcome = outcomeOf s.store.haveCheckpoint r) := by
  unfold replay at h
  simp only [Proc.on_bind, Proc.on_get] at h
  rw [if_neg (mt List.length_eq_zero_iff.1 hne)] at h
  simp only [Proc.on_bind, on_attempt] at h
  by_cases hsize : s.directory.journal.length ≤ (s.store.options.policy.maxJournalBytes * 2).toNat
  swap
  · simp only [ensure, if_neg hsize] at h
    cases congrArg Prod.fst h
  simp only [ensure, if_pos hsize] at h
  generalize scanJournal s.directory.journal s.store.recordLimit = scan at *
  by_cases hsupported : scan.status = .unsupportedVersion
  · simp only [hsupported] at h
    cases congrArg Prod.fst h
  simp only [ne_eq, hsupported, not_false_eq_true, if_true] at h
  by_cases hcorrupt : scan.status = .corrupt ∨ scan.status = .oversizedRecord
  · rw [if_pos hcorrupt] at h
    cases congrArg Prod.fst h
  rw [if_neg hcorrupt] at h
  simp only [Proc.on_bind, on_modifyReport] at h
  cases hloop : s.store.replayStart.records s.store.covered scan.records with
  | error fault =>
    obtain ⟨e, he⟩ := @abandonReplay_fails { s with store := { s.store with recovery :=
      { s.store.recovery with
        recordsScanned := scan.records.length, discardedBytes := scan.discardedBytes } } }
      fault.1 fault.2
    rw [hloop] at h
    rw [congrArg Prod.fst h] at he
    cases he
  | ok r =>
    rw [hloop] at h
    have hreports := @finishReplay_reports { s with store := { s.store with recovery :=
      { s.store.recovery with
        recordsScanned := scan.records.length, discardedBytes := scan.discardedBytes } } } s' scan r
    exact ⟨r, rfl, hreports h⟩

/-- A store has a checkpoint when one was loaded. -/
theorem loaded_haveCheckpoint {options : StoreOptions} {checkpoint : Option DurableState} :
    (({ options } : PodStore).loaded checkpoint).haveCheckpoint = checkpoint.isSome := by
  cases checkpoint <;> rfl

/-- What opening leaves and reports over a journal that is not empty. -/
theorem open_reports {options : StoreOptions} {d : Directory} {now : Nanos} {s' : Session}
    (h : («open» now).on (.new options d) = (.ok (), s')) (hne : d.journal ≠ []) :
    ∃ checkpoint r, loadCheckpoint options.policy d = .ok checkpoint ∧
      Replay.over checkpoint
        (scanJournal d.journal options.policy.maxJournalRecordBytes.toNat).records = .ok r ∧
      Written options.policy.maxJournalRecordBytes.toNat s'.directory.journal
        (scanJournal d.journal options.policy.maxJournalRecordBytes.toNat).records [] ∧
      s'.store.recovery.ambiguousCommit = r.unsettled ∧
      ((scanJournal d.journal options.policy.maxJournalRecordBytes.toNat).status = .clean →
        s'.directory = d ∧ s'.store.recovery.outcome = outcomeOf checkpoint.isSome r) := by
  rw [on_open] at h
  cases hpolicy : options.policy.validate with
  | error e =>
    rw [hpolicy] at h
    cases congrArg Prod.fst h
  | ok u =>
  cases hload : loadCheckpoint options.policy d with
  | error e =>
    simp only [hpolicy, hload] at h
    cases congrArg Prod.fst h
  | ok checkpoint =>
  simp only [hpolicy, hload, Proc.on_bind] at h
  have hfresh : (d.journal.isEmpty && checkpoint.isNone) = false := by simp [hne]
  have hreplayed := @replay_replayed (loadedSession options d checkpoint)
  rcases hon : replay.on (loadedSession options d checkpoint) with ⟨x, s⟩
  rw [hon] at h hreplayed
  cases x with
  | error e => cases congrArg Prod.fst h
  | ok u =>
    obtain ⟨r, hreplays, hambiguous, hclean⟩ := replay_reports hon hne
    have hlimit : (loadedSession options d checkpoint).store.recordLimit =
        options.policy.maxJournalRecordBytes.toNat := by
      rw [recordLimit, loadedSession, loaded_options]
    have hjournal : (loadedSession options d checkpoint).directory = d := rfl
    have hcheckpoint : (loadedSession options d checkpoint).store.haveCheckpoint =
        checkpoint.isSome := loaded_haveCheckpoint
    rw [hlimit, hjournal] at hreplays hclean
    rw [hcheckpoint] at hclean
    rw [loadedSession, loaded_replayStart, loaded_covered] at hreplays
    rw [hfresh] at h
    obtain ⟨-, rfl⟩ := Prod.mk.inj h
    refine ⟨checkpoint, r, rfl, hreplays, ?_, hambiguous, hclean⟩
    cases hreplayed with
    | empty hempty => exact absurd hempty hne
    | recovered _ _ _ _ _ _ hwritten =>
      rw [hlimit, hjournal] at hwritten
      exact hwritten

/-- A transaction can only be rolled back where there is a journal. -/
theorem journal_of_ambiguous {options : StoreOptions} {d : Directory} {now : Nanos} {s' : Session}
    (h : («open» now).on (.new options d) = (.ok (), s'))
    (hambiguous : s'.store.recovery.ambiguousCommit = true) : d.journal ≠ [] := by
  intro hempty
  rw [on_open] at h
  cases hpolicy : options.policy.validate with
  | error e =>
    rw [hpolicy] at h
    cases congrArg Prod.fst h
  | ok u =>
  cases hload : loadCheckpoint options.policy d with
  | error e =>
    simp only [hpolicy, hload] at h
    cases congrArg Prod.fst h
  | ok checkpoint =>
  have hlength : (loadedSession options d checkpoint).directory.journal.length = 0 :=
    List.length_eq_zero_iff.2 hempty
  simp only [hpolicy, hload, Proc.on_bind] at h
  unfold replay at h
  simp only [Proc.on_bind, Proc.on_get] at h
  rw [if_pos hlength, on_modifyReport] at h
  obtain ⟨s, hfinish, -, hstore⟩ := @on_finishOpen { loadedSession options d checkpoint with
    store := { (loadedSession options d checkpoint).store with recovery :=
      { (loadedSession options d checkpoint).store.recovery with
        outcome := if (loadedSession options d checkpoint).store.haveCheckpoint then .clean
          else .fresh
        lastSequence := ⟨(loadedSession options d checkpoint).store.checkpointSequence⟩ } } }
    (d.journal.isEmpty && checkpoint.isNone) now fun _ => rfl
  obtain ⟨-, rfl⟩ := Prod.mk.inj (hfinish.symm.trans h)
  rw [hstore] at hambiguous
  have hnone : (loadedSession options d checkpoint).store.recovery.ambiguousCommit = false := by
    cases checkpoint <;> rfl
  rw [hnone] at hambiguous
  cases hambiguous

/-- A replay changes nothing of a directory whose journal is intact, even if it fails. -/
theorem replay_frame {s : Session} (hne : s.directory.journal ≠ [])
    (hclean : (scanJournal s.directory.journal s.store.recordLimit).status = .clean) :
    (replay.on s).2.directory = s.directory ∧
      (replay.on s).2.store.options = s.store.options := by
  unfold replay
  simp only [Proc.on_bind, Proc.on_get]
  rw [if_neg (mt List.length_eq_zero_iff.1 hne)]
  simp only [Proc.on_bind, on_attempt]
  by_cases hsize : s.directory.journal.length ≤ (s.store.options.policy.maxJournalBytes * 2).toNat
  swap
  · simp only [ensure, if_neg hsize]
    trivial
  simp only [ensure, if_pos hsize]
  generalize scanJournal s.directory.journal s.store.recordLimit = scan at *
  simp only [hclean, ne_eq, reduceCtorEq, not_false_eq_true, if_true, or_self, if_false]
  simp only [Proc.on_bind, on_modifyReport]
  cases s.store.replayStart.records s.store.covered scan.records with
  | error fault =>
    obtain ⟨r, fault⟩ := fault
    unfold abandonReplay
    simp only [Proc.on_bind, on_modifyStore]
    cases fault <;> exact ⟨rfl, rfl⟩
  | ok r =>
    unfold finishReplay
    simp only [Proc.on_bind, Proc.on_get, on_modifyStore, on_modifyReport]
    rw [if_pos hclean, on_modifyReport]
    exact ⟨rfl, rfl⟩

/-- Opening changes nothing of a directory whose journal is intact, even if it fails. -/
theorem open_frame {options : StoreOptions} {d : Directory} {now : Nanos} (hne : d.journal ≠ [])
    (hclean : (scanJournal d.journal options.policy.maxJournalRecordBytes.toNat).status = .clean) :
    ((«open» now).on (.new options d)).2.directory = d ∧
      ((«open» now).on (.new options d)).2.store.options = options := by
  rw [on_open]
  cases options.policy.validate with
  | error e => exact ⟨rfl, rfl⟩
  | ok u =>
  cases loadCheckpoint options.policy d with
  | error e => exact ⟨rfl, rfl⟩
  | ok checkpoint =>
  have hoptions : (loadedSession options d checkpoint).store.options = options := by
    rw [loadedSession, loaded_options]
  have hframe := @replay_frame (loadedSession options d checkpoint) hne
    (by rw [recordLimit, hoptions]; exact hclean)
  have hfresh : (d.journal.isEmpty && checkpoint.isNone) = false := by simp [hne]
  simp only [Proc.on_bind, hfresh]
  rw [hoptions] at hframe
  generalize replay.on (loadedSession options d checkpoint) = ended at hframe
  rcases ended with ⟨x, s⟩
  cases x <;> exact hframe

end PodStore

/-! ## What the next opening finds -/

/-- The journal is intact, and a replay of it finds a transaction that was never committed, or finds
none after a checkpoint. -/
structure Session.Finds (s : Session) (unsettled : Bool) : Prop where
  journal : ∃ records, Written s.store.recordLimit s.directory.journal records [] ∧
    ∀ checkpoint r, loadCheckpoint s.store.options.policy s.directory = .ok checkpoint →
      Replay.over checkpoint records = .ok r → r.unsettled = unsettled
  checkpoint : unsettled = false → s.directory.checkpoint.isSome

section Finds
variable {s s' : Session} {unsettled : Bool} {body : List UInt8} {state : DurableState}

/-- Only the options and the directory count. -/
theorem Session.Finds.congr (h : s.Finds unsettled)
    (hoptions : s'.store.options = s.store.options) (hdirectory : s'.directory = s.directory) :
    s'.Finds unsettled := by
  obtain ⟨⟨records, hwritten, hfinds⟩, hcheckpoint⟩ := h
  rw [PodStore.recordLimit, ← hoptions, ← hdirectory] at hwritten
  rw [← hoptions, ← hdirectory] at hfinds
  rw [← hdirectory] at hcheckpoint
  exact ⟨⟨records, hwritten, hfinds⟩, hcheckpoint⟩

/-- A transaction that is written whole does not change what is found. -/
theorem Session.Finds.transaction (h : s.Finds unsettled)
    (hfits : body.length ≤ min s.store.recordLimit journalHardMaxRecord)
    (hoptions : s'.store.options = s.store.options)
    (hdirectory : s'.directory = { s.directory with journal :=
      s.directory.journal ++ (state.beginRecord body).frame ++ state.commitRecord.frame }) :
    s'.Finds unsettled := by
  obtain ⟨⟨records, hwritten, hfinds⟩, hcheckpoint⟩ := h
  have hbegun : Written s.store.recordLimit _ (records ++ [state.beginRecord body]) [] :=
    hwritten.append hfits
  have hlanded : Written s.store.recordLimit _
      (records ++ [state.beginRecord body] ++ [state.commitRecord]) [] :=
    hbegun.append (Nat.zero_le _)
  rw [List.append_assoc records] at hlanded
  have hlimit : s'.store.recordLimit = s.store.recordLimit := by
    rw [PodStore.recordLimit, hoptions]
    rfl
  refine ⟨⟨_, by rw [hlimit, hdirectory]; exact hlanded, fun checkpoint r hload hr => ?_⟩,
    by rw [hdirectory]; exact hcheckpoint⟩
  obtain ⟨r', hr', hsame⟩ := Replay.over_transaction hr
  rw [hsame]
  have hload : loadCheckpoint s.store.options.policy s.directory = .ok checkpoint := by
    rw [← hload, hoptions, hdirectory]
    rfl
  exact hfinds checkpoint r' hload hr'

/-- What opening rolled back is found again. -/
theorem finds_of_open {options : StoreOptions} {d : Directory} {now : Nanos}
    (h : (PodStore.open now).on (.new options d) = (.ok (), s))
    (hambiguous : s.store.recovery.ambiguousCommit = true) : s.Finds true := by
  obtain ⟨checkpoint', hopened⟩ := PodStore.opened_of_open h
  obtain ⟨checkpoint, r, hload, hreplay, hwritten, hreports, -⟩ :=
    PodStore.open_reports h (PodStore.journal_of_ambiguous h hambiguous)
  rw [hambiguous] at hreports
  generalize (scanJournal d.journal options.policy.maxJournalRecordBytes.toNat).records = records
    at hreplay hwritten
  refine ⟨⟨records, ?_, fun checkpoint'' r'' hload'' hreplay'' => ?_⟩, by simp⟩
  · rw [PodStore.recordLimit, hopened.sameOptions]
    exact hwritten
  · have hsame : loadCheckpoint s.store.options.policy s.directory =
        loadCheckpoint options.policy d := by
      rw [hopened.sameOptions, loadCheckpoint, hopened.sameCheckpoint]
      rfl
    rw [hsame, hload, Except.ok.injEq] at hload''
    subst hload''
    rw [hreplay, Except.ok.injEq] at hreplay''
    rw [← hreplay'', hreports]

/-- A replay that has not gone through a transaction finds none. -/
theorem Replay.over_checkpoint {checkpoint : Option DurableState} {record : JournalRecord}
    {r : Replay} (htype : record.type = .checkpoint)
    (h : Replay.over checkpoint [record] = .ok r) : r.unsettled = false := by
  rw [Replay.over, Replay.records] at h
  simp only [List.foldlM_cons, List.foldlM_nil] at h
  rw [Replay.record] at h
  have hstart : (Replay.start checkpoint).openTxn = 0 := rfl
  split at h
  · simp only [bind, Except.bind, pure, Except.pure, Except.ok.injEq] at h
    rw [← h]
    rfl
  · simp only [htype, hstart, ne_eq, not_true_eq_false, if_false, Replay.apply] at h
    cases hdecode : DurableState.decode record.payload with
    | error e =>
      rw [hdecode] at h
      cases h
    | ok state =>
      rw [hdecode] at h
      simp only [bind, Except.bind, pure, Except.pure, Except.ok.injEq] at h
      rw [← h]
      rfl

/-- The writes that are complete go through. -/
theorem head_of_complete {writes : List (Option ℕ)} (h : ∀ write ∈ writes, write = none) :
    writes.head?.join = none := by
  cases writes with
  | nil => rfl
  | cons write writes => exact congrArg Option.join (congrArg some (h write List.mem_cons_self))

/-- After a compaction nothing is found. -/
theorem compact_finds (hcomplete : ∀ write ∈ s.writes, write = none)
    (hopen : s.store.isOpen = true) (hbody : s.store.state.encode = .ok body) :
    ((PodStore.compact.on s).2).Finds false := by
  have hfirst := head_of_complete hcomplete
  have hsecond := head_of_complete fun write h => hcomplete write (List.mem_of_mem_tail h)
  unfold PodStore.compact
  simp only [Proc.on_bind, Proc.on_get, on_attempt, on_perform, on_modifyStore, hopen, hbody,
    encodeCheckpoint_of_encode hbody, ensure, if_true]
  rw [on_fileWrite PodStore.header_ne_nil]
  dsimp only [Session.done]
  rw [hfirst]
  dsimp only
  cases hrecord : encodeRecord ⟨⟨s.store.state.sequence⟩, .checkpoint, body⟩
      s.store.recordLimit with
  | error e =>
    refine ⟨⟨[], ?_, fun checkpoint r _ hr => ?_⟩, fun _ => rfl⟩
    · exact written_header
    · cases hr
      rfl
  | ok data =>
    obtain ⟨hfits, rfl⟩ := encodeRecord_eq_ok.1 hrecord
    dsimp only
    rw [on_fileWrite JournalRecord.frame_ne_nil, hsecond]
    refine ⟨⟨[s.store.checkpointRecord body], ?_, fun checkpoint r _ hr =>
      Replay.over_checkpoint (show (s.store.checkpointRecord body).type = .checkpoint from rfl) hr⟩,
      fun _ => rfl⟩
    have hwritten : Written s.store.recordLimit _ ([] ++ [s.store.checkpointRecord body]) [] :=
      written_header.append hfits
    exact hwritten

/-- A compaction that cannot begin changes nothing. -/
theorem compact_refused
    (h : ¬ (s.store.isOpen = true ∧ ∃ body, s.store.state.encode = .ok body)) :
    (PodStore.compact.on s).2 = s := by
  unfold PodStore.compact
  simp only [Proc.on_bind, Proc.on_get, on_attempt]
  by_cases hopen : s.store.isOpen = true
  · cases hbody : s.store.state.encode with
    | error e => simp [ensure, hopen, encodeCheckpoint, hbody, bind, Except.bind]
    | ok body => exact absurd ⟨hopen, body, hbody⟩ h
  · simp [ensure, hopen]

end Finds

/-! ## Histories -/

/-- No write of the call to the journal comes short. -/
def StoreCall.Complete (call : StoreCall) : Prop := ∀ write ∈ call.writes, write = none

namespace Session

/-- The call compacts the journal: it is asked to, or the journal with its transaction is over the
bound. -/
def Compacts (s : Session) : StoreCall → Prop
  | .commit call => ∃ body, s.store.Admits (s.written call) body ∧
      s.store.options.policy.maxJournalBytes.toNat < s.directory.journal.length +
        ((s.written call).beginRecord body).frame.length +
          (s.written call).commitRecord.frame.length
  | .compact _ => s.store.isOpen = true ∧ ∃ body, s.store.state.encode = .ok body
  | .reopen _ => False

section Calls
variable {s : Session} {unsettled : Bool} {call : StoreCall}

/-- How a commit whose writes are complete goes on from its transaction. -/
theorem on_commit_complete {call : CommitCall} {body : List UInt8}
    (hcomplete : (StoreCall.commit call).Complete)
    (hadmits : s.store.Admits (s.written call) body) :
    s.commit call = (PodStore.settle s.store (s.written call)).on
      (PodStore.transacted { s with writes := call.writes } (s.written call) body) := by
  have hsecond := head_of_complete fun write h => hcomplete write (List.mem_of_mem_tail h)
  rcases @PodStore.on_commit { s with writes := call.writes } call.next call.now with
    ⟨body', hadmits', hon⟩ | ⟨hnot, -⟩
  · have hsame : body' = body := Except.ok.inj (hadmits'.encode.symm.trans hadmits.encode)
    rw [hsame] at hon
    exact hon.trans (PodStore.on_transact (head_of_complete hcomplete) hsecond)
  · exact absurd hadmits (hnot body)

/-- A commit that is refused leaves the store and the directory. -/
theorem on_commit_refused {call : CommitCall}
    (hnot : ∀ body, ¬ s.store.Admits (s.written call) body) :
    (s.commit call).2 = { s with writes := call.writes } := by
  rcases @PodStore.on_commit { s with writes := call.writes } call.next call.now with
    ⟨body, hadmits, -⟩ | ⟨-, e, hon⟩
  · exact absurd hadmits (hnot body)
  · exact congrArg Prod.snd hon

/-- The directory once a transaction has been written. -/
theorem transacted_directory {next : DurableState} {body : List UInt8} :
    (PodStore.transacted s next body).directory = { s.directory with journal :=
      s.directory.journal ++ (next.beginRecord body).frame ++ next.commitRecord.frame } := by
  rw [PodStore.transacted_did.directory, PodStore.commitPlan]
  split <;> rfl

/-- A call that ends well, with its session. -/
theorem eq_of_ok {x : Except Status Unit × Session} (h : x.1 = .ok ()) : x = (.ok (), x.2) := by
  rw [← h]

/-- An open store whose state can be encoded compacts. -/
theorem compacts_of_encodes {writes : List (Option ℕ)} (hopen : s.store.isOpen = true)
    (hencodes : s.store.state.encode.isOk = true) : s.Compacts (.compact writes) := by
  refine ⟨hopen, ?_⟩
  cases hbody : s.store.state.encode with
  | error e =>
    rw [hbody] at hencodes
    cases hencodes
  | ok body => exact ⟨body, rfl⟩

/-- A call that compacts leaves nothing to be found. -/
theorem Compacts.finds (h : s.Compacts call) (hcomplete : call.Complete) :
    (s.after call).Finds false := by
  cases call with
  | reopen now => exact absurd h id
  | compact writes =>
    obtain ⟨hopen, body, hbody⟩ := h
    have hfinds := @compact_finds { s with writes := writes } body hcomplete hopen hbody
    exact hfinds
  | commit call =>
    obtain ⟨body, hadmits, hover⟩ := h
    have hdone := @PodStore.transacted_did { s with writes := call.writes } (s.written call) body
    have hdirectory := @transacted_directory { s with writes := call.writes } (s.written call) body
    rw [after, serve, on_commit_complete hcomplete hadmits, PodStore.on_settle, if_pos]
    swap
    · rw [hdirectory]
      simpa only [List.length_append] using hover
    refine @compact_finds _ body (fun write h => ?_) (by rw [hdone.store]; exact hadmits.isOpen)
      hadmits.encode
    refine hcomplete write (List.mem_of_mem_tail (List.mem_of_mem_tail ?_))
    unfold PodStore.transacted at h
    dsimp only at h
    split at h <;> exact h

/-- Every other call with complete writes leaves what there is to be found. -/
theorem Finds.after (h : s.Finds unsettled) (hcomplete : call.Complete)
    (hnot : ¬ s.Compacts call) : (s.after call).Finds unsettled := by
  cases call with
  | reopen now =>
    obtain ⟨records, hwritten, -⟩ := h.journal
    have hclean := (scan_written hwritten (.inl rfl)).2.1 rfl
    obtain ⟨hdirectory, hoptions⟩ := @PodStore.open_frame s.store.options s.directory now
      hwritten.ne_nil hclean
    exact h.congr hoptions hdirectory
  | compact writes =>
    have hsame := @compact_refused { s with writes := writes } hnot
    rw [Session.after, serve, hsame]
    exact h.congr rfl rfl
  | commit call =>
    by_cases hadmits : ∃ body, s.store.Admits (s.written call) body
    swap
    · rw [Session.after, serve, on_commit_refused (not_exists.1 hadmits)]
      exact h.congr rfl rfl
    obtain ⟨body, hadmits⟩ := hadmits
    have hdone := @PodStore.transacted_did { s with writes := call.writes } (s.written call) body
    have hdirectory := @transacted_directory { s with writes := call.writes } (s.written call) body
    rw [Session.after, serve, on_commit_complete hcomplete hadmits, PodStore.on_settle, if_neg]
    · refine h.transaction hadmits.fits ?_ hdirectory
      rw [hdone.store]
      rfl
    · intro hover
      refine hnot ⟨body, hadmits, ?_⟩
      rw [hdirectory] at hover
      simpa only [List.length_append] using hover

/-- What the next opening reports. -/
theorem Finds.reports {s' : Session} {now : Nanos} (h : s.Finds unsettled)
    (hreopen : s.reopen now = (.ok (), s')) :
    s'.store.recovery.ambiguousCommit = unsettled ∧
      (unsettled = false → s'.store.recovery.outcome = .clean) := by
  obtain ⟨⟨records, hwritten, hfinds⟩, hcheckpoint⟩ := h
  obtain ⟨checkpoint, r, hload, hreplay, -, hambiguous, hsame⟩ :=
    PodStore.open_reports hreopen hwritten.ne_nil
  obtain ⟨hrecords, hclean, -⟩ := scan_written hwritten (.inl rfl)
  have hr : r.unsettled = unsettled := hfinds checkpoint r hload (hrecords ▸ hreplay)
  refine ⟨hambiguous.trans hr, fun hsettled => ?_⟩
  rw [(hsame (hclean rfl)).2, PodStore.outcomeOf, hr, hsettled]
  have hsome : checkpoint.isSome = true := by
    obtain ⟨image, himage⟩ := Option.isSome_iff_exists.1 (hcheckpoint hsettled)
    simp only [loadCheckpoint, himage] at hload
    cases hdecode : decodeCheckpoint s.store.options.policy image with
    | error e =>
      rw [hdecode] at hload
      cases hload
    | ok state =>
      rw [hdecode] at hload
      cases hload
      rfl
  simp [hsome]

end Calls

/-- In the run the journal is compacted, and no write comes short then or later. -/
def Compacted (s : Session) (calls : List StoreCall) : Prop :=
  ∃ front x back, Run.trace after s calls = front ++ x :: back ∧ x.1.Compacts x.2 ∧
    x.2.Complete ∧ ∀ y ∈ back, y.2.Complete

/-- After a run in which the journal is compacted there is nothing to be found. -/
theorem Compacted.finds {s : Session} {calls : List StoreCall} (h : s.Compacted calls) :
    (Run.final after s calls).Finds false := by
  obtain ⟨front, x, back, htrace, hcompacts, hcomplete, hback⟩ := h
  refine @Run.final_of_trace _ _ _ s calls (fun s => s.Finds false) front back x htrace
    (hcompacts.finds hcomplete) fun y hy hfinds => ?_
  by_cases hagain : y.1.Compacts y.2
  · exact hagain.finds (hback y hy)
  · exact hfinds.after (hback y hy) hagain

end Session

/-- **Ambiguous commits.** A transaction that opening rolled back is reported again by every later
opening, over all later sessions, until the journal is compacted; from then on openings are clean. A
run in which writes come short is clean again as soon as a compaction goes through. -/
theorem rollback_reported_iff {options : StoreOptions} {d : Directory} {now later : Nanos}
    {s s' : Session} {calls : List StoreCall}
    (hopen : (PodStore.open now).on (.new options d) = (.ok (), s))
    (hambiguous : s.store.recovery.ambiguousCommit = true)
    (hreopen : (Run.final Session.after s calls).reopen later = (.ok (), s')) :
    (s.Compacted calls →
      s'.store.recovery.ambiguousCommit = false ∧ s'.store.recovery.outcome = .clean) ∧
    ((∀ call ∈ calls, call.Complete) →
      ((s'.store.recovery.ambiguousCommit = false ∧ s'.store.recovery.outcome = .clean) ↔
        s.Compacted calls)) := by
  have hclean (h : s.Compacted calls) : s'.store.recovery.ambiguousCommit = false ∧
      s'.store.recovery.outcome = .clean :=
    (h.finds.reports hreopen).imp id fun h => h rfl
  refine ⟨hclean, fun hcomplete => ⟨fun h => ?_, hclean⟩⟩
  by_contra hnever
  -- what was rolled back is still found if no call compacts the journal
  have hfinds : (Run.final Session.after s calls).Finds true := by
    refine @Run.final_invariant _ _ _ s calls (fun s => s.Finds true)
      (finds_of_open hopen hambiguous) fun x hx hfinds =>
        hfinds.after (hcomplete _ (Run.call_of_trace hx)) fun hcompacts => hnever ?_
    obtain ⟨front, back, htrace⟩ := List.append_of_mem hx
    refine ⟨front, x, back, htrace, hcompacts, hcomplete _ (Run.call_of_trace hx), fun y hy => ?_⟩
    have hmem : y ∈ Run.trace Session.after s calls := by
      rw [htrace]
      exact List.mem_append_right _ (List.mem_cons_of_mem _ hy)
    exact hcomplete _ (Run.call_of_trace hmem)
  rw [(hfinds.reports hreopen).1] at h
  cases h.1

namespace Sample

/-- The directory that a crash between the two records of a commit leaves. -/
def begun : Directory :=
  ((Session.new {} {}).after (.reopen 1) |>.after
    (.commit { next := { epoch := ⟨1⟩ }, now := 5, writes := [none, some 0] })).directory

/-- The store that is opened over it. -/
def rolledBack : Session := ((PodStore.open 6).on (.new {} begun)).2

/-- A commit that succeeds. -/
def update : StoreCall := .commit { next := { epoch := ⟨2⟩ }, now := 7 }

/-- After it, a compaction. -/
def purge : List StoreCall := [update, .compact []]

end Sample

set_option maxRecDepth 8000 in
/-- A transaction that is rolled back is not reported again once the journal is compacted. -/
theorem rollback_purged :
    ∃ s', (Run.final Session.after Sample.rolledBack Sample.purge).reopen 9 = (.ok (), s') ∧
      s'.store.recovery.ambiguousCommit = false ∧ s'.store.recovery.outcome = .clean := by
  have hok : ((PodStore.open 6).on (.new {} Sample.begun)).1 = .ok () := by decide +kernel
  have hopen : (PodStore.open 6).on (.new {} Sample.begun) = (.ok (), Sample.rolledBack) := by
    rw [Sample.rolledBack, ← hok]
  have hambiguous : Sample.rolledBack.store.recovery.ambiguousCommit = true := by decide +kernel
  have hreopens : ((Run.final Session.after Sample.rolledBack Sample.purge).reopen 9).1 =
    .ok () := by decide +kernel
  rcases hreopen : (Run.final Session.after Sample.rolledBack Sample.purge).reopen 9 with ⟨x, s'⟩
  rw [hreopen] at hreopens
  dsimp only at hreopens
  subst hreopens
  refine ⟨s', rfl, (rollback_reported_iff hopen hambiguous hreopen).1 ?_⟩
  have hcompacts : (Sample.rolledBack.after Sample.update).Compacts (.compact []) :=
    Session.compacts_of_encodes (by decide +kernel) (by decide +kernel)
  have htrace : Run.trace Session.after Sample.rolledBack Sample.purge =
    [(Sample.rolledBack, Sample.update)] ++
      (Sample.rolledBack.after Sample.update, .compact []) :: [] := rfl
  refine ⟨_, _, _, htrace, ?_, by simp [StoreCall.Complete, StoreCall.writes], by simp⟩
  dsimp only
  exact hcompacts

set_option maxRecDepth 8000 in
/-- After one commit that succeeds, closing and opening the store reports the transaction again. -/
theorem rollback_reported_again : ¬ ∀ (options : StoreOptions) (d : Directory) (now later : Nanos)
    (s s' : Session) (calls : List StoreCall),
    (PodStore.open now).on (.new options d) = (.ok (), s) →
    s.store.recovery.ambiguousCommit = true →
    (∃ x ∈ Run.trace Session.after s calls, ∃ call, x.2 = .commit call ∧
      x.1.acknowledges call = true) →
    (∀ call ∈ calls, call.Complete) →
    (Run.final Session.after s calls).reopen later = (.ok (), s') →
    s'.store.recovery.ambiguousCommit = false ∧ s'.store.recovery.outcome = .clean := by
  intro hclaim
  have hok : ((PodStore.open 6).on (.new {} Sample.begun)).1 = .ok () := by decide +kernel
  have hreopens : ((Run.final Session.after Sample.rolledBack [Sample.update]).reopen 9).1 =
    .ok () := by decide +kernel
  have hreopen := Session.eq_of_ok hreopens
  have hagain : ((Run.final Session.after Sample.rolledBack
    [Sample.update]).reopen 9).2.store.recovery.ambiguousCommit = true := by decide +kernel
  have hsucceeds : Sample.rolledBack.acknowledges
      { next := { epoch := ⟨2⟩ }, now := 7 } = true := by
    decide +kernel
  have hcommits : ∃ x ∈ Run.trace Session.after Sample.rolledBack [Sample.update], ∃ call,
      x.2 = .commit call ∧ x.1.acknowledges call = true :=
    ⟨(Sample.rolledBack, Sample.update), List.mem_cons_self,
      { next := { epoch := ⟨2⟩ }, now := 7 }, rfl, by dsimp only; exact hsucceeds⟩
  have hclean := hclaim {} Sample.begun 6 9 Sample.rolledBack
    ((Run.final Session.after Sample.rolledBack [Sample.update]).reopen 9).2 [Sample.update]
    (by rw [Sample.rolledBack, ← hok]) (by decide +kernel) hcommits
    (by simp [Sample.update, StoreCall.Complete, StoreCall.writes]) hreopen
  rw [hagain] at hclean
  cases hclean.1

end PodFabric
