import PodFabric.Proof.Store

/-!
# What opening a store recovers

A journal that was written by the store is a header, the frames of some records, and possibly the
beginning of another frame. Opening the store over such a journal goes through its records and cuts
off the rest; and when opening succeeds at all, that is what it leaves.
-/

namespace PodFabric

/-! ## Written journals -/

/-- The journal is a header, the frames of these records, and what follows them. -/
def Written (limit : ℕ) (journal : List UInt8) (records : List JournalRecord)
    (tail : List UInt8) : Prop :=
  ∃ header body, journal = header ++ (body ++ tail) ∧ header.length = journalHeaderSize ∧
    decodeJournalHeader header = .ok journalVersion ∧ Frames (scanRecord limit) body records

/-- What a write that came short leaves: nothing, or the beginning of a frame. -/
def TornTail (limit : ℕ) (tail : List UInt8) : Prop :=
  tail = [] ∨ tail ≠ [] ∧ (scanRecord limit tail = .damage .shortPrefix ∨
    scanRecord limit tail = .damage .shortPayload)

section Scan
variable {limit : ℕ} {journal tail : List UInt8} {records : List JournalRecord}

/-- A written journal is not empty. -/
theorem Written.ne_nil (h : Written limit journal records tail) : journal ≠ [] := by
  obtain ⟨header, body, rfl, hlength, -, -⟩ := h
  rw [← List.length_pos_iff, List.length_append, hlength, journalHeaderSize]
  omega

/-- A journal with the current header, and nothing else. -/
theorem written_header : Written limit (encodeJournalHeader journalVersion) [] [] :=
  ⟨_, [], by simp, rfl, decode_encodeJournalHeader, .nil⟩

/-- Appending a record. -/
theorem Written.append {record : JournalRecord} (h : Written limit journal records [])
    (hfits : record.payload.length ≤ min limit journalHardMaxRecord) :
    Written limit (journal ++ record.frame) (records ++ [record]) [] := by
  obtain ⟨header, body, rfl, hlength, hheader, hframes⟩ := h
  refine ⟨header, body ++ record.frame, by simp, hlength, hheader, ?_⟩
  exact hframes.append (Frames.single (scanRecord_frame hfits))

/-- Appending the beginning of a record. -/
theorem Written.append_torn {record : JournalRecord} {n : ℕ}
    (h : Written limit journal records []) (hfits :
      record.payload.length ≤ min limit journalHardMaxRecord)
    (hn : n < record.frame.length) :
    Written limit (journal ++ record.frame.take n) records (record.frame.take n) ∧
      TornTail limit (record.frame.take n) := by
  obtain ⟨header, body, rfl, hlength, hheader, hframes⟩ := h
  refine ⟨⟨header, body, by simp, hlength, hheader, hframes⟩, ?_⟩
  by_cases hnil : record.frame.take n = []
  · exact .inl hnil
  · exact .inr ⟨hnil, scanRecord_torn hfits hn⟩

/-- Without damage a scan is clean, and only then. -/
theorem scanVerdict_clean {first : Bool} {damage : Option Damage} :
    (scanVerdict first damage).1 = .clean ↔ damage = none := by
  cases damage with
  | none => exact iff_of_true rfl rfl
  | some damage =>
    refine iff_of_false ?_ (by simp)
    cases damage with
    | badPrefix status =>
      simp only [scanVerdict]
      split
      · simp
      · split <;> simp
    | shortPrefix | shortPayload | checksum => simp [scanVerdict]

/-- The scan of a journal whose header is accepted, from the scan of its frames. -/
theorem scan_found {header body rest : List UInt8} {damage : Option Damage}
    (hlength : header.length = journalHeaderSize)
    (hheader : decodeJournalHeader header = .ok journalVersion)
    (hframes : Frames (scanRecord limit) body records)
    (hscanned : scanFrames (scanRecord limit) (header ++ (body ++ rest)).length (body ++ rest) =
      (records, rest, damage)) :
    (scanJournal (header ++ (body ++ rest)) limit).records = records ∧
      (scanJournal (header ++ (body ++ rest)) limit).status =
        (scanVerdict records.isEmpty damage).1 ∧
      ((scanJournal (header ++ (body ++ rest)) limit).status ≠ .clean →
        Written limit ((header ++ (body ++ rest)).take
          (scanJournal (header ++ (body ++ rest)) limit).validBytes) records []) := by
  have hlong : ¬ (header ++ (body ++ rest)).length < journalHeaderSize := by
    rw [List.length_append, hlength]
    omega
  have hscan : scanJournal (header ++ (body ++ rest)) limit =
      let verdict := scanVerdict records.isEmpty damage
      let valid :=
        if ¬ records.isEmpty then (header ++ (body ++ rest)).length - rest.length
        else if verdict.1 = .clean then 0 else journalHeaderSize
      { status := verdict.1, detail := verdict.2, records, validBytes := valid
        discardedBytes := (header ++ (body ++ rest)).length - valid
        totalBytes := (header ++ (body ++ rest)).length } := by
    unfold scanJournal
    rw [if_neg hlong, List.take_left' hlength, List.drop_left' hlength, hheader, hscanned]
  rw [hscan]
  refine ⟨rfl, rfl, fun hdirty => ?_⟩
  dsimp only at hdirty ⊢
  have hcut : (if ¬ records.isEmpty then (header ++ (body ++ rest)).length - rest.length
      else if (scanVerdict records.isEmpty damage).1 = .clean then 0 else journalHeaderSize) =
        (header ++ body).length := by
    cases records with
    | nil =>
      obtain rfl := hframes.eq_nil
      rw [if_neg (by simp), if_neg hdirty, List.append_nil, hlength]
    | cons record records =>
      rw [if_pos (by simp)]
      simp only [List.length_append]
      omega
  rw [hcut, ← List.append_assoc, List.take_left]
  exact ⟨header, body, by simp, hlength, hheader, hframes⟩

/-- The scan of a written journal. -/
theorem scan_written (h : Written limit journal records tail) (htail : TornTail limit tail) :
    (scanJournal journal limit).records = records ∧
      (tail = [] → (scanJournal journal limit).status = .clean) ∧
      (tail ≠ [] → (scanJournal journal limit).status = .tornTail ∧
        Written limit (journal.take (scanJournal journal limit).validBytes) records []) := by
  obtain ⟨header, body, rfl, hlength, hheader, hframes⟩ := h
  rcases htail with rfl | ⟨hne, hdamage⟩
  · have hscanned : scanFrames (scanRecord limit) (header ++ (body ++ [])).length (body ++ []) =
        (records, [], none) := by
      rw [List.append_nil]
      exact scanRecord_framing.scan_frames hframes (by simp)
    obtain ⟨hrecords, hstatus, -⟩ := scan_found hlength hheader hframes hscanned
    exact ⟨hrecords, fun _ => hstatus, fun h => absurd rfl h⟩
  · obtain ⟨reason, hreason, hverdict⟩ : ∃ reason, scanRecord limit tail = .damage reason ∧
        (scanVerdict records.isEmpty (some reason)).1 = .tornTail := by
      rcases hdamage with h | h
      · exact ⟨_, h, rfl⟩
      · exact ⟨_, h, rfl⟩
    have hscanned := scanRecord_framing.scan_damage hframes hne hreason
      (show body.length + tail.length ≤ (header ++ (body ++ tail)).length by simp)
    obtain ⟨hrecords, hstatus, hvalid⟩ := scan_found hlength hheader hframes hscanned
    rw [hverdict] at hstatus
    exact ⟨hrecords, fun h => absurd h hne, fun _ => ⟨hstatus, hvalid (by simp [hstatus])⟩⟩

/-- Only the current revision is accepted. -/
theorem decodeJournalHeader_eq_ok {header : List UInt8} {version : UInt16}
    (h : decodeJournalHeader header = .ok version) : version = journalVersion := by
  simp only [decodeJournalHeader, check_eq_ok, ensure_eq_ok, pure_eq_ok] at h
  obtain ⟨-, -, -, hversion, rfl⟩ := h
  exact hversion

/-- A journal that is not refused was written so far as it is intact. -/
theorem written_of_scan (hsupported : (scanJournal journal limit).status ≠ .unsupportedVersion)
    (hcorrupt : (scanJournal journal limit).status ≠ .corrupt) :
    ∃ tail, Written limit journal (scanJournal journal limit).records tail ∧
      ((scanJournal journal limit).status = .clean → tail = []) ∧
      ((scanJournal journal limit).status ≠ .clean →
        Written limit (journal.take (scanJournal journal limit).validBytes)
          (scanJournal journal limit).records []) := by
  by_cases hlong : journal.length < journalHeaderSize
  · exact absurd (by unfold scanJournal; rw [if_pos hlong]) hcorrupt
  cases hheader : decodeJournalHeader (journal.take journalHeaderSize) with
  | error status =>
    have hstatus : (scanJournal journal limit).status =
        if status.code = .unsupported then .unsupportedVersion else .corrupt := by
      unfold scanJournal
      rw [if_neg hlong, hheader]
    rw [hstatus] at hsupported hcorrupt
    by_cases hcode : status.code = .unsupported
    · exact absurd (if_pos hcode) hsupported
    · exact absurd (if_neg hcode) hcorrupt
  | ok version =>
    obtain rfl := decodeJournalHeader_eq_ok hheader
    have hlength : (journal.take journalHeaderSize).length = journalHeaderSize := by
      rw [List.length_take]
      omega
    have hfuel : (journal.drop journalHeaderSize).length ≤ journal.length := by simp
    obtain ⟨intact, hrest, hframes, hend⟩ := (@scanRecord_framing limit).of_scan hfuel
    cases hscanned : scanFrames (scanRecord limit) journal.length (journal.drop journalHeaderSize)
      with
    | mk records found =>
      obtain ⟨rest, damage⟩ := found
      rw [hscanned] at hrest hframes hend
      have hjournal : journal = journal.take journalHeaderSize ++ (intact ++ rest) := by
        rw [← hrest, List.take_append_drop]
      rw [hrest, hjournal] at hscanned
      have hfound := scan_found hlength hheader hframes hscanned
      rw [← hjournal] at hfound
      obtain ⟨hrecords, hstatus, hvalid⟩ := hfound
      rw [hrecords]
      refine ⟨rest, ⟨_, intact, hjournal, hlength, hheader, hframes⟩, fun hclean => ?_, hvalid⟩
      rw [hstatus, scanVerdict_clean] at hclean
      exact hend hclean

end Scan

/-! ## Replay -/

namespace PodStore

/-- Nothing but the state and the report differ. -/
structure SameFrame (store store' : PodStore) : Prop where
  options : store'.options = store.options
  checkpointSequence : store'.checkpointSequence = store.checkpointSequence
  haveCheckpoint : store'.haveCheckpoint = store.haveCheckpoint
  isOpen : store'.isOpen = store.isOpen

/-- The journal of a session can be replayed, to this end. -/
structure Replayable (s : Session) (records : List JournalRecord) (tail : List UInt8)
    (r : Replay) : Prop where
  written : Written s.store.recordLimit s.directory.journal records tail
  torn : TornTail s.store.recordLimit tail
  size : s.directory.journal.length ≤ (s.store.options.policy.maxJournalBytes * 2).toNat
  repair : tail = [] ∨ s.store.options.repairTornTail = true
  replays : s.store.replayStart.records s.store.covered records = .ok r

/-- How a replay ends. -/
inductive Replayed (s : Session) : Session → Except Status Unit → Prop
  | failed {s' : Session} {e : Status} : s.directory.journal ≠ [] →
      (∀ records tail r, ¬ Replayable s records tail r) → Replayed s s' (.error e)
  | empty {s' : Session} {store : PodStore} : s.directory.journal = [] → Did s s' [] store →
      s'.writes = s.writes → s.store.SameFrame store → store.state = s.store.state →
      Replayed s s' (.ok ())
  | recovered {s' : Session} {store : PodStore} {r : Replay} {ops : List DiskOp} :
      s.directory.journal ≠ [] → Did s s' ops store → s.store.SameFrame store →
      s.store.replayStart.records s.store.covered
        (scanJournal s.directory.journal s.store.recordLimit).records = .ok r →
      store.state = r.state → (ops = [] ∨ ∃ n, ops = [.truncate n, .sync]) →
      Written s.store.recordLimit s'.directory.journal
        (scanJournal s.directory.journal s.store.recordLimit).records [] →
      Replayed s s' (.ok ())

/-- Changing the report changes nothing else. -/
theorem on_modifyReport {s : Session} {f : Report → Report} :
    (modifyReport f).on s =
      (.ok (), { s with store := { s.store with recovery := f s.store.recovery } }) := rfl

/-- A replay that is given up fails. -/
theorem abandonReplay_fails {s : Session} {r : Replay} {fault : ReplayFault} :
    ∃ e, ((abandonReplay r fault).on s).1 = .error e := by
  unfold abandonReplay
  simp only [Proc.on_bind, on_modifyStore]
  cases fault with
  | undecoded status => exact ⟨status, rfl⟩
  | unmatched => exact ⟨_, rfl⟩

/-- The end of a replay. -/
theorem finishReplay_ends {s : Session} {scan : JournalScan} {r : Replay}
    (hclean : scan.status = .clean ∨ s.store.options.repairTornTail = true) :
    ∃ s' store, (finishReplay scan r).on s = (.ok (), s') ∧
      Did s s' (if scan.status = .clean then [] else [.truncate scan.validBytes, .sync]) store ∧
      s.store.SameFrame store ∧ store.state = r.state := by
  unfold finishReplay
  simp only [Proc.on_bind, Proc.on_get, on_modifyStore, on_modifyReport]
  by_cases hstatus : scan.status = .clean
  · rw [if_pos hstatus, if_pos hstatus, on_modifyReport]
    exact ⟨_, _, rfl, ⟨rfl, (List.append_nil _).symm, rfl⟩, ⟨rfl, rfl, rfl, rfl⟩, rfl⟩
  · rw [if_neg hstatus, if_neg hstatus]
    simp only [Proc.on_bind, on_attempt, ensure, hclean.resolve_left hstatus, if_true, on_perform,
      on_modifyReport]
    exact ⟨_, _, rfl, ⟨rfl, by simp [Session.done], rfl⟩, ⟨rfl, rfl, rfl, rfl⟩, rfl⟩

/-- A damaged tail is not cut off against the options. -/
theorem finishReplay_refuses {s : Session} {scan : JournalScan} {r : Replay}
    (hstatus : scan.status ≠ .clean) (hrepair : ¬ s.store.options.repairTornTail = true) :
    ∃ e, ((finishReplay scan r).on s).1 = .error e := by
  unfold finishReplay
  simp only [Proc.on_bind, Proc.on_get, on_modifyStore, on_modifyReport]
  rw [if_neg hstatus]
  simp only [Proc.on_bind, on_attempt, ensure, hrepair]
  exact ⟨_, rfl⟩

/-- A journal that can be replayed is clean, or torn with leave to repair it. -/
theorem Replayable.scan {s : Session} {records : List JournalRecord}
    {tail : List UInt8} {r : Replay}
    (h : Replayable s records tail r) :
    (scanJournal s.directory.journal s.store.recordLimit).records = records ∧
      ((scanJournal s.directory.journal s.store.recordLimit).status = .clean ∨
        (scanJournal s.directory.journal s.store.recordLimit).status = .tornTail ∧
          s.store.options.repairTornTail = true) := by
  obtain ⟨hrecords, hclean, htorn⟩ := scan_written h.written h.torn
  refine ⟨hrecords, ?_⟩
  by_cases htail : tail = []
  · exact .inl (hclean htail)
  · exact .inr ⟨(htorn htail).1, h.repair.resolve_left htail⟩

/-- A replay ends in one of these ways. -/
theorem replay_replayed {s : Session} : Replayed s (replay.on s).2 (replay.on s).1 := by
  have hreplayable := fun records tail r => @Replayable.scan s records tail r
  have hwritten := @written_of_scan s.store.recordLimit s.directory.journal
  have hrecovered := @Replayed.recovered s
  unfold replay
  simp only [Proc.on_bind, Proc.on_get]
  by_cases hempty : s.directory.journal.length = 0
  · rw [if_pos hempty]
    exact .empty (List.length_eq_zero_iff.1 hempty) ⟨rfl, (List.append_nil _).symm, rfl⟩ rfl
      ⟨rfl, rfl, rfl, rfl⟩ rfl
  have hne : s.directory.journal ≠ [] := fun h => hempty (List.length_eq_zero_iff.2 h)
  rw [if_neg hempty]
  simp only [Proc.on_bind, on_attempt]
  by_cases hsize : s.directory.journal.length ≤ (s.store.options.policy.maxJournalBytes * 2).toNat
  swap
  · simp only [ensure, if_neg hsize]
    exact .failed hne fun records tail r h => hsize h.size
  simp only [ensure, if_pos hsize]
  generalize scanJournal s.directory.journal s.store.recordLimit = scan at *
  by_cases hsupported : scan.status = .unsupportedVersion
  · simp only [hsupported]
    refine .failed hne fun records tail r h => ?_
    have := (hreplayable _ _ _ h).2
    simp [hsupported] at this
  simp only [ne_eq, hsupported, not_false_eq_true, if_true]
  by_cases hcorrupt : scan.status = .corrupt ∨ scan.status = .oversizedRecord
  · rw [if_pos hcorrupt]
    refine .failed hne fun records tail r h => ?_
    have := (hreplayable _ _ _ h).2
    rcases hcorrupt with hcorrupt | hcorrupt <;> simp [hcorrupt] at this
  rw [if_neg hcorrupt]
  rw [not_or] at hcorrupt
  obtain ⟨tail, hintact, hclean, hdirty⟩ := hwritten hsupported hcorrupt.1
  simp only [Proc.on_bind, on_modifyReport]
  cases hloop : s.store.replayStart.records s.store.covered scan.records with
  | error fault =>
    obtain ⟨r, fault⟩ := fault
    obtain ⟨e, he⟩ := @abandonReplay_fails { s with store := { s.store with recovery :=
      { s.store.recovery with
        recordsScanned := scan.records.length, discardedBytes := scan.discardedBytes } } } r fault
    simp only
    rw [he]
    refine .failed hne fun records tail r' h => ?_
    have hreplays := h.replays
    rw [← (hreplayable _ _ _ h).1, hloop] at hreplays
    cases hreplays
  | ok r =>
    simp only
    by_cases hrepair : scan.status = .clean ∨ s.store.options.repairTornTail = true
    · obtain ⟨s', store, hon, hdid, hsame, hstate⟩ := @finishReplay_ends { s with store :=
        { s.store with recovery := { s.store.recovery with
            recordsScanned := scan.records.length, discardedBytes := scan.discardedBytes } } }
        scan r hrepair
      rw [hon]
      refine hrecovered hne ⟨hdid.directory, hdid.log, hdid.store⟩
        ⟨hsame.options, hsame.checkpointSequence, hsame.haveCheckpoint, hsame.isOpen⟩ hloop hstate
        ?_ ?_
      · split
        · exact .inl rfl
        · exact .inr ⟨_, rfl⟩
      · rw [hdid.directory]
        split
        · next hstatus =>
          rw [hclean hstatus] at hintact
          exact hintact
        · next hstatus => exact hdirty hstatus
    · rw [not_or] at hrepair
      obtain ⟨e, he⟩ := @finishReplay_refuses { s with store := { s.store with recovery :=
        { s.store.recovery with
          recordsScanned := scan.records.length, discardedBytes := scan.discardedBytes } } }
        scan r hrepair.1 hrepair.2
      rw [he]
      refine .failed hne fun records tail r' h => ?_
      exact (hreplayable _ _ _ h).2.elim hrepair.1 fun htorn => hrepair.2 htorn.2

/-! ## Opening -/

end PodStore

/-- Where the replay of a journal starts, after the checkpoint. -/
def Replay.start (checkpoint : Option DurableState) : Replay where
  state := checkpoint.getD {}
  fromStore := checkpoint.isSome

/-- The replay of the records of a journal, after the checkpoint. -/
def Replay.over (checkpoint : Option DurableState) (records : List JournalRecord) :
    Except (Replay × ReplayFault) Replay :=
  (Replay.start checkpoint).records (checkpoint.map DurableState.sequence) records

/-- What the journal and the checkpoint hold. -/
inductive Stores (limit : ℕ) (checkpoint : Option DurableState) (journal : List UInt8) :
    DurableState → Prop
  | empty : journal = [] → Stores limit checkpoint journal (checkpoint.getD {})
  | written {records : List JournalRecord} {tail : List UInt8} {r : Replay} :
      Written limit journal records tail → TornTail limit tail →
      Replay.over checkpoint records = .ok r → Stores limit checkpoint journal r.state

namespace PodStore

/-- The replay starts at the loaded checkpoint. -/
theorem loaded_replayStart {options : StoreOptions} {checkpoint : Option DurableState} :
    (({ options } : PodStore).loaded checkpoint).replayStart = .start checkpoint := by
  cases checkpoint <;> rfl

/-- What a loaded checkpoint covers. -/
theorem loaded_covered {options : StoreOptions} {checkpoint : Option DurableState} :
    (({ options } : PodStore).loaded checkpoint).covered =
      checkpoint.map DurableState.sequence := by
  cases checkpoint <;> rfl

/-- The state of a loaded checkpoint. -/
theorem loaded_state {options : StoreOptions} {checkpoint : Option DurableState} :
    (({ options } : PodStore).loaded checkpoint).state = checkpoint.getD {} := by
  cases checkpoint <;> rfl

/-- Loading a checkpoint leaves the options. -/
theorem loaded_options {options : StoreOptions} {checkpoint : Option DurableState} :
    (({ options } : PodStore).loaded checkpoint).options = options := by
  cases checkpoint <;> rfl

/-- Stores of the same frame cover the same. -/
theorem SameFrame.covered {store store' : PodStore} (h : store.SameFrame store') :
    store'.covered = store.covered := by
  rw [PodStore.covered, PodStore.covered, h.haveCheckpoint, h.checkpointSequence]

/-- What a directory needs for a store to open over it, with this state. -/
structure CanOpen (options : StoreOptions) (d : Directory) (checkpoint : Option DurableState)
    (state : DurableState) : Prop where
  policy : options.policy.validate = .ok ()
  load : loadCheckpoint options.policy d = .ok checkpoint
  holds : Stores options.policy.maxJournalRecordBytes.toNat checkpoint d.journal state
  size : d.journal.length ≤ (options.policy.maxJournalBytes * 2).toNat
  repair : d.journal ≠ [] → options.repairTornTail = true ∨
    (scanJournal d.journal options.policy.maxJournalRecordBytes.toNat).status = .clean

/-- What an open store and its directory hold. -/
structure Opened (options : StoreOptions) (d : Directory) (checkpoint : Option DurableState)
    (s' : Session) : Prop where
  policy : options.policy.validate = .ok ()
  load : loadCheckpoint options.policy d = .ok checkpoint
  sameOptions : s'.store.options = options
  isOpen : s'.store.isOpen = true
  covered : s'.store.covered = checkpoint.map DurableState.sequence
  sameCheckpoint : s'.directory.checkpoint = d.checkpoint
  journal : s'.directory.journal = [] ∧ s'.store.state = checkpoint.getD {} ∨
    ∃ records r, Written options.policy.maxJournalRecordBytes.toNat
      s'.directory.journal records [] ∧
      Replay.over checkpoint records = .ok r ∧ r.state = s'.store.state

/-- The store when its replay begins. -/
def loadedSession (options : StoreOptions) (d : Directory) (checkpoint : Option DurableState) :
    Session :=
  { Session.new options d with store := ({ options } : PodStore).loaded checkpoint }

/-- A directory that a store can open over has a journal that can be replayed. -/
theorem CanOpen.replayable {options : StoreOptions} {d : Directory}
    {checkpoint : Option DurableState} {state : DurableState}
    (h : CanOpen options d checkpoint state) (hne : d.journal ≠ []) :
    ∃ records tail r, Replayable (loadedSession options d checkpoint) records tail r ∧
      r.state = state := by
  have hlimit : (loadedSession options d checkpoint).store.recordLimit =
      options.policy.maxJournalRecordBytes.toNat := by
    rw [recordLimit, loadedSession, loaded_options]
  have hsize := h.size
  have hrepair := h.repair hne
  cases h.holds with
  | empty hempty => exact absurd hempty hne
  | @written records tail r hwritten htorn hreplay =>
    refine ⟨records, tail, r, ⟨?_, ?_, ?_, ?_, ?_⟩, rfl⟩
    · rw [hlimit]
      exact hwritten
    · rw [hlimit]
      exact htorn
    · rw [loadedSession, loaded_options]
      exact hsize
    · rw [loadedSession, loaded_options]
      by_cases htail : tail = []
      · exact .inl htail
      · refine .inr (hrepair.resolve_right fun hclean => ?_)
        rw [((scan_written hwritten htorn).2.2 htail).1] at hclean
        cases hclean
    · rw [loadedSession, loaded_replayStart, loaded_covered]
      exact hreplay

/-- How opening ends. -/
inductive Opens (options : StoreOptions) (d : Directory) : Session → Except Status Unit → Prop
  | failed {s' : Session} {e : Status} : (∀ checkpoint state, ¬ CanOpen options d checkpoint state)
    →
      Opens options d s' (.error e)
  | opened {s' : Session} {checkpoint : Option DurableState} : Opened options d checkpoint s' →
      (∀ state, CanOpen options d checkpoint state → s'.store.state = state) →
      Opens options d s' (.ok ())

/-- Opening begins with two checks. -/
theorem on_open {options : StoreOptions} {d : Directory} {now : Nanos} :
    («open» now).on (.new options d) =
      match options.policy.validate with
      | .error e => (.error e, .new options d)
      | .ok _ =>
        match loadCheckpoint options.policy d with
        | .error e => (.error e, { Session.new options d with store := { options, recovery := {
            outcome := if e.code = .unsupported then .unsupportedVersion else .corrupt
            detail := e.message } } })
        | .ok checkpoint =>
          (replay >>= fun _ => finishOpen (d.journal.isEmpty && checkpoint.isNone) now).on
            (loadedSession options d checkpoint) := by
  have hclosed : ensure (¬ (Session.new options d).store.isOpen = true)
      (⟨.refused, "the pod store is already open in this process"⟩ : Status) = .ok () := rfl
  have hvalidate : (Session.new options d).store.options.policy.validate =
      options.policy.validate := rfl
  have hload : loadCheckpoint (Session.new options d).store.options.policy
      (Session.new options d).directory = loadCheckpoint options.policy d := rfl
  unfold «open»
  simp only [Proc.on_bind, Proc.on_get, on_attempt, hclosed, hvalidate, hload]
  cases options.policy.validate with
  | error e => rfl
  | ok u =>
    simp only
    cases loadCheckpoint options.policy d with
    | error e => rfl
    | ok checkpoint =>
      simp only [Proc.on_bind, on_modifyStore]
      rfl

/-- The end of opening. -/
theorem on_finishOpen {s : Session} {fresh : Bool} {now : Nanos}
    (hwrites : fresh = true → s.writes = []) :
    ∃ s', (finishOpen fresh now).on s = (.ok (), s') ∧
      Did s s' (if fresh then [.append (encodeJournalHeader journalVersion), .sync] else [])
        s'.store ∧
      s'.store = { s.store with
        isOpen := true, recovery := { s.store.recovery with recoveredAt := now } } := by
  unfold finishOpen
  cases fresh with
  | false => exact ⟨_, rfl, ⟨rfl, (List.append_nil _).symm, rfl⟩, rfl⟩
  | true =>
    rw [if_pos rfl, if_pos rfl]
    simp only [Proc.on_bind, on_perform, on_modifyStore]
    rw [on_fileWrite header_ne_nil, hwrites rfl]
    exact ⟨_, rfl, ⟨rfl, by simp [Session.done], rfl⟩, rfl⟩

/-- The directory after opening keeps its checkpoint. -/
theorem foldl_after_checkpoint : ∀ {ops : List DiskOp} {d : Directory},
    (∀ image, .replace image ∉ ops) → (ops.foldl Directory.after d).checkpoint = d.checkpoint
  | [], _, _ => rfl
  | op :: ops, d, h => by
    rw [List.foldl_cons, foldl_after_checkpoint fun image himage =>
      h image (List.mem_cons_of_mem _ himage)]
    cases op with
    | replace image => exact absurd List.mem_cons_self (h image)
    | append | truncate | sync => rfl

/-- What opening leaves of the fields that replay keeps. -/
theorem SameFrame.opened {options : StoreOptions} {checkpoint : Option DurableState}
    {store store' : PodStore} {report : Report}
    (h : (({ options } : PodStore).loaded checkpoint).SameFrame store)
    (hstore : store' = { store with isOpen := true, recovery := report }) :
    store'.options = options ∧ store'.isOpen = true ∧
      store'.covered = checkpoint.map DurableState.sequence ∧ store'.state = store.state := by
  subst hstore
  refine ⟨h.options.trans loaded_options, rfl, ?_, rfl⟩
  have hcovered := h.covered.trans loaded_covered
  exact hcovered

/-- Opening ends in one of these ways. -/
theorem open_opens {options : StoreOptions} {d : Directory} {now : Nanos} :
    Opens options d ((«open» now).on (.new options d)).2 ((«open» now).on (.new options d)).1 := by
  rw [on_open]
  cases hpolicy : options.policy.validate with
  | error e =>
    refine .failed fun checkpoint state h => ?_
    rw [h.policy] at hpolicy
    cases hpolicy
  | ok u =>
  cases hload : loadCheckpoint options.policy d with
  | error e =>
    refine .failed fun checkpoint state h => ?_
    rw [h.load] at hload
    cases hload
  | ok checkpoint =>
  have hreplay := @replay_replayed (loadedSession options d checkpoint)
  simp only [Proc.on_bind]
  rcases hon : replay.on (loadedSession options d checkpoint) with ⟨r, s⟩
  rw [hon] at hreplay
  cases hreplay with
  | failed hne hnot =>
    refine .failed fun checkpoint' state h => ?_
    obtain rfl : checkpoint' = checkpoint := by simpa [h.load] using hload
    obtain ⟨records, tail, r, hr, -⟩ := h.replayable hne
    exact hnot _ _ _ hr
  | empty hempty hdid hwrites hsame hstate =>
    obtain ⟨s', hfinish, hdone, hstore⟩ := @on_finishOpen s
      (d.journal.isEmpty && checkpoint.isNone) now fun _ => hwrites
    simp only [hfinish]
    rw [← hdid.store] at hsame hstate
    obtain ⟨hoptions, hisOpen, hcovered, hkept⟩ := hsame.opened hstore
    have hstate : s'.store.state = checkpoint.getD {} := by
      rw [hkept, hstate, loadedSession, loaded_state]
    have hdirectory : s'.directory =
        (if (d.journal.isEmpty && checkpoint.isNone) = true then
          [DiskOp.append (encodeJournalHeader journalVersion), .sync] else []).foldl
            Directory.after d := by
      rw [hdone.directory, hdid.directory]
      rfl
    have hjournal : d.journal = [] := hempty
    have hopened : Opened options d checkpoint s' := by
      refine ⟨hpolicy, hload, hoptions, hisOpen, hcovered, ?_, ?_⟩
      · rw [hdirectory]
        refine foldl_after_checkpoint fun image => ?_
        split <;> simp
      · rw [hdirectory, hjournal]
        cases checkpoint with
        | some state =>
          refine .inl ⟨?_, hstate⟩
          simp [hjournal]
        | none =>
          refine .inr ⟨[], .start none, ?_, rfl, hstate.symm⟩
          simp only [List.isEmpty_nil, Option.isNone_none, Bool.and_self, if_true, List.foldl_cons,
            List.foldl_nil, Directory.after, hjournal, List.nil_append]
          exact written_header
    refine .opened hopened fun state h => ?_
    cases h.holds with
    | empty => exact hstate
    | written hwritten => exact absurd hjournal hwritten.ne_nil
  | recovered hne hdid hsame hreplays hstate hops hwritten =>
    have hne : d.journal ≠ [] := hne
    obtain ⟨s', hfinish, hdone, hstore⟩ := @on_finishOpen s
      (d.journal.isEmpty && checkpoint.isNone) now fun hfresh => by simp [hne] at hfresh
    simp only [hfinish]
    rw [← hdid.store] at hsame hstate
    obtain ⟨hoptions, hisOpen, hcovered, hkept⟩ := hsame.opened hstore
    have hdirectory : s'.directory = s.directory := by
      rw [hdone.directory]
      simp [hne]
    have hlimit : (loadedSession options d checkpoint).store.recordLimit =
        options.policy.maxJournalRecordBytes.toNat := by
      rw [recordLimit, loadedSession, loaded_options]
    rw [hlimit] at hwritten hreplays
    rw [loadedSession, loaded_replayStart, loaded_covered] at hreplays
    have hopened : Opened options d checkpoint s' := by
      refine ⟨hpolicy, hload, hoptions, hisOpen, hcovered, ?_, .inr ⟨_, _, ?_, hreplays, ?_⟩⟩
      · rw [hdirectory, hdid.directory]
        refine foldl_after_checkpoint fun image => ?_
        rcases hops with rfl | ⟨n, rfl⟩ <;> simp
      · rw [hdirectory]
        exact hwritten
      · rw [hkept, hstate]
    refine .opened hopened fun state h => ?_
    obtain ⟨records, tail, r', hr, rfl⟩ := h.replayable hne
    have hsame' := hr.replays
    rw [← (hr.scan).1, hlimit, loadedSession, loaded_replayStart, loaded_covered] at hsame'
    rw [hkept, hstate]
    rw [hreplays] at hsame'
    cases hsame'
    rfl

/-- A store opens over a directory that holds a state. -/
theorem open_of_canOpen {options : StoreOptions} {d : Directory} {checkpoint : Option DurableState}
    {state : DurableState} {now : Nanos} (h : CanOpen options d checkpoint state) :
    ∃ s', («open» now).on (.new options d) = (.ok (), s') ∧ s'.store.state = state := by
  have hopens := @open_opens options d now
  rcases hon : («open» now).on (.new options d) with ⟨r, s'⟩
  rw [hon] at hopens
  cases hopens with
  | failed hnot => exact absurd h (hnot _ _)
  | opened hopened hstate =>
    obtain rfl := Except.ok.inj (hopened.load.symm.trans h.load)
    exact ⟨s', rfl, hstate _ h⟩

/-- An open store holds what its directory does. -/
theorem opened_of_open {options : StoreOptions} {d : Directory} {now : Nanos} {s' : Session}
    (h : («open» now).on (.new options d) = (.ok (), s')) :
    ∃ checkpoint, Opened options d checkpoint s' := by
  have hopens := @open_opens options d now
  rw [h] at hopens
  cases hopens with
  | opened hopened => exact ⟨_, hopened⟩

end PodStore

end PodFabric
