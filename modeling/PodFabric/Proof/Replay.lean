import PodFabric.Proof.Scan

/-!
# The order in which states are replayed

Opening a store applies the states that its journal puts into effect, one after the other, and looks
neither at the sequences inside them nor at the order of the records. It does not go back in time
when the journal does not (`forward_iff`).
-/

namespace PodFabric

/-! ## What is applied -/

/-- The states that the records apply, in order. -/
def Replay.states (checkpoint : Option UInt64) : Replay → List JournalRecord → List DurableState
  | _, [] => []
  | r, record :: records =>
    match r.record checkpoint record with
    | .error _ => []
    | .ok r' =>
      if r.applied < r'.applied then r'.state :: r'.states checkpoint records
      else r'.states checkpoint records

/-- The state of the checkpoint file. -/
def Session.checkpointState (s : Session) : Option DurableState :=
  (loadCheckpoint s.store.options.policy s.directory).toOption.join

/-- The records of the journal that a scan finds. -/
def Session.journalRecords (s : Session) : List JournalRecord :=
  (scanJournal s.directory.journal s.store.recordLimit).records

/-- The states that opening applies, in order. -/
def Session.appliedStates (s : Session) : List DurableState :=
  let store := s.store.loaded s.checkpointState
  store.replayStart.states store.covered s.journalRecords

/-- Opening does not go back in time: the sequences of the states that it applies never decrease and
are not below that of the checkpoint, and the sequences of the records do not go backwards. -/
structure Session.NeverBack (s : Session) : Prop where
  states : ((s.checkpointState.toList ++ s.appliedStates).map DurableState.sequence).Pairwise
    (· ≤ ·)
  records : (s.journalRecords.map fun record => record.sequence.value).Pairwise (· ≤ ·)

/-! ## What a journal puts into effect -/

/-- The payloads that records put into effect: that of a checkpoint, and that of the last begin at a
commit. -/
def landing : List UInt8 → List JournalRecord → List (List UInt8)
  | _, [] => []
  | pending, record :: records =>
    match record.type with
    | .checkpoint => record.payload :: landing pending records
    | .begin => landing record.payload records
    | .commit => pending :: landing [] records

/-- The checkpoint covers the record. -/
def JournalRecord.Covered (checkpoint : Option UInt64) (record : JournalRecord) : Prop :=
  ∃ sequence ∈ checkpoint, record.sequence.value ≤ sequence

instance JournalRecord.decidableCovered {checkpoint : Option UInt64} {record : JournalRecord} :
    Decidable (record.Covered checkpoint) :=
  inferInstanceAs (Decidable (∃ sequence ∈ checkpoint, record.sequence.value ≤ sequence))

/-- The sequence inside a payload. -/
def payloadSequence (payload : List UInt8) : Option UInt64 :=
  (DurableState.decode payload).toOption.map DurableState.sequence

/-- The sequences inside the payloads that the records after a checkpoint put into effect. -/
def landingSequences (checkpoint : Option UInt64) (pending : List UInt8)
    (records : List JournalRecord) : List UInt64 :=
  (landing pending (records.filter fun record => ¬ record.Covered checkpoint)).filterMap
    payloadSequence

/-- The journal does not go back in time: neither do the sequences of its records, nor those inside
the payloads that they put into effect after the checkpoint. -/
structure Session.Forward (s : Session) : Prop where
  landing : ((s.checkpointState.map DurableState.sequence).toList ++
    landingSequences (s.checkpointState.map DurableState.sequence) [] s.journalRecords).Pairwise
      (· ≤ ·)
  records : (s.journalRecords.map fun record => record.sequence.value).Pairwise (· ≤ ·)

section Landing
variable {checkpoint : Option UInt64} {pending : List UInt8} {records : List JournalRecord}
  {record : JournalRecord} {r r' : Replay}

/-- The empty body is no state. -/
theorem decode_nil (state : DurableState) : DurableState.decode [] ≠ .ok state := by
  intro h
  cases h

/-- A payload is applied when it is decoded. -/
theorem Replay.apply_eq_ok {payload : List UInt8} (h : r.apply payload = .ok r') :
    ∃ state, DurableState.decode payload = .ok state ∧
      r' = { r with state, applied := r.applied + 1, fromStore := true } := by
  unfold Replay.apply at h
  split at h
  · cases h
  · next state hstate => exact ⟨state, hstate, (Except.ok.inj h).symm⟩

/-- A payload that is decoded has its state's sequence. -/
theorem payloadSequence_of_decode {payload : List UInt8} {state : DurableState}
    (h : DurableState.decode payload = .ok state) :
      payloadSequence payload = some state.sequence := by
  rw [payloadSequence, h]
  rfl

/-- What a record does when it is replayed. -/
inductive Replay.Does (checkpoint : Option UInt64) (record : JournalRecord) (r : Replay) :
    Replay → Prop
  | skipped : record.Covered checkpoint → Does checkpoint record r
    { r with skipped := r.skipped + 1 }
  | replaced {next : Replay} : ¬ record.Covered checkpoint → record.type = .checkpoint →
      DurableState.decode record.payload = .ok next.state → next.applied = r.applied + 1 →
      (next.pending = [] ∧ next.openTxn = 0 ∨
        next.pending = r.pending ∧ next.openTxn = r.openTxn) → Does checkpoint record r next
  | begun {next : Replay} : ¬ record.Covered checkpoint → record.type = .begin →
      next.applied = r.applied → next.pending = record.payload → Does checkpoint record r next
  | committed {next : Replay} : ¬ record.Covered checkpoint → record.type = .commit →
      DurableState.decode r.pending = .ok next.state → next.applied = r.applied + 1 →
      next.pending = [] → Does checkpoint record r next

/-- What replaying a record does. -/
theorem Replay.record_does (h : r.record checkpoint record = .ok r') :
    Does checkpoint record r r' := by
  by_cases hcovered : record.Covered checkpoint
  · rw [Replay.record, if_pos (show ∃ sequence ∈ checkpoint, _ from hcovered), Except.ok.injEq] at h
    subst h
    exact .skipped hcovered
  · rw [Replay.record, if_neg (show ¬ ∃ sequence ∈ checkpoint, _ from hcovered)] at h
    cases htype : record.type with
    | checkpoint =>
      rw [htype] at h
      obtain ⟨state, hdecode, rfl⟩ := Replay.apply_eq_ok h
      refine .replaced hcovered htype hdecode ?_ ?_
      · dsimp only
        split <;> rfl
      · dsimp only
        split
        · exact .inl ⟨rfl, rfl⟩
        · exact .inr ⟨rfl, rfl⟩
    | begin =>
      rw [htype] at h
      cases h
      exact .begun hcovered htype rfl rfl
    | commit =>
      rw [htype] at h
      dsimp only at h
      split at h
      · cases h
      · cases happly : r.apply r.pending with
        | error fault => rw [happly] at h; cases h
        | ok applied =>
          rw [happly] at h
          cases h
          obtain ⟨state, hdecode, rfl⟩ := Replay.apply_eq_ok happly
          exact .committed hcovered htype hdecode rfl rfl

/-- A covered record lands nowhere. -/
theorem landingSequences_covered (h : record.Covered checkpoint) :
    landingSequences checkpoint pending (record :: records) =
      landingSequences checkpoint pending records := by
  rw [landingSequences, landingSequences, List.filter_cons_of_neg (by simpa using h)]

/-- Where records land behind one that is not covered. -/
theorem landingSequences_after (h : ¬ record.Covered checkpoint) :
    landingSequences checkpoint pending (record :: records) =
      (landing pending (record :: records.filter fun record =>
        ¬ record.Covered checkpoint)).filterMap payloadSequence := by
  rw [landingSequences, List.filter_cons_of_pos (by simpa using h)]

/-- The states that are applied are those of the payloads that are put into effect. A begin that is
given up may be taken for pending, since nothing can be committed then. -/
theorem states_landing : ∀ {records : List JournalRecord} {r r' : Replay} {pending : List UInt8},
    (pending = r.pending ∨ r.pending = [] ∧ r.openTxn = 0) →
    r.records checkpoint records = .ok r' →
      (r.states checkpoint records).map DurableState.sequence =
        landingSequences checkpoint pending records
  | [], _, _, _, _, _ => rfl
  | record :: records, r, r', pending, hpending, h => by
    obtain ⟨next, hnext, hrest⟩ : ∃ next, r.record checkpoint record = .ok next ∧
        next.records checkpoint records = .ok r' := by
      unfold Replay.records at h
      rw [List.foldlM_cons, bind_eq_ok] at h
      exact h
    rw [Replay.states, hnext]
    dsimp only
    cases Replay.record_does hnext with
    | skipped hcovered =>
      rw [if_neg (lt_irrefl _), landingSequences_covered hcovered]
      exact states_landing hpending hrest
    | replaced hafter htype hdecode happlied hopen =>
      have hpending' : pending = next.pending ∨ next.pending = [] ∧ next.openTxn = 0 := by
        obtain hnil | ⟨hsame, hsame'⟩ := hopen
        · exact .inr hnil
        · rw [hsame, hsame']
          exact hpending
      rw [if_pos (by omega), List.map_cons, landingSequences_after hafter, landing, htype]
      dsimp only
      rw [List.filterMap_cons_some (payloadSequence_of_decode hdecode)]
      exact congrArg _ (states_landing hpending' hrest)
    | begun hafter htype happlied hbegun =>
      rw [if_neg (by omega), landingSequences_after hafter, landing, htype]
      exact states_landing (.inl hbegun.symm) hrest
    | committed hafter htype hdecode happlied hdone =>
      obtain rfl : pending = r.pending := by
        obtain hsame | ⟨hnil, -⟩ := hpending
        · exact hsame
        · rw [hnil] at hdecode
          exact absurd hdecode (decode_nil next.state)
      rw [if_pos (by omega), List.map_cons, landingSequences_after hafter, landing, htype]
      dsimp only
      rw [List.filterMap_cons_some (payloadSequence_of_decode hdecode)]
      exact congrArg _ (states_landing (.inl hdone.symm) hrest)

end Landing

/-! ## Opening -/

section Opening
variable {s s' : Session} {now : Nanos}

/-- What a loaded checkpoint covers. -/
theorem covered_of_loaded {store : PodStore} {checkpoint : Option DurableState} :
    (store.loaded checkpoint).covered = checkpoint.map DurableState.sequence := by
  cases checkpoint <;> rfl

/-- Opening succeeds only when the records of the journal are replayed to their end. -/
theorem replays_of_open (h : (PodStore.open now).on s = (.ok (), s')) :
    ∃ r, (s.store.loaded s.checkpointState).replayStart.records
      (s.checkpointState.map DurableState.sequence) s.journalRecords = .ok r := by
  unfold PodStore.open at h
  simp only [Proc.on_bind, Proc.on_get, on_attempt] at h
  cases hclosed : ensure (¬ s.store.isOpen = true)
    (⟨.refused, "the pod store is already open in this process"⟩ : Status) with
  | error e => rw [hclosed] at h; cases h
  | ok =>
  rw [hclosed] at h
  cases hpolicy : s.store.options.policy.validate with
  | error e => rw [hpolicy] at h; cases h
  | ok =>
  rw [hpolicy] at h
  cases hload : loadCheckpoint s.store.options.policy s.directory with
  | error e => rw [hload] at h; cases h
  | ok checkpoint =>
  rw [hload] at h
  simp only [Proc.on_bind, on_modifyStore] at h
  have hcheckpoint : s.checkpointState = checkpoint := by
    rw [Session.checkpointState, hload]
    rfl
  rw [hcheckpoint]
  have hreplay := @PodStore.replay_replayed { s with store := s.store.loaded checkpoint }
  rcases hon : PodStore.replay.on { s with store := s.store.loaded checkpoint } with ⟨x, t⟩
  rw [hon] at h hreplay
  have hlimit : (s.store.loaded checkpoint).recordLimit = s.store.recordLimit := by
    cases checkpoint <;> rfl
  cases hreplay with
  | failed => cases h
  | empty hempty =>
    have hrecords : s.journalRecords = [] := by
      rw [Session.journalRecords, show s.directory.journal = [] from hempty]
      rfl
    rw [hrecords]
    exact ⟨_, rfl⟩
  | recovered _ _ _ hrecords =>
    rw [covered_of_loaded] at hrecords
    change _ = Except.ok _ at hrecords
    rw [hlimit] at hrecords
    exact ⟨_, hrecords⟩

/-- The states that opening applies are those that the journal puts into effect. -/
theorem appliedStates_sequence (h : (PodStore.open now).on s = (.ok (), s')) :
    s.appliedStates.map DurableState.sequence =
      landingSequences (s.checkpointState.map DurableState.sequence) [] s.journalRecords := by
  obtain ⟨r, hr⟩ := replays_of_open h
  rw [Session.appliedStates, covered_of_loaded]
  exact states_landing (.inl rfl) hr

/-- **Opening a store goes back in time exactly when its journal does.** -/
theorem never_back_iff (h : (PodStore.open now).on s = (.ok (), s')) :
    s.NeverBack ↔ s.Forward := by
  have hsequences : (s.checkpointState.toList ++ s.appliedStates).map DurableState.sequence =
      (s.checkpointState.map DurableState.sequence).toList ++
        landingSequences (s.checkpointState.map DurableState.sequence) [] s.journalRecords := by
    rw [List.map_append, appliedStates_sequence h]
    cases s.checkpointState <;> rfl
  constructor
  · exact fun hback => ⟨hsequences ▸ hback.states, hback.records⟩
  · exact fun hforward => ⟨hsequences ▸ hforward.landing, hforward.records⟩

end Opening

namespace Sample

/-- The checkpoint record of a state that has nothing but a sequence. -/
def checkpointRecord (sequence : UInt64) : JournalRecord where
  sequence := ⟨sequence⟩
  type := .checkpoint
  payload := (({ sequence } : DurableState).encode).toOption.getD []

/-- A store over a journal of such records. -/
def replaying (sequences : List UInt64) : Session :=
  .new {} { journal := journalImage (sequences.map fun n => (checkpointRecord n).frame) }

end Sample

set_option maxRecDepth 8000 in
/-- A journal with two states in order. -/
theorem ordered_never_back : ∃ s', (PodStore.open 1).on (Sample.replaying [1, 2]) = (.ok (), s') ∧
    (Sample.replaying [1, 2]).NeverBack := by
  have hok : ((PodStore.open 1).on (Sample.replaying [1, 2])).1 = .ok () := by decide +kernel
  rcases hopen : (PodStore.open 1).on (Sample.replaying [1, 2]) with ⟨x, s'⟩
  rw [hopen] at hok
  dsimp only at hok
  subst hok
  exact ⟨s', rfl, (never_back_iff hopen).2 ⟨by decide +kernel, by decide +kernel⟩⟩

set_option maxRecDepth 8000 in
/-- A journal with the same two states the other way round is opened, and goes back in time. -/
theorem reversed_goes_back : ¬ ∀ (s s' : Session) (now : Nanos),
    (scanJournal s.directory.journal s.store.recordLimit).status = .clean →
    (PodStore.open now).on s = (.ok (), s') → s.NeverBack := by
  intro hclaim
  have hclean : (scanJournal (Sample.replaying [2, 1]).directory.journal
    (Sample.replaying [2, 1]).store.recordLimit).status = .clean := by decide +kernel
  have hok : ((PodStore.open 1).on (Sample.replaying [2, 1])).1 = .ok () := by decide +kernel
  rcases hopen : (PodStore.open 1).on (Sample.replaying [2, 1]) with ⟨x, s'⟩
  rw [hopen] at hok
  dsimp only at hok
  subst hok
  have hstates := (hclaim _ s' 1 hclean hopen).states
  revert hstates
  decide +kernel

end PodFabric
