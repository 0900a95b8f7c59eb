import PodFabric.Persist.Run
import PodFabric.Proof.DurableCodec
import PodFabric.Proof.Reopen

/-!
# Acknowledged commits

A store that goes on after a write to its journal came short appends to a record that is cut short:
the scan stops there, and the commits after it are lost. As long as every commit that writes finds
the journal whole, what the directory is opened to later is the last state that was acknowledged, or
a later one.
-/

namespace PodFabric

/-! ## The replay of a commit -/

section Replay
variable {checkpoint : Option DurableState} {records more : List JournalRecord} {r : Replay}
  {state : DurableState} {body : List UInt8}

/-- Replaying more records goes on from where the others lead. -/
theorem Replay.over_append (h : Replay.over checkpoint records = .ok r) :
    Replay.over checkpoint (records ++ more) =
      r.records (checkpoint.map DurableState.sequence) more := by
  rw [Replay.over, Replay.records] at h
  rw [Replay.over, Replay.records, List.foldlM_append, h]
  rfl

/-- The record that opens a transaction does not change the state. -/
theorem Replay.over_begin (h : Replay.over checkpoint records = .ok r) :
    ∃ r', Replay.over checkpoint (records ++ [state.beginRecord body]) = .ok r' ∧
      r'.state = r.state := by
  rw [Replay.over_append h, Replay.records, List.foldlM_cons, Replay.record]
  split
  · exact ⟨_, rfl, rfl⟩
  · exact ⟨_, rfl, rfl⟩

/-- A record that the checkpoint covers is skipped. -/
theorem Replay.over_skipped {record : JournalRecord}
    (h : Replay.over (some state) records = .ok r) (hle : record.sequence.value ≤ state.sequence) :
    ∃ r', Replay.over (some state) (records ++ [record]) = .ok r' ∧ r'.state = r.state := by
  have hcovered : ∃ sequence ∈ (some state).map DurableState.sequence,
      record.sequence.value ≤ sequence := ⟨_, rfl, hle⟩
  rw [Replay.over_append h, Replay.records, List.foldlM_cons, Replay.record, if_pos hcovered]
  exact ⟨_, rfl, rfl⟩

/-- A transaction that the checkpoint does not cover brings its state about. -/
theorem Replay.over_commit (h : Replay.over checkpoint records = .ok r)
    (hcovered : ∀ sequence ∈ checkpoint.map DurableState.sequence, sequence < state.sequence)
    (hdecode : DurableState.decode body = .ok state) :
    ∃ r', Replay.over checkpoint
        (records ++ [state.beginRecord body, state.commitRecord]) = .ok r' ∧ r'.state = state := by
  have hnot : ¬ ∃ sequence ∈ checkpoint.map DurableState.sequence, state.sequence ≤ sequence := by
    rintro ⟨sequence, hsequence, hle⟩
    exact absurd hle (UInt64.not_le.2 (hcovered sequence hsequence))
  rw [Replay.over_append h, Replay.records]
  simp only [List.foldlM_cons, List.foldlM_nil]
  rw [Replay.record, DurableState.beginRecord, if_neg hnot]
  simp only [bind, Except.bind]
  rw [Replay.record, DurableState.commitRecord, if_neg hnot]
  simp only [ne_eq, not_true_eq_false, if_false, Replay.apply, hdecode]
  exact ⟨_, rfl, rfl⟩

end Replay

/-! ## Conditions -/

namespace Session

/-- The journal ends where a record does. -/
def Whole (s : Session) : Prop :=
  (scanJournal s.directory.journal s.store.recordLimit).status = .clean

/-- The commit appends nothing: it is refused before it writes, or its first write fails at once. -/
def Declines (s : Session) (call : CommitCall) : Prop :=
  (∀ body, ¬ s.store.Admits (s.written call) body) ∨ call.writes.head?.join = some 0

/-- Both records of the commit reach the journal. -/
def Lands (call : CommitCall) : Prop :=
  call.writes.head?.join = none ∧
    ∀ n, call.writes.tail.head?.join = some n → journalRecordPrefixSize ≤ n

/-- A commit whose writes are not cut short lands. -/
theorem Lands.of_none {call : CommitCall} (hfirst : call.writes.head?.join = none)
    (hsecond : call.writes.tail.head?.join = none) : Lands call :=
  ⟨hfirst, fun n hn => by
    rw [hsecond] at hn
    cases hn⟩

/-- The commit writes to a whole journal, if it writes at all; and a state that reaches the journal
is one that is read back, with a number that the checkpoint does not cover. -/
def Sound (s : Session) (call : CommitCall) : Prop :=
  s.Declines call ∨ s.Whole ∧ (Lands call → (s.written call).Storable ∧
    ∀ sequence ∈ s.store.covered, sequence < (s.written call).sequence)

/-- The directory is left in a shape that can be opened: the header of the journal is complete, the
files are within their bounds, and a tail that is cut short may be repaired. -/
structure Reopenable (s : Session) : Prop where
  header : s.directory.journal = [] ∨ journalHeaderSize ≤ s.directory.journal.length
  journal : s.directory.journal.length ≤ (s.store.options.policy.maxJournalBytes * 2).toNat
  checkpoint : ∀ image, s.directory.checkpoint = some image →
    image.length ≤ (s.store.options.policy.maxJournalBytes * 4).toNat
  repair : s.directory.journal ≠ [] → s.store.options.repairTornTail = true ∨ s.Whole

end Session

/-! ## What a session keeps -/

/-- The last state handed over survives. -/
theorem Survives.last {history : List (DurableState × Bool)} {state : DurableState} {ok : Bool} :
    Survives (history ++ [(state, ok)]) state := ⟨history, ok, [], rfl, by simp⟩

/-- A commit that fails may leave the state that was there. -/
theorem Survives.failed {history : List (DurableState × Bool)} {state state' : DurableState}
    (h : Survives history state) : Survives (history ++ [(state', false)]) state := by
  obtain ⟨before, ok, after, rfl, hafter⟩ := h
  refine ⟨before, ok, after ++ [(state', false)], by simp, ?_⟩
  rw [List.forall_mem_append]
  exact ⟨hafter, by simp⟩

/-- After a commit that succeeds only its state survives. -/
theorem Survives.acknowledged {history : List (DurableState × Bool)} {state state' : DurableState}
    (h : Survives (history ++ [(state, true)]) state') : state' = state := by
  obtain ⟨before, ok, after, heq, hafter⟩ := h
  rcases List.eq_nil_or_concat after with rfl | ⟨after', last, rfl⟩
  · have hlast := (List.append_inj' heq rfl).2
    rw [List.cons.injEq, Prod.mk.injEq] at hlast
    exact hlast.1.1.symm
  · rw [List.concat_eq_append] at heq hafter
    have heq : history ++ [(state, true)] = (before ++ (state', ok) :: after') ++ [last] := by
      rw [heq, List.append_assoc, List.cons_append]
    have hlast := (List.append_inj' heq rfl).2
    have hfailed := hafter last (by simp)
    rw [← List.head_eq_of_cons_eq hlast] at hfailed
    cases hfailed

/-- The checkpoint is one that loads, if it is within its bound. -/
def Session.Loads (s : Session) (checkpoint : Option DurableState) : Prop :=
  (∀ image, s.directory.checkpoint = some image →
    image.length ≤ (s.store.options.policy.maxJournalBytes * 4).toNat) →
      loadCheckpoint s.store.options.policy s.directory = .ok checkpoint

/-- An open store whose directory holds a state that survives. A journal that was cut inside its
header holds nothing. -/
structure Session.Kept (s : Session) (history : List (DurableState × Bool)) : Prop where
  policy : s.store.options.policy.validate = .ok ()
  isOpen : s.store.isOpen = true
  holds : ∃ checkpoint state, s.Loads checkpoint ∧
    s.store.covered = checkpoint.map DurableState.sequence ∧ Survives history state ∧
    (Stores s.store.recordLimit checkpoint s.directory.journal state ∨
      s.directory.journal ≠ [] ∧ s.directory.journal.length < journalHeaderSize)

/-- A directory that is kept, in a shape that can be opened, is opened to a state that survives. -/
theorem Session.Kept.reopen {s : Session} {history : List (DurableState × Bool)} {now : Nanos}
    (h : s.Kept history) (hreopen : s.Reopenable) :
    ∃ s', s.reopen now = (.ok (), s') ∧ Survives history s'.store.state := by
  obtain ⟨checkpoint, state, hloads, -, hsurvives, hholds⟩ := h.holds
  have hholds : Stores s.store.recordLimit checkpoint s.directory.journal state := by
    rcases hholds with hholds | ⟨hne, hshort⟩
    · exact hholds
    · have := hreopen.header.resolve_left hne
      omega
  obtain ⟨s', hs', hstate⟩ := @PodStore.open_of_canOpen s.store.options s.directory checkpoint state
    now ⟨h.policy, hloads hreopen.checkpoint, hholds, hreopen.journal, hreopen.repair⟩
  exact ⟨s', hs', hstate ▸ hsurvives⟩

/-- A store that has been opened keeps what it was opened to. -/
theorem kept_of_open {options : StoreOptions} {d : Directory} {now : Nanos} {s : Session}
    (h : (PodStore.open now).on (.new options d) = (.ok (), s)) :
    s.Kept [(s.store.state, true)] := by
  obtain ⟨checkpoint, hopened⟩ := PodStore.opened_of_open h
  have hload : loadCheckpoint s.store.options.policy s.directory = .ok checkpoint := by
    rw [hopened.sameOptions, loadCheckpoint, hopened.sameCheckpoint]
    exact hopened.load
  refine ⟨hopened.sameOptions ▸ hopened.policy, hopened.isOpen, checkpoint, s.store.state,
    fun _ => hload, hopened.covered, ⟨[], true, [], rfl, by simp⟩, .inl ?_⟩
  rw [PodStore.recordLimit, hopened.sameOptions]
  rcases hopened.journal with ⟨hempty, hstate⟩ | ⟨records, r, hwritten, hreplay, hstate⟩
  · rw [hstate]
    exact .empty hempty
  · rw [← hstate]
    exact .written hwritten (.inl rfl) hreplay

/-! ## One commit -/

section Keeping
variable {s s' : Session} {history history' : List (DurableState × Bool)}
  {checkpoint : Option DurableState} {records : List JournalRecord} {r r' : Replay}
    {record : JournalRecord} {state : DurableState}
  {journal body : List UInt8} {limit n : ℕ}

/-- What is kept when the journal is whole. -/
theorem Session.Kept.whole (h : s.Kept history) (hwhole : s.Whole) :
    ∃ checkpoint records r, s.Loads checkpoint ∧
      s.store.covered = checkpoint.map DurableState.sequence ∧ Survives history r.state ∧
      Written s.store.recordLimit s.directory.journal records [] ∧
      Replay.over checkpoint records = .ok r := by
  have hlong : ¬ s.directory.journal.length < journalHeaderSize := by
    intro hshort
    rw [Session.Whole, scanJournal, if_pos hshort] at hwhole
    cases hwhole
  obtain ⟨checkpoint, state, hloads, hcovered, hsurvives, hstores | ⟨-, hshort⟩⟩ := h.holds
  swap
  · exact absurd hshort hlong
  cases hstores with
  | empty hempty => exact absurd (by rw [hempty]; decide) hlong
  | @written records tail r hwritten htorn hreplay =>
    by_cases htail : tail = []
    · subst htail
      exact ⟨checkpoint, records, r, hloads, hcovered, hsurvives, hwritten, hreplay⟩
    · rw [Session.Whole, ((scan_written hwritten htorn).2.2 htail).1] at hwhole
      cases hwhole

/-- Any part of a record that does not change the state may be appended to a whole journal. -/
theorem Stores.append_take (h : Written limit journal records [])
    (hreplay : Replay.over checkpoint records = .ok r)
    (hsame : ∃ r', Replay.over checkpoint (records ++ [record]) = .ok r' ∧ r'.state = r.state)
    (hfits : record.payload.length ≤ min limit journalHardMaxRecord) :
    Stores limit checkpoint (journal ++ record.frame.take n) r.state := by
  by_cases hn : n < record.frame.length
  · obtain ⟨hwritten, htorn⟩ := h.append_torn hfits hn
    exact .written hwritten htorn hreplay
  · obtain ⟨r', hreplay', hstate⟩ := hsame
    rw [List.take_of_length_le (Nat.le_of_not_lt hn), ← hstate]
    exact .written (h.append hfits) (.inl rfl) hreplay'

/-- With the same checkpoint, a journal with the state in it is enough. -/
theorem Session.Kept.of_stores (h : s.Kept history) (hstore : s.store.SameFrame s'.store)
    (hcheckpoint : s'.directory.checkpoint = s.directory.checkpoint)
    (hloads : s.Loads checkpoint)
    (hcovered : s.store.covered = checkpoint.map DurableState.sequence)
    (hsurvives : Survives history' state)
    (hstores : Stores s.store.recordLimit checkpoint s'.directory.journal state) :
    s'.Kept history' := by
  have hloads' : s'.Loads checkpoint := by
    unfold Session.Loads loadCheckpoint at hloads ⊢
    rw [hstore.options, hcheckpoint]
    exact hloads
  rw [PodStore.recordLimit, ← hstore.options] at hstores
  exact ⟨hstore.options ▸ h.policy, hstore.isOpen.trans h.isOpen, checkpoint, state, hloads',
    hstore.covered.trans hcovered, hsurvives, .inl hstores⟩

/-- A commit that fails leaves what is kept. -/
theorem Session.Kept.failed (h : s.Kept history) : s.Kept (history ++ [(state, false)]) := by
  obtain ⟨checkpoint, held, hloads, hcovered, hsurvives, hstores⟩ := h.holds
  exact ⟨h.policy, h.isOpen, checkpoint, held, hloads, hcovered, hsurvives.failed, hstores⟩

/-- Only the store and the directory count. -/
theorem Session.Kept.congr (h : s.Kept history) (hstore : s'.store = s.store)
    (hdirectory : s'.directory = s.directory) : s'.Kept history := by
  obtain ⟨checkpoint, held, hloads, hcovered, hsurvives, hstores⟩ := h.holds
  unfold Session.Loads at hloads
  rw [← hstore] at hcovered
  rw [← hstore, ← hdirectory] at hloads hstores
  exact ⟨hstore ▸ h.policy, hstore ▸ h.isOpen, checkpoint, held, hloads, hcovered, hsurvives,
    hstores⟩

/-- What a compaction leaves holds the state that was compacted. -/
theorem Session.Kept.compacted {x : Except Status Unit} (h : s.Kept history)
    (hstate : s.store.state.Storable) (hbody : s.store.state.encode = .ok body)
    (hfits : body.length ≤ min s.store.recordLimit journalHardMaxRecord)
    (hexecuted : Executed s s' (s.store.compactPlan body) s.store.compacted x)
    (hsurvives : Survives history' s.store.state) : s'.Kept history' := by
  obtain ⟨hstore, hcheckpoint, hjournal⟩ := PodStore.compact_leaves hexecuted
  have hoptions : s'.store.options = s.store.options := by rw [hstore]; rfl
  have hlimit : s'.store.recordLimit = s.store.recordLimit := by
    rw [PodStore.recordLimit, hoptions]
    rfl
  have hcovered : s'.store.covered = some s.store.state.sequence := by rw [hstore]; rfl
  have hloads : s'.Loads (some s.store.state) := fun hbound => by
    rw [loadCheckpoint, hcheckpoint]
    simp only [decode_checkpointImage (hfits.trans (min_le_right ..)) (hbound _ hcheckpoint),
      DurableState.decode_of_encode hstate hbody]
    rfl
  refine ⟨hoptions ▸ h.policy, by rw [hstore]; exact h.isOpen, some s.store.state, s.store.state,
    hloads, hcovered, hsurvives, ?_⟩
  rw [hlimit]
  rcases hjournal with ⟨n, hn, hjournal⟩ | ⟨n, hjournal⟩
  · rw [hjournal]
    cases n with
    | zero => exact .inl (.empty rfl)
    | succ n =>
      refine .inr ⟨fun hnil => ?_, ?_⟩
      · exact PodStore.header_ne_nil ((List.take_eq_nil_iff.1 hnil).resolve_left n.succ_ne_zero)
      · rw [List.length_take]
        omega
  · rw [hjournal]
    exact .inl (Stores.append_take written_header rfl (Replay.over_skipped rfl le_rfl) hfits)

/-- A commit both of whose records reach a whole journal leaves its state there. -/
theorem Session.Kept.landed (h : s.Kept history) (hwhole : s.Whole)
    (hadmits : s.store.Admits state body) (hstorable : state.Storable)
    (hlater : ∀ sequence ∈ s.store.covered, sequence < state.sequence)
    (hstore : s.store.SameFrame s'.store)
    (hcheckpoint : s'.directory.checkpoint = s.directory.checkpoint)
    (hjournal : s'.directory.journal =
      s.directory.journal ++ (state.beginRecord body).frame ++ state.commitRecord.frame)
    (hsurvives : Survives history' state) : s'.Kept history' := by
  obtain ⟨checkpoint, records, r, hloads, hcovered, -, hwritten, hreplay⟩ := h.whole hwhole
  rw [hcovered] at hlater
  obtain ⟨r', hreplay', rfl⟩ := Replay.over_commit hreplay hlater
    (DurableState.decode_of_encode hstorable hadmits.encode)
  refine h.of_stores hstore hcheckpoint hloads hcovered hsurvives ?_
  have hbegun : Written s.store.recordLimit _ (records ++ [r'.state.beginRecord body]) [] :=
    hwritten.append hadmits.fits
  have hlanded : Written s.store.recordLimit _
      (records ++ [r'.state.beginRecord body] ++ [r'.state.commitRecord]) [] :=
    hbegun.append (Nat.zero_le _)
  rw [List.append_assoc records] at hlanded
  rw [hjournal]
  exact .written hlanded (.inl rfl) hreplay'

/-- A commit that goes through leaves its state, before it compacts. -/
theorem Session.Kept.committed {call : CommitCall} (h : s.Kept history)
    (hadmits : s.store.Admits (s.written call) body)
    (hsound : s.Whole ∧ (Lands call → (s.written call).Storable ∧
      ∀ sequence ∈ s.store.covered, sequence < (s.written call).sequence))
    (hfirst : call.writes.head?.join = none) (hsecond : call.writes.tail.head?.join = none)
    (hstore : s'.store = s.store.committed (s.written call))
    (hplan : s'.directory =
      (s.store.commitPlan (s.written call) body).foldl Directory.after s.directory) :
    s'.Kept (history ++ [(s.written call, true)]) := by
  obtain ⟨hstorable, hlater⟩ := hsound.2 (.of_none hfirst hsecond)
  have hdirectory : s'.directory = { s.directory with
      journal := s.directory.journal ++ ((s.written call).beginRecord body).frame ++
        (s.written call).commitRecord.frame } := by
    rw [hplan, PodStore.commitPlan]
    split <;> rfl
  refine h.landed hsound.1 hadmits hstorable hlater ?_ (by rw [hdirectory]) (by rw [hdirectory])
    Survives.last
  rw [hstore]
  exact ⟨rfl, rfl, rfl, rfl⟩

/-- One commit of a session. -/
theorem Session.Kept.next {call : CommitCall} (h : s.Kept history) (hsound : s.Sound call) :
    (s.next call).Kept (history ++ [Session.outcome (s, call)]) := by
  have hcommitted := @PodStore.commit_committed { s with writes := call.writes } call.next call.now
  have hstates : call.next.stamped s.store.state call.now = s.written call := rfl
  rw [hstates] at hcommitted
  rw [Session.outcome, Session.acknowledges, Session.next, Session.commit]
  dsimp only
  generalize (PodStore.commit call.next call.now).on { s with writes := call.writes } = result
    at hcommitted ⊢
  obtain ⟨x, s'⟩ := result
  dsimp only at hcommitted ⊢
  -- a commit whose first write goes through is not one that appends nothing
  have hwrites : ∀ {body}, s.store.Admits (s.written call) body →
      call.writes.head?.join = none → ¬ s.Declines call := fun hadmits hfirst hdeclines => by
    rcases hdeclines with hnot | hzero
    · exact hnot _ hadmits
    · rw [hfirst] at hzero
      cases hzero
  cases hcommitted with
  | refused hnot => exact h.failed.congr rfl rfl
  | @tornBegin body _ n e hadmits hfirst hdid =>
    rcases hsound with hdeclines | ⟨hwhole, -⟩
    · have hzero := hdeclines.resolve_left fun hnot => hnot body hadmits
      rw [hfirst, Option.some.injEq] at hzero
      subst hzero
      exact h.failed.congr hdid.store (by rw [hdid.directory]; simp [Directory.after])
    · obtain ⟨checkpoint, records, r, hloads, hcovered, hsurvives, hwritten, hreplay⟩ :=
        h.whole hwhole
      refine h.of_stores (by rw [hdid.store]; exact ⟨rfl, rfl, rfl, rfl⟩)
        (by rw [hdid.directory]; rfl) hloads hcovered hsurvives.failed ?_
      rw [hdid.directory]
      exact Stores.append_take hwritten hreplay (Replay.over_begin hreplay) hadmits.fits
  | @tornCommit body _ n e hadmits hfirst hsecond hdid =>
    obtain ⟨hwhole, hlands⟩ := hsound.resolve_left (hwrites hadmits hfirst)
    have hframe : s.store.SameFrame s'.store := by
      rw [hdid.store]
      exact ⟨rfl, rfl, rfl, rfl⟩
    by_cases hn : n < journalRecordPrefixSize
    · obtain ⟨checkpoint, records, r, hloads, hcovered, hsurvives, hwritten, hreplay⟩ :=
        h.whole hwhole
      obtain ⟨r', hreplay', hstate⟩ :=
        @Replay.over_begin _ _ _ (s.written call) body hreplay
      refine h.of_stores hframe (by rw [hdid.directory]; rfl) hloads hcovered hsurvives.failed ?_
      have hbegun : Written s.store.recordLimit _
          (records ++ [(s.written call).beginRecord body]) [] := hwritten.append hadmits.fits
      have hshort : n < (s.written call).commitRecord.frame.length := hn
      obtain ⟨hwritten', htorn⟩ := hbegun.append_torn (Nat.zero_le _) hshort
      rw [hdid.directory, ← hstate]
      exact .written hwritten' htorn hreplay'
    · obtain ⟨hstorable, hlater⟩ := hlands ⟨hfirst, fun k hk => by
        rw [hsecond, Option.some.injEq] at hk
        omega⟩
      refine h.landed hwhole hadmits hstorable hlater hframe (by rw [hdid.directory]; rfl) ?_
        Survives.last
      have hall : (s.written call).commitRecord.frame.take n =
          (s.written call).commitRecord.frame :=
        List.take_of_length_le (Nat.le_of_not_lt hn)
      rw [hdid.directory, hall]
      rfl
  | kept hadmits hfirst hsecond hdid =>
    exact h.committed hadmits (hsound.resolve_left (hwrites hadmits hfirst)) hfirst hsecond
      hdid.store hdid.directory
  | compacting hadmits hfirst hsecond hdid hexecuted =>
    have hsound := hsound.resolve_left (hwrites hadmits hfirst)
    have hkept := h.committed hadmits hsound hfirst hsecond hdid.store hdid.directory
    have hstate : _ = s.written call := congrArg PodStore.state hdid.store
    obtain ⟨hstorable, -⟩ := hsound.2 (.of_none hfirst hsecond)
    rw [← hdid.store] at hexecuted
    refine hkept.compacted (by rw [hstate]; exact hstorable) (by rw [hstate]; exact hadmits.encode)
      (by rw [hdid.store]; exact hadmits.fits) hexecuted ?_
    rw [hstate]
    exact Survives.last

/-- A session of commits. -/
theorem Session.Kept.final : ∀ {calls : List CommitCall} {s : Session}
    {history : List (DurableState × Bool)}, s.Kept history →
    (∀ x ∈ Run.trace Session.next s calls, x.1.Sound x.2) →
      (Run.final Session.next s calls).Kept (history ++ s.attempts calls)
  | [], s, history, h, _ => by
    rw [Session.attempts, Run.trace_nil, List.map_nil, List.append_nil]
    exact h
  | call :: calls, s, history, h, hsound => by
    rw [Run.trace_cons, List.forall_mem_cons] at hsound
    have hkept := (h.next hsound.1).final hsound.2
    rw [Session.attempts, Run.trace_cons, List.map_cons, List.append_cons]
    exact hkept

end Keeping

/-! ## Sessions -/

/-- The attempts of a session, the last one apart. -/
theorem Session.attempts_concat {s : Session} {calls : List CommitCall} {call : CommitCall} :
    s.attempts (calls ++ [call]) =
      s.attempts calls ++ [Session.outcome (Run.final Session.next s calls, call)] := by
  rw [Session.attempts, Run.trace_append, List.map_append]
  rfl

/-- No commit that was acknowledged is lost as long as every commit that writes finds the journal
whole: the directory is opened to the state of the last one, or to a later state. -/
theorem acknowledged_survives {options : StoreOptions} {d : Directory} {now later : Nanos}
    {s : Session} {calls : List CommitCall}
    (hopen : (PodStore.open now).on (.new options d) = (.ok (), s))
    (hsound : ∀ x ∈ Run.trace Session.next s calls, x.1.Sound x.2)
    (hreopen : (Run.final Session.next s calls).Reopenable) :
    ∃ s', (Run.final Session.next s calls).reopen later = (.ok (), s') ∧
      Survives ((s.store.state, true) :: s.attempts calls) s'.store.state :=
  ((kept_of_open hopen).final hsound).reopen hreopen

namespace Sample

/-- A session on an empty directory. -/
def freshSession : Session := ((PodStore.open 1).on (.new {} {})).2

/-- A commit that succeeds, then one that comes short five bytes into its first record. -/
def tornAtEnd : List CommitCall :=
  [{ next := { epoch := ⟨1⟩ }, now := 5 }, { next := { epoch := ⟨2⟩ }, now := 6, writes := [some 5] }]

/-- After these, another commit that succeeds. -/
def tornInBetween : List CommitCall := tornAtEnd ++ [{ next := { epoch := ⟨3⟩ }, now := 7 }]

end Sample

set_option maxRecDepth 4000 in
/-- The last commit comes short, and the directory is opened to a state that survives. -/
theorem torn_commit_survives :
    ∃ s', (Run.final Session.next Sample.freshSession Sample.tornAtEnd).reopen 9 = (.ok (), s') ∧
      Survives ((Sample.freshSession.store.state, true) ::
        Sample.freshSession.attempts Sample.tornAtEnd) s'.store.state := by
  have hok : ((PodStore.open 1).on (.new {} {})).1 = .ok () := by decide +kernel
  have hopen : (PodStore.open 1).on (.new {} {}) = (.ok (), Sample.freshSession) := by
    rw [Sample.freshSession, ← hok]
  refine acknowledged_survives hopen ?_ ?_
  · have hfirst : Sample.freshSession.Sound { next := { epoch := ⟨1⟩ }, now := 5 } := by
      refine .inr ⟨show _ = ScanStatus.clean by decide +kernel, fun _ =>
        ⟨⟨⟨rfl, Nat.zero_le _, Nat.zero_le _, Nat.zero_le _, Nat.zero_le _⟩, .nil⟩,
          fun sequence hcovered => ?_⟩⟩
      have hnone : Sample.freshSession.store.covered = none := by decide +kernel
      rw [hnone] at hcovered
      cases hcovered
    have hsecond : (Sample.freshSession.next { next := { epoch := ⟨1⟩ }, now := 5 }).Sound
        { next := { epoch := ⟨2⟩ }, now := 6, writes := [some 5] } :=
      .inr ⟨show _ = ScanStatus.clean by decide +kernel, fun hlands => by cases hlands.1⟩
    rw [Sample.tornAtEnd]
    simp only [Run.trace_cons, Run.trace_nil, List.forall_mem_cons]
    exact ⟨hfirst, hsecond, by simp⟩
  · refine ⟨by decide +kernel, by decide +kernel, fun image himage => ?_,
      fun _ => .inl (by decide +kernel)⟩
    have hnone : (Run.final Session.next Sample.freshSession Sample.tornAtEnd).directory.checkpoint
        =
        none := by decide +kernel
    rw [hnone] at himage
    cases himage

set_option maxRecDepth 8000 in
/-- A commit that was acknowledged after one that came short: opening the directory again succeeds,
and recovers the state from before both. -/
theorem torn_commit_hides_next :
    ∃ s', (Run.final Session.next Sample.freshSession Sample.tornInBetween).reopen 9 =
      (.ok (), s') ∧
      ¬ Survives ((Sample.freshSession.store.state, true) ::
        Sample.freshSession.attempts Sample.tornInBetween) s'.store.state := by
  have hreopen : ((Run.final Session.next Sample.freshSession Sample.tornInBetween).reopen 9).1 =
    .ok () := by decide +kernel
  have hold : ((Run.final Session.next Sample.freshSession
    Sample.tornInBetween).reopen 9).2.store.state.epoch = ⟨1⟩ := by decide +kernel
  have hacknowledged : (Run.final Session.next Sample.freshSession Sample.tornAtEnd).acknowledges
    { next := { epoch := ⟨3⟩ }, now := 7 } = true := by decide +kernel
  generalize (Run.final Session.next Sample.freshSession Sample.tornInBetween).reopen 9 = result
    at hreopen hold
  refine ⟨result.2, by rw [← hreopen], fun hsurvives => ?_⟩
  rw [Sample.tornInBetween, Session.attempts_concat, ← List.cons_append, Session.outcome]
    at hsurvives
  generalize Run.final Session.next Sample.freshSession Sample.tornAtEnd = s
    at hacknowledged hsurvives
  dsimp only at hsurvives
  rw [hacknowledged] at hsurvives
  rw [hsurvives.acknowledged] at hold
  exact absurd hold (show (⟨3⟩ : PodEpoch) ≠ ⟨1⟩ by decide)

end PodFabric
