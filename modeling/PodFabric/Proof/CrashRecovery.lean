import PodFabric.Proof.Crash

/-!
# Recovery after crashes

Whatever a run of a store does and wherever it crashes, the directory is opened to the state that
was acknowledged last or to the one whose commit was in progress, if no crash leaves a part of the
header of the journal and no commit is made to a journal without a header (`crash_recovers`). A
journal that was truncated when the store crashed is not given its header when it is opened, since
there is a checkpoint: the next commit is acknowledged, and lost (`headerless_commit_lost`).
-/

namespace PodFabric

namespace Machine

/-! ## Conditions -/

/-- A commit that writes finds a journal with its header, and its state is one that is read back,
with a number of its own. -/
def Prepared (m : Machine) : DiskCall → Prop
  | .commit next now => ∀ body, m.store.Admits (next.stamped m.store.state now) body →
      m.disk.view.journal ≠ [] ∧ (next.stamped m.store.state now).Storable ∧
        m.store.state.sequence < (next.stamped m.store.state now).sequence
  | _ => True

/-- A crash loses nothing that was done before the call in which it comes, and leaves a journal of
a shape that can be opened. -/
def Careful (m : Machine) : MachineEvent → Prop
  | .call call => m.Prepared call
  | .crash during left => (∀ call ∈ during, m.Prepared call) ∧
      (m.disk.after .sync).Crashes (m.ops during) left ∧ Openable m.store.options left.journal

/-! ## What a run keeps -/

/-- An open store holds the state that was acknowledged last, and so does its directory, with a
journal that ends where a record does. -/
structure Running (options : StoreOptions) (m : Machine) : Prop where
  state : m.store.state = m.held
  holds : ∃ checkpoint, Carries options m.disk.view checkpoint m.held
  size : m.disk.view.journal.length ≤ (options.policy.maxJournalBytes * 2).toNat
  clean : m.disk.view.journal ≠ [] → (scanJournal m.disk.view.journal
    options.policy.maxJournalRecordBytes.toNat).status = .clean

/-- The state is the one that was acknowledged last, or the one whose commit was in progress. -/
def Candidate (m : Machine) (state : DurableState) : Prop :=
  state = m.held ∨ m.inProgress = some state

/-- The directory can be opened, and holds a state that may be recovered. -/
def Stopped (options : StoreOptions) (m : Machine) : Prop :=
  ∃ checkpoint state, m.Candidate state ∧ Carries options m.disk.view checkpoint state ∧
    Openable options m.disk.view.journal

/-- The invariant of the machine, for a store that is open and one that is not. -/
structure Consistent (options : StoreOptions) (m : Machine) : Prop where
  sameOptions : m.store.options = options
  running : m.store.isOpen = true → m.Running options
  stopped : m.store.isOpen = false → m.Stopped options

section Steps
variable {options : StoreOptions} {m : Machine} {call : DiskCall} {s : Session} {e : Status}
  {next : DurableState} {now : Nanos}

/-- A new machine is consistent. -/
theorem consistent_new (hoptions : options.Sound) : (Machine.new options).Consistent options where
  sameOptions := rfl
  running h := by cases h
  stopped _ :=
    have hholds : Carries options (Machine.new options).disk.view none {} :=
      ⟨rfl, fun _ h => (Option.not_mem_none _ h).elim, hoptions.keepable_fresh, .empty⟩
    ⟨none, {}, .inl rfl, hholds, .inl rfl, Nat.zero_le _, fun h => absurd rfl h⟩

/-- The files of a running machine can be opened. -/
theorem Running.openable (h : m.Running options) : Openable options m.disk.view.journal where
  header := by
    by_cases hne : m.disk.view.journal = []
    · exact .inl hne
    · have hclean := h.clean hne
      refine .inr (Nat.le_of_not_lt fun hshort => ?_)
      rw [scanJournal, if_pos hshort] at hclean
      cases hclean
  size := h.size
  repair hne := .inr (h.clean hne)

/-- A directory that is consistent is opened to a state that may be recovered. -/
theorem Stopped.open (hoptions : options.Sound) (h : m.Stopped options) :
    ∃ checkpoint s', (PodStore.open now).on (.new options m.disk.view) = (.ok (), s') ∧
      m.Candidate s'.store.state ∧ Carries options m.disk.view checkpoint s'.store.state := by
  obtain ⟨checkpoint, state, hcandidate, hholds, hopenable⟩ := h
  obtain ⟨s', hopen, rfl⟩ :=
    @PodStore.open_of_canOpen _ _ _ _ now (hholds.canOpen hoptions hopenable)
  exact ⟨checkpoint, s', hopen, hcandidate, hholds⟩

/-- A machine that is closed recovers. -/
theorem Consistent.recovers (hoptions : options.Sound) (h : m.Consistent options)
    (hclosed : m.store.isOpen = false) : m.Recovers now := by
  obtain ⟨checkpoint, s', hopen, hcandidate, -⟩ := (h.stopped hclosed).open hoptions
  rw [← h.sameOptions] at hopen
  exact ⟨s', hopen, hcandidate⟩

/-! ## Calls -/

/-- A call that is refused does nothing. -/
def Refused (m : Machine) (call : DiskCall) : Prop := ∃ e, m.perform call = (.error e, m.session)

/-- An open store refuses to be opened. -/
theorem refused_open (hopen : m.store.isOpen = true) : m.Refused (.open now) := by
  refine ⟨⟨.refused, "the pod store is already open in this process"⟩, ?_⟩
  unfold perform PodStore.open
  simp only [hopen, if_true, Proc.on_bind, Proc.on_get, on_attempt, session, ensure,
    not_true_eq_false, if_false]

/-- A commit the store does not admit is refused. -/
theorem refused_commit (hnot : ∀ body, ¬ m.store.Admits (next.stamped m.store.state now) body) :
    m.Refused (.commit next now) := by
  rcases @PodStore.on_commit m.session next now with ⟨body, hadmits, -⟩ | ⟨-, hon⟩
  · exact absurd hadmits (hnot body)
  · exact hon

/-- A closed store refuses to compact. -/
theorem refused_compact (hclosed : m.store.isOpen = false) : m.Refused .compact := by
  refine ⟨⟨.invalid, "the pod store is not open"⟩, ?_⟩
  unfold perform PodStore.compact
  simp only [Proc.on_bind, Proc.on_get, on_attempt, session, ensure, hclosed, Bool.false_eq_true,
    if_false]

/-- A refused call does nothing to the files. -/
theorem Refused.ops (h : m.Refused call) : m.ops (some call) = [] := by
  obtain ⟨e, h⟩ := h
  rw [Machine.ops, h]
  rfl

/-- A refused call leaves the machine. -/
theorem Refused.after (h : m.Refused call) : m.after call = m := by
  obtain ⟨e, h⟩ := h
  unfold Machine.after
  rw [h]
  cases call <;> rfl

/-- After the opening of a closed store. -/
theorem Consistent.opened (hoptions : options.Sound) (h : m.Consistent options)
    (hclosed : m.store.isOpen = false) : (m.after (.open now)).Consistent options := by
  have hstopped := h.stopped hclosed
  obtain ⟨checkpoint, s', hopen, -, hholds⟩ := @Stopped.open _ m now hoptions hstopped
  obtain ⟨_, hopened⟩ := PodStore.opened_of_open hopen
  obtain ⟨hafter, hclean, hlength⟩ := hholds.opened hopen
  have hperform : m.perform (.open now) = (.ok (), s') := by
    rw [perform, hclosed, h.sameOptions]
    exact hopen
  have hmachine : m.after (.open now) =
      { store := s'.store, disk := s'.log.foldl Disk.after m.disk, held := s'.store.state } := by
    unfold Machine.after
    rw [hperform]
  have hview : (s'.log.foldl Disk.after m.disk).view = s'.directory := by
    rw [Disk.view_foldl, (PodStore.open_writes hopen).1]
  obtain ⟨-, -, -, -, -, hsize, -⟩ := hstopped
  rw [hmachine]
  refine ⟨hopened.sameOptions, fun _ => ⟨rfl, ⟨checkpoint, ?_⟩, ?_, ?_⟩, fun hnot => ?_⟩
  · rw [hview]
    exact hafter
  · rw [hview]
    have hheader : journalHeaderSize ≤ (options.policy.maxJournalBytes * 2).toNat := by
      obtain ⟨hleast, hmost⟩ := hoptions.record_le
      have hsixteen : journalHeaderSize = 16 := rfl
      rw [hoptions.twice]
      omega
    exact hlength.trans (max_le hsize hheader)
  · rw [hview]
    exact hclean
  · rw [hopened.isOpen] at hnot
    cases hnot

/-- The commit that an open store makes. -/
theorem Running.committable {body : List UInt8} (hoptions : m.store.options = options)
    (h : m.Running options) (hprepared : m.Prepared (.commit next now))
    (hadmits : m.store.Admits (next.stamped m.store.state now) body) :
    ∃ checkpoint, Committable options m.disk.view checkpoint m.held
      (next.stamped m.store.state now) body := by
  obtain ⟨hne, hstorable, hlater⟩ := hprepared body hadmits
  obtain ⟨checkpoint, hholds⟩ := h.holds
  have hfits := hadmits.fits
  rw [PodStore.recordLimit, hoptions] at hfits
  have hlater : m.held.sequence < (next.stamped m.store.state now).sequence := by
    rw [← h.state]
    exact hlater
  exact ⟨checkpoint, hholds, hholds.logs.whole hne (h.clean hne), hadmits.encode, hfits, hstorable,
    hlater⟩

/-- A running machine is consistent. -/
theorem Running.consistent (hoptions : m.store.options = options) (hopen : m.store.isOpen = true)
    (h : m.Running options) : m.Consistent options where
  sameOptions := hoptions
  running _ := h
  stopped hnot := absurd (hopen.symm.trans hnot) (by decide)

/-- After a commit. -/
theorem Consistent.committed (hoptions : options.Sound) (h : m.Consistent options)
    (hprepared : m.Prepared (.commit next now)) :
    (m.after (.commit next now)).Consistent options := by
  by_cases hadmitted : ∃ body, m.store.Admits (next.stamped m.store.state now) body
  swap
  · rwa [(refused_commit (not_exists.1 hadmitted)).after]
  obtain ⟨body, hadmits⟩ := hadmitted
  have hopen := hadmits.isOpen
  obtain ⟨checkpoint, hcommittable⟩ :=
    (h.running hopen).committable h.sameOptions hprepared hadmits
  obtain ⟨s', more, store', hon, hdid, hends⟩ :=
    @PodStore.commit_does m.session next _ now body rfl hadmits rfl
  have hmachine : m.after (.commit next now) =
      { store := s'.store, disk := s'.log.foldl Disk.after m.disk, held := s'.store.state } := by
    have hperform : m.perform (.commit next now) = (.ok (), s') := hon
    unfold Machine.after
    rw [hperform]
  have hstore : m.session.store = m.store := rfl
  rw [hstore] at hdid hends
  generalize next.stamped m.store.state now = written at *
  obtain ⟨hholds, hclean⟩ :=
    @Committable.committed _ m.store _ _ _ _ _ hoptions hcommittable
  have hlog : s'.log = m.store.commitPlan written body ++ more := by
    rw [hdid.log]
    rfl
  rw [hmachine, hdid.store, hlog]
  rcases hends with ⟨rfl, rfl, hsize⟩ | ⟨rfl, rfl, -⟩
  · have hview : ((m.store.commitPlan written body ++ []).foldl Disk.after m.disk).view =
        (m.store.commitPlan written body).foldl Directory.after m.disk.view := by
      rw [Disk.view_foldl, List.append_nil]
    have hdirectory : s'.directory =
        (m.store.commitPlan written body).foldl Directory.after m.disk.view := by
      rw [hdid.directory, List.append_nil]
      rfl
    rw [hdirectory, h.sameOptions] at hsize
    refine Running.consistent h.sameOptions hopen ⟨rfl, ⟨checkpoint, ?_⟩, ?_, ?_⟩
    · rw [hview]
      exact hholds
    · rw [hview, hoptions.twice]
      omega
    · rw [hview]
      exact fun _ => hclean
  · obtain ⟨hholds', hclean', hsize⟩ := @Carries.compacted _ (m.store.committed written) _ _ _ body
      hoptions hholds h.sameOptions rfl hadmits.encode
    have hview : ((m.store.commitPlan written body ++
        (m.store.committed written).compactOps body).foldl Disk.after m.disk).view =
          ((m.store.committed written).compactOps body).foldl Directory.after
            ((m.store.commitPlan written body).foldl Directory.after m.disk.view) := by
      rw [Disk.view_foldl, List.foldl_append]
    refine Running.consistent h.sameOptions hopen ⟨rfl, ⟨some written, ?_⟩, ?_, ?_⟩
    · rw [hview]
      exact hholds'
    · rw [hview]
      exact hsize
    · rw [hview]
      exact fun _ => hclean'

/-- After a compaction. -/
theorem Consistent.compacted (hoptions : options.Sound) (h : m.Consistent options) :
    (m.after .compact).Consistent options := by
  cases hopen : m.store.isOpen with
  | false => rwa [(refused_compact hopen).after]
  | true =>
    have hrunning := h.running hopen
    obtain ⟨checkpoint, hholds⟩ := hrunning.holds
    obtain ⟨body, hbody, -⟩ := hholds.keepable.body
    have hencode : m.store.state.encode = .ok body := by rwa [hrunning.state]
    obtain ⟨hdid, -⟩ := @PodStore.compact_does m.session body hopen hencode rfl
    have hstore : m.session.store = m.store := rfl
    rw [hstore] at hdid
    have hmachine : m.after .compact = { m with
        store := m.store.compacted
        disk := (m.store.compactOps body).foldl Disk.after m.disk } := by
      have hlog : (PodStore.compact.on m.session).2.log = m.store.compactOps body := by
        rw [hdid.log]
        rfl
      unfold Machine.after perform
      simp only [hdid.store, hlog]
    obtain ⟨hholds', hclean, hsize⟩ :=
      @Carries.compacted _ m.store _ _ _ body hoptions hholds h.sameOptions hrunning.state hbody
    have hview : ((m.store.compactOps body).foldl Disk.after m.disk).view =
        (m.store.compactOps body).foldl Directory.after m.disk.view := Disk.view_foldl
    rw [hmachine]
    refine Running.consistent h.sameOptions hopen ⟨hrunning.state, ⟨some m.held, ?_⟩, ?_, ?_⟩
    · rw [hview]
      exact hholds'
    · rw [hview]
      exact hsize
    · rw [hview]
      exact fun _ => hclean

/-- After a store is closed. -/
theorem Consistent.closed (h : m.Consistent options) : (m.after .close).Consistent options := by
  have hmachine : m.after .close = { m with store := { m.store with isOpen := false } } := rfl
  rw [hmachine]
  refine ⟨h.sameOptions, fun hopen => (Bool.false_ne_true hopen).elim, fun _ => ?_⟩
  cases hopen : m.store.isOpen with
  | false => exact h.stopped hopen
  | true =>
    have hrunning := h.running hopen
    obtain ⟨checkpoint, hholds⟩ := hrunning.holds
    exact ⟨checkpoint, m.held, .inl rfl, hholds, hrunning.openable⟩

/-- After any call. -/
theorem Consistent.after (hoptions : options.Sound) (h : m.Consistent options)
    (hprepared : m.Prepared call) : (m.after call).Consistent options := by
  cases call with
  | «open» now =>
    cases hopen : m.store.isOpen with
    | false => exact h.opened hoptions hopen
    | true => rwa [(refused_open hopen).after]
  | commit next now => exact h.committed hoptions hprepared
  | compact => exact h.compacted hoptions
  | close => exact h.closed

/-! ## Crashes -/

section Crashes
variable {during : Option DiskCall} {left : Directory}

/-- What a crash leaves holds a state that may be recovered then. -/
def Leaves (options : StoreOptions) (m : Machine) (during : Option DiskCall) (left : Directory) :
    Prop :=
  ∃ checkpoint state, (state = m.held ∨ m.interrupted during = some state) ∧
    Carries options left checkpoint state

/-- A crash of a closed store. -/
theorem Consistent.crash_closed (hoptions : options.Sound) (h : m.Consistent options)
    (hclosed : m.store.isOpen = false)
    (hcrash : (m.disk.after .sync).Crashes (m.ops during) left)
    (hheader : left.journal = [] ∨ journalHeaderSize ≤ left.journal.length) :
    m.Leaves options during left := by
  have hstopped := h.stopped hclosed
  have hinterrupted : m.interrupted during = m.inProgress := by
    unfold interrupted
    split
    · rw [hclosed, if_neg Bool.false_ne_true]
    · rfl
  have hidle : m.ops during = [] → m.Leaves options during left := fun hnone => by
    rw [hnone] at hcrash
    rw [hcrash.of_idle rfl]
    obtain ⟨checkpoint, state, hcandidate, hholds, -⟩ := hstopped
    rw [Candidate, ← hinterrupted] at hcandidate
    exact ⟨checkpoint, state, hcandidate, hholds⟩
  have hrefused : ∀ body next, ¬ m.store.Admits next body := fun body next hadmits =>
    absurd (hadmits.isOpen.symm.trans hclosed) (by decide)
  cases during with
  | none => exact hidle rfl
  | some call =>
  cases call with
  | commit next now => exact hidle (refused_commit fun body => hrefused body _).ops
  | compact => exact hidle (refused_compact hclosed).ops
  | close => exact hidle rfl
  | «open» now =>
    obtain ⟨checkpoint, s', hopen, hcandidate, hholds⟩ :=
      @Stopped.open _ m now hoptions hstopped
    have hlog : m.ops (some (.open now)) = s'.log := by
      simp only [Machine.ops, perform, hclosed, h.sameOptions, Bool.false_eq_true, if_false, hopen]
    rw [hlog] at hcrash
    have hview : (m.disk.after .sync).view = m.disk.view := Disk.view_after
    rw [← hview] at hholds hopen
    rw [Candidate, ← hinterrupted] at hcandidate
    exact ⟨checkpoint, _, hcandidate, hholds.crash_open hopen rfl hcrash hheader⟩

/-- A crash of an open store. -/
theorem Consistent.crash_open (hoptions : options.Sound) (h : m.Consistent options)
    (hopen : m.store.isOpen = true) (hprepared : ∀ call ∈ during, m.Prepared call)
    (hcrash : (m.disk.after .sync).Crashes (m.ops during) left)
    (hheader : left.journal = [] ∨ journalHeaderSize ≤ left.journal.length) :
    m.Leaves options during left := by
  have hrunning := h.running hopen
  obtain ⟨checkpoint, hholds⟩ := hrunning.holds
  have hidle : m.ops during = [] → m.Leaves options during left := fun hnone => by
    rw [hnone] at hcrash
    rw [hcrash.of_idle rfl]
    exact ⟨checkpoint, m.held, .inl rfl, hholds⟩
  cases during with
  | none => exact hidle rfl
  | some call =>
  cases call with
  | «open» now => exact hidle (refused_open hopen).ops
  | close => exact hidle rfl
  | compact =>
    obtain ⟨body, hbody, -⟩ := hholds.keepable.body
    have hencode : m.store.state.encode = .ok body := by rwa [hrunning.state]
    obtain ⟨hdid, -⟩ := @PodStore.compact_does m.session body hopen hencode rfl
    have hops : m.ops (some .compact) = m.store.compactOps body := hdid.log
    rw [hops] at hcrash
    have hleft : ∀ journal,
        JournalLeft (m.disk.after .sync).journal (m.disk.after .sync).pending journal →
        ∃ before, before = m.held ∧ before.sequence ≤ m.held.sequence ∧
          Carries options ⟨(m.disk.after .sync).checkpoint, journal⟩ checkpoint before :=
      fun journal hjournal => by
        rw [hjournal.of_nil]
        exact ⟨m.held, rfl, le_rfl, hholds⟩
    obtain ⟨checkpoint', after, hafter, hleaves⟩ :=
      @Keepable.crash_compact _ _ _ _ _ _ _ (fun state => state = m.held) hholds.keepable
        h.sameOptions hrunning.state hbody rfl hleft hcrash hheader
    exact ⟨checkpoint', after, .inl hafter, hleaves⟩
  | commit next now =>
    by_cases hadmitted : ∃ body, m.store.Admits (next.stamped m.store.state now) body
    swap
    · exact hidle (refused_commit (not_exists.1 hadmitted)).ops
    obtain ⟨body, hadmits⟩ := hadmitted
    obtain ⟨checkpoint', hcommittable⟩ :=
      hrunning.committable h.sameOptions (hprepared _ rfl) hadmits
    obtain ⟨s', more, store', hon, hdid, hends⟩ :=
      @PodStore.commit_does m.session next _ now body rfl hadmits rfl
    have hops : m.ops (some (.commit next now)) =
        m.store.commitPlan (next.stamped m.store.state now) body ++ more := by
      have hperform : m.perform (.commit next now) = (.ok (), s') := hon
      rw [Machine.ops, hperform]
      exact hdid.log
    rw [hops] at hcrash
    have hmore : more = [] ∨
        more = (m.store.committed (next.stamped m.store.state now)).compactOps body :=
      hends.imp (fun h => h.1) fun h => h.1
    have hview : (m.disk.after .sync).view = m.disk.view := Disk.view_after
    rw [← hview] at hcommittable
    obtain ⟨checkpoint'', after, hafter, hleaves⟩ :=
      hcommittable.crash hoptions h.sameOptions rfl hmore hcrash hheader
    refine ⟨checkpoint'', after, hafter.imp_right fun h => ?_, hleaves⟩
    rw [interrupted, if_pos hopen, h]

end Crashes

/-- One event of a run. -/
theorem Consistent.step {event : MachineEvent} (hoptions : options.Sound) (h : m.Consistent options)
    (hcareful : m.Careful event) : (m.next event).Consistent options := by
  cases event with
  | call call => exact h.after hoptions hcareful
  | crash during left =>
    obtain ⟨hprepared, hcrash, hopenable⟩ := hcareful
    rw [h.sameOptions] at hopenable
    have hleaves : m.Leaves options during left := by
      cases hopen : m.store.isOpen with
      | false => exact h.crash_closed hoptions hopen hcrash hopenable.header
      | true => exact h.crash_open hoptions hopen hprepared hcrash hopenable.header
    obtain ⟨checkpoint, state, hcandidate, hholds⟩ := hleaves
    refine ⟨h.sameOptions, fun hopen => (Bool.false_ne_true hopen).elim, fun _ => ?_⟩
    exact ⟨checkpoint, state, hcandidate, hholds, hopenable⟩

end Steps

end Machine

/-! ## Journals without a header -/

/-- A journal that ends inside its header is not opened. -/
theorem short_header_refused {options : StoreOptions} {d : Directory} {now : Nanos}
    (hne : d.journal ≠ []) (hshort : d.journal.length < journalHeaderSize) :
    ∃ e, ((PodStore.open now).on (.new options d)).1 = .error e := by
  rcases hopen : (PodStore.open now).on (.new options d) with ⟨e | ⟨⟩, s'⟩
  · exact ⟨e, rfl⟩
  obtain ⟨hdirectory, ⟨hnil, -⟩ | ⟨-, hlog, header, body, hjournal, hlength, -⟩⟩ :=
    PodStore.open_writes hopen
  · exact absurd hnil hne
  · have hle : s'.directory.journal.length ≤ d.journal.length := by
      rw [hdirectory]
      rcases hlog with hlog | ⟨n, hlog⟩
      · rw [hlog]
        exact le_rfl
      · rw [hlog]
        exact List.length_take_le' _ _
    rw [hjournal, List.length_append] at hle
    omega

/-- A journal that does not begin with a header is not opened. -/
theorem headerless_refused {options : StoreOptions} {d : Directory} {now : Nanos}
    (hne : d.journal ≠ []) (hmagic : d.journal.take journalMagic.length ≠ journalMagic) :
    ∃ e, ((PodStore.open now).on (.new options d)).1 = .error e := by
  rcases hopen : (PodStore.open now).on (.new options d) with ⟨e | ⟨⟩, s'⟩
  · exact ⟨e, rfl⟩
  obtain ⟨hdirectory, ⟨hnil, -⟩ | ⟨-, hlog, header, body, hjournal, hlength, hheader, -⟩⟩ :=
    PodStore.open_writes hopen
  · exact absurd hnil hne
  · have hprefix : s'.directory.journal <+: d.journal := by
      rw [hdirectory]
      rcases hlog with hlog | ⟨n, hlog⟩
      · rw [hlog]
        exact List.prefix_rfl
      · rw [hlog]
        exact List.take_prefix _ _
    simp only [decodeJournalHeader, check_eq_ok, ensure_eq_ok] at hheader
    obtain ⟨-, hmagic', -⟩ := hheader
    obtain ⟨rest, hrest⟩ := hprefix
    refine absurd ?_ hmagic
    rw [← hrest, hjournal, List.append_assoc, List.take_append_of_le_length, hmagic']
    rw [hlength]
    decide

/-- A commit to an empty journal writes records without a header. It is acknowledged, and the
directory is not opened again. -/
theorem headerless_commit_lost {m : Machine} {next : DurableState} {now later : Nanos}
    {body : List UInt8} (hadmits : m.store.Admits (next.stamped m.store.state now) body)
    (hempty : m.disk.view.journal = [])
    (hsmall : ((m.store.commitPlan (next.stamped m.store.state now) body).foldl Directory.after
      m.disk.view).journal.length ≤ m.store.options.policy.maxJournalBytes.toNat)
    (hmagic : bytes64 (next.stamped m.store.state now).sequence ≠ journalMagic) :
    (m.perform (.commit next now)).1 = .ok () ∧
      ¬ ((m.after (.commit next now)).after .close).Recovers later := by
  obtain ⟨s', more, store', hon, hdid, hends⟩ :=
    @PodStore.commit_does m.session next _ now body rfl hadmits rfl
  have hperform : m.perform (.commit next now) = (.ok (), s') := hon
  have hstore : m.session.store = m.store := rfl
  rw [hstore] at hdid hends
  rcases hends with ⟨rfl, -, -⟩ | ⟨-, -, hlarge⟩
  swap
  · exact absurd hsmall (not_le.2 hlarge)
  refine ⟨by rw [hperform], ?_⟩
  generalize next.stamped m.store.state now = written at *
  have hmachine : m.after (.commit next now) =
      { store := s'.store, disk := s'.log.foldl Disk.after m.disk, held := s'.store.state } := by
    unfold Machine.after
    rw [hperform]
  have hview : ((m.after (.commit next now)).after .close).disk.view = s'.directory := by
    have hclose : ((m.after (.commit next now)).after .close).disk =
        (m.after (.commit next now)).disk := rfl
    rw [hclose, hmachine, Disk.view_foldl, hdid.directory, hdid.log]
    rfl
  have hjournal : s'.directory.journal =
      (written.beginRecord body).frame ++ written.commitRecord.frame := by
    have hsession : m.session.directory.journal = [] := hempty
    rw [hdid.directory, List.append_nil, foldl_after_journal, hsession, PodStore.commitPlan]
    split <;> rfl
  rintro ⟨s, hs, -⟩
  rw [hview] at hs
  have hne : s'.directory.journal ≠ [] := by
    rw [hjournal]
    exact fun h => JournalRecord.frame_ne_nil (List.append_eq_nil_iff.1 h).1
  have htake : s'.directory.journal.take journalMagic.length = bytes64 written.sequence := by
    rw [hjournal]
    rfl
  obtain ⟨e, he⟩ := headerless_refused hne (by rwa [htake])
  rw [hs] at he
  cases he

/-! ## Runs -/

/-- In every run from an empty directory whose events meet the condition, the directory is opened,
whenever no store is open, to the state that was acknowledged last or to the one whose commit was in
progress. -/
theorem crash_recovers {options : StoreOptions} {events : List MachineEvent}
    (hoptions : options.Sound)
    (hrun : ∀ x ∈ Run.trace Machine.next (.new options) events, x.1.Possible x.2 ∧ x.1.Careful x.2)
    (hclosed : (Run.final Machine.next (.new options) events).store.isOpen = false)
    (now : Nanos) : (Run.final Machine.next (.new options) events).Recovers now :=
  have hconsistent : (Run.final Machine.next (.new options) events).Consistent options :=
    Run.final_invariant (Machine.consistent_new hoptions)
      fun x hx h => h.step hoptions (hrun x hx).2
  hconsistent.recovers hoptions hclosed

namespace Sample

/-- The default options are sound. -/
theorem soundOptions : ({} : StoreOptions).Sound := ⟨by decide +kernel, by decide⟩

/-- The first commit of a new store, and a crash five bytes into its first record. -/
def crashedCommit : List MachineEvent :=
  [.call (.open 1), .crash (some (.commit { epoch := ⟨1⟩ } 5))
    ⟨none, encodeJournalHeader journalVersion ++ [0, 0, 0, 0, 0]⟩]

/-- The store before its first commit. -/
def openedMachine : Machine := (Machine.new {}).next (.call (.open 1))

/-- The files of the machine that was opened. -/
theorem openedMachine_disk : openedMachine.disk.checkpoint = none ∧
    openedMachine.disk.journal = encodeJournalHeader journalVersion ∧
      openedMachine.disk.pending = [] := by
  decide +kernel

/-- The first thing that a commit does. -/
theorem commit_begins : ∃ frame rest,
    openedMachine.ops (some (.commit { epoch := ⟨1⟩ } 5)) = .append frame :: rest ∧
      frame.take 5 = [0, 0, 0, 0, 0] := by
  have hbegins : (openedMachine.ops (some (.commit { epoch := ⟨1⟩ } 5))).head?.map
      (fun op => (journalAfter [] op).take 5) = some [0, 0, 0, 0, 0] := by decide +kernel
  generalize openedMachine.ops (some (.commit { epoch := ⟨1⟩ } 5)) = ops at hbegins ⊢
  cases ops with
  | nil => cases hbegins
  | cons op rest =>
    cases op with
    | append frame => exact ⟨frame, rest, rfl, Option.some.inj hbegins⟩
    | truncate | sync | replace => simp [journalAfter, Directory.after] at hbegins

end Sample

/-- The commit is not there after the crash, and the store goes on from the state before it. -/
theorem crashed_commit_recovers :
    (Run.final Machine.next (.new {}) Sample.crashedCommit).Recovers 9 := by
  refine crash_recovers Sample.soundOptions ?_ rfl 9
  obtain ⟨frame, rest, hops, hframe⟩ := Sample.commit_begins
  obtain ⟨hcheckpoint, hjournal, hpending⟩ := Sample.openedMachine_disk
  -- before and after a sync the disk is the same
  have hleft : ∀ disk : Disk, disk.checkpoint = none →
      disk.journal = encodeJournalHeader journalVersion → disk.pending = [] →
      disk.Crashes (Sample.openedMachine.ops (some (.commit { epoch := ⟨1⟩ } 5)))
        ⟨none, encodeJournalHeader journalVersion ++ [0, 0, 0, 0, 0]⟩ :=
    fun disk hcheckpoint hjournal hpending => by
      rw [hops, ← hframe, ← hcheckpoint, ← hjournal]
      refine .later (@Disk.Crashes.now (disk.after (.append frame)) _ _ ?_)
      have happended : (disk.after (.append frame)).pending = [.append frame] := by
        simp [Disk.after, hpending]
      rw [happended]
      exact .part 5
  have hview : Sample.openedMachine.disk.view.journal = encodeJournalHeader journalVersion := by
    rw [Disk.view, hpending, hjournal]
    rfl
  have hprepared : Sample.openedMachine.Prepared (.commit { epoch := ⟨1⟩ } 5) := fun body _ =>
    ⟨by rw [hview]; exact PodStore.header_ne_nil,
      ⟨⟨rfl, Nat.zero_le _, Nat.zero_le _, Nat.zero_le _, Nat.zero_le _⟩, .nil⟩, by decide +kernel⟩
  rw [Sample.crashedCommit, Run.trace_cons, Run.trace_cons, Run.trace_nil]
  simp only [List.forall_mem_cons, List.not_mem_nil, false_implies, implies_true, and_true]
  refine ⟨⟨trivial, trivial⟩, hleft _ hcheckpoint hjournal hpending, ?_, ?_, ?_⟩
  · rintro call ⟨⟩
    exact hprepared
  · exact hleft _ hcheckpoint hview rfl
  · exact ⟨.inr (by decide), by decide +kernel, fun _ => .inl (by decide +kernel)⟩

namespace Sample

/-- The checkpoint of a store that nothing has been committed to. -/
def freshCheckpoint : List UInt8 := (encodeCheckpoint {}).toOption.getD []

/-- A new store crashes in a compaction, once its journal is truncated. It is opened, a state is
committed, and it is closed. -/
def crashedCompaction : List MachineEvent :=
  [.call (.open 1), .crash (some .compact) ⟨some freshCheckpoint, []⟩, .call (.open 2),
    .call (.commit { epoch := ⟨1⟩ } 5), .call .close]

/-- How a compaction begins. -/
theorem compaction_begins : ∃ rest,
    openedMachine.ops (some .compact) = .replace freshCheckpoint :: .truncate 0 :: rest := by
  have hbegins : (openedMachine.ops (some .compact)).take 2 =
      [.replace freshCheckpoint, .truncate 0] := by decide +kernel
  generalize openedMachine.ops (some .compact) = ops at hbegins ⊢
  have hops := List.take_append_drop 2 ops
  rw [hbegins] at hops
  exact ⟨ops.drop 2, hops.symm⟩

end Sample

/-- A directory whose journal was truncated when the store crashed is not given a header, and after
the next commit it is not opened again. -/
theorem crashed_compaction_refused : ¬ ∀ (options : StoreOptions) (events : List MachineEvent)
    (now : Nanos), options.Sound →
    (∀ x ∈ Run.trace Machine.next (.new options) events, x.1.Possible x.2) →
    (Run.final Machine.next (.new options) events).store.isOpen = false →
    (Run.final Machine.next (.new options) events).Recovers now := by
  intro hclaim
  have hcrash : Sample.openedMachine.Possible
      (.crash (some .compact) ⟨some Sample.freshCheckpoint, []⟩) := by
    obtain ⟨rest, hops⟩ := Sample.compaction_begins
    change Disk.Crashes _ (Sample.openedMachine.ops (some .compact)) _
    rw [hops]
    refine .later (.later (.now ?_))
    have hpending := Sample.openedMachine_disk.2.2
    simp only [Disk.after, hpending, List.nil_append]
    exact .kept .lost
  obtain ⟨s, hs, -⟩ := hclaim {} Sample.crashedCompaction 9 Sample.soundOptions (by
    rw [Sample.crashedCompaction]
    simp only [Run.trace_cons, Run.trace_nil, List.forall_mem_cons]
    exact ⟨trivial, hcrash, trivial, trivial, trivial, by simp⟩) rfl
  have hrefused : ((PodStore.open 9).on (.new {}
      (Run.final Machine.next (.new {}) Sample.crashedCompaction).disk.view)).1.isOk = false := by
    decide +kernel
  have hoptions : (Run.final Machine.next (.new {})
      Sample.crashedCompaction).store.options = {} := by decide +kernel
  rw [hoptions] at hs
  rw [hs] at hrefused
  cases hrefused

end PodFabric
