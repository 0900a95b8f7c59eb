import PodFabric.Persist.Open
import PodFabric.Proof.Reopen

/-!
# What a refused opening leaves behind

On a platform that refuses nothing a store is opened as if it had no lock (`open_granted`). An
opening that fails leaves nothing behind only if it fails at the lock or at the checkpoint
(`refused_open_iff`): the checks before these leave the report as it was, and whatever fails later
leaves the lock held.
-/

namespace PodFabric

namespace LockedStore
variable {s s' : LockedStore} {p : Platform} {now : Nanos} {e : Status}

/-- A step of the store within the lock. -/
theorem on_within {α : Type} {step : StoreStep α} :
    (within step).on s =
      ((step.on s.session).1, { s with session := (step.on s.session).2 }) := by
  unfold within
  simp only [Proc.on_bind, Proc.on_get]
  rcases step.on s.session with ⟨x, session⟩
  cases x <;> rfl

/-- A check leaves everything as it is. -/
theorem on_attempt {α : Type} {x : Result α} : (attempt x).on s = (x, s) := Proc.on_liftM

end LockedStore

/-! ## A platform that refuses nothing -/

/-- Where the platform grants everything, the end of the replay is the store's. -/
theorem finishReplay_granted {s : Session} {scan : JournalScan} {r : Replay} :
    (Platform.finishReplay {} scan r).on s = (PodStore.finishReplay scan r).on s := by
  unfold Platform.finishReplay PodStore.finishReplay
  simp only [Proc.on_bind, Proc.on_get, on_modifyStore, PodStore.on_modifyReport]
  by_cases hclean : scan.status = .clean
  · rw [if_pos hclean, if_pos hclean]
  · rw [if_neg hclean, if_neg hclean]
    simp only [Proc.on_bind, on_attempt]

/-- Where the platform grants everything, the replay is the store's. -/
theorem replay_granted {s : Session} : (Platform.replay {}).on s = PodStore.replay.on s := by
  unfold Platform.replay PodStore.replay
  simp only [Proc.on_bind, Proc.on_get, on_attempt]
  by_cases hempty : s.directory.journal.length = 0
  · rw [if_pos hempty, if_pos hempty]
  · rw [if_neg hempty, if_neg hempty]
    simp only [Proc.on_bind, on_attempt]
    cases ensure (s.directory.journal.length ≤ (s.store.options.policy.maxJournalBytes * 2).toNat)
      (⟨.exhausted, "journal exceeds the configured bound and was not replayed"⟩ : Status) with
    | error e => rfl
    | ok =>
    dsimp only
    generalize scanJournal s.directory.journal s.store.recordLimit = scan
    cases ensure (scan.status ≠ .unsupportedVersion) (⟨.unsupported, scan.detail⟩ : Status) with
    | error e => rfl
    | ok =>
    dsimp only
    by_cases hcorrupt : scan.status = .corrupt ∨ scan.status = .oversizedRecord
    · rw [if_pos hcorrupt, if_pos hcorrupt]
    · rw [if_neg hcorrupt, if_neg hcorrupt]
      simp only [Proc.on_bind, PodStore.on_modifyReport]
      cases s.store.replayStart.records s.store.covered scan.records with
      | error fault => rfl
      | ok r => exact finishReplay_granted

/-- Where the platform grants everything, the end of the opening is the store's. -/
theorem finishOpen_granted {s : Session} {fresh : Bool} {now : Nanos} :
    (Platform.finishOpen {} fresh now).on s = (PodStore.finishOpen fresh now).on s := by
  unfold Platform.finishOpen PodStore.finishOpen
  cases fresh with
  | false => rfl
  | true => simp only [Proc.on_bind, on_attempt, if_true]

/-- Where the platform grants everything, the checkpoint is loaded as the store loads it. -/
theorem loadCheckpoint_granted {policy : Policy} {directory : Directory} :
    Platform.loadCheckpoint {} policy directory = loadCheckpoint policy directory := by
  unfold Platform.loadCheckpoint loadCheckpoint
  cases directory.checkpoint with
  | none => rfl
  | some bytes =>
    by_cases hsize : bytes.length ≤ (policy.maxJournalBytes * 4).toNat
    · simp only [ensure, if_pos hsize]
      rfl
    · simp only [decodeCheckpoint, ensure, if_neg hsize]
      rfl

/-- On a platform that refuses nothing, the store opens as if it had no lock. -/
theorem open_granted {s : LockedStore} {now : Nanos} (hpath : s.path ≠ [])
    (hheld : s.held = false) :
    ((LockedStore.open {} now).on s).1 = ((PodStore.open now).on s.session).1 ∧
      ((LockedStore.open {} now).on s).2.session = ((PodStore.open now).on s.session).2 := by
  unfold LockedStore.open PodStore.open
  simp only [Proc.on_bind, Proc.on_get, LockedStore.on_attempt, on_attempt]
  cases ensure (¬ s.session.store.isOpen = true)
    (⟨.refused, "the pod store is already open in this process"⟩ : Status) with
  | error e => exact ⟨rfl, rfl⟩
  | ok =>
  dsimp only
  cases s.session.store.options.policy.validate with
  | error e => exact ⟨rfl, rfl⟩
  | ok =>
  simp only [ensure, hpath, ne_eq, not_false_eq_true, if_true, LockedStore.acquire, hheld,
    Bool.false_eq_true, if_false, Proc.on_bind, Proc.on_modify, loadCheckpoint_granted]
  cases loadCheckpoint s.session.store.options.policy s.session.directory with
  | error e => exact ⟨rfl, rfl⟩
  | ok checkpoint =>
    simp only [LockedStore.on_within, Proc.on_bind, on_modifyStore, on_attempt, replay_granted,
      finishOpen_granted]
    have hfresh : decide (¬ ((Except.ok () : Result Unit).isOk &&
        decide ¬ s.session.directory.journal.isEmpty = true) = true) =
          s.session.directory.journal.isEmpty := by
      cases s.session.directory.journal.isEmpty <;> rfl
    rw [hfresh]
    exact ⟨rfl, rfl⟩

/-! ## Refusals -/

namespace LockedStore
variable {s s' : LockedStore} {p : Platform} {now : Nanos} {e : Status}

/-- The checks before the lock pass. -/
def Admitted (p : Platform) (s : LockedStore) : Prop :=
  s.session.store.options.policy.validate = .ok () ∧ s.path ≠ [] ∧ p.ensureDirectory = .ok ()

/-- A refused opening leaves nothing behind. -/
structure LeavesNothing (s s' : LockedStore) : Prop where
  unlocked : s'.held = false
  closed : s'.session.store.isOpen = false
  state : s'.session.store.state = s.session.store.state
  unusable : s'.session.store.recovery.usable = false

/-- An opening fails at the lock or at the checkpoint; or it fails before them, and the report is
not usable as it is. -/
def FailsEarly (p : Platform) (s : LockedStore) : Prop :=
  s.session.store.isOpen = false ∧ s.held = false ∧
    (¬ s.Admitted p ∧ s.session.store.recovery.usable = false ∨
      s.Admitted p ∧ (p.acquire.isOk = false ∨
        (p.loadCheckpoint s.session.store.options.policy s.session.directory).isOk = false))

/-- An opening that fails before it asks for the lock leaves the store as it was. -/
theorem untouched_leaves (hopen : s.session.store.isOpen = false) (hadmitted : ¬ s.Admitted p) :
    s.LeavesNothing s ↔ s.FailsEarly p := by
  constructor
  · exact fun h => ⟨hopen, h.unlocked, .inl ⟨hadmitted, h.unusable⟩⟩
  · rintro ⟨-, hheld, ⟨-, husable⟩ | ⟨h, -⟩⟩
    · exact ⟨hheld, hopen, rfl, husable⟩
    · exact absurd h hadmitted

/-- **A refused opening leaves nothing behind exactly when it fails early.** -/
theorem refused_open_iff (h : (LockedStore.open p now).on s = (.error e, s')) :
    s.LeavesNothing s' ↔ s.FailsEarly p := by
  unfold LockedStore.open at h
  simp only [Proc.on_bind, Proc.on_get, on_attempt] at h
  cases hopen : s.session.store.isOpen with
  | true =>
    simp only [hopen, ensure, not_true_eq_false, if_false] at h
    cases h
    refine iff_of_false (fun hleaves => ?_) fun hearly => ?_
    · rw [hleaves.closed] at hopen
      cases hopen
    · rw [hearly.1] at hopen
      cases hopen
  | false =>
  simp only [hopen, ensure, Bool.false_eq_true, not_false_eq_true, if_true] at h
  cases hpolicy : s.session.store.options.policy.validate with
  | error status =>
    rw [hpolicy] at h
    cases h
    exact untouched_leaves hopen fun hadmitted => by cases hpolicy.symm.trans hadmitted.1
  | ok =>
  rw [hpolicy] at h
  by_cases hpath : s.path = []
  · simp only [hpath, ne_eq, not_true_eq_false, if_false] at h
    cases h
    exact untouched_leaves hopen fun hadmitted => hadmitted.2.1 hpath
  simp only [hpath, ne_eq, not_false_eq_true, if_true] at h
  cases hensure : p.ensureDirectory with
  | error status =>
    rw [hensure] at h
    cases h
    exact untouched_leaves hopen fun hadmitted => by cases hensure.symm.trans hadmitted.2.2
  | ok =>
  rw [hensure] at h
  have hadmitted : s.Admitted p := ⟨hpolicy, hpath, hensure⟩
  dsimp only at h
  cases hheld : s.held with
  | true =>
    -- the lock that an earlier opening has left behind is refused, and stays
    simp only [acquire, hheld, if_true, fail, Proc.on_bind, on_within, Proc.on_throw] at h
    cases h
    refine iff_of_false (fun hleaves => ?_) fun hearly => ?_
    · cases hleaves.unlocked
    · exact absurd (hearly.2.1.symm.trans hheld) (by decide)
  | false =>
  simp only [acquire, hheld, Bool.false_eq_true, if_false] at h
  cases hlock : p.acquire with
  | error status =>
    simp only [hlock, Proc.on_bind, on_within, PodStore.on_modifyReport, Proc.on_throw] at h
    cases h
    exact iff_of_true ⟨hheld, hopen, rfl, rfl⟩
      ⟨hopen, hheld, .inr ⟨hadmitted, .inl (by rw [hlock]; rfl)⟩⟩
  | ok =>
  simp only [hlock, Proc.on_bind, Proc.on_modify] at h
  cases hload : p.loadCheckpoint s.session.store.options.policy s.session.directory with
  | error status =>
    simp only [hload, Proc.on_bind, on_within, PodStore.on_modifyReport, Proc.on_modify,
      Proc.on_throw] at h
    cases h
    refine iff_of_true ⟨rfl, hopen, rfl, ?_⟩
      ⟨hopen, hheld, .inr ⟨hadmitted, .inr (by rw [hload]; rfl)⟩⟩
    dsimp only [PodStore.Report.usable]
    split <;> rfl
  | ok checkpoint =>
    simp only [hload, on_within] at h
    obtain ⟨-, rfl⟩ := Prod.mk.inj h
    refine iff_of_false (fun hleaves => by cases hleaves.unlocked) ?_
    rintro ⟨-, -, ⟨hnot, -⟩ | ⟨-, hfails⟩⟩
    · exact hnot hadmitted
    · rw [hlock, hload] at hfails
      obtain hfails | hfails := hfails <;> cases hfails

end LockedStore

namespace Sample

/-- A store over a journal that is not one. -/
def unreadable : LockedStore where
  path := "pod"
  session := .new {} { journal := [0, 0, 0] }

/-- The platform when another process holds the lock. -/
def contended : Platform where
  acquire := fail .refused "the pod store is already locked by another process"

end Sample

/-- An opening that is refused the lock. -/
theorem contended_leaves : ∃ e s', (LockedStore.open Sample.contended 1).on Sample.unreadable =
    (.error e, s') ∧ Sample.unreadable.LeavesNothing s' :=
  have hopen : (LockedStore.open Sample.contended 1).on Sample.unreadable =
      (.error ⟨.refused, text "the pod store is already locked by another process"⟩, _) := rfl
  ⟨_, _, hopen, (LockedStore.refused_open_iff hopen).2
    ⟨rfl, rfl, .inr ⟨⟨by decide +kernel, by decide, rfl⟩, .inl rfl⟩⟩⟩

/-- A store that cannot read its journal does not open, and holds the lock on. -/
theorem unreadable_locked : ¬ ∀ (p : Platform) (s s' : LockedStore) (now : Nanos) (e : Status),
    s.session.store.isOpen = false → s.held = false →
    (LockedStore.open p now).on s = (.error e, s') → s.LeavesNothing s' := by
  intro hclaim
  have hfails : ((LockedStore.open {} 1).on Sample.unreadable).1.isOk = false := by decide +kernel
  have hheld : ((LockedStore.open {} 1).on Sample.unreadable).2.held = true := by decide +kernel
  rcases hopen : (LockedStore.open {} 1).on Sample.unreadable with ⟨x, s'⟩
  rw [hopen] at hfails hheld
  cases x with
  | ok => cases hfails
  | error e =>
    have hleaves := hclaim {} Sample.unreadable s' 1 e rfl rfl hopen
    exact absurd (hleaves.unlocked.symm.trans hheld) (by decide)

end PodFabric
