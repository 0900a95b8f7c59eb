import PodFabric.Control.Shutdown

/-!
# Wakeups at shutdown

A thread evaluates its condition and blocks with the mutex of the queue held, but `stop` sets
`stopping_` and notifies without it: the notification is lost to a thread that is about to block
just then (`stranded`). It is lost to no other: a thread that evaluates its condition after
`stopping_` is set does not block, and one that has blocked before is notified. So nothing is lost
in a run if and only if no thread is about to block when `stop` notifies (`no_lost_wakeup`).
-/

namespace PodFabric

/-! ## One step -/

/-- What a step of a thread keeps: what is set stays set, a thread is about to block only if it has
found `stopping_` not to be set, and it blocks only if it was about to. -/
structure Proceeds (m : Shared) (w : Waiter Place) (next : Shared × Waiter Place × Signal) :
    Prop where
  set : m.stopping = true → next.1.stopping = true
  parking : next.2.1 = .parking → m.stopping = false
  blocked : next.2.1 = .blocked → w = .parking ∨ w = .blocked

section Loops
variable {m : Shared} {w : Waiter Place} {maxPending : ℕ} {arrival : Arrival}

/-- The condition of every wait holds once `stopping_` is set. -/
theorem wait_proceeds {condition : Bool} (h : m.stopping = true → condition = true) :
    Proceeds m w (m.wait condition w) where
  set := id
  parking hparking := by
    obtain ⟨-, hnot⟩ := Waiter.step_parking hparking
    exact Bool.eq_false_iff.2 fun hset => by simp [h hset] at hnot
  blocked := Waiter.step_blocked

/-- A step from one place of the program to another, or back to a wait. -/
theorem Proceeds.of_place {next : Shared × Waiter Place × Signal}
    (hset : m.stopping = true → next.1.stopping = true)
    (hplace : next.2.1 = .locking ∨ ∃ place, next.2.1 = .elsewhere place) : Proceeds m w next where
  set := hset
  parking h := by
    rcases hplace with hplace | ⟨_, hplace⟩ <;> rw [hplace] at h <;> cases h
  blocked h := by
    rcases hplace with hplace | ⟨_, hplace⟩ <;> rw [hplace] at h <;> cases h

/-- What a step of the accepting thread does. -/
theorem acceptLoop_proceeds : Proceeds m w (acceptLoop maxPending arrival m w) := by
  unfold acceptLoop
  split
  · exact .of_place id (.inr ⟨_, rfl⟩)
  · refine .of_place id ?_
    dsimp only
    split
    · exact .inl rfl
    · exact .inr ⟨_, rfl⟩
  · split
    · exact .of_place id (.inr ⟨_, rfl⟩)
    · exact .of_place id (.inr ⟨_, rfl⟩)
  · exact .of_place id (.inr ⟨_, rfl⟩)
  · exact .of_place id (.inr ⟨_, rfl⟩)
  · exact wait_proceeds fun hset => decide_eq_true (.inl hset)

/-- What a step of a serving thread does. -/
theorem workerLoop_proceeds : Proceeds m w (workerLoop arrival m w) := by
  unfold workerLoop
  split
  · split
    · refine .of_place id ?_
      dsimp only
      split
      · exact .inr ⟨_, rfl⟩
      · exact .inl rfl
    · exact .of_place id (.inr ⟨_, rfl⟩)
  · exact .of_place id (.inr ⟨_, rfl⟩)
  · refine .of_place id ?_
    dsimp only
    split
    · exact .inl rfl
    · exact .inr ⟨_, rfl⟩
  · refine .of_place id ?_
    dsimp only
    split
    · exact .inr ⟨_, rfl⟩
    · split
      · exact .inr ⟨_, rfl⟩
      · exact .inl rfl
  · exact .of_place (fun _ => rfl) (.inr ⟨_, rfl⟩)
  · exact .of_place id (.inl rfl)
  · exact .of_place id (.inr ⟨_, rfl⟩)
  · exact wait_proceeds fun hset => decide_eq_true (.inl hset)

/-- A signal blocks no thread, and has none about to block. -/
theorem mem_signalled {choice : ℕ} {threads : List (Waiter Place)} {signal : Signal}
    (h : w ∈ ServerThreads.signalled choice threads signal) (hw : w = .parking ∨ w = .blocked) :
    w ∈ threads := by
  cases signal with
  | none => exact h
  | one => exact Waiter.mem_wakeOne h hw
  | all =>
    rcases hw with rfl | rfl
    · exact Waiter.parking_mem_wakeAll.1 h
    · exact absurd h Waiter.blocked_not_mem_wakeAll

end Loops

/-! ## Runs -/

/-- `stop` has set `stopping_` and has notified. -/
def Stop.notified : Stop → Bool
  | .joining | .stopped => true
  | _ => false

namespace ServerThreads
variable (s : ServerThreads)

/-- A thread blocks though `stop` has notified. -/
def LostWakeup : Prop := s.stop.notified = true ∧ .blocked ∈ s.threads

/-- When `stop` notifies, no thread is about to block. -/
def InTime : Step → Prop
  | .stop => s.stop = .set → .parking ∉ s.threads
  | _ => True

/-- What holds in a run in which no wakeup is lost: once `stop` has notified, no thread blocks or is
about to. -/
structure Settled : Prop where
  stopping : s.stop ≠ .outside → s.shared.stopping = true
  awake : s.stop.notified = true → .parking ∉ s.threads ∧ .blocked ∉ s.threads

variable {s} {maxPending workers : ℕ} {step : Step} {steps : List Step}

/-- In a settled state no wake-up is lost. -/
theorem Settled.not_lost (h : s.Settled) : ¬ s.LostWakeup := fun hlost =>
  (h.awake hlost.1).2 hlost.2

/-- What a step of either loop does. -/
theorem loop_proceeds {index : ℕ} {arrival : Arrival} {w : Waiter Place} :
    Proceeds s.shared w (s.loop maxPending index arrival w) := by
  unfold loop
  split
  · exact acceptLoop_proceeds
  · exact workerLoop_proceeds

/-- A step of a thread that exists. -/
theorem next_thread {index choice : ℕ} {arrival : Arrival} {w : Waiter Place}
    (h : s.threads[index]? = some w) : s.next maxPending (.thread index arrival choice) =
      { s with
        shared := (s.loop maxPending index arrival w).1
        threads := signalled choice
          (s.threads.set index (s.loop maxPending index arrival w).2.1)
          (s.loop maxPending index arrival w).2.2 } := by
  simp only [next, h]

/-- A thread that does not exist does nothing. -/
theorem next_no_thread {index choice : ℕ} {arrival : Arrival} (h : s.threads[index]? = none) :
    s.next maxPending (.thread index arrival choice) = s := by
  simp only [next, h]

/-- A step in time keeps the state settled. -/
theorem Settled.next (h : s.Settled) (htime : s.InTime step) :
    (s.next maxPending step).Settled := by
  cases step with
  | thread index arrival choice =>
    cases hw : s.threads[index]? with
    | none =>
      rw [next_no_thread hw]
      exact h
    | some w =>
    rw [next_thread hw]
    obtain ⟨hset, hparking, hblocked⟩ := @loop_proceeds s maxPending index arrival w
    refine ⟨fun hstop => hset (h.stopping hstop), fun hnotified => ?_⟩
    have hstopping : s.shared.stopping = true := h.stopping fun houtside => by
      rw [houtside] at hnotified
      cases hnotified
    obtain ⟨hnone, hblock⟩ := h.awake hnotified
    have hmem : w ∈ s.threads := List.mem_of_getElem? hw
    refine ⟨fun hin => ?_, fun hin => ?_⟩
    · rcases List.mem_or_eq_of_mem_set (mem_signalled hin (.inl rfl)) with hold | hnew
      · exact hnone hold
      · rw [hparking hnew.symm] at hstopping
        cases hstopping
    · rcases List.mem_or_eq_of_mem_set (mem_signalled hin (.inr rfl)) with hold | hnew
      · exact hblock hold
      · rcases hblocked hnew.symm with rfl | rfl
        · exact hnone hmem
        · exact hblock hmem
  | wakeup index =>
    refine ⟨h.stopping, fun hnotified => ?_⟩
    obtain ⟨hnone, hblock⟩ := h.awake hnotified
    exact ⟨fun hin => hnone (Waiter.mem_modify_wake hin (.inl rfl)),
      fun hin => hblock (Waiter.mem_modify_wake hin (.inr rfl))⟩
  | stop =>
    show s.stopNext.Settled
    unfold stopNext
    split
    · exact ⟨fun _ => rfl, fun hnotified => by cases hnotified⟩
    · next hset =>
      refine ⟨fun _ => h.stopping (by rw [hset]; exact Stop.noConfusion), fun _ => ?_⟩
      exact ⟨fun hin => htime hset (Waiter.parking_mem_wakeAll.1 hin),
        Waiter.blocked_not_mem_wakeAll⟩
    · next hjoining =>
      have hawake := h.awake (by rw [hjoining]; rfl)
      split
      · exact ⟨fun _ => h.stopping (by rw [hjoining]; exact Stop.noConfusion), fun _ => hawake⟩
      · exact h
    · exact h

/-- The notification of `stop` itself leaves no thread blocked. -/
theorem Settled.next_not_lost (h : s.Settled) : ¬ (s.next maxPending step).LostWakeup := by
  by_cases htime : s.InTime step
  · exact (h.next htime).not_lost
  · cases step with
    | thread | wakeup => exact absurd trivial htime
    | stop =>
      obtain ⟨hset, -⟩ := Classical.not_imp.1 htime
      intro hlost
      have hthreads : (s.next maxPending .stop).threads = Waiter.wakeAll s.threads := by
        simp only [ServerThreads.next, stopNext, hset]
      rw [LostWakeup, hthreads] at hlost
      exact Waiter.blocked_not_mem_wakeAll hlost.2

/-- A thread that is about to block when `stop` notifies may block afterwards. -/
theorem lost_of_not_inTime (h : ¬ s.InTime step) :
    ∃ step', ((s.next maxPending step).next maxPending step').LostWakeup := by
  cases step with
  | thread | wakeup => exact absurd trivial h
  | stop =>
    obtain ⟨hset, hparking⟩ := Classical.not_imp.1 h
    have hparking : .parking ∈ Waiter.wakeAll s.threads :=
      Waiter.parking_mem_wakeAll.2 (not_not.1 hparking)
    obtain ⟨index, hindex⟩ := List.mem_iff_getElem?.1 hparking
    have hlt := (List.getElem?_eq_some_iff.1 hindex).1
    have hnext : s.next maxPending .stop =
        { s with threads := Waiter.wakeAll s.threads, stop := .joining } := by
      simp only [ServerThreads.next, stopNext, hset]
    have hblocks : (loop maxPending { s with
        threads := Waiter.wakeAll s.threads, stop := .joining } index .nothing .parking).2 =
        (.blocked, .none) := by
      unfold loop
      split <;> rfl
    refine ⟨.thread index .nothing 0, ?_⟩
    rw [hnext, next_thread hindex, hblocks]
    exact ⟨rfl, List.mem_of_getElem? (List.getElem?_set_self hlt)⟩

/-- The threads are settled at their start. -/
theorem start_settled : (start workers).Settled where
  stopping h := absurd rfl h
  awake h := by cases h

end ServerThreads

/-- **No wakeup is lost at shutdown** if, and only if, no thread is about to block when `stop`
notifies: for any number of threads and every interleaving of their steps with those of `stop`,
spurious wakeups and requests for the shutdown included, no thread blocks after that in any state of
the run, or in any state that a step from there leads to. -/
theorem no_lost_wakeup {maxPending workers : ℕ} {steps : List ServerThreads.Step} :
    (∀ x ∈ ServerThreads.trace maxPending workers steps, x.1.InTime x.2) ↔
      ∀ x ∈ ServerThreads.trace maxPending workers steps,
        ¬ (x.1.next maxPending x.2).LostWakeup ∧
        ∀ step, ¬ ((x.1.next maxPending x.2).next maxPending step).LostWakeup := by
  constructor
  · intro h x hx
    have hsettled := (Run.trace_invariant ServerThreads.start_settled
      fun x hx (hs : x.1.Settled) => hs.next (h x hx)).1 x hx
    have hnext : (x.1.next maxPending x.2).Settled := hsettled.next (h x hx)
    exact ⟨hnext.not_lost, fun step => hnext.next_not_lost⟩
  · intro h x hx
    by_contra htime
    obtain ⟨step, hlost⟩ := @ServerThreads.lost_of_not_inTime _ maxPending _ htime
    exact (h x hx).2 step hlost

namespace Sample

/-- The only worker finds the queue empty; the server is stopped; the worker blocks. -/
def stranded : List ServerThreads.Step :=
  [.thread 1 .nothing 0, .thread 1 .nothing 0, .stop, .stop, .thread 1 .nothing 0]

end Sample

/-- In some run a wake-up is lost. -/
theorem stranded_loses_wakeup : ¬ ∀ (maxPending workers : ℕ) (steps : List ServerThreads.Step),
    ¬ (ServerThreads.run maxPending workers steps).LostWakeup := by
  intro h
  refine h 64 1 Sample.stranded ⟨rfl, ?_⟩
  decide

end PodFabric
