import PodFabric.Control.Events

/-!
# Every event is delivered once

For each event that was accepted and each observer, the deliveries that have been made and that the
queue and the threads still owe come to one (`Accounted`): no step of a thread loses or repeats any.
A thread leaves a dispatch only when nothing is pending, so when all threads have returned nothing
is owed (`delivered_exactly_once`).
-/

namespace PodFabric

/-! ## What is owed -/

/-- The deliveries of an event to an observer that a thread owes in a call. -/
def Frame.owes (p : Posted) (observer : ℕ) : Frame → ℕ
  | .copying batch => batch.count p
  | .calling todo => todo.count (p, observer)
  | _ => 0

/-- The deliveries of an event to an observer that the calls of a thread owe. -/
def owes (p : Posted) (observer : ℕ) (stack : List Frame) : ℕ :=
  (stack.map (Frame.owes p observer)).sum

/-- The thread is in no call of the controller, but for observers. -/
def Idle (stack : List Frame) : Prop := ∀ frame ∈ stack, frame = .observing

/-- The deliveries that have been made or are waiting in the queue. -/
def EventQueue.holds (q : EventQueue) (p : Posted) (observer : ℕ) : ℕ :=
  q.pending.count p + q.delivered.count (p, observer)

section Owes
variable {p : Posted} {observer : ℕ} {frame : Frame} {stack : List Frame} {batch : List Posted}
  {n : ℕ}

/-- Nothing is owed on an empty stack. -/
@[simp] theorem owes_nil : owes p observer [] = 0 := rfl

/-- What a stack owes is what its frames owe. -/
@[simp] theorem owes_cons :
    owes p observer (frame :: stack) = frame.owes p observer + owes p observer stack := rfl

/-- An empty stack is idle. -/
theorem idle_nil : Idle [] := by simp [Idle]

/-- A stack is idle when each of its frames observes. -/
theorem idle_cons : Idle (frame :: stack) ↔ frame = .observing ∧ Idle stack := List.forall_mem_cons

/-- A batch is delivered once to each of the observers. -/
theorem count_calls : (batch.flatMap fun p => (List.range n).map (p, ·)).count (p, observer) =
    if observer < n then batch.count p else 0 := by
  induction batch with
  | nil => simp
  | cons head batch ih =>
    rw [List.flatMap_cons, List.count_append, ih]
    by_cases hhead : head = p
    · subst hhead
      rw [List.count_map_of_injective _ _ (Prod.mk_right_injective head), List.count_cons_self,
        List.nodup_range.count]
      simp only [List.mem_range]
      split <;> omega
    · have hnone : (head, observer) ≠ (p, observer) := fun h => hhead (congrArg Prod.fst h)
      rw [List.count_cons_of_ne hhead, List.count_eq_zero_of_not_mem, Nat.zero_add]
      intro hmem
      obtain ⟨_, -, heq⟩ := List.mem_map.1 hmem
      exact hhead (congrArg Prod.fst heq)

end Owes

/-! ## One step of a thread -/

/-- What a step of a thread does: it has an event accepted, or it passes on what the queue and the
thread owe, which it does in full for the observers that are subscribed. -/
inductive Acted (q : EventQueue) (stack : List Frame) (q' : EventQueue) (stack' : List Frame) : Prop
  | accepted (event : Event) (queue : q' = q.accept event) (inside : ¬ Idle stack')
      (owed : ∀ p observer, owes p observer stack' = owes p observer stack)
  | passed (known : q'.accepted = q.accepted) (observers : q.observers ≤ q'.observers)
      (owed : ∀ p observer, q'.holds p observer + owes p observer stack' ≤
        q.holds p observer + owes p observer stack)
      (kept : ∀ p, ∀ observer < q.observers, q'.holds p observer + owes p observer stack' =
        q.holds p observer + owes p observer stack)
      (idle : Idle stack' → q'.pending = [] ∨ Idle stack ∧ q'.pending = q.pending)

section Act
variable {q : EventQueue} {stack : List Frame} {move : Move} {maxObservers : ℕ}

/-- A step that leaves the history and what is owed alone. -/
theorem Acted.of_eq {q' : EventQueue} {stack' : List Frame} (hknown : q'.accepted = q.accepted)
    (hobservers : q.observers ≤ q'.observers)
    (howed : ∀ p observer, q'.holds p observer + owes p observer stack' =
      q.holds p observer + owes p observer stack)
    (hidle : Idle stack' → q'.pending = [] ∨ Idle stack ∧ q'.pending = q.pending) :
    Acted q stack q' stack' :=
  .passed hknown hobservers (fun p observer => (howed p observer).le)
    (fun p observer _ => howed p observer) hidle

variable (q stack move maxObservers) in
/-- What a move does to the queue and the stack of its thread. -/
theorem act_acted : Acted q stack (act maxObservers q stack move).1
    (act maxObservers q stack move).2 := by
  have hstill : Acted q stack q stack := .of_eq rfl le_rfl (fun _ _ => rfl) fun h => .inr ⟨h, rfl⟩
  -- a frame of the controller is left only when nothing is pending
  have hinside {q q' : EventQueue} {frame : Frame} {stack old : List Frame}
      (hframe : frame ≠ .observing) (h : Idle (frame :: stack)) :
      q'.pending = [] ∨ Idle old ∧ q'.pending = q.pending := absurd (idle_cons.1 h).1 hframe
  unfold act
  split
  · next event events stack =>
    unfold EventQueue.publish
    split
    · exact .of_eq rfl le_rfl (fun _ _ => rfl) (hinside (by simp))
    · exact .accepted event rfl (fun h => by simp [idle_cons] at h) fun _ _ => rfl
  · exact .of_eq rfl le_rfl (fun _ _ => rfl) (hinside (by simp))
  · next stack =>
    split
    · next hempty =>
      refine .of_eq rfl le_rfl (fun p observer => ?_) fun _ => .inl (List.isEmpty_iff.1 hempty)
      simp [EventQueue.holds, Frame.owes]
    · refine .of_eq rfl le_rfl (fun p observer => ?_) (hinside (by simp))
      simp only [EventQueue.holds, owes_cons, Frame.owes, List.count_nil]
      omega
  · next batch stack =>
    refine .passed rfl le_rfl (fun p observer => ?_) (fun p observer hsubscribed => ?_)
      (hinside (by simp))
    · simp only [owes_cons, Frame.owes, count_calls]
      split <;> omega
    · simp only [owes_cons, Frame.owes, count_calls, if_pos hsubscribed]
  · next call todo stack =>
    refine .of_eq rfl le_rfl (fun p observer => ?_) fun h => ?_
    · simp only [EventQueue.holds, owes_cons, Frame.owes, List.count_append, List.count_cons,
        List.count_nil]
      omega
    · simp [idle_cons] at h
  · next stack =>
    split
    · next hempty =>
      refine .of_eq rfl le_rfl (fun p observer => ?_) fun _ => .inl (List.isEmpty_iff.1 hempty)
      simp [EventQueue.holds, Frame.owes]
    · refine .of_eq rfl le_rfl (fun p observer => ?_) (hinside (by simp))
      simp [Frame.owes]
  · next stack =>
    refine .of_eq rfl le_rfl (fun p observer => by simp [Frame.owes]) fun h => ?_
    exact .inr ⟨idle_cons.2 ⟨rfl, h⟩, rfl⟩
  · next stack events =>
    split
    · exact .of_eq rfl le_rfl (fun _ _ => by simp [Frame.owes]) (hinside (by simp))
    · exact hstill
  · next stack =>
    split
    · unfold EventQueue.subscribe
      split
      · exact hstill
      · exact .of_eq rfl (Nat.le_succ _) (fun _ _ => rfl) fun h => .inr ⟨h, rfl⟩
    · exact hstill
  · exact hstill

end Act

/-! ## The system -/

namespace EventSystem

/-- The deliveries of an event to an observer that have been made or are owed. -/
def due (s : EventSystem) (p : Posted) (observer : ℕ) : ℕ :=
  s.queue.holds p observer + (s.threads.map (owes p observer)).sum

/-- Every delivery is made or owed once, and something is pending only while a thread is in a call
of the controller. -/
structure Accounted (s : EventSystem) : Prop where
  tickets : ∀ p ∈ s.queue.accepted, p.ticket < s.queue.accepted.length
  subscribed : ∀ p ∈ s.queue.accepted, p.subscribed ≤ s.queue.observers
  unknown : ∀ p ∉ s.queue.accepted, ∀ observer, s.due p observer = 0
  once : ∀ p observer, s.due p observer ≤ 1
  known : ∀ p ∈ s.queue.accepted, ∀ observer < p.subscribed, s.due p observer = 1
  idle : (∀ stack ∈ s.threads, Idle stack) → s.queue.pending = []

section Step
variable {s : EventSystem} {maxObservers : ℕ} {step : ℕ × Move}

/-- A step is one of a thread, with the others before and after it. -/
theorem next_cases : next maxObservers s step = s ∨
    ∃ before stack after, s.threads = before ++ stack :: after ∧
      next maxObservers s step =
        { queue := (act maxObservers s.queue stack step.2).1
          threads := before ++ (act maxObservers s.queue stack step.2).2 :: after } := by
  unfold next
  cases hstack : s.threads[step.1]? with
  | none => exact .inl rfl
  | some stack =>
    obtain ⟨hlt, hget⟩ := List.getElem?_eq_some_iff.1 hstack
    refine .inr ⟨s.threads.take step.1, stack, s.threads.drop (step.1 + 1), ?_, ?_⟩
    · rw [← hget, List.getElem_cons_drop, List.take_append_drop]
    · simp only [List.set_eq_take_append_cons_drop, if_pos hlt]

/-- A step keeps every event accounted for. -/
theorem Accounted.next (h : s.Accounted) : (next maxObservers s step).Accounted := by
  rcases @next_cases s maxObservers step with hsame | ⟨before, stack, after, hthreads, hnext⟩
  · rw [hsame]
    exact h
  rw [hnext]
  have hacted := act_acted s.queue stack step.2 maxObservers
  generalize (act maxObservers s.queue stack step.2).1 = q' at hacted
  generalize (act maxObservers s.queue stack step.2).2 = stack' at hacted
  obtain ⟨htickets, hsubscribed, hunknown, honce, hknown, hidle⟩ := h
  simp only [due, hthreads, List.map_append, List.map_cons, List.sum_append, List.sum_cons,
    List.forall_mem_append, List.forall_mem_cons] at hunknown honce hknown hidle
  cases hacted with
  | accepted event queue inside owed =>
    subst queue
    have hnew : s.queue.posted event ∉ s.queue.accepted := fun hmem =>
      absurd (htickets _ hmem) (lt_irrefl _)
    have hmem (p : Posted) : p ∈ (s.queue.accept event).accepted ↔
        p ∈ s.queue.accepted ∨ p = s.queue.posted event := by simp [EventQueue.accept]
    have hholds (p : Posted) (observer : ℕ) : (s.queue.accept event).holds p observer =
        s.queue.holds p observer + if p = s.queue.posted event then 1 else 0 := by
      simp only [EventQueue.holds, EventQueue.accept, List.count_append]
      by_cases hp : p = s.queue.posted event
      · rw [if_pos hp, hp, List.count_singleton_self]
        omega
      · have hnone : List.count p [s.queue.posted event] = 0 :=
          List.count_eq_zero_of_not_mem (by simpa using hp)
        rw [if_neg hp, hnone]
        omega
    refine ⟨fun p hp => ?_, fun p hp => ?_, fun p hp observer => ?_, fun p observer => ?_,
      fun p hp observer hobserver => ?_, fun h => ?_⟩
    · have hlength : (s.queue.accept event).accepted.length = s.queue.accepted.length + 1 := by
        simp [EventQueue.accept]
      rw [hlength]
      rcases (hmem p).1 hp with hp | rfl
      · exact Nat.lt_succ_of_lt (htickets p hp)
      · exact Nat.lt_succ_self _
    · rcases (hmem p).1 hp with hp | rfl
      · exact hsubscribed p hp
      · exact le_rfl
    · rw [hmem, not_or] at hp
      have := hunknown p hp.1 observer
      simp only [due, List.map_append, List.map_cons, List.sum_append, List.sum_cons, hholds,
        if_neg hp.2, owed]
      omega
    · simp only [due, List.map_append, List.map_cons, List.sum_append, List.sum_cons, hholds, owed]
      by_cases hp : p = s.queue.posted event
      · have := hunknown p (hp ▸ hnew) observer
        rw [if_pos hp]
        omega
      · have := honce p observer
        rw [if_neg hp]
        omega
    · simp only [due, List.map_append, List.map_cons, List.sum_append, List.sum_cons, hholds, owed]
      by_cases hsame : p = s.queue.posted event
      · have := hunknown p (hsame ▸ hnew) observer
        rw [if_pos hsame]
        omega
      · have := hknown p (((hmem p).1 hp).resolve_right hsame) observer hobserver
        rw [if_neg hsame]
        omega
    · exact absurd (List.forall_mem_cons.1 (List.forall_mem_append.1 h).2).1 inside
  | passed known observers owed kept idle =>
    refine ⟨by rw [known]; exact htickets, fun p hp => ?_, fun p hp observer => ?_,
      fun p observer => ?_, fun p hp observer hobserver => ?_, fun h => ?_⟩
    · rw [known] at hp
      exact (hsubscribed p hp).trans observers
    · rw [known] at hp
      have := hunknown p hp observer
      have := owed p observer
      simp only [due, List.map_append, List.map_cons, List.sum_append, List.sum_cons]
      omega
    · have := honce p observer
      have := owed p observer
      simp only [due, List.map_append, List.map_cons, List.sum_append, List.sum_cons]
      omega
    · rw [known] at hp
      have := hknown p hp observer hobserver
      have := kept p observer (hobserver.trans_le (hsubscribed p hp))
      simp only [due, List.map_append, List.map_cons, List.sum_append, List.sum_cons]
      omega
    · obtain ⟨hbefore, hafter⟩ := List.forall_mem_append.1 h
      obtain ⟨hstack, hafter⟩ := List.forall_mem_cons.1 hafter
      rcases idle hstack with hempty | ⟨hwas, hpending⟩
      · exact hempty
      · exact hpending.trans (hidle ⟨hbefore, hwas, hafter⟩)

/-- At the start nothing is to be accounted for. -/
theorem start_accounted {threads : ℕ} : (start threads).Accounted where
  tickets := by simp [start]
  subscribed := by simp [start]
  unknown _ _ _ := by simp [start, due, EventQueue.holds]
  once _ _ := by simp [start, due, EventQueue.holds]
  known := by simp [start]
  idle _ := rfl

/-- In every run every event is accounted for. Induction on the steps. -/
theorem run_accounted {threads : ℕ} {steps : List (ℕ × Move)} :
    (run maxObservers threads steps).Accounted :=
  Run.final_invariant start_accounted fun _ _ h => h.next

/-- What is neither pending nor owed by a thread has been delivered. -/
theorem due_eq_delivered {p : Posted} {observer : ℕ} (hpending : p ∉ s.queue.pending)
    (howes : ∀ stack ∈ s.threads, owes p observer stack = 0) :
    s.due p observer = s.queue.delivered.count (p, observer) := by
  have hnone : (s.threads.map (owes p observer)).sum = 0 := by
    rw [List.sum_eq_zero]
    intro n hn
    obtain ⟨stack, hstack, rfl⟩ := List.mem_map.1 hn
    exact howes stack hstack
  rw [due, hnone, EventQueue.holds, List.count_eq_zero_of_not_mem hpending]
  omega

end Step

end EventSystem

/-- **Events are delivered once.** In every interleaving of any number of threads that publish and
then dispatch, with observers that call the controller in turn, no event is delivered twice to an
observer. An event that was accepted is delivered to each observer that was subscribed before,
unless it is pending or in the hands of a thread that has yet to deliver it; and once all threads
have returned from their calls, nothing is pending and all of them are delivered. -/
theorem delivered_exactly_once {maxObservers threads : ℕ} {steps : List (ℕ × Move)} :
    let s := EventSystem.run maxObservers threads steps
    (∀ p observer, s.queue.delivered.count (p, observer) ≤ 1) ∧
    (∀ p ∈ s.queue.accepted, ∀ observer < p.subscribed,
      s.queue.delivered.count (p, observer) = 1 ∨ p ∈ s.queue.pending ∨
        ∃ stack ∈ s.threads, 0 < owes p observer stack) ∧
    (s.Quiet → s.queue.pending = [] ∧ ∀ p ∈ s.queue.accepted, ∀ observer < p.subscribed,
      s.queue.delivered.count (p, observer) = 1) := by
  intro s
  have h : s.Accounted := EventSystem.run_accounted
  refine ⟨fun p observer => ?_, fun p hp observer hobserver => ?_, fun hquiet => ?_⟩
  · have := h.once p observer
    rw [EventSystem.due, EventQueue.holds] at this
    omega
  · by_cases hpending : p ∈ s.queue.pending
    · exact .inr (.inl hpending)
    by_cases howes : ∃ stack ∈ s.threads, 0 < owes p observer stack
    · exact .inr (.inr howes)
    · left
      rw [← h.known p hp observer hobserver, EventSystem.due_eq_delivered hpending]
      exact fun stack hstack => Nat.eq_zero_of_not_pos fun hpos => howes ⟨stack, hstack, hpos⟩
  · have hpending : s.queue.pending = [] := h.idle fun stack hstack => by
      rw [hquiet stack hstack]
      exact idle_nil
    refine ⟨hpending, fun p hp observer hobserver => ?_⟩
    rw [← h.known p hp observer hobserver, EventSystem.due_eq_delivered (by simp [hpending])]
    intro stack hstack
    rw [hquiet stack hstack, owes_nil]

namespace Sample

/-- An event. -/
def event : Event := ⟨.applied, {}, {}, .active, [], []⟩

/-- Two threads publish an event each; the first one dispatches both, to an observer that publishes
another. -/
def handover : List (ℕ × Move) :=
  [(0, .subscribe), (0, .call [event]), (1, .call [event]), (0, .advance), (0, .advance),
    (1, .advance), (0, .advance), (1, .advance), (1, .advance), (0, .advance), (0, .advance),
    (0, .call [event]), (0, .advance), (0, .advance), (0, .advance), (0, .advance), (0, .advance),
    (0, .return_), (0, .advance), (0, .return_), (0, .advance), (0, .return_), (0, .advance)]

end Sample

/-- After this interleaving three events were accepted, and all of them delivered. -/
theorem handover_delivered :
    (EventSystem.run 32 2 Sample.handover).queue.accepted.length = 3 ∧
      ∀ p ∈ (EventSystem.run 32 2 Sample.handover).queue.accepted, ∀ observer < p.subscribed,
        (EventSystem.run 32 2 Sample.handover).queue.delivered.count (p, observer) = 1 := by
  have hquiet : (EventSystem.run 32 2 Sample.handover).Quiet := by
    have hthreads : (EventSystem.run 32 2 Sample.handover).threads = [[], []] := rfl
    intro stack hstack
    rw [hthreads] at hstack
    simpa using hstack
  exact ⟨rfl, (delivered_exactly_once.2.2 hquiet).2⟩

end PodFabric
