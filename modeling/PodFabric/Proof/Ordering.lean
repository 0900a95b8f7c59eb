import PodFabric.Control.Shared
import PodFabric.Proof.Delivery
import PodFabric.Proof.Transitions

/-!
# The order in which observers learn of operations

An operation collects its events under the write lock, but publishes them after it has given the
lock up, and several threads may have events in hand at once. So an operation may be overtaken by a
later one when it publishes, and a batch by a later batch when it is delivered: an observer may
learn of a grant after the retirement of the pod (`overtaken_out_of_order`). Where neither happens,
the events accepted so far make one line for every observer, from those it has received to those
that are pending, and go through it in the order of their operations (`observers_in_order`).
-/

namespace PodFabric

/-! ## What an operation tells -/

/-- The controller has not gone back, and the events tell where it stands. -/
structure Heralds (c c' : PodController) (events : List Event) : Prop where
  epoch : c.epoch ≤ c'.epoch
  retired : c.lifecycle = .retired → c'.lifecycle = .retired
  current : ∀ event ∈ events, event.epoch = c'.epoch ∧ event.lifecycle = c'.lifecycle
  kinds : ∀ event ∈ events, event.kind = .retired → c'.lifecycle = .retired

/-- A round that fences tokens is committed, if there is a store. -/
def CommitsFenced (c : PodController) (env : Env) : Prop :=
  c.store = none ∨ env.commit = .committed ∨ c.tokens = []

section Heralds
variable {c c' : PodController} {disk : DurableState} {env : Env} {rack : RackId} {detail : Text}
  {evidence : PodSnapshot}

/-- A call that changes neither the epoch nor the lifecycle has nothing to herald. -/
theorem Heralds.silent (hepoch : c'.epoch = c.epoch)
    (hlifecycle : c.lifecycle = .retired → c'.lifecycle = .retired) : Heralds c c' [] :=
  ⟨hepoch.ge, hlifecycle, by simp, by simp⟩

/-- What heralds a change heralds it without its events as far as they are not owed. -/
theorem Heralds.quiet {events : List Event} (h : Heralds c c' events) : Heralds c c' [] :=
  ⟨h.epoch, h.retired, by simp, by simp⟩

/-- The last event is made of the controller as it stands after the operation. -/
theorem Heralds.also {events : List Event} {kind : EventKind} {subject : Text}
    (h : Heralds c c' events) (hkind : kind = .retired → c'.lifecycle = .retired) :
    Heralds c c' (events ++ [c'.event kind subject detail]) where
  epoch := h.epoch
  retired := h.retired
  current event hevent := by
    rcases List.mem_append.1 hevent with hold | hnew
    · exact h.current event hold
    · obtain rfl := List.mem_singleton.1 hnew
      exact ⟨rfl, rfl⟩
  kinds event hevent := by
    rcases List.mem_append.1 hevent with hold | hnew
    · exact h.kinds event hold
    · obtain rfl := List.mem_singleton.1 hnew
      exact hkind

/-- A commit alone leaves the controller where it stands. -/
theorem Persisted.heralds {next : DurableState} {disk' : DurableState} {result : Result Unit}
    (h : Persisted c disk env next c' disk' result) : Heralds c c' [] :=
  .silent (congrArg Memory.epoch h.memory_eq) fun hretired =>
    (congrArg Memory.lifecycle h.memory_eq).trans hretired

/-- The events of a round are at the epoch and the lifecycle of the composed state. -/
theorem mem_roundEvents {composed : PodState} {outcome : PodController.ApplyOutcome} {event : Event}
    (h : event ∈ c.fencedEvents env composed ++ c'.appliedEvents composed outcome) :
    event.epoch = composed.epoch ∧ event.lifecycle = composed.lifecycle ∧
      event.kind ≠ .retired := by
  rcases List.mem_append.1 h with h | h
  · obtain ⟨_, -, rfl⟩ := List.mem_map.1 h
    exact ⟨rfl, rfl, by simp⟩
  · simp only [PodController.appliedEvents, List.mem_append, List.mem_singleton,
      List.mem_ite_nil_right] at h
    rcases h with ((⟨-, rfl⟩ | ⟨-, rfl⟩) | ⟨-, rfl⟩) | rfl <;> exact ⟨rfl, rfl, by simp⟩

variable (c disk env evidence) in
/-- A round tells where the controller stands, unless it fails to commit what fenced tokens. -/
theorem apply_heralds : Heralds c (c.apply disk env evidence).controller [] ∧
    ((c.apply disk env evidence).result.isOk = true ∨ CommitsFenced c env →
      Heralds c (c.apply disk env evidence).controller (c.apply disk env evidence).events) := by
  unfold PodController.apply
  split
  · exact ⟨.silent rfl id, fun _ => .silent rfl id⟩
  dsimp only
  split
  · exact ⟨.silent rfl id, fun _ => .silent rfl id⟩
  next composed hcompose =>
  have hp := persistState_persisted c disk env composed
    (PodController.deriveExpectations composed c.expectations) (c.survivingTokens env composed)
    c.revoked (env.clock (c.tokens.length + 1))
  split
  · next c' disk' status hpersist =>
    rw [hpersist] at hp
    refine ⟨hp.heralds, fun hcommits => ?_⟩
    have hcommits : CommitsFenced c env := hcommits.resolve_left fun h => by cases h
    have hnone : c.tokens = [] := by
      cases hp with
      | memory _ _ _ ok | committed _ _ _ _ _ ok => cases ok
      | failed _ _ _ store commit =>
        rcases hcommits with hstore | hcommit | htokens
        · rw [hstore] at store
          cases store
        · exact absurd hcommit commit
        · exact htokens
    have hsilent : c.fencedEvents env composed = [] := by
      simp [PodController.fencedEvents, PodController.tokenVerdicts, hnone]
    dsimp only
    rw [hsilent]
    exact hp.heralds
  · next c' disk' hpersist =>
    have hadvance := compose_epoch hcompose
    have hepoch : (c.request env evidence).context.epoch = c.epoch := rfl
    rw [hepoch] at hadvance
    have hle : c.epoch.value.toNat ≤ composed.epoch.value.toNat := by omega
    have hheralds (events : List Event) (hevents : ∀ event ∈ events, event.epoch = composed.epoch ∧
        event.lifecycle = composed.lifecycle ∧ event.kind ≠ .retired) :
        Heralds c (c'.published (c.request env evidence) composed
          (PodController.deriveExpectations composed c.expectations)
          (c.survivingTokens env composed)) events :=
      ⟨UInt64.le_iff_toNat_le.2 hle, fun h => (compose_retired_iff hcompose).2 h,
        fun event hevent => ⟨(hevents event hevent).1, (hevents event hevent).2.1⟩,
        fun event hevent hkind => absurd hkind (hevents event hevent).2.2⟩
    exact ⟨hheralds _ (by simp), fun _ => hheralds _ fun event hevent => mem_roundEvents hevent⟩

/-- The overrides have changed already. -/
theorem recompose_heralds :
    Heralds c (c.recompose disk env rack detail).controller
      (c.recompose disk env rack detail).events := by
  unfold PodController.recompose
  dsimp only
  split
  · obtain ⟨hstands, hheralds⟩ := apply_heralds c disk env c.lastEvidence
    split
    · exact hstands
    · next hok => exact (hheralds (.inl (by rw [hok]; rfl))).also fun h => by cases h
  · have hp := persistState_persisted c disk env c.state c.expectations c.tokens c.revoked
      (env.clock 0)
    split
    · next c' disk' status hpersist =>
      rw [hpersist] at hp
      exact hp.heralds
    · next c' disk' hpersist =>
      rw [hpersist] at hp
      exact hp.heralds.also fun h => by cases h

/-- Only the epochs, the lifecycles and the events count. -/
theorem Heralds.alike {c₀ c₁ : PodController} {events : List Event} (h : Heralds c₀ c₁ events)
    (hepoch : c.epoch = c₀.epoch) (hlifecycle : c.lifecycle = .retired → c₀.lifecycle = .retired)
    (hepoch' : c'.epoch = c₁.epoch) (hlifecycle' : c'.lifecycle = c₁.lifecycle) :
    Heralds c c' events where
  epoch := hepoch ▸ hepoch' ▸ h.epoch
  retired hretired := hlifecycle' ▸ h.retired (hlifecycle hretired)
  current := hepoch' ▸ hlifecycle' ▸ h.current
  kinds := hlifecycle' ▸ h.kinds

/-- The events of an override herald what it changes. -/
theorem setAdminState_heralds {state : AdminState} :
    Heralds c (c.setAdminState disk env rack state).controller
      (c.setAdminState disk env rack state).events := by
  unfold PodController.setAdminState
  split
  · exact .silent rfl id
  split
  · exact .silent rfl id
  split
  · exact .silent rfl id
  · exact (@recompose_heralds { c with adminOverrides := c.adminOverrides.insert rack state } disk
      env rack _).alike rfl id rfl rfl

/-- The events of a clearing herald what it changes. -/
theorem clearAdminState_heralds :
    Heralds c (c.clearAdminState disk env rack).controller
      (c.clearAdminState disk env rack).events := by
  unfold PodController.clearAdminState
  split
  · exact .silent rfl id
  split
  · exact .silent rfl id
  · exact (@recompose_heralds { c with adminOverrides := c.adminOverrides.erase rack } disk env
      rack _).alike rfl id rfl rfl

/-- The events of a retirement herald what it changes. -/
theorem retire_heralds : Heralds c (c.retire disk env).controller (c.retire disk env).events := by
  unfold PodController.retire
  split
  · exact .silent rfl id
  split
  · exact .silent rfl id
  dsimp only
  have hp := persistState_persisted c.retiring disk env c.retiring.state
    c.retiring.expectations c.retiring.tokens c.retiring.revoked (env.clock 0)
  split
  · next c' disk' status hpersist =>
    rw [hpersist] at hp
    exact hp.heralds.alike rfl (fun _ => rfl) rfl rfl
  · next c' disk' hpersist =>
    rw [hpersist] at hp
    exact (hp.heralds.also fun _ => hp.heralds.retired rfl).alike rfl (fun _ => rfl) rfl rfl

/-- The events of a grant herald what it changes. -/
theorem mintAuthority_heralds {scope : AuthorityScope} {subject : RackId} {lifetime : Nanos} :
    Heralds c (c.mintAuthority disk env scope subject lifetime).controller
      (c.mintAuthority disk env scope subject lifetime).events := by
  unfold PodController.mintAuthority
  split
  · exact .silent rfl id
  split
  · exact .silent rfl id
  next id _ =>
  split
  · exact .silent rfl fun h => h
  next expiresAt _ =>
  split
  · exact .silent rfl fun h => h
  split
  · exact .silent rfl fun h => h
  next fencing _ =>
  unfold PodController.grant
  have hp := persistState_persisted { c with fencing } disk env c.state c.expectations
    (c.tokens ++ [c.mintedToken id scope subject (env.clock 0) expiresAt fencing]) c.revoked
    (env.clock 1)
  split
  · next c' disk' status hpersist =>
    rw [hpersist] at hp
    exact hp.heralds.alike rfl (fun h => h) rfl rfl
  · next c' disk' hpersist =>
    rw [hpersist] at hp
    exact (hp.heralds.also fun h => by cases h).alike rfl (fun h => h) rfl rfl

/-- The events of a revocation herald what it changes. -/
theorem revokeAuthority_heralds {lease : LeaseId} :
    Heralds c (c.revokeAuthority disk env lease).controller
      (c.revokeAuthority disk env lease).events := by
  unfold PodController.revokeAuthority
  split
  · exact .silent rfl id
  split
  · exact .silent rfl id
  split
  · exact .silent rfl id
  dsimp only
  have hp := persistState_persisted { c with revoked := c.revoked ++ [lease] } disk env c.state
    c.expectations (c.tokens.filter fun token => token.lease ≠ lease) (c.revoked ++ [lease])
    (env.clock 0)
  split
  · next c' disk' status hpersist =>
    rw [hpersist] at hp
    exact hp.heralds.alike rfl (fun h => h) rfl rfl
  · next c' disk' hpersist =>
    rw [hpersist] at hp
    exact (hp.heralds.also fun h => by cases h).alike rfl (fun h => h) rfl rfl

/-- The events of an operation herald its effect. -/
theorem Heralds.effect {α : Type} {reply : Reply α} (h : Heralds c reply.controller reply.events) :
    Heralds c reply.effect.world.controller (reply.effect.events.getD []) := by
  unfold Reply.effect
  dsimp only
  split
  · exact h
  · exact h.quiet

/-- An operation tells where the controller stands. -/
theorem operate_heralds {w : World} {operation : Operation}
    (hcommits : ∀ evidence, operation = .apply evidence → CommitsFenced w.controller env) :
    Heralds w.controller (w.operate env operation).world.controller
      ((w.operate env operation).events.getD []) := by
  cases operation with
  | apply evidence => exact (apply_heralds ..).2 (.inr (hcommits evidence rfl))
  | setAdminState rack state => exact setAdminState_heralds.effect
  | clearAdminState rack => exact clearAdminState_heralds.effect
  | retire => exact retire_heralds.effect
  | mintAuthority scope subject lifetime => exact mintAuthority_heralds.effect
  | revokeAuthority lease => exact revokeAuthority_heralds.effect

end Heralds

/-! ## History -/

/-- An observer may learn of the second event after the first. -/
def Event.Before (e e' : Event) : Prop :=
  e.epoch ≤ e'.epoch ∧ (e.kind = .retired → e'.lifecycle = .retired)

/-- The events of the operations so far may be learnt in their order, and the controller has got at
least as far. -/
structure Chronicled (history : List (List Event)) (c : PodController) : Prop where
  between : history.Pairwise fun events events' => ∀ e ∈ events, ∀ e' ∈ events', e.Before e'
  within : ∀ events ∈ history, ∀ e ∈ events, ∀ e' ∈ events, e.Before e'
  behind : ∀ events ∈ history, ∀ e ∈ events,
    e.epoch ≤ c.epoch ∧ (e.kind = .retired → c.lifecycle = .retired)

section Chronicled
variable {history : List (List Event)} {c c' : PodController} {events : List Event}

/-- A history stays a chronicle when nothing is to be told. -/
theorem Chronicled.silent (h : Chronicled history c) (hheralds : Heralds c c' []) :
    Chronicled history c' where
  between := h.between
  within := h.within
  behind events hevents e he := by
    obtain ⟨hepoch, hretired⟩ := h.behind events hevents e he
    exact ⟨hepoch.trans hheralds.epoch, fun hkind => hheralds.retired (hretired hkind)⟩

/-- A history stays a chronicle when the events of a change join it. -/
theorem Chronicled.add (h : Chronicled history c) (hheralds : Heralds c c' events) :
    Chronicled (history ++ [events]) c' := by
  have hold := h.silent hheralds.quiet
  refine ⟨List.pairwise_append.2 ⟨h.between, List.pairwise_singleton _ _, ?_⟩, ?_, ?_⟩
  · intro old hmem new hnew e he e' he'
    obtain rfl := List.mem_singleton.1 hnew
    obtain ⟨hepoch, hlifecycle⟩ := hheralds.current e' he'
    obtain ⟨hbehind, hretired⟩ := hold.behind old hmem e he
    exact ⟨hepoch ▸ hbehind, fun hkind => hlifecycle ▸ hretired hkind⟩
  · intro told hmem e he e' he'
    rcases List.mem_append.1 hmem with hmem | hmem
    · exact h.within told hmem e he e' he'
    · obtain rfl := List.mem_singleton.1 hmem
      obtain ⟨hepoch, -⟩ := hheralds.current e he
      obtain ⟨hepoch', hlifecycle⟩ := hheralds.current e' he'
      exact ⟨(hepoch.trans hepoch'.symm).le,
        fun hkind => hlifecycle.trans (hheralds.kinds e he hkind)⟩
  · intro told hmem e he
    rcases List.mem_append.1 hmem with hmem | hmem
    · exact hold.behind told hmem e he
    · obtain rfl := List.mem_singleton.1 hmem
      exact ⟨(hheralds.current e he).1.le, hheralds.kinds e he⟩

/-- The events of an operation may be learnt before those of the same or a later one. -/
theorem Chronicled.before {m n : ℕ} {e e' : Event} (h : Chronicled history c) (hmn : m ≤ n)
    (he : e ∈ history.getD m []) (he' : e' ∈ history.getD n []) : e.Before e' := by
  have hget {i : ℕ} {event : Event} (hevent : event ∈ history.getD i []) :
      ∃ hi : i < history.length, event ∈ history[i] := by
    rw [List.getD_eq_getElem?_getD] at hevent
    by_cases hi : i < history.length
    · rw [List.getElem?_eq_getElem hi] at hevent
      exact ⟨hi, hevent⟩
    · rw [List.getElem?_eq_none (by omega)] at hevent
      exact absurd hevent List.not_mem_nil
  obtain ⟨hm, he⟩ := hget he
  obtain ⟨hn, he'⟩ := hget he'
  rcases hmn.lt_or_eq with hlt | rfl
  · exact List.pairwise_iff_getElem.1 h.between m n hm hn hlt e he e' he'
  · exact h.within _ (List.getElem_mem hm) e he e' he'

end Chronicled

/-! ## The way of an event -/

/-- The events that a call of the controller has in hand for an observer. -/
def Frame.held (observer : ℕ) : Frame → List Posted
  | .copying batch => batch
  | .calling todo => (todo.filter fun call => call.2 = observer).map Prod.fst
  | _ => []

/-- The call has events in hand. -/
def Frame.loaded : Frame → Bool
  | .copying batch => !batch.isEmpty
  | .calling todo => !todo.isEmpty
  | _ => false

/-- The events that a call has yet to publish. -/
def Frame.unpublished : Frame → List Event
  | .publishing events => events
  | _ => []

/-- A frame that is not loaded holds no event. -/
theorem Frame.held_of_not_loaded {frame : Frame} {observer : ℕ} (h : frame.loaded = false) :
    frame.held observer = [] := by
  cases frame with
  | publishing _ | dispatching | observing => rfl
  | copying batch =>
    have hnone : batch = [] := by simpa [Frame.loaded] using h
    rw [hnone]
    rfl
  | calling todo =>
    have hnone : todo = [] := by simpa [Frame.loaded] using h
    rw [hnone]
    rfl

/-- The events that the calls of a thread have yet to publish. -/
def unpublished (stack : List Frame) : List Event := stack.flatMap Frame.unpublished

/-- A stack without unpublished events has none below its top. -/
theorem unpublished_tail {stack : List Frame} (h : unpublished stack = []) :
    unpublished stack.tail = [] := by
  cases stack with
  | nil => rfl
  | cons frame rest => exact (List.append_eq_nil_iff.1 h).2

/-- What a move of a thread within the controller does: it has an event accepted, takes what is
pending, calls an observer, or passes on no more than it had. -/
inductive Advanced (q : EventQueue) (stack : List Frame) (move : Move) (q' : EventQueue)
    (stack' : List Frame) : Prop
  | accepted (advance : move = .advance) (event : Event) (events : List Event) (rest : List Frame)
      (before : stack = .publishing (event :: events) :: rest) (queue : q' = q.accept event)
      (after : stack' = .publishing events :: rest)
  | took (advance : move = .advance) (rest : List Frame) (before : stack = .dispatching :: rest)
      (some : q.pending ≠ []) (queue : q' = { q with pending := [], dispatching := true })
      (after : stack' = .copying q.pending :: rest)
  | gave (call : Posted × ℕ) (todo : List (Posted × ℕ)) (rest : List Frame)
      (before : stack = .calling (call :: todo) :: rest)
      (queue : q' = { q with delivered := q.delivered ++ [call] })
      (after : stack' = .observing :: .calling todo :: rest)
  | passed (known : q'.accepted = q.accepted) (pending : q'.pending = q.pending)
      (delivered : q'.delivered = q.delivered)
      (held : ∀ observer, (stack'.flatMap (Frame.held observer)).Sublist
        (stack.flatMap (Frame.held observer)))
      (loaded : stack'.countP Frame.loaded ≤ stack.countP Frame.loaded)
      (fewer : unpublished stack' ⊆ unpublished stack)
      (inner : unpublished stack.tail = [] → unpublished stack'.tail = [])

section Act
variable {q : EventQueue} {stack : List Frame} {move : Move} {maxObservers : ℕ}

/-- Every event of a batch is delivered to an observer once, if at all. -/
theorem held_calls {batch : List Posted} {observers observer : ℕ} :
    (Frame.held observer
      (.calling (batch.flatMap fun p => (List.range observers).map (p, ·)))).Sublist batch := by
  have hone (p : Posted) : (((List.range observers).map (p, ·)).filter fun call =>
      call.2 = observer).map Prod.fst = if observer < observers then [p] else [] := by
    rw [List.filter_map, List.map_map]
    show ((List.range observers).filter fun n => decide (n = observer)).map (fun _ => p) = _
    induction observers with
    | zero => rfl
    | succ n ih =>
      rw [List.range_succ, List.filter_append, List.map_append, ih]
      by_cases hn : n = observer
      · subst hn
        simp
      · rw [List.filter_singleton]
        simp only [decide_eq_false hn]
        split <;> split <;> first | rfl | omega
  induction batch with
  | nil => exact List.Sublist.refl _
  | cons p batch ih =>
    rw [Frame.held, List.flatMap_cons, List.filter_append, List.map_append, hone]
    split
    · exact ih.cons_cons p
    · exact ih.cons p

variable (q stack maxObservers) in
/-- What a move other than a call does to the queue. -/
theorem act_advanced (hmove : ∀ events, move ≠ .call events) :
    Advanced q stack move (act maxObservers q stack move).1 (act maxObservers q stack move).2 := by
  have hstill : Advanced q stack move q stack :=
    .passed rfl rfl rfl (fun _ => .refl _) le_rfl (List.Subset.refl _) id
  unfold act
  split
  · next event events rest =>
    unfold EventQueue.publish
    split
    · refine .passed rfl rfl rfl (fun _ => .refl _) le_rfl ?_ id
      exact List.append_subset.2 ⟨fun e he => List.mem_append_left _ (List.mem_cons_of_mem _ he),
        List.subset_append_right _ _⟩
    · exact .accepted rfl event events rest rfl rfl rfl
  · next rest => exact .passed rfl rfl rfl (fun _ => .refl _) le_rfl (List.Subset.refl _) id
  · next rest =>
    split
    · exact .passed rfl rfl rfl (fun _ => .refl _) le_rfl (List.Subset.refl _) unpublished_tail
    · next hsome => exact .took rfl rest rfl (by simpa using hsome) rfl rfl
  · next batch rest =>
    refine .passed rfl rfl rfl (fun observer => ?_) ?_ (List.Subset.refl _) id
    · rw [List.flatMap_cons, List.flatMap_cons]
      exact held_calls.append (.refl _)
    · rw [List.countP_cons, List.countP_cons]
      refine Nat.add_le_add_left ?_ _
      cases batch with
      | nil => exact le_rfl
      | cons p batch =>
        show ite _ 1 0 ≤ 1
        split <;> omega
  · next call todo rest => exact .gave call todo rest rfl rfl rfl
  · next rest =>
    split
    · exact .passed rfl rfl rfl (fun _ => .refl _) le_rfl (List.Subset.refl _) unpublished_tail
    · exact .passed rfl rfl rfl (fun _ => .refl _) le_rfl (List.Subset.refl _) id
  · next rest =>
    exact .passed rfl rfl rfl (fun _ => .refl _) le_rfl (List.Subset.refl _) unpublished_tail
  · next events => exact absurd rfl (hmove events)
  · split
    · unfold EventQueue.subscribe
      split
      · exact hstill
      · exact .passed rfl rfl rfl (fun _ => .refl _) le_rfl (List.Subset.refl _) id
    · exact hstill
  · exact hstill

end Act

/-! ## The system -/

namespace EventSystem

/-- The calls that the threads are in. -/
def frames (s : EventSystem) : List Frame := s.threads.flatten

/-- The events that an observer has received, in their order. -/
def received (s : EventSystem) (observer : ℕ) : List Posted :=
  (s.queue.delivered.filter fun call => call.2 = observer).map Prod.fst

/-- The accepted events on their way to an observer, from those it has received to those that are
pending. -/
def way (s : EventSystem) (observer : ℕ) : List Posted :=
  s.received observer ++ s.frames.flatMap (Frame.held observer) ++ s.queue.pending

section Next
variable {s : EventSystem} {maxObservers thread : ℕ} {move : Move} {stack : List Frame}

/-- A thread that does not exist does nothing. -/
theorem next_none (h : s.threads[thread]? = none) : next maxObservers s (thread, move) = s := by
  simp only [next, h]

/-- A step of a thread acts on the queue and its own stack. -/
theorem next_some (h : s.threads[thread]? = some stack) :
    next maxObservers s (thread, move) =
      { queue := (act maxObservers s.queue stack move).1
        threads := s.threads.set thread (act maxObservers s.queue stack move).2 } := by
  simp only [next, h]

/-- The calls of a thread stand between those of the threads before and after it. -/
theorem frames_eq (h : s.threads[thread]? = some stack) : ∃ before after,
    s.frames = before ++ stack ++ after ∧ ∀ queue stack',
      frames { queue, threads := s.threads.set thread stack' } = before ++ stack' ++ after := by
  obtain ⟨hlt, rfl⟩ := List.getElem?_eq_some_iff.1 h
  refine ⟨(s.threads.take thread).flatten, (s.threads.drop (thread + 1)).flatten, ?_, ?_⟩
  · have hthreads : s.threads =
        s.threads.take thread ++ s.threads[thread] :: s.threads.drop (thread + 1) := by
      rw [← List.drop_eq_getElem_cons hlt, List.take_append_drop]
    conv_lhs => rw [frames, hthreads]
    rw [List.flatten_append, List.flatten_cons, List.append_assoc]
  · intro queue stack'
    rw [frames, List.set_eq_take_append_cons_drop, if_pos hlt]
    simp

/-- How a move of a thread within the controller changes the ways to the observers. -/
inductive Flowed (s s' : EventSystem) (move : Move) (stack stack' : List Frame) : Prop
  | accepted (advance : move = .advance) (event : Event) (events : List Event) (rest : List Frame)
      (before : stack = .publishing (event :: events) :: rest)
      (after : stack' = .publishing events :: rest)
      (known : s'.queue.accepted = s.queue.accepted ++ [s.queue.posted event])
      (way : ∀ observer, s'.way observer = s.way observer ++ [s.queue.posted event])
  | passed (known : s'.queue.accepted = s.queue.accepted)
      (way : ∀ observer, (s'.way observer).Sublist (s.way observer))
      (fewer : unpublished stack' ⊆ unpublished stack)
      (inner : unpublished stack.tail = [] → unpublished stack'.tail = [])

/-- Calls that have nothing in hand. -/
theorem held_eq_nil {frames : List Frame} {observer : ℕ} (h : frames.countP Frame.loaded = 0) :
    frames.flatMap (Frame.held observer) = [] :=
  List.flatMap_eq_nil_iff.2 fun frame hframe => Frame.held_of_not_loaded
    (by simpa using List.countP_eq_zero.1 h frame hframe)

/-- If one call at most has events in hand, and what is pending is only taken when none has, then
events stay in their order and one call at most has events in hand. -/
theorem flowed {q' : EventQueue} {stack' : List Frame} (hstack : s.threads[thread]? = some stack)
    (hadvanced : Advanced s.queue stack move q' stack')
    (hsingle : s.frames.countP Frame.loaded ≤ 1)
    (htakes : move = .advance → stack.head? = some .dispatching → s.queue.pending = [] ∨
      s.frames.countP Frame.loaded = 0) :
    Flowed s { queue := q', threads := s.threads.set thread stack' } move stack stack' ∧
      (frames { queue := q', threads := s.threads.set thread stack' }).countP Frame.loaded ≤ 1 := by
  obtain ⟨before, after, hframes, hset⟩ := frames_eq hstack
  rw [hset q' stack']
  rw [hframes] at hsingle htakes
  simp only [List.countP_append] at hsingle htakes ⊢
  have hway (observer : ℕ) : s.way observer = s.received observer ++
      (before.flatMap (Frame.held observer) ++ stack.flatMap (Frame.held observer) ++
        after.flatMap (Frame.held observer)) ++ s.queue.pending := by
    rw [way, hframes, List.flatMap_append, List.flatMap_append]
  have hway' (observer : ℕ) : way { queue := q', threads := s.threads.set thread stack' } observer =
      received { queue := q', threads := s.threads.set thread stack' } observer ++
      (before.flatMap (Frame.held observer) ++ stack'.flatMap (Frame.held observer) ++
        after.flatMap (Frame.held observer)) ++ q'.pending := by
    rw [way, hset, List.flatMap_append, List.flatMap_append]
  cases hadvanced with
  | accepted hadvance event events rest hbefore hqueue hafter =>
    subst hbefore hqueue hafter
    refine ⟨.accepted hadvance event events rest rfl rfl rfl fun observer => ?_, hsingle⟩
    rw [hway, hway']
    simp only [received, EventQueue.accept, List.append_assoc]
    rfl
  | took hadvance rest hbefore hsome hqueue hafter =>
    subst hbefore hqueue hafter
    have hnone := (htakes hadvance rfl).resolve_left hsome
    rw [List.countP_cons] at hnone ⊢
    refine ⟨.passed rfl (fun observer => ?_) (List.Subset.refl _) id, ?_⟩
    · rw [hway, hway', List.flatMap_cons, List.flatMap_cons,
        @held_eq_nil before observer (by omega), @held_eq_nil rest observer (by omega),
        @held_eq_nil after observer (by omega)]
      simp [received, Frame.held]
    · split <;> omega
  | gave call todo rest hbefore hqueue hafter =>
    subst hbefore hqueue hafter
    have hloaded : (Frame.calling (call :: todo)).loaded = true := rfl
    rw [List.countP_cons_of_pos hloaded] at hsingle
    refine ⟨.passed rfl (fun observer => ?_) (List.Subset.refl _) id, ?_⟩
    · rw [hway, hway', List.flatMap_cons, List.flatMap_cons, List.flatMap_cons,
        @held_eq_nil before observer (by omega), @held_eq_nil rest observer (by omega),
        @held_eq_nil after observer (by omega)]
      by_cases hcall : call.2 = observer <;> simp [received, Frame.held, hcall]
    · have hobserving : ¬ Frame.observing.loaded = true := by decide
      rw [List.countP_cons_of_neg hobserving, List.countP_cons]
      split <;> omega
  | passed hknown hpending hdelivered hheld hloaded hfewer hinner =>
    refine ⟨.passed hknown (fun observer => ?_) hfewer hinner, ?_⟩
    · rw [hway, hway', hpending, received, received, hdelivered]
      exact ((List.Sublist.refl _).append (((List.Sublist.refl _).append (hheld observer)).append
        (.refl _))).append (.refl _)
    · omega

end Next

end EventSystem

/-! ## The operations -/

namespace SharedController
variable (s : SharedController)

/-- The operation of an accepted event. -/
def origin (p : Posted) : ℕ := s.origins.getD p.ticket 0

/-- Every observer has received the events in the order in which their operations took effect. The
epochs do not decrease, and what comes after the retirement of the pod tells that it is retired. -/
def InOrder : Prop := ∀ observer, (s.system.received observer).Pairwise fun p q =>
  s.origin p ≤ s.origin q ∧ p.event.epoch ≤ q.event.epoch ∧
    (p.event.kind = .retired → q.event.lifecycle = .retired)

/-- No thread has events of an earlier operation to publish. -/
def Foremost (thread : ℕ) : Prop := ∀ other < s.system.threads.length,
  unpublished (s.system.threads.getD other []) ≠ [] → s.current thread ≤ s.current other

/-- Nothing is pending, or no thread has events in hand. -/
def Unhanded : Prop := s.system.queue.pending = [] ∨ s.system.frames.countP Frame.loaded = 0

/-- A thread in these calls publishes an event, or takes what is pending, in its turn. -/
def AdvancesInTurn (thread : ℕ) : List Frame → Prop
  | .publishing (_ :: _) :: _ => s.Foremost thread
  | .dispatching :: _ => s.Unhanded
  | _ => True

/-- Events are published in the order of their operations, they are taken from the queue only once
those taken before have been delivered, and what fences a token is committed. -/
def InTurn : ℕ × Deed → Prop
  | (_, .perform (.apply _) env) => CommitsFenced s.world.controller env
  | (thread, .advance) => s.AdvancesInTurn thread (s.system.threads.getD thread [])
  | _ => True

instance : DecidablePred s.Foremost := fun _ => inferInstanceAs (Decidable (∀ _ < _, _ → _))

instance : Decidable s.Unhanded := inferInstanceAs (Decidable (_ ∨ _))

instance (thread : ℕ) : DecidablePred (s.AdvancesInTurn thread)
  | .publishing (_ :: _) :: _ => inferInstanceAs (Decidable (s.Foremost thread))
  | .dispatching :: _ => inferInstanceAs (Decidable s.Unhanded)
  | [] | .publishing [] :: _ | .copying _ :: _ | .calling _ :: _ | .observing :: _ =>
    inferInstanceAs (Decidable True)

instance (env : Env) : Decidable (CommitsFenced s.world.controller env) :=
  match h : s.world.controller.store with
  | none => .isTrue (.inl h)
  | some _ => decidable_of_iff (env.commit = .committed ∨ s.world.controller.tokens = []) (by
      simp [CommitsFenced, h])

instance : DecidablePred s.InTurn
  | (_, .perform (.apply _) env) =>
    inferInstanceAs (Decidable (CommitsFenced s.world.controller env))
  | (thread, .advance) => inferInstanceAs (Decidable (s.AdvancesInTurn thread _))
  | (_, .perform (.setAdminState ..) _) | (_, .perform (.clearAdminState _) _)
  | (_, .perform .retire _) | (_, .perform (.mintAuthority ..) _)
  | (_, .perform (.revokeAuthority _) _) | (_, .subscribe) | (_, .return_) =>
    inferInstanceAs (Decidable True)

/-! ## Runs -/

/-- What holds as long as every step is taken in its turn. -/
structure Ordered : Prop where
  single : s.system.frames.countP Frame.loaded ≤ 1
  inner : ∀ stack ∈ s.system.threads, unpublished stack.tail = []
  tickets : ∀ observer, (s.system.way observer).Pairwise (·.ticket < ·.ticket)
  known : ∀ observer, ∀ p ∈ s.system.way observer,
    p.ticket < s.origins.length ∧ p.event ∈ s.history.getD (s.origin p) []
  counted : s.origins.length = s.system.queue.accepted.length
  sorted : s.origins.Pairwise (· ≤ ·)
  begun : ∀ n ∈ s.origins, n < s.history.length
  waiting : ∀ thread stack, s.system.threads[thread]? = some stack → unpublished stack ≠ [] →
    s.current thread < s.history.length ∧ (∀ n ∈ s.origins, n ≤ s.current thread) ∧
      ∀ e ∈ unpublished stack, e ∈ s.history.getD (s.current thread) []
  chronicled : Chronicled s.history s.world.controller

variable {s}

/-- An ordered system publishes in order. -/
theorem Ordered.inOrder (h : s.Ordered) : s.InOrder := by
  intro observer
  have hreceived : (s.system.received observer).Sublist (s.system.way observer) := by
    rw [EventSystem.way, List.append_assoc]
    exact List.sublist_append_left _ _
  refine ((h.tickets observer).sublist hreceived).imp_of_mem fun hp hq hlt => ?_
  rename_i p q
  obtain ⟨hpl, hpe⟩ := h.known observer p (hreceived.subset hp)
  obtain ⟨hql, hqe⟩ := h.known observer q (hreceived.subset hq)
  have hle : s.origin p ≤ s.origin q := by
    rw [origin, origin, List.getD_eq_getElem _ _ hpl, List.getD_eq_getElem _ _ hql]
    exact List.pairwise_iff_getElem.1 h.sorted _ _ hpl hql hlt
  exact ⟨hle, h.chronicled.before hle hpe hqe⟩

section Moved
variable {thread : ℕ} {system : EventSystem} {stack stack' : List Frame}

/-- After a step a thread is the one that moved, or one that stayed. -/
theorem threads_set {other : ℕ} {held : List Frame}
    (hthreads : system.threads = s.system.threads.set thread stack')
    (h : system.threads[other]? = some held) :
    other = thread ∧ held = stack' ∨ other ≠ thread ∧ s.system.threads[other]? = some held := by
  rw [hthreads, List.getElem?_set] at h
  split at h
  · next heq =>
    split at h
    · exact .inl ⟨heq.symm, (Option.some.inj h).symm⟩
    · cases h
  · next hne => exact .inr ⟨fun heq => hne heq.symm, h⟩

/-- A move that accepts no event keeps the system ordered. -/
theorem Ordered.passes (h : s.Ordered) (hstack : s.system.threads[thread]? = some stack)
    (hthreads : system.threads = s.system.threads.set thread stack')
    (hsingle : system.frames.countP Frame.loaded ≤ 1)
    (hknown : system.queue.accepted = s.system.queue.accepted)
    (hway : ∀ observer, (system.way observer).Sublist (s.system.way observer))
    (hfewer : unpublished stack' ⊆ unpublished stack)
    (hinner : unpublished stack.tail = [] → unpublished stack'.tail = []) :
    Ordered { s with system } where
  single := hsingle
  inner held hheld := by
    rw [hthreads] at hheld
    rcases List.mem_or_eq_of_mem_set hheld with hold | rfl
    · exact h.inner held hold
    · exact hinner (h.inner stack (List.mem_of_getElem? hstack))
  tickets observer := (h.tickets observer).sublist (hway observer)
  known observer p hp := h.known observer p ((hway observer).subset hp)
  counted := h.counted.trans (congrArg List.length hknown.symm)
  sorted := h.sorted
  begun := h.begun
  waiting other held hget hsome := by
    rcases threads_set hthreads hget with ⟨rfl, rfl⟩ | ⟨-, hold⟩
    · have hsome : unpublished stack ≠ [] := fun hnone =>
        hsome (List.subset_nil.1 (hnone ▸ hfewer))
      obtain ⟨hbegun, hle, hmem⟩ := h.waiting other stack hstack hsome
      exact ⟨hbegun, hle, fun e he => hmem e (hfewer he)⟩
    · exact h.waiting other held hold hsome
  chronicled := h.chronicled

/-- Accepting the next event keeps the system ordered. -/
theorem Ordered.accepts {event : Event} {events : List Event} {rest : List Frame} (h : s.Ordered)
    (hstack : s.system.threads[thread]? = some (.publishing (event :: events) :: rest))
    (hthreads : system.threads = s.system.threads.set thread (.publishing events :: rest))
    (hsingle : system.frames.countP Frame.loaded ≤ 1)
    (hknown : system.queue.accepted = s.system.queue.accepted ++ [s.system.queue.posted event])
    (hway : ∀ observer, system.way observer =
      s.system.way observer ++ [s.system.queue.posted event])
    (hforemost : s.Foremost thread) :
    Ordered { s with system, origins := s.origins ++ [s.current thread] } := by
  have hpublishing : unpublished (.publishing (event :: events) :: rest) ≠ [] := by
    simp [unpublished, Frame.unpublished]
  obtain ⟨hbegun, hle, hmem⟩ := h.waiting thread _ hstack hpublishing
  have hposted : (s.system.queue.posted event).ticket = s.origins.length := h.counted.symm
  have horigin {p : Posted} (hp : p.ticket < s.origins.length) :
      (s.origins ++ [s.current thread]).getD p.ticket 0 = s.origin p := by
    rw [List.getD_append _ _ _ _ hp, origin]
  refine ⟨hsingle, fun held hheld => ?_, fun observer => ?_, fun observer p hp => ?_, ?_, ?_, ?_,
    fun other held hget hsome => ?_, h.chronicled⟩
  · rw [hthreads] at hheld
    rcases List.mem_or_eq_of_mem_set hheld with hold | rfl
    · exact h.inner held hold
    · exact h.inner (.publishing (event :: events) :: rest) (List.mem_of_getElem? hstack)
  · show List.Pairwise _ (system.way observer)
    rw [hway observer]
    refine List.pairwise_append.2 ⟨h.tickets observer, List.pairwise_singleton _ _, ?_⟩
    intro p hp q hq
    obtain rfl := List.mem_singleton.1 hq
    rw [hposted]
    exact (h.known observer p hp).1
  · rw [List.length_append, List.length_singleton]
    have hp : p ∈ system.way observer := hp
    rw [hway observer] at hp
    rcases List.mem_append.1 hp with hp | hp
    · obtain ⟨hlt, hevent⟩ := h.known observer p hp
      refine ⟨by omega, ?_⟩
      show p.event ∈ s.history.getD ((s.origins ++ [s.current thread]).getD p.ticket 0) []
      rw [horigin hlt]
      exact hevent
    · obtain rfl := List.mem_singleton.1 hp
      rw [hposted]
      refine ⟨by omega, ?_⟩
      show event ∈ s.history.getD ((s.origins ++ [s.current thread]).getD
        (s.system.queue.posted event).ticket 0) []
      rw [hposted, List.getD_append_right _ _ _ _ le_rfl, Nat.sub_self]
      exact hmem event (by simp [unpublished, Frame.unpublished])
  · show (s.origins ++ [s.current thread]).length = system.queue.accepted.length
    rw [hknown, List.length_append, List.length_append, h.counted]
    rfl
  · refine List.pairwise_append.2 ⟨h.sorted, List.pairwise_singleton _ _, fun n hn m hm => ?_⟩
    obtain rfl := List.mem_singleton.1 hm
    exact hle n hn
  · intro n hn
    rcases List.mem_append.1 hn with hn | hn
    · exact h.begun n hn
    · obtain rfl := List.mem_singleton.1 hn
      exact hbegun
  · rcases threads_set hthreads hget with ⟨rfl, rfl⟩ | ⟨-, hold⟩
    · refine ⟨hbegun, fun n hn => ?_, fun e he => hmem e ?_⟩
      · rcases List.mem_append.1 hn with hn | hn
        · exact hle n hn
        · obtain rfl := List.mem_singleton.1 hn
          exact le_rfl
      · exact List.mem_cons_of_mem event he
    · obtain ⟨hbegun', hle', hmem'⟩ := h.waiting other held hold hsome
      refine ⟨hbegun', fun n hn => ?_, hmem'⟩
      rcases List.mem_append.1 hn with hn | hn
      · exact hle' n hn
      · obtain rfl := List.mem_singleton.1 hn
        refine hforemost other (List.getElem?_eq_some_iff.1 hold).1 ?_
        rw [List.getD_eq_getElem?_getD, hold]
        exact hsome

/-- A call puts its events on the stack. -/
theorem act_call {q : EventQueue} {maxObservers : ℕ} {events : List Event}
    (h : PodFabric.outside stack = true) :
    act maxObservers q stack (.call events) = (q, .publishing events :: stack) := by
  cases stack with
  | nil => rfl
  | cons frame rest =>
    cases frame with
    | observing => rfl
    | publishing | dispatching | copying | calling => cases h

/-- An operation that takes effect is the last one so far. -/
theorem Ordered.performed {maxObservers : ℕ} {effect : Effect} (h : s.Ordered)
    (houtside : s.outside thread = true)
    (hheralds : Heralds s.world.controller effect.world.controller (effect.events.getD [])) :
    (s.performed maxObservers thread effect).Ordered := by
  unfold SharedController.performed
  obtain ⟨world, events⟩ := effect
  cases events with
  | none =>
    exact ⟨h.single, h.inner, h.tickets, h.known, h.counted, h.sorted, h.begun, h.waiting,
      h.chronicled.silent hheralds⟩
  | some events =>
    obtain ⟨stack, hstack, hout⟩ := Option.any_eq_true _ _ |>.1 houtside
    have hidle : unpublished stack = [] := by
      have hinner := h.inner stack (List.mem_of_getElem? hstack)
      cases stack with
      | nil => rfl
      | cons frame rest =>
        cases frame with
        | observing => exact hinner
        | publishing | dispatching | copying | calling => cases hout
    dsimp only
    rw [EventSystem.next_some hstack, act_call hout]
    obtain ⟨before, after, hframes, hset⟩ := EventSystem.frames_eq hstack
    have hcalled : unpublished (.publishing events :: stack) = events := by
      rw [unpublished, List.flatMap_cons, ← unpublished, hidle]
      exact List.append_nil events
    have hway (observer : ℕ) :
        EventSystem.way ⟨s.system.queue, s.system.threads.set thread (.publishing events :: stack)⟩
          observer = s.system.way observer := by
      rw [EventSystem.way, EventSystem.way, hset, hframes]
      simp [EventSystem.received, Frame.held]
    have hold {n : ℕ} (hn : n < s.history.length) :
        (s.history ++ [events]).getD n [] = s.history.getD n [] := List.getD_append _ _ _ _ hn
    refine ⟨?_, fun held hheld => ?_, fun observer => ?_, fun observer p hp => ?_, h.counted,
      h.sorted, fun n hn => ?_, fun other held hget hsome => ?_, h.chronicled.add hheralds⟩
    · have hsingle := h.single
      show (EventSystem.frames _).countP _ ≤ 1
      rw [hset]
      rw [hframes] at hsingle
      simpa [Frame.loaded] using hsingle
    · rcases List.mem_or_eq_of_mem_set hheld with hmem | rfl
      · exact h.inner held hmem
      · exact hidle
    · show (EventSystem.way _ observer).Pairwise _
      rw [hway observer]
      exact h.tickets observer
    · have hp : p ∈ s.system.way observer := hway observer ▸ hp
      obtain ⟨hlt, hevent⟩ := h.known observer p hp
      refine ⟨hlt, ?_⟩
      have hbegun : s.origin p < s.history.length := h.begun _ (by
        rw [origin, List.getD_eq_getElem _ _ hlt]
        exact List.getElem_mem hlt)
      show p.event ∈ (s.history ++ [events]).getD (s.origin p) []
      rw [hold hbegun]
      exact hevent
    · have := h.begun n hn
      rw [List.length_append, List.length_singleton]
      omega
    · rw [List.length_append, List.length_singleton]
      rcases @threads_set s thread _ (.publishing events :: stack) _ _ rfl hget with
        ⟨rfl, rfl⟩ | ⟨hne, hget⟩ <;> dsimp only
      · rw [Function.update_self]
        refine ⟨Nat.lt_succ_self _, fun n hn => (h.begun n hn).le, fun e he => ?_⟩
        rw [List.getD_append_right _ _ _ _ le_rfl, Nat.sub_self]
        exact hcalled ▸ he
      · rw [Function.update_of_ne hne]
        obtain ⟨hbegun, hle, hmem⟩ := h.waiting other held hget hsome
        refine ⟨hbegun.trans (Nat.lt_succ_self _), hle, fun e he => ?_⟩
        rw [hold hbegun]
        exact hmem e he

end Moved

/-- A move of a thread within the controller keeps the order, if it is taken in its turn. -/
theorem Ordered.moved {maxObservers thread : ℕ} {move : Move} (h : s.Ordered)
    (hmove : ∀ events, move ≠ .call events)
    (hturn : move = .advance → s.InTurn (thread, .advance)) :
    (s.moved maxObservers thread move).Ordered := by
  cases hstack : s.system.threads[thread]? with
  | none =>
    have hsame : s.moved maxObservers thread move = s := by
      simp [SharedController.moved, EventSystem.next_none hstack]
    rw [hsame]
    exact h
  | some stack =>
    have hget : s.system.threads.getD thread [] = stack := by
      rw [List.getD_eq_getElem?_getD, hstack]
      rfl
    have hturn (hadvance : move = .advance) : s.AdvancesInTurn thread stack :=
      hget ▸ hturn hadvance
    have hflowed := EventSystem.flowed hstack (act_advanced s.system.queue stack maxObservers hmove)
      h.single fun hadvance hhead => by
        obtain ⟨rest, rfl⟩ : ∃ rest, stack = .dispatching :: rest := by
          cases stack with
          | nil => cases hhead
          | cons frame rest => exact ⟨rest, by rw [Option.some.inj hhead]⟩
        exact hturn hadvance
    unfold SharedController.moved
    rw [EventSystem.next_some hstack]
    generalize (act maxObservers s.system.queue stack move).1 = q' at hflowed
    generalize (act maxObservers s.system.queue stack move).2 = stack' at hflowed
    obtain ⟨hflowed, hsingle⟩ := hflowed
    cases hflowed with
    | accepted hadvance event events rest hbefore hafter hknown hway =>
      subst hbefore hafter
      have hone : q'.accepted.length - s.system.queue.accepted.length = 1 := by
        have hlength := congrArg List.length hknown
        rw [List.length_append, List.length_singleton] at hlength
        exact Nat.sub_eq_of_eq_add (hlength.trans (Nat.add_comm _ _))
      dsimp only
      rw [hone]
      exact h.accepts hstack rfl hsingle hknown hway (hturn hadvance)
    | passed hknown hway hfewer hinner =>
      have hnone : q'.accepted.length - s.system.queue.accepted.length = 0 :=
        Nat.sub_eq_zero_of_le (congrArg List.length hknown).le
      dsimp only
      rw [hnone, List.replicate_zero, List.append_nil]
      exact h.passes hstack rfl hsingle hknown hway hfewer hinner

/-- A step in turn keeps the system ordered. -/
theorem Ordered.next {maxObservers : ℕ} {step : ℕ × Deed} (h : s.Ordered) (hturn : s.InTurn step) :
    (s.next maxObservers step).Ordered := by
  obtain ⟨thread, turn⟩ := step
  cases turn with
  | perform operation env =>
    show (if s.outside thread then s.performed maxObservers thread (s.world.operate env operation)
      else s).Ordered
    split
    · next houtside =>
      refine h.performed houtside (operate_heralds fun evidence heq => ?_)
      subst heq
      exact hturn
    · exact h
  | advance => exact h.moved (fun _ heq => by cases heq) fun _ => hturn
  | subscribe => exact h.moved (fun _ heq => by cases heq) fun heq => by cases heq
  | return_ => exact h.moved (fun _ heq => by cases heq) fun heq => by cases heq

/-- The system is ordered at its start. -/
theorem start_ordered {w : World} {threads : ℕ} : (start w threads).Ordered := by
  have hstack {stack : List Frame} (h : stack ∈ (start w threads).system.threads) : stack = [] :=
    List.eq_of_mem_replicate h
  have hframes : (start w threads).system.frames = [] :=
    List.flatten_eq_nil_iff.2 fun _ h => hstack h
  have hway (observer : ℕ) : (start w threads).system.way observer = [] := by
    rw [EventSystem.way, hframes]
    rfl
  refine ⟨by simp [hframes], fun stack h => ?_, fun observer => ?_, fun observer p hp => ?_, rfl,
    List.Pairwise.nil, fun n hn => ?_, fun thread stack h hsome => ?_, ?_⟩
  · rw [hstack h]
    rfl
  · rw [hway]
    exact List.Pairwise.nil
  · rw [hway] at hp
    cases hp
  · cases hn
  · exact absurd (by rw [hstack (List.mem_of_getElem? h)]; rfl) hsome
  · exact ⟨List.Pairwise.nil, by simp [start], by simp [start]⟩

end SharedController

/-- **Observers learn of operations in their order.** In every interleaving of any number of threads
that ask for rounds, overrides, tokens, revocations and the retirement of the pod, with observers
that call the controller in turn: while events are published in the order in which the operations
took effect, and nothing is taken from the queue before what was taken earlier has been delivered,
every observer receives the events in that order; if moreover the rounds that fence tokens are
committed, the epochs it sees do not decrease, and nothing of a live pod comes after its
retirement. -/
theorem observers_in_order {maxObservers threads : ℕ} {w : World} {steps : List (ℕ × Deed)}
    (h : ∀ x ∈ SharedController.trace maxObservers w threads steps, x.1.InTurn x.2) :
    (SharedController.run maxObservers w threads steps).InOrder := by
  have hordered : (SharedController.run maxObservers w threads steps).Ordered :=
    Run.final_invariant SharedController.start_ordered fun x hx hs => hs.next (h x hx)
  exact hordered.inOrder

namespace Sample

/-- A thread calls the controller and delivers the event to the only observer. -/
def delivering (thread : ℕ) (operation : Operation) : List (ℕ × Deed) :=
  (thread, .perform operation env) :: List.replicate 5 (thread, .advance) ++
    [(thread, .return_), (thread, .advance)]

/-- A request for a token of the pod. -/
def granting : Operation := .mintAuthority .pod .nil 0

/-- A token is granted, and then the pod is retired by another thread. -/
def successive : List (ℕ × Deed) :=
  (0, .subscribe) :: delivering 0 granting ++ delivering 1 .retire

/-- The pod is retired after a token was granted, but before the grant is published. -/
def overtaken : List (ℕ × Deed) :=
  (0, .subscribe) :: (0, .perform granting env) :: delivering 1 .retire ++
    List.replicate 5 (0, .advance)

end Sample

/-- Two calls, one after the other, are told in order. -/
theorem successive_in_order : (SharedController.run 32 (Sample.world false) 2
    Sample.successive).InOrder :=
  observers_in_order (by decide +kernel)

/-- The observer learns of the grant after the retirement. -/
theorem overtaken_out_of_order : ¬ ∀ (maxObservers threads : ℕ) (w : World)
    (steps : List (ℕ × Deed)), (SharedController.run maxObservers w threads steps).InOrder := by
  intro h
  have hpairs := h 32 2 (Sample.world false) Sample.overtaken 0
  exact absurd hpairs (by decide +kernel)

end PodFabric
