import PodFabric.Proof.Lifecycle
import PodFabric.Proof.Monotone

/-!
# Lifecycles over whole runs

A round moves the lifecycle legally from the one the controller has, and a controller that opens a
store moves it legally from the one on record. In runs whose operations all go through, what is on
record is what was shown last (`LastShown`), so that any two states shown one after the other are a
legal transition apart; and a pod that was shown retired stays so and without authority
(`lifecycle_legal`).
-/

namespace PodFabric

/-! ## One step -/

namespace LifecycleState

/-- What `next` grants is legal. -/
theorem legal_next (current desired : LifecycleState) :
    legal current (current.next desired) = true := by
  cases current <;> cases desired <;> decide

/-- Every state may be retired. -/
theorem legal_retired (current : LifecycleState) : legal current .retired = true := by
  cases current <;> decide

/-- A retired pod stays retired. -/
theorem legal_from_retired {desired : LifecycleState} :
    legal retired desired = true ↔ desired = .retired := by
  cases desired <;> decide

/-- Every state may be kept. -/
theorem legal_self (current : LifecycleState) : legal current current = true := by
  cases current <;> decide

/-- A restart is legal from every lifecycle. -/
theorem legal_restart (current : LifecycleState) :
    legal current (if current = .retired then .retired else .recovering) = true := by
  cases current <;> decide

end LifecycleState

section Round
variable {request : CompositionRequest} {st : PodState}

/-- A round takes a legal step. -/
theorem compose_legal (h : compose request = .ok st) :
    LifecycleState.legal request.context.lifecycle st.lifecycle = true := by
  obtain ⟨p, -, hof, rfl⟩ := compose_passesOf h
  rw [finalise_lifecycle, composedLifecycle_eq, hof.context]
  exact LifecycleState.legal_next ..

/-- Only a retired pod composes to a retired one. -/
theorem compose_retired_iff (h : compose request = .ok st) :
    st.lifecycle = .retired ↔ request.context.lifecycle = .retired := by
  obtain ⟨p, -, hof, rfl⟩ := compose_passesOf h
  rw [finalise_lifecycle, composedLifecycle_eq, hof.context,
    LifecycleState.next_eq_retired desired_not_retired]

/-- A retired pod is not authoritative. -/
theorem compose_retired_authority (h : compose request = .ok st)
    (hretired : st.lifecycle = .retired) :
    st.authority.status ≠ .ok := by
  intro hok
  have hrefused : Code.refused = .ok := (authority_exact h).2.1.1 hok _ (.retired hretired)
  cases hrefused

end Round

section Step
variable {w : World} {call : Call} {c c₀ : PodController} {env : Env} {st : PodState}
  {lifecycle : LifecycleState}

/-- What an operation commits is legal after the lifecycle of the controller. -/
theorem Proposed.legal (h : Proposed c₀ env st) (hprepared : Prepared c c₀) (hc : Coherent c) :
    LifecycleState.legal c.lifecycle st.lifecycle = true := by
  cases h with
  | round evidence composed =>
    have hlegal : LifecycleState.legal c₀.lifecycle st.lifecycle = true := compose_legal composed
    rcases hprepared.lifecycle with ⟨hl, -⟩ | ⟨hl, -, -⟩
    · exact hl ▸ hlegal
    · rw [(compose_retired_iff composed).2 hl]
      exact LifecycleState.legal_retired _
  | same same =>
    rw [same]
    rcases hprepared.lifecycle with ⟨-, hs⟩ | ⟨-, hs, -⟩
    · rw [hs, hc.lifecycle]
      exact LifecycleState.legal_self _
    · rw [hs]
      exact LifecycleState.legal_retired _

/-! ## Retirement -/

/-- An open controller of a retired pod has no authority. -/
def Unauthorised (w : World) : Prop :=
  w.controller.isOpen = true → w.controller.state.lifecycle = .retired →
    w.controller.state.authority.status ≠ .ok

/-- A prepared controller is not authoritative when it is retired. -/
theorem Prepared.unauthorised (h : Prepared c c₀)
    (hc : c.state.lifecycle = .retired → c.state.authority.status ≠ .ok)
    (hretired : c₀.state.lifecycle = .retired) : c₀.state.authority.status ≠ .ok := by
  rcases h.lifecycle with ⟨-, hs⟩ | ⟨-, -, hrefused⟩
  · rw [hs] at hretired ⊢
    exact hc hretired
  · rw [hrefused]
    decide

/-- No call makes a retired pod authoritative. -/
theorem Unauthorised.next (h : Unauthorised w) (horderly : Orderly w) :
    Unauthorised (w.next call) := by
  intro ho hretired
  by_cases hop : call.op.operates = true
  · cases w.operated call hop horderly.coherent with
    | stopped c₀ prepared controller =>
      rw [controller] at ho hretired ⊢
      exact prepared.unauthorised (h (prepared.isOpen ▸ ho)) hretired
    | reached c₀ c₁ st _ _ _ _ result isOpen prepared proposed persisted _ failed done =>
      have hc₀ := prepared.unauthorised (h isOpen)
      cases result with
      | error status =>
        have hstate : c₁.state = c₀.state := congrArg Memory.state persisted.memory_eq
        rw [failed rfl, hstate] at hretired ⊢
        exact hc₀ hretired
      | ok done' =>
        rw [(done rfl).state] at hretired ⊢
        cases proposed with
        | round evidence composed => exact compose_retired_authority composed hretired
        | same same =>
          rw [same] at hretired ⊢
          exact hc₀ hretired
  · obtain ⟨c, disk⟩ := w
    obtain ⟨op, env⟩ := call
    cases op with
    | «open» =>
      change (c.«open» disk env).controller.state.authority.status ≠ .ok
      change (c.«open» disk env).controller.isOpen = true at ho
      change (c.«open» disk env).controller.state.lifecycle = .retired at hretired
      cases open_opened c disk env with
      | refused refusal =>
        rw [refusal.controller] at ho hretired ⊢
        exact h ho hretired
      | failed _ _ closed =>
        rw [closed] at ho
        cases ho
      | fresh _ _ _ _ _ _ _ _ _ _ authority =>
        rw [authority]
        decide
      | recovered _ _ _ _ _ recovered =>
        rw [recovered.authority]
        decide
    | close =>
      have hclosed : (World.next ⟨c, disk⟩ ⟨.close, env⟩).controller.isOpen = false :=
        close_standing.2.2.2.1
      rw [hclosed] at ho
      cases ho
    | restart => cases ho
    | apply _ | setAdminState _ _ | clearAdminState _ | retire | mintAuthority _ _ _
    | revokeAuthority _ => exact absurd rfl hop

/-! ## What was shown last -/

/-- The lifecycle is the one shown last: that of an open controller, and the one on record, which is
`constructing` as long as there is none. -/
structure LastShown (lifecycle : LifecycleState) (w : World) : Prop where
  memory : w.controller.isOpen = true → w.controller.lifecycle = lifecycle
  disk : (w.disk.pod = .nil ∧ lifecycle = .constructing) ∨
    (w.disk.pod ≠ .nil ∧ w.disk.lifecycle = lifecycle)

/-- What a call that goes through shows: nothing, or a lifecycle that is on record. -/
inductive Showing (w : World) (call : Call) : Prop
  | hidden (closed : (w.next call).controller.isOpen = false) (disk : (w.next call).disk = w.disk)
  | operated (wasOpen : w.controller.isOpen = true)
      (isOpen : (w.next call).controller.isOpen = true) (identity : (w.next call).disk.pod ≠ .nil)
      (inStep : InStep (w.next call).controller (w.next call).disk)
      (legal : LifecycleState.legal w.controller.lifecycle
        (w.next call).controller.lifecycle = true)
  | fresh (isOpen : (w.next call).controller.isOpen = true) (unused : w.disk.pod = .nil)
      (disk : (w.next call).disk = w.disk)
      (lifecycle : (w.next call).controller.lifecycle = .constructing)
  | recovered (isOpen : (w.next call).controller.isOpen = true) (identity : w.disk.pod ≠ .nil)
      (identity' : (w.next call).disk.pod ≠ .nil)
      (inStep : InStep (w.next call).controller (w.next call).disk)
      (lifecycle : (w.next call).controller.lifecycle =
        if w.disk.lifecycle = .retired then .retired else .recovering)

/-- A successful call shows a legal step, if it shows one. -/
theorem World.showing (horderly : Orderly w) (hdurable : w.controller.options.durable = true)
    (hok : (w.answer call).ok = true) : Showing w call := by
  by_cases hop : call.op.operates = true
  · have hstep := horderly.inStep hdurable (.inl hop) hok
    cases w.operated call hop horderly.coherent with
    | stopped _ _ _ _ failed => rw [failed] at hok; cases hok
    | reached c₀ c₁ st _ _ _ _ result isOpen prepared proposed persisted answer _ done =>
      rw [answer] at hok
      cases result with
      | error status => cases hok
      | ok done' =>
        have htook := done rfl
        have hopen : (w.next call).controller.isOpen = true := by
          rw [htook.isOpen, persisted.untouched.isOpen, prepared.isOpen, isOpen]
        refine .operated isOpen hopen ?_ hstep ?_
        · rw [hstep.2.pod]
          exact horderly.next.consistent.identity hopen
        · rw [htook.lifecycle]
          exact proposed.legal prepared (horderly.coherent isOpen)
  · obtain ⟨c, disk⟩ := w
    obtain ⟨op, env⟩ := call
    cases op with
    | «open» =>
      rw [World.open_ok] at hok
      change (c.«open» disk env).result.isOk = true at hok
      cases open_opened c disk env with
      | refused refusal => rw [refusal.isOk] at hok; cases hok
      | failed _ _ _ _ _ error =>
        obtain ⟨status, he⟩ := error
        rw [he] at hok
        cases hok
      | fresh _ _ _ isOpen store memory same =>
        exact .fresh isOpen (store hdurable).1 same (congrArg Memory.lifecycle memory)
      | recovered _ _ _ isOpen identity recovered same _ inStep =>
        refine .recovered isOpen identity ?_ inStep recovered.lifecycle
        change (c.«open» disk env).disk.pod ≠ .nil
        exact same.pod ▸ identity
    | close =>
      obtain ⟨-, -, -, hclosed, hdisk⟩ := @close_standing c disk env
      exact .hidden hclosed hdisk
    | restart => exact .hidden rfl rfl
    | apply _ | setAdminState _ _ | clearAdminState _ | retire | mintAuthority _ _ _
    | revokeAuthority _ => exact absurd rfl hop

/-- What a call that goes through shows is what was shown last. -/
theorem Showing.last (h : Showing w call) (ho : (w.next call).controller.isOpen = true) :
    LastShown (w.next call).controller.lifecycle (w.next call) := by
  refine ⟨fun _ => rfl, ?_⟩
  cases h with
  | hidden closed =>
    rw [closed] at ho
    cases ho
  | operated _ _ identity inStep => exact .inr ⟨identity, inStep.2.lifecycle⟩
  | fresh _ unused disk lifecycle => exact .inl ⟨disk ▸ unused, lifecycle⟩
  | recovered _ _ identity' inStep => exact .inr ⟨identity', inStep.2.lifecycle⟩

/-- As long as nothing else is shown, it is what was shown last. -/
theorem LastShown.next (h : LastShown lifecycle w) (hshowing : Showing w call)
    (hsame : (w.next call).controller.isOpen = true →
      (w.next call).controller.lifecycle = lifecycle) : LastShown lifecycle (w.next call) := by
  have hshown (ho : (w.next call).controller.isOpen = true) : LastShown lifecycle (w.next call) :=
    hsame ho ▸ hshowing.last ho
  cases hshowing with
  | hidden closed disk =>
    refine ⟨fun ho => ?_, disk ▸ h.disk⟩
    rw [closed] at ho
    cases ho
  | operated _ isOpen | fresh isOpen | recovered isOpen => exact hshown isOpen

/-- A call that goes through shows a lifecycle that is legal after the one shown last. -/
theorem LastShown.legal (h : LastShown lifecycle w) (hshowing : Showing w call)
    (ho : (w.next call).controller.isOpen = true) :
    LifecycleState.legal lifecycle (w.next call).controller.lifecycle = true := by
  cases hshowing with
  | hidden closed =>
    rw [closed] at ho
    cases ho
  | operated wasOpen _ _ _ legal => exact h.memory wasOpen ▸ legal
  | fresh _ unused _ hlife =>
    have hfirst : lifecycle = .constructing := by
      rcases h.disk with ⟨-, hl⟩ | ⟨hpod, -⟩
      · exact hl
      · exact absurd unused hpod
    rw [hlife, hfirst]
    exact LifecycleState.legal_self _
  | recovered _ identity _ _ hlife =>
    have hrecord : w.disk.lifecycle = lifecycle := by
      rcases h.disk with ⟨hpod, -⟩ | ⟨-, hl⟩
      · exact absurd hpod identity
      · exact hl
    rw [hlife, hrecord]
    exact LifecycleState.legal_restart _

end Step

/-! ## Whole runs -/

/-- In no world of a run is a retired pod authoritative. -/
theorem trace_unauthorised {options : ControllerOptions} {disk : DurableState}
    {calls : List Call} : ∀ x ∈ (World.start options disk).trace calls, Unauthorised x.1 := by
  have hstart : Unauthorised (World.start options disk) := fun ho => (by cases ho)
  exact (Run.trace_invariant hstart fun x hx h => h.next (trace_orderly x hx)).1

/-- **Legal lifecycles over whole runs.** In a run of a durable controller whose operations all go
through, restarts included, a lifecycle that is shown is legal after the one shown before it, and in
particular `active` never follows `partitioned`; and once a pod is shown retired, every later state
is retired and has no authority. -/
theorem lifecycle_legal {options : ControllerOptions} {disk : DurableState} {calls : List Call}
    {front middle back : List (World × Call)} {x y : World × Call} {st st' : PodState}
    (hdurable : options.durable = true)
    (hok : ∀ z ∈ (World.start options disk).trace calls, (z.1.answer z.2).ok = true)
    (htrace : (World.start options disk).trace calls = front ++ x :: middle ++ y :: back)
    (hx : (x.1.next x.2).shown = some st) (hy : (y.1.next y.2).shown = some st') :
    ((∀ z ∈ middle, ∀ between, (z.1.next z.2).shown = some between →
        between.lifecycle = st.lifecycle) →
      LifecycleState.legal st.lifecycle st'.lifecycle = true ∧
        ¬ (st.lifecycle = .partitioned ∧ st'.lifecycle = .active)) ∧
    (st.lifecycle = .retired → st'.lifecycle = .retired ∧ st'.authority.status ≠ .ok) := by
  have hshowing : ∀ z ∈ (World.start options disk).trace calls, Showing z.1 z.2 := fun z hz =>
    World.showing (trace_orderly z hz) ((trace_consistent z hz).2.trans hdurable) (hok z hz)
  have hxtrace : x ∈ (World.start options disk).trace calls := by simp [htrace]
  have hytrace : y ∈ (World.start options disk).trace calls := by simp [htrace]
  have hmiddle : ∀ z ∈ middle, z ∈ (World.start options disk).trace calls := fun z hz => by
    simp [htrace, hz]
  obtain ⟨hxopen, rfl⟩ := World.shown_eq_some hx
  obtain ⟨hyopen, rfl⟩ := World.shown_eq_some hy
  have hycoherent := (trace_orderly y hytrace).next.coherent hyopen
  have hlast := (hshowing x hxtrace).last hxopen
  rw [((trace_orderly x hxtrace).next.coherent hxopen).lifecycle, hycoherent.lifecycle]
  refine ⟨fun hbetween => ?_, fun hretired => ?_⟩
  · have hsame : LastShown (x.1.next x.2).controller.lifecycle y.1 := by
      refine Run.between htrace hlast fun z hz h => h.next (hshowing z (hmiddle z hz)) fun ho => ?_
      rw [← ((trace_orderly z (hmiddle z hz)).next.coherent ho).lifecycle]
      exact hbetween z hz _ (if_pos ho)
    have hlegal := hsame.legal (hshowing y hytrace) hyopen
    refine ⟨hlegal, fun ⟨hpartitioned, hactive⟩ => ?_⟩
    rw [hpartitioned, hactive] at hlegal
    cases hlegal
  · have hsame : LastShown .retired y.1 := by
      refine Run.between htrace (hretired ▸ hlast) fun z hz h =>
        h.next (hshowing z (hmiddle z hz)) fun ho => ?_
      exact LifecycleState.legal_from_retired.1 (h.legal (hshowing z (hmiddle z hz)) ho)
    have hend := LifecycleState.legal_from_retired.1 (hsame.legal (hshowing y hytrace) hyopen)
    exact ⟨hend, (trace_unauthorised y hytrace).next (trace_orderly y hytrace) hyopen
      (hycoherent.lifecycle.trans hend)⟩

/-! ## A retired pod -/

/-- The sample pod is retired, and its next incarnation opens it retired and without authority. -/
theorem reopened_retired :
    let w := (Sample.world true).next ⟨.retire, Sample.env⟩
    let w' := (w.next ⟨.restart, Sample.env⟩).next ⟨.«open», Sample.env⟩
    w.controller.state.lifecycle = .retired ∧ w'.controller.state.lifecycle = .retired ∧
      w'.controller.state.authority.status ≠ .ok := by
  intro w w'
  let start := World.start (Sample.options true) {}
  let calls : List Call := [⟨.«open», Sample.env⟩, ⟨.retire, Sample.env⟩, ⟨.restart, Sample.env⟩,
    ⟨.«open», Sample.env⟩]
  have htrace : start.trace calls = [(start, ⟨.«open», Sample.env⟩)] ++
      (Sample.world true, ⟨.retire, Sample.env⟩) :: [(w, ⟨.restart, Sample.env⟩)] ++
        (w.next ⟨.restart, Sample.env⟩, ⟨.«open», Sample.env⟩) :: [] := rfl
  have hok : ∀ z ∈ start.trace calls, (z.1.answer z.2).ok = true := by decide +kernel
  have hw : w.controller.isOpen = true := by decide +kernel
  have hw' : w'.controller.isOpen = true := by decide +kernel
  have hretired : w.controller.state.lifecycle = .retired := by decide +kernel
  exact ⟨hretired, (lifecycle_legal rfl hok htrace (if_pos hw) (if_pos hw')).2 hretired⟩

end PodFabric
