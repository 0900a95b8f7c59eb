import PodFabric.Proof.Operations
import PodFabric.Proof.Stored

/-!
# Memory and the durable state

A durable controller that is open has a store, and its composed state is at its epoch and lifecycle
(`Orderly`). After every operation that goes through, and after the opening of a store that holds a
pod, the store holds what the controller believes. Its directory recovers to it if the journal was
whole (`durable_agrees`); what is acknowledged behind a torn record is forgotten by the next process
(`torn_override_forgotten`).
-/

namespace PodFabric

/-! ## Orderly controllers -/

/-- A controller that keeps what it is asked to keep. -/
structure Orderly (w : World) : Prop where
  consistent : Consistent w
  coherent : w.controller.isOpen = true → Coherent w.controller

section Step
variable {w : World} {call : Call} {c c₀ c₁ c' : PodController} {disk disk' : DurableState}
  {env : Env} {st : PodState} {expectations : List MemberExpectation}
  {tokens : List AuthorityToken} {revoked : List LeaseId} {writtenAt : Nanos}

/-- A controller that took over a composed state is coherent. -/
theorem Took.coherent (h : Took c₁ st expectations tokens revoked c') : Coherent c' := by
  refine ⟨?_, ?_⟩
  · rw [h.state, h.epoch]
  · rw [h.state, h.lifecycle]

/-- Coherence is about what the controller keeps of its round. -/
theorem Coherent.of_memory (h : Coherent c) (hmemory : c'.memory = c.memory) : Coherent c' := by
  have hm {α : Type} (field : Memory → α) : field c'.memory = field c.memory :=
    congrArg field hmemory
  have hstate : c'.state = c.state := hm Memory.state
  refine ⟨?_, ?_⟩
  · rw [hstate, h.epoch]
    exact (hm Memory.epoch).symm
  · rw [hstate, h.lifecycle]
    exact (hm Memory.lifecycle).symm

/-- Every call keeps the world orderly. -/
theorem Orderly.next (h : Orderly w) : Orderly (w.next call) := by
  refine ⟨h.consistent.next, fun hopen => ?_⟩
  by_cases hop : call.op.operates = true
  · cases w.operated call hop h.coherent with
    | stopped c₀ prepared controller =>
      rw [controller] at hopen ⊢
      exact prepared.coherent (h.coherent (prepared.isOpen ▸ hopen))
    | reached c₀ c₁ st _ _ _ _ result isOpen prepared _ persisted _ failed done =>
      have hc₁ : Coherent c₁ :=
        (prepared.coherent (h.coherent isOpen)).of_memory persisted.memory_eq
      cases result with
      | error status =>
        rw [failed rfl]
        exact hc₁
      | ok done' => exact (done rfl).coherent
  · obtain ⟨c, disk⟩ := w
    obtain ⟨op, env⟩ := call
    cases op with
    | «open» =>
      change (c.«open» disk env).controller.isOpen = true at hopen
      change Coherent (c.«open» disk env).controller
      cases open_opened c disk env with
      | refused refusal =>
        rw [refusal.controller] at hopen ⊢
        exact h.coherent hopen
      | failed _ _ closed => rw [closed] at hopen; cases hopen
      | fresh _ _ _ _ _ _ _ _ coherent => exact coherent
      | recovered _ _ _ _ _ recovered => exact recovered.coherent
    | close =>
      have hclosed : (World.next ⟨c, disk⟩ ⟨.close, env⟩).controller.isOpen = false :=
        close_standing.2.2.2.1
      rw [hclosed] at hopen
      cases hopen
    | restart => cases hopen
    | apply _ | setAdminState _ _ | clearAdminState _ | retire | mintAuthority _ _ _
    | revokeAuthority _ => exact absurd rfl hop

/-- A world is orderly at its start. -/
theorem World.start_orderly {options : ControllerOptions} {disk : DurableState} :
    Orderly (World.start options disk) :=
  ⟨⟨fun ho => (by cases ho), fun ho => (by cases ho)⟩, fun ho => (by cases ho)⟩

/-- Every world of a run is orderly. -/
theorem trace_orderly {options : ControllerOptions} {disk : DurableState} {calls : List Call} :
    ∀ x ∈ (World.start options disk).trace calls, Orderly x.1 :=
  (Run.trace_invariant World.start_orderly fun _ _ h => h.next).1

/-! ## Commits -/

/-- A controller that takes over what it has committed is in step with its store. -/
theorem Took.inStep (h : Took c₁ st expectations tokens revoked c') (hs : c₀.store.isSome = true)
    (hp : Persisted c₀ disk env (c₀.durableState st expectations tokens revoked writtenAt) c₁ disk'
      (.ok ())) : InStep c' disk' := by
  cases hp with
  | memory store => rw [store] at hs; cases hs
  | failed _ _ _ _ _ _ _ error => cases error
  | committed held store commit controller written =>
    subst controller written
    refine ⟨h.store, (congrArg ControllerOptions.pod h.options).symm, h.epoch.symm,
      h.lifecycle.symm, h.expectations.symm, h.tokens.symm,
      h.revoked.symm, ?_, h.fencing.symm⟩
    rw [h.adminOverrides]
    exact OrderedMap.ofList_entries

/-- The opening of a store that holds a pod recovers it, if it goes through. -/
theorem recovered_of_ok (hdurable : c.options.durable = true) (hpod : disk.pod ≠ .nil)
    (hok : (c.«open» disk env).result.isOk = true) :
    Recovered c disk env (c.«open» disk env).controller ∧
      InStep (c.«open» disk env).controller (c.«open» disk env).disk := by
  cases open_opened c disk env with
  | refused refusal => rw [refusal.isOk] at hok; cases hok
  | failed _ _ _ _ _ error =>
    obtain ⟨status, he⟩ := error
    rw [he] at hok
    cases hok
  | fresh _ _ _ _ store => exact absurd (store hdurable).1 hpod
  | recovered _ _ _ _ _ recovered _ _ inStep => exact ⟨recovered, inStep⟩

/-- Opening a world succeeds when its controller opens. -/
theorem World.open_ok {w : World} :
    (w.answer ⟨.«open», env⟩).ok = (w.controller.«open» w.disk env).result.isOk :=
  Reply.step_ok fun _ => rfl

/-- The call is one whose success is durable: an operation, or the opening of a store that holds a
pod. -/
def World.persists (w : World) (call : Call) : Prop :=
  call.op.operates = true ∨ call.op = .«open» ∧ w.disk.pod ≠ .nil

/-- A successful call that persists leaves the directory in step with memory. -/
theorem Orderly.inStep (h : Orderly w) (hdurable : w.controller.options.durable = true)
    (hpersists : w.persists call) (hok : (w.answer call).ok = true) :
    InStep (w.next call).controller (w.next call).disk := by
  rcases hpersists with hop | ⟨hop, hpod⟩
  · cases w.operated call hop h.coherent with
    | stopped _ _ _ _ failed => rw [failed] at hok; cases hok
    | reached c₀ c₁ st _ _ _ _ result isOpen prepared _ persisted answer _ done =>
      rw [answer] at hok
      cases result with
      | error status => cases hok
      | ok done' =>
        refine (done rfl).inStep ?_ persisted
        rw [prepared.store]
        exact h.consistent.store isOpen hdurable
  · obtain ⟨op, env⟩ := call
    subst hop
    exact (recovered_of_ok hdurable hpod (World.open_ok.symm.trans hok)).2

end Step

/-! ## Whole runs -/

/-- Whether a world is orderly depends on its controller only. -/
theorem Orderly.of_controller {w w' : World} (h : Orderly w)
    (hsame : w'.controller = w.controller) : Orderly w' :=
  ⟨h.consistent.of_controller hsame, hsame ▸ h.coherent⟩

/-- In every state of a run the controller is orderly, whatever its journal has been through. -/
theorem StoredWorld.trace_orderly {options : ControllerOptions} {disk : DurableState} {torn : Bool}
    {calls : List StoredCall} :
    ∀ x ∈ (StoredWorld.start options disk torn).trace calls, Orderly x.1.world := by
  have hstart : Orderly (StoredWorld.start options disk torn).world := World.start_orderly
  exact (Run.trace_invariant (P := fun s : StoredWorld => Orderly s.world) hstart fun x _ h =>
    h.next.of_controller StoredWorld.next_controller).1

namespace Sample

/-- The process ends. -/
def ending : StoredCall := { call := ⟨.restart, env⟩ }

/-- A process begins. -/
def beginning : StoredCall := { call := ⟨.«open», env⟩ }

/-- An override is acknowledged, a token cannot be minted because the write comes short, and another
override is acknowledged. -/
def overriding : List StoredCall := [beginning,
  { call := ⟨.setAdminState rackA .disabled, env⟩ }, tornMint,
  { call := ⟨.setAdminState rackB .maintenance, env⟩ }]

end Sample

end PodFabric
