import PodFabric.Proof.Recovery
import PodFabric.Proof.Expectations

/-!
# Rounds of a run

A call composes a round if it applies evidence or changes an override over earlier evidence. Each
operation on a controller publishes its round, fails to commit it, or leaves the epoch and the
expectations alone (`World.stepped`).
-/

namespace PodFabric

namespace World
variable (w : World) (call : Call)

/-- The request that a call composes, if it composes one. -/
def request : Option CompositionRequest :=
  let c := w.controller
  match call.op with
  | .apply evidence => some (c.request call.env evidence)
  | .setAdminState rack state =>
    if c.haveLastEvidence then
      some ({ c with adminOverrides := c.adminOverrides.insert rack state }.request call.env
        c.lastEvidence)
    else none
  | .clearAdminState rack =>
    if c.haveLastEvidence then
      some ({ c with adminOverrides := c.adminOverrides.erase rack }.request call.env
        c.lastEvidence)
    else none
  | _ => none

/-- The state that a call publishes, if it publishes one. -/
def published : Option PodState :=
  match w.answer call, w.request call with
  | .failed _, _ => none
  | _, some _ => some (w.next call).controller.state
  | _, none => none

end World

/-! ## Steps -/

/-- The fields that a call on an open controller keeps, unless it publishes a round. -/
structure SameStanding (c c' : PodController) : Prop where
  epoch : c'.epoch = c.epoch
  expectations : c'.expectations = c.expectations
  options : c'.options = c.options
  isOpen : c'.isOpen = c.isOpen
  store : c'.store.isSome = c.store.isSome

/-- The directory after a commit of some expectations: it is as it was, or recovers to them. -/
def Holds (c : PodController) (expectations : List MemberExpectation) (disk disk' : DurableState) :
    Prop :=
  disk' = disk ∨
    (c.isOpen = true ∧ c.store.isSome = true ∧ disk'.pod = c.options.pod ∧
      disk'.expectations = expectations)

/-- What a published round leaves behind. -/
structure Publishes (w : World) (st : PodState) (w' : World) : Prop where
  state : w'.controller.state = st
  epoch : w'.controller.epoch = st.epoch
  expectations : w'.controller.expectations =
    PodController.deriveExpectations st w.controller.expectations
  options : w'.controller.options = w.controller.options
  isOpen : w'.controller.isOpen = w.controller.isOpen
  store : w'.controller.store.isSome = w.controller.store.isSome
  memoryOnly : w.controller.store = none → w'.disk = w.disk
  durable : w.controller.store.isSome = true → w'.disk.pod = w.controller.options.pod ∧
    w'.disk.expectations = PodController.deriveExpectations st w.controller.expectations

/-- How a call on a controller ends: it publishes a round, its round is not committed, or it leaves
the beliefs of the controller and its directory alone. -/
inductive Stepped (w : World) (call : Call) : Prop
  | published (request : CompositionRequest) (st : PodState) (isOpen : w.controller.isOpen = true)
      (asks : w.request call = some request) (composed : compose request = .ok st)
      (published : w.published call = some st) (publishes : Publishes w st (w.next call))
  | unsaved (request : CompositionRequest) (asks : w.request call = some request)
      (failed : (w.answer call).ok = false) (unpublished : w.published call = none)
      (same : SameStanding w.controller (w.next call).controller)
  | idle (unpublished : w.published call = none)
      (same : SameStanding w.controller (w.next call).controller)
      (holds : Holds w.controller w.controller.expectations w.disk (w.next call).disk)

section Step
variable {c c' : PodController} {disk disk' next : DurableState} {env : Env}
  {result : Result Unit}

/-- A controller that nothing touched stands as before. -/
theorem Untouched.standing (h : Untouched c c') : SameStanding c c' :=
  ⟨congrArg Memory.epoch h.memory, congrArg Memory.expectations h.memory, h.options, h.isOpen,
    h.store⟩

/-- A saved round holds what the directory recovers to. -/
theorem Persisted.holds (h : Persisted c disk env next c' disk' result)
    (hpod : next.pod = c.options.pod) (hopen : c.isOpen = true) :
      Holds c next.expectations disk disk' := by
  cases h with
  | memory _ _ same => exact .inl same
  | committed held store _ _ written =>
    subst written
    exact .inr ⟨hopen, by rw [store]; rfl, hpod, rfl⟩
  | failed held _ _ store _ _ written =>
    rcases written with rfl | rfl
    · exact .inl rfl
    · exact .inr ⟨hopen, by rw [store]; rfl, hpod, rfl⟩

/-- A successful commit is on disk, if there is one. -/
theorem Persisted.durable (h : Persisted c disk env next c' disk' (.ok ()))
    (hs : c.store.isSome = true) : ∃ held, disk' = next.stamped held env.system := by
  cases h with
  | memory store => rw [store] at hs; cases hs
  | committed held _ _ _ written => exact ⟨held, written⟩
  | failed _ _ _ _ _ _ _ error => cases error

/-- Without a store the directory stays. -/
theorem Persisted.memoryOnly (h : Persisted c disk env next c' disk' result)
    (hs : c.store = none) : disk' = disk := by
  cases h with
  | memory _ _ same => exact same
  | committed held store => rw [store] at hs; cases hs
  | failed held _ _ store => rw [store] at hs; cases hs

/-- How the round of a controller ends. -/
inductive RoundEnds (c : PodController) (disk : DurableState) (env : Env) (evidence : PodSnapshot)
    (c' : PodController) (disk' : DurableState) (result : Outcome Unit) : Prop
  | published (st : PodState) (isOpen : c.isOpen = true)
      (composed : compose (c.request env evidence) = .ok st)
      (ok : result = .ok ()) (publishes : Publishes ⟨c, disk⟩ st ⟨c', disk'⟩)
  | failed (fault : Fault) (error : result = .error fault) (same : SameStanding c c')

/-- How a round ends. -/
theorem Applied.roundEnds {evidence : PodSnapshot} {reply : Reply PodController.ApplyReport}
    (h : Applied c disk env evidence reply) :
    RoundEnds c disk env evidence reply.controller reply.disk
      (reply.result.map fun _ => ()) := by
  cases h with
  | refused fault _ controller _ error =>
    exact .failed fault (by rw [error]; rfl) (by rw [controller]; exact ⟨rfl, rfl, rfl, rfl, rfl⟩)
  | unsaved composed status _ _ persisted error =>
    exact .failed _ (by rw [error]; rfl) persisted.untouched.standing
  | published st c' isOpen composed persisted controller ok =>
    have hu := persisted.untouched
    refine .published st isOpen composed (by rw [ok]; rfl) ?_
    rw [controller]
    refine ⟨rfl, rfl, rfl, hu.options, hu.isOpen, hu.store, persisted.memoryOnly, fun hs => ?_⟩
    obtain ⟨held, hdisk⟩ := persisted.durable hs
    rw [hdisk]
    exact ⟨rfl, rfl⟩

/-- Saving an override leaves the standing, in memory and on disk. -/
theorem Saved.standing {reply : Reply Unit} (h : Saved c disk env reply)
    (hopen : c.isOpen = true) : SameStanding c reply.controller ∧
      Holds c c.expectations disk reply.disk := by
  obtain ⟨result, persisted, -⟩ := h
  exact ⟨persisted.untouched.standing, persisted.holds rfl hopen⟩

/-- A round over evidence, as the step of a call that asks for it. -/
theorem RoundEnds.stepped {w : World} {call : Call} {c : PodController} {evidence : PodSnapshot}
    {result : Outcome Unit}
    (h : RoundEnds c w.disk call.env evidence (w.next call).controller (w.next call).disk result)
    (hanswer : (w.answer call).ok = result.isOk)
    (hasks : w.request call = some (c.request call.env evidence))
    (hstanding : SameStanding w.controller c) : Stepped w call := by
  cases h with
  | published st isOpen composed ok publishes =>
    refine .published _ st (hstanding.isOpen ▸ isOpen) hasks composed ?_ ?_
    · have hok : (w.answer call).ok = true := by rw [hanswer, ok]; rfl
      unfold World.published
      rw [hasks, ← publishes.state]
      cases ha : w.answer call with
      | failed fault => rw [ha] at hok; cases hok
      | done | applied _ | granted _ => rfl
    · have hnone : w.controller.store = none → c.store = none := fun hs => by
        have := hstanding.store
        rw [hs] at this
        simpa using this
      exact ⟨publishes.state, publishes.epoch,
        hstanding.expectations ▸ publishes.expectations, publishes.options.trans hstanding.options,
        publishes.isOpen.trans hstanding.isOpen, publishes.store.trans hstanding.store,
        fun hs => publishes.memoryOnly (hnone hs), fun hs => by
          rw [← hstanding.options, ← hstanding.expectations]
          exact publishes.durable (hstanding.store.trans hs)⟩
  | failed fault error same =>
    have hfailed : (w.answer call).ok = false := by rw [hanswer, error]; rfl
    refine .unsaved _ hasks hfailed ?_ ⟨same.epoch.trans hstanding.epoch,
      same.expectations.trans hstanding.expectations, same.options.trans hstanding.options,
      same.isOpen.trans hstanding.isOpen, same.store.trans hstanding.store⟩
    unfold World.published
    cases ha : w.answer call with
    | failed fault => rfl
    | done | applied _ | granted _ => rw [ha] at hfailed; cases hfailed

/-- A call that composes nothing. -/
theorem Stepped.of_idle {w : World} {call : Call} (hasks : w.request call = none)
    (same : SameStanding w.controller (w.next call).controller)
    (holds : Holds w.controller w.controller.expectations w.disk (w.next call).disk) :
    Stepped w call := by
  refine .idle ?_ same holds
  unfold World.published
  rw [hasks]
  cases w.answer call <;> rfl

/-- A refused call. -/
theorem Stepped.of_refusal {α : Type} {w : World} {call : Call} {reply : Reply α}
    (h : Refusal w.controller w.disk reply) (hfailed : (w.answer call).ok = false)
    (hnext : w.next call = ⟨reply.controller, reply.disk⟩) : Stepped w call := by
  refine .idle ?_ ?_ (.inl ?_)
  · unfold World.published
    cases ha : w.answer call with
    | failed fault => rfl
    | done | applied _ | granted _ => rw [ha] at hfailed; cases hfailed
  · rw [hnext, h.controller]
    exact ⟨rfl, rfl, rfl, rfl, rfl⟩
  · rw [hnext, h.disk]

/-- The change of an override, for a controller `c` that has it changed already. -/
theorem Recomposed.stepped {w : World} {call : Call} {c : PodController} {reply : Reply Unit}
    (h : Recomposed c w.disk call.env reply) (hnext : w.next call = ⟨reply.controller, reply.disk⟩)
    (hanswer : (w.answer call).ok = reply.result.isOk)
    (hasks : w.request call =
      if c.haveLastEvidence then some (c.request call.env c.lastEvidence) else none)
    (hstanding : SameStanding w.controller c) (hopen : c.isOpen = true) : Stepped w call := by
  cases h with
  | composed have_last round applied controller disk result =>
    have hends := applied.roundEnds
    rw [← controller, ← disk, ← result] at hends
    refine @RoundEnds.stepped w call c _ reply.result ?_ hanswer (by rw [hasks, have_last]; rfl)
      hstanding
    rw [hnext]
    exact hends
  | saved have_none saved =>
    obtain ⟨same, holds⟩ := saved.standing hopen
    refine .of_idle (by rw [hasks, have_none]; rfl) ?_ ?_ <;> rw [hnext]
    · exact ⟨same.epoch.trans hstanding.epoch, same.expectations.trans hstanding.expectations,
        same.options.trans hstanding.options, same.isOpen.trans hstanding.isOpen,
        same.store.trans hstanding.store⟩
    · unfold Holds at holds ⊢
      rwa [hstanding.isOpen, hstanding.store, hstanding.options, hstanding.expectations] at holds

end Step

/-- A refusal is no success. -/
theorem Refusal.isOk {α : Type} {c : PodController} {disk : DurableState} {reply : Reply α}
    (h : Refusal c disk reply) : reply.result.isOk = false := by
  obtain ⟨status, he⟩ := h.error
  rw [he]
  rfl

/-- Every operation on a controller publishes its round, fails to commit it, or leaves the epoch
and the expectations alone. -/
theorem World.stepped (w : World) (call : Call) (hop : call.op.operates = true) :
    Stepped w call := by
  obtain ⟨c, disk⟩ := w
  obtain ⟨op, env⟩ := call
  have same : SameStanding c c := ⟨rfl, rfl, rfl, rfl, rfl⟩
  cases op with
  | «open» | close | restart => cases hop
  | apply evidence =>
    have hok : (World.answer ⟨c, disk⟩ ⟨.apply evidence, env⟩).ok =
        (c.apply disk env evidence).result.isOk := Reply.step_ok fun _ => rfl
    refine (apply_applied c disk env evidence).roundEnds.stepped ?_ rfl same
    rw [hok]
    cases (c.apply disk env evidence).result <;> rfl
  | setAdminState rack state =>
    have hok : (World.answer ⟨c, disk⟩ ⟨.setAdminState rack state, env⟩).ok =
        (c.setAdminState disk env rack state).result.isOk := Reply.step_ok fun _ => rfl
    rcases setAdminState_cases c disk env rack state with
      ⟨-, hrefusal⟩ | ⟨hopen, -, -, hrecomposed⟩
    · exact .of_refusal hrefusal (hok.trans hrefusal.isOk) rfl
    · refine Recomposed.stepped hrecomposed rfl hok ?_ ?_ hopen
      · rfl
      · exact ⟨rfl, rfl, rfl, rfl, rfl⟩
  | clearAdminState rack =>
    have hok : (World.answer ⟨c, disk⟩ ⟨.clearAdminState rack, env⟩).ok =
        (c.clearAdminState disk env rack).result.isOk := Reply.step_ok fun _ => rfl
    rcases clearAdminState_cases c disk env rack with ⟨-, hrefusal⟩ | ⟨hopen, -, hrecomposed⟩
    · exact .of_refusal hrefusal (hok.trans hrefusal.isOk) rfl
    · refine Recomposed.stepped hrecomposed rfl hok ?_ ?_ hopen
      · rfl
      · exact ⟨rfl, rfl, rfl, rfl, rfl⟩
  | retire =>
    have hok : (World.answer ⟨c, disk⟩ ⟨.retire, env⟩).ok = (c.retire disk env).result.isOk :=
      Reply.step_ok fun _ => rfl
    rcases retire_cases c disk env with ⟨-, hrefusal⟩ | ⟨hopen, -, hsaved⟩
    · exact .of_refusal hrefusal (hok.trans hrefusal.isOk) rfl
    · obtain ⟨⟨h₁, h₂, h₃, h₄, h₅⟩, holds⟩ := hsaved.standing hopen
      exact .of_idle rfl ⟨h₁, h₂, h₃, h₄, h₅⟩ holds
  | mintAuthority scope subject lifetime =>
    have hok : (World.answer ⟨c, disk⟩ ⟨.mintAuthority scope subject lifetime, env⟩).ok =
        (c.mintAuthority disk env scope subject lifetime).result.isOk :=
      Reply.step_ok fun _ => rfl
    cases mintAuthority_minted c disk env scope subject lifetime with
    | refused _ refusal => exact .of_refusal refusal (hok.trans refusal.isOk) rfl
    | reached isOpen _ _ _ _ _ _ _ _ _ persisted ends =>
      obtain ⟨h₁, h₂, h₃, h₄, h₅⟩ := persisted.untouched.standing
      refine .of_idle rfl ?_ (persisted.holds rfl isOpen)
      change SameStanding c (c.mintAuthority disk env scope subject lifetime).controller
      rcases ends with ⟨_, -, hcontroller, -⟩ | ⟨-, hcontroller, -⟩ <;> rw [hcontroller]
      · exact ⟨h₁, h₂, h₃, h₄, h₅⟩
      · exact ⟨h₁, h₂, h₃, h₄, h₅⟩
  | revokeAuthority lease =>
    have hok : (World.answer ⟨c, disk⟩ ⟨.revokeAuthority lease, env⟩).ok =
        (c.revokeAuthority disk env lease).result.isOk := Reply.step_ok fun _ => rfl
    rcases revokeAuthority_cases c disk env lease with
      ⟨-, hrefusal⟩ | ⟨hopen, -, -, result, c', persisted, hends⟩
    · exact .of_refusal hrefusal (hok.trans hrefusal.isOk) rfl
    · obtain ⟨h₁, h₂, h₃, h₄, h₅⟩ := persisted.untouched.standing
      refine .of_idle rfl ?_ (persisted.holds rfl hopen)
      change SameStanding c (c.revokeAuthority disk env lease).controller
      rcases hends with ⟨_, -, hcontroller, -⟩ | ⟨-, hcontroller, -⟩ <;> rw [hcontroller]
      · exact ⟨h₁, h₂, h₃, h₄, h₅⟩
      · exact ⟨h₁, h₂, h₃, h₄, h₅⟩

/-! ## Requests -/

/-- What a request takes over from the controller. -/
structure AsksFor (w : World) (request : CompositionRequest) : Prop where
  epoch : request.context.epoch = w.controller.epoch
  expectations : request.context.expectations = w.controller.expectations
  policy : request.policy = w.controller.options.policy

/-- A call that composes asks for its request. -/
theorem World.asksFor {w : World} {call : Call} {request : CompositionRequest}
    (h : w.request call = some request) : AsksFor w request := by
  unfold World.request at h
  dsimp only at h
  split at h
  · rw [← Option.some.inj h]
    exact ⟨rfl, rfl, rfl⟩
  · split at h
    · rw [← Option.some.inj h]
      exact ⟨rfl, rfl, rfl⟩
    · cases h
  · split at h
    · rw [← Option.some.inj h]
      exact ⟨rfl, rfl, rfl⟩
    · cases h
  · cases h

/-- A call that publishes operates on the controller. -/
theorem World.operates_of_published {w : World} {call : Call} {st : PodState}
    (h : w.published call = some st) : call.op.operates = true := by
  cases hop : call.op with
  | «open» | close | restart =>
    unfold World.published World.request at h
    rw [hop] at h
    cases ha : w.answer call <;> simp [ha] at h
  | apply _ | setAdminState _ _ | clearAdminState _ | retire | mintAuthority _ _ _
  | revokeAuthority _ => rfl

/-- What a published state was composed from, and what it leaves behind. -/
theorem World.round_of_published {w : World} {call : Call} {st : PodState}
    (h : w.published call = some st) : w.controller.isOpen = true ∧
      ∃ request, w.request call = some request ∧ compose request = .ok st ∧
        Publishes w st (w.next call) := by
  cases w.stepped call (World.operates_of_published h) with
  | published request st' isOpen asks composed published publishes =>
    rw [h, Option.some.injEq] at published
    subst published
    exact ⟨isOpen, request, asks, composed, publishes⟩
  | unsaved _ _ _ unpublished => rw [h] at unpublished; cases unpublished
  | idle unpublished => rw [h] at unpublished; cases unpublished

end PodFabric
