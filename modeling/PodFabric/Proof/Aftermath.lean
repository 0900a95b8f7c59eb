import PodFabric.Proof.Rounds

/-!
# What a round leaves

A round that is published leaves its evidence, the index of its decisions and the lifecycle it began
in to the controller, and the calls after it keep these until the next round is published
(`Left.next`). So the request of the next round is known (`Left.follows`).
-/

namespace PodFabric

/-- The fields of a controller that only a published round sets. -/
structure SameRound (c c' : PodController) : Prop where
  index : c'.index = c.index
  lastEvidence : c'.lastEvidence = c.lastEvidence
  haveLastEvidence : c'.haveLastEvidence = c.haveLastEvidence
  contextLifecycle : c'.contextLifecycle = c.contextLifecycle
  incarnation : c'.incarnation = c.incarnation

/-- A round over the request has set them. -/
structure SetsRound (request : CompositionRequest) (c : PodController) : Prop where
  index : c.index = .ofDecisions c.state.decisions
  lastEvidence : c.lastEvidence = request.snapshot
  haveLastEvidence : c.haveLastEvidence = true
  contextLifecycle : c.contextLifecycle = request.context.lifecycle
  incarnation : c.incarnation = request.context.incarnation

/-- How a call leaves these fields: as they were, if it publishes nothing, or as its round sets
them. -/
inductive RoundLeft (w : World) (call : Call) : Prop
  | same (unpublished : w.published call = none)
      (same : SameRound w.controller (w.next call).controller)
  | round (request : CompositionRequest) (st : PodState) (asks : w.request call = some request)
      (published : w.published call = some st)
      (sets : SetsRound request (w.next call).controller)

section Leave
variable {c c' : PodController} {disk : DurableState} {env : Env} {evidence : PodSnapshot}
  {w : World} {call : Call} {request : CompositionRequest}

/-- A controller that nothing touched is in the same round. -/
theorem Untouched.sameRound (h : Untouched c c') : SameRound c c' :=
  ⟨h.index, h.lastEvidence, h.haveLastEvidence, h.contextLifecycle, h.incarnation⟩

/-- A round sets the fields, or fails and leaves them alone. -/
theorem Applied.setsRound {reply : Reply PodController.ApplyReport}
    (h : Applied c disk env evidence reply) :
    (reply.result.isOk = false ∧ SameRound c reply.controller) ∨
      (reply.result.isOk = true ∧ SetsRound (c.request env evidence) reply.controller) := by
  cases h with
  | refused fault _ controller _ error =>
    rw [controller, error]
    exact .inl ⟨rfl, rfl, rfl, rfl, rfl, rfl⟩
  | unsaved _ _ _ _ persisted error =>
    rw [error]
    exact .inl ⟨rfl, persisted.untouched.sameRound⟩
  | published st c' _ _ persisted controller ok =>
    rw [controller, ok]
    exact .inr ⟨rfl, rfl, rfl, rfl, rfl, persisted.untouched.incarnation⟩

/-- A failed call publishes nothing. -/
theorem World.published_of_failed (h : (w.answer call).ok = false) : w.published call = none := by
  unfold World.published
  cases hanswer : w.answer call with
  | failed fault => rfl
  | done | applied _ | granted _ => rw [hanswer] at h; cases h

/-- A successful call that composes publishes the state it leaves. -/
theorem World.published_of_ok (h : (w.answer call).ok = true)
    (hasks : w.request call = some request) :
    w.published call = some (w.next call).controller.state := by
  unfold World.published
  rw [hasks]
  cases hanswer : w.answer call with
  | failed fault => rw [hanswer] at h; cases h
  | done | applied _ | granted _ => rfl

/-- A call that does not compose publishes nothing. -/
theorem World.published_of_idle (hasks : w.request call = none) : w.published call = none := by
  unfold World.published
  rw [hasks]
  cases w.answer call <;> rfl

/-- A round over evidence, as what a call that asks for it leaves. -/
theorem Applied.roundLeft {reply : Reply PodController.ApplyReport}
    (h : Applied c disk env evidence reply)
    (hcontroller : (w.next call).controller = reply.controller)
    (hanswer : (w.answer call).ok = reply.result.isOk)
    (hasks : w.request call = some (c.request env evidence))
    (hsame : SameRound w.controller c) : RoundLeft w call := by
  rcases h.setsRound with ⟨hfailed, hround⟩ | ⟨hok, hsets⟩
  · refine .same (World.published_of_failed (hanswer.trans hfailed)) ?_
    rw [hcontroller]
    exact ⟨hround.index.trans hsame.index, hround.lastEvidence.trans hsame.lastEvidence,
      hround.haveLastEvidence.trans hsame.haveLastEvidence,
      hround.contextLifecycle.trans hsame.contextLifecycle,
      hround.incarnation.trans hsame.incarnation⟩
  · refine .round _ _ hasks (World.published_of_ok (hanswer.trans hok) hasks) ?_
    rw [hcontroller]
    exact hsets

/-- The change of an override, for a controller `c` that has it changed already. -/
theorem Recomposed.roundLeft {reply : Reply Unit} (h : Recomposed c disk env reply)
    (hcontroller : (w.next call).controller = reply.controller)
    (hanswer : (w.answer call).ok = reply.result.isOk)
    (hasks : w.request call =
      if c.haveLastEvidence then some (c.request env c.lastEvidence) else none)
    (hsame : SameRound w.controller c) : RoundLeft w call := by
  cases h with
  | composed have_last round applied controller _ result =>
    refine applied.roundLeft (hcontroller.trans controller) (hanswer.trans ?_) ?_ hsame
    · rw [result]
      cases round.result <;> rfl
    · rw [hasks, have_last]
      rfl
  | saved have_none saved =>
    refine .same (World.published_of_idle (by rw [hasks, have_none]; rfl)) ?_
    obtain ⟨result, persisted, -⟩ := saved
    have hround := persisted.untouched.sameRound
    rw [hcontroller]
    exact ⟨hround.index.trans hsame.index, hround.lastEvidence.trans hsame.lastEvidence,
      hround.haveLastEvidence.trans hsame.haveLastEvidence,
      hround.contextLifecycle.trans hsame.contextLifecycle,
      hround.incarnation.trans hsame.incarnation⟩

/-- A refused call. -/
theorem RoundLeft.of_refusal {α : Type} {reply : Reply α} (h : Refusal w.controller disk reply)
    (hcontroller : (w.next call).controller = reply.controller)
    (hanswer : (w.answer call).ok = reply.result.isOk) : RoundLeft w call := by
  refine .same (World.published_of_failed (hanswer.trans h.isOk)) ?_
  rw [hcontroller, h.controller]
  exact ⟨rfl, rfl, rfl, rfl, rfl⟩

end Leave

/-- Every operation leaves the fields as they were or as its round sets them. -/
theorem World.roundLeft (w : World) (call : Call) (hop : call.op.operates = true) :
    RoundLeft w call := by
  obtain ⟨c, disk⟩ := w
  obtain ⟨op, env⟩ := call
  cases op with
  | «open» | close | restart => cases hop
  | apply evidence =>
    exact (apply_applied c disk env evidence).roundLeft rfl (Reply.step_ok fun _ => rfl) rfl
      ⟨rfl, rfl, rfl, rfl, rfl⟩
  | setAdminState rack state =>
    rcases setAdminState_cases c disk env rack state with ⟨-, hrefusal⟩ | ⟨-, -, -, hrecomposed⟩
    · exact .of_refusal hrefusal rfl (Reply.step_ok fun _ => rfl)
    · exact hrecomposed.roundLeft rfl (Reply.step_ok fun _ => rfl) rfl ⟨rfl, rfl, rfl, rfl, rfl⟩
  | clearAdminState rack =>
    rcases clearAdminState_cases c disk env rack with ⟨-, hrefusal⟩ | ⟨-, -, hrecomposed⟩
    · exact .of_refusal hrefusal rfl (Reply.step_ok fun _ => rfl)
    · exact hrecomposed.roundLeft rfl (Reply.step_ok fun _ => rfl) rfl ⟨rfl, rfl, rfl, rfl, rfl⟩
  | retire =>
    rcases retire_cases c disk env with ⟨-, hrefusal⟩ | ⟨-, -, result, persisted, -⟩
    · exact .of_refusal hrefusal rfl (Reply.step_ok fun _ => rfl)
    · obtain ⟨h₁, h₂, h₃, h₄, h₅⟩ := persisted.untouched.sameRound
      exact .same (World.published_of_idle rfl) ⟨h₁, h₂, h₃, h₄, h₅⟩
  | mintAuthority scope subject lifetime =>
    cases mintAuthority_minted c disk env scope subject lifetime with
    | refused _ refusal => exact .of_refusal refusal rfl (Reply.step_ok fun _ => rfl)
    | reached _ _ _ _ _ _ _ _ _ c' persisted ends =>
      obtain ⟨h₁, h₂, h₃, h₄, h₅⟩ := persisted.untouched.sameRound
      refine .same (World.published_of_idle rfl) ?_
      change SameRound c (c.mintAuthority disk env scope subject lifetime).controller
      rcases ends with ⟨_, -, hcontroller, -⟩ | ⟨-, hcontroller, -⟩ <;> rw [hcontroller]
      · exact ⟨h₁, h₂, h₃, h₄, h₅⟩
      · exact ⟨h₁, h₂, h₃, h₄, h₅⟩
  | revokeAuthority lease =>
    rcases revokeAuthority_cases c disk env lease with
      ⟨-, hrefusal⟩ | ⟨-, -, -, result, c', persisted, hends⟩
    · exact .of_refusal hrefusal rfl (Reply.step_ok fun _ => rfl)
    · obtain ⟨h₁, h₂, h₃, h₄, h₅⟩ := persisted.untouched.sameRound
      refine .same (World.published_of_idle rfl) ?_
      change SameRound c (c.revokeAuthority disk env lease).controller
      rcases hends with ⟨_, -, hcontroller, -⟩ | ⟨-, hcontroller, -⟩ <;> rw [hcontroller]
      · exact ⟨h₁, h₂, h₃, h₄, h₅⟩
      · exact ⟨h₁, h₂, h₃, h₄, h₅⟩

/-! ## After a round -/

/-- What the last round published has left to the controller. -/
structure Left (request : CompositionRequest) (st : PodState) (c : PodController) : Prop where
  index : c.index = .ofDecisions st.decisions
  lastEvidence : c.lastEvidence = request.snapshot
  haveLastEvidence : c.haveLastEvidence = true
  contextLifecycle : c.contextLifecycle = request.context.lifecycle
  incarnation : c.incarnation = request.context.incarnation
  epoch : c.epoch = st.epoch
  expectations : c.expectations =
    PodController.deriveExpectations st request.context.expectations
  policy : c.options.policy = request.policy

section Aftermath
variable {w : World} {call : Call} {request : CompositionRequest} {st : PodState}

/-- The round that a call publishes leaves this. -/
theorem World.left_of_published (hpublished : w.published call = some st)
    (hasks : w.request call = some request) :
    compose request = .ok st ∧ Left request st (w.next call).controller := by
  obtain ⟨-, asked, hasked, hcomposed, hpub⟩ := World.round_of_published hpublished
  have hsame : asked = request := Option.some.inj (hasked.symm.trans hasks)
  refine ⟨hsame ▸ hcomposed, ?_⟩
  have hasked := World.asksFor hasks
  cases w.roundLeft call (World.operates_of_published hpublished) with
  | same unpublished => rw [hpublished] at unpublished; cases unpublished
  | round asked _ asks _ sets =>
    have hsame : asked = request := Option.some.inj (asks.symm.trans hasks)
    rw [hsame] at sets
    rw [← hpub.state]
    refine ⟨sets.index, sets.lastEvidence, sets.haveLastEvidence, sets.contextLifecycle,
      sets.incarnation, ?_, ?_, ?_⟩
    · rw [hpub.epoch, hpub.state]
    · rw [hpub.expectations, hasked.expectations, hpub.state]
    · rw [hpub.options, hasked.policy]

/-- A call that publishes nothing keeps what the last round has left. -/
theorem Left.next (h : Left request st w.controller) (hop : call.op.operates = true)
    (hunpublished : w.published call = none) : Left request st (w.next call).controller := by
  have hround : SameRound w.controller (w.next call).controller := by
    cases w.roundLeft call hop with
    | same _ same => exact same
    | round _ _ _ published => rw [hunpublished] at published; cases published
  have hstanding : SameStanding w.controller (w.next call).controller := by
    cases w.stepped call hop with
    | published _ _ _ _ _ published => rw [hunpublished] at published; cases published
    | unsaved _ _ _ _ same => exact same
    | idle _ same => exact same
  refine ⟨hround.index.trans h.index, hround.lastEvidence.trans h.lastEvidence,
    hround.haveLastEvidence.trans h.haveLastEvidence,
    hround.contextLifecycle.trans h.contextLifecycle, hround.incarnation.trans h.incarnation,
    hstanding.epoch.trans h.epoch, hstanding.expectations.trans h.expectations, ?_⟩
  rw [hstanding.options, h.policy]

/-- Calls that operate on the controller and publish nothing. -/
def Quiet (w : World) (calls : List Call) : Prop :=
  ∀ e ∈ w.trace calls, e.2.op.operates = true ∧ e.1.published e.2 = none

/-- What a round left is still there after a quiet run. -/
theorem Left.run {calls : List Call} (h : Left request st w.controller) (hquiet : Quiet w calls) :
    Left request st (w.run calls).controller := by
  induction calls generalizing w with
  | nil => exact h
  | cons call calls ih =>
    have hhead := hquiet (w, call) List.mem_cons_self
    exact ih (h.next hhead.1 hhead.2) fun e he => hquiet e (List.mem_cons_of_mem _ he)

end Aftermath

end PodFabric
