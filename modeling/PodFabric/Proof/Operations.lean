import PodFabric.Proof.Recovery

/-!
# Operations and their commits

Every operation on an open controller prepares a change in memory, proposes a state (that of a
round, or the one it has) and commits it together with the expectations, tokens and leases that go
with it. What it takes over in memory after a successful commit is what it has committed
(`World.operated`), so that memory and store agree after every operation that goes through
(`durable_agrees`).
-/

namespace PodFabric

/-! ## Preparing, proposing and taking over -/

/-- What an operation may change in memory before its round and its commit. -/
structure Prepared (c c₀ : PodController) : Prop where
  options : c₀.options = c.options
  isOpen : c₀.isOpen = c.isOpen
  store : c₀.store = c.store
  epoch : c₀.epoch = c.epoch
  stateEpoch : c₀.state.epoch = c.state.epoch
  lifecycle : (c₀.lifecycle = c.lifecycle ∧ c₀.state = c.state) ∨
    (c₀.lifecycle = .retired ∧ c₀.state.lifecycle = .retired ∧
      c₀.state.authority.status = .refused)
  fencing : c.fencing ≤ c₀.fencing

/-- The state that is committed: that of a round, or the one the controller has. -/
inductive Proposed (c₀ : PodController) (env : Env) (st : PodState) : Prop
  | round (evidence : PodSnapshot) (composed : compose (c₀.request env evidence) = .ok st)
  | same (same : st = c₀.state)

/-- The controller `c₁` has taken over what it has committed. -/
structure Took (c₁ : PodController) (st : PodState) (expectations : List MemberExpectation)
    (tokens : List AuthorityToken) (revoked : List LeaseId) (c' : PodController) : Prop where
  state : c'.state = st
  epoch : c'.epoch = st.epoch
  lifecycle : c'.lifecycle = st.lifecycle
  expectations : c'.expectations = expectations
  tokens : c'.tokens = tokens
  revoked : c'.revoked = revoked
  adminOverrides : c'.adminOverrides = c₁.adminOverrides
  fencing : c'.fencing = c₁.fencing
  options : c'.options = c₁.options
  isOpen : c'.isOpen = c₁.isOpen
  store : c'.store = c₁.store

/-- How an operation ends: before its commit, or with it. -/
inductive Operated (w : World) (call : Call) : Prop
  | stopped (c₀ : PodController) (prepared : Prepared w.controller c₀)
      (controller : (w.next call).controller = c₀) (disk : (w.next call).disk = w.disk)
      (failed : (w.answer call).ok = false)
  | reached (c₀ c₁ : PodController) (st : PodState) (expectations : List MemberExpectation)
      (tokens : List AuthorityToken) (revoked : List LeaseId) (writtenAt : Nanos)
      (result : Result Unit) (isOpen : w.controller.isOpen = true)
      (prepared : Prepared w.controller c₀) (proposed : Proposed c₀ call.env st)
      (persisted : Persisted c₀ w.disk call.env
        (c₀.durableState st expectations tokens revoked writtenAt) c₁ (w.next call).disk result)
      (answer : (w.answer call).ok = result.isOk)
      (failed : result.isOk = false → (w.next call).controller = c₁)
      (done : result = .ok () → Took c₁ st expectations tokens revoked (w.next call).controller)
      (granted : ∀ token, w.answer call = .granted token →
        w.controller.fencing < token.fencing ∧ token.fencing = c₀.fencing)

section Operate
variable {w : World} {call : Call} {c c₀ : PodController} {disk : DurableState} {env : Env}

/-- A controller is prepared by nothing. -/
theorem Prepared.refl : Prepared c c :=
  ⟨rfl, rfl, rfl, rfl, rfl, .inl ⟨rfl, rfl⟩, le_rfl⟩

/-- Preparing a controller keeps it coherent. -/
theorem Prepared.coherent (h : Prepared c c₀) (hc : Coherent c) : Coherent c₀ := by
  refine ⟨h.stateEpoch.trans (hc.epoch.trans h.epoch.symm), ?_⟩
  rcases h.lifecycle with ⟨hl, hs⟩ | ⟨hl, hs, -⟩
  · rw [hs, hl]
    exact hc.lifecycle
  · rw [hs, hl]

/-- A refused call stops before anything. -/
theorem Refusal.operated {α : Type} {reply : Reply α} (h : Refusal w.controller w.disk reply)
    (hnext : w.next call = ⟨reply.controller, reply.disk⟩)
    (hanswer : (w.answer call).ok = reply.result.isOk) : Operated w call := by
  obtain ⟨status, he⟩ := h.error
  refine .stopped w.controller .refl ?_ ?_ ?_
  · rw [hnext, h.controller]
  · rw [hnext, h.disk]
  · rw [hanswer, he]
    rfl

/-- An operation that grants nothing. -/
theorem no_grant (h : ∀ token, w.answer call ≠ .granted token) : ∀ token,
    w.answer call = .granted token →
      w.controller.fencing < token.fencing ∧ token.fencing = c₀.fencing :=
  fun token ht => absurd ht (h token)

/-- An application is an operation of the world. -/
theorem Applied.operated {evidence : PodSnapshot} {reply : Reply PodController.ApplyReport}
    (h : Applied c₀ w.disk call.env evidence reply) (hprepared : Prepared w.controller c₀)
    (hnext : w.next call = ⟨reply.controller, reply.disk⟩)
    (hanswer : (w.answer call).ok = reply.result.isOk)
    (hnone : ∀ token, w.answer call ≠ .granted token) : Operated w call := by
  cases h with
  | refused fault why controller disk error =>
    refine .stopped c₀ hprepared (by rw [hnext, controller]) (by rw [hnext, disk]) ?_
    rw [hanswer, error]
    rfl
  | unsaved composed status isOpen compose persisted error =>
    refine .reached c₀ reply.controller composed
      (PodController.deriveExpectations composed c₀.expectations)
        (c₀.survivingTokens call.env composed)
      c₀.revoked (call.env.clock (c₀.tokens.length + 1)) (.error status)
      (hprepared.isOpen ▸ isOpen) hprepared (.round evidence compose) ?_ ?_
      (fun _ => by rw [hnext]) (fun h => by cases h) (no_grant hnone)
    · rw [hnext]
      exact persisted
    · rw [hanswer, error]
      rfl
  | published composed c' isOpen compose persisted controller ok =>
    refine .reached c₀ c' composed
      (PodController.deriveExpectations composed c₀.expectations)
        (c₀.survivingTokens call.env composed)
      c₀.revoked (call.env.clock (c₀.tokens.length + 1)) (.ok ())
      (hprepared.isOpen ▸ isOpen) hprepared (.round evidence compose) ?_ ?_
      (fun h => by cases h) (fun _ => ?_) (no_grant hnone)
    · rw [hnext]
      exact persisted
    · rw [hanswer, ok]
      rfl
    · rw [hnext, controller]
      exact ⟨rfl, rfl, rfl, rfl, rfl, congrArg Memory.revoked persisted.memory_eq, rfl, rfl, rfl,
        rfl, rfl⟩

/-- Saving an override is an operation of the world. -/
theorem Saved.operated {reply : Reply Unit} (h : Saved c₀ w.disk call.env reply)
    (hopen : w.controller.isOpen = true) (hprepared : Prepared w.controller c₀)
    (hcoherent : Coherent c₀) (hnext : w.next call = ⟨reply.controller, reply.disk⟩)
    (hanswer : (w.answer call).ok = reply.result.isOk)
    (hnone : ∀ token, w.answer call ≠ .granted token) : Operated w call := by
  obtain ⟨result, persisted, hresult⟩ := h
  have hu := persisted.untouched
  refine .reached c₀ reply.controller c₀.state c₀.expectations c₀.tokens c₀.revoked
    (call.env.clock 0) result hopen hprepared (.same rfl) ?_ ?_ (fun _ => by rw [hnext])
    (fun _ => ?_) (no_grant hnone)
  · rw [hnext]
    exact persisted
  · rw [hanswer, hresult]
    cases result <;> rfl
  · rw [hnext]
    have hm {α : Type} (field : Memory → α) : field reply.controller.memory = field c₀.memory :=
      congrArg field hu.memory
    exact ⟨hm Memory.state, (hm Memory.epoch).trans hcoherent.epoch.symm,
      (hm Memory.lifecycle).trans hcoherent.lifecycle.symm, hm Memory.expectations,
      hm Memory.tokens, hm Memory.revoked, rfl, rfl, rfl, rfl, rfl⟩

/-- Composing again is an operation of the world. -/
theorem Recomposed.operated {reply : Reply Unit} (h : Recomposed c₀ w.disk call.env reply)
    (hopen : w.controller.isOpen = true) (hprepared : Prepared w.controller c₀)
    (hcoherent : Coherent c₀) (hnext : w.next call = ⟨reply.controller, reply.disk⟩)
    (hanswer : (w.answer call).ok = reply.result.isOk)
    (hnone : ∀ token, w.answer call ≠ .granted token) : Operated w call := by
  cases h with
  | composed have_last round applied controller disk result =>
    refine applied.operated hprepared (by rw [hnext, controller, disk]) ?_ hnone
    rw [hanswer, result]
    cases round.result <;> rfl
  | saved have_none saved => exact saved.operated hopen hprepared hcoherent hnext hanswer hnone

/-- The answer of a call without a token. -/
theorem step_no_grant {α : Type} {answer : α → Answer} {reply : Reply α}
    (h : ∀ a token, answer a ≠ .granted token) :
    ∀ token, (reply.step answer).2 ≠ .granted token := by
  intro token
  unfold Reply.step
  cases reply.result with
  | ok value => exact h value token
  | error fault => exact Answer.noConfusion

end Operate

/-- Every operation on the controller is stopped, or comes to the commit of a state it proposes. -/
theorem World.operated (w : World) (call : Call) (hop : call.op.operates = true)
    (hcoherent : w.controller.isOpen = true → Coherent w.controller) : Operated w call := by
  obtain ⟨c, disk⟩ := w
  obtain ⟨op, env⟩ := call
  cases op with
  | «open» | close | restart => cases hop
  | apply evidence =>
    exact (apply_applied c disk env evidence).operated .refl rfl (Reply.step_ok fun _ => rfl)
      (step_no_grant fun _ _ h => by cases h)
  | setAdminState rack state =>
    have hok : (World.answer ⟨c, disk⟩ ⟨.setAdminState rack state, env⟩).ok =
        (c.setAdminState disk env rack state).result.isOk := Reply.step_ok fun _ => rfl
    rcases setAdminState_cases c disk env rack state with ⟨-, hrefusal⟩ | ⟨ho, -, -, hrecomposed⟩
    · exact hrefusal.operated rfl hok
    · have hc : Coherent c := hcoherent ho
      refine Recomposed.operated hrecomposed ho ?_ ?_ rfl hok
        (step_no_grant fun _ _ h => by cases h)
      · exact ⟨rfl, rfl, rfl, rfl, rfl, .inl ⟨rfl, rfl⟩, le_rfl⟩
      · exact ⟨hc.epoch, hc.lifecycle⟩
  | clearAdminState rack =>
    have hok : (World.answer ⟨c, disk⟩ ⟨.clearAdminState rack, env⟩).ok =
        (c.clearAdminState disk env rack).result.isOk := Reply.step_ok fun _ => rfl
    rcases clearAdminState_cases c disk env rack with ⟨-, hrefusal⟩ | ⟨ho, -, hrecomposed⟩
    · exact hrefusal.operated rfl hok
    · have hc : Coherent c := hcoherent ho
      refine Recomposed.operated hrecomposed ho ?_ ?_ rfl hok
        (step_no_grant fun _ _ h => by cases h)
      · exact ⟨rfl, rfl, rfl, rfl, rfl, .inl ⟨rfl, rfl⟩, le_rfl⟩
      · exact ⟨hc.epoch, hc.lifecycle⟩
  | retire =>
    have hok : (World.answer ⟨c, disk⟩ ⟨.retire, env⟩).ok = (c.retire disk env).result.isOk :=
      Reply.step_ok fun _ => rfl
    rcases retire_cases c disk env with ⟨-, hrefusal⟩ | ⟨ho, -, hsaved⟩
    · exact hrefusal.operated rfl hok
    · have hc : Coherent c := hcoherent ho
      refine Saved.operated hsaved ho ?_ ?_ rfl hok (step_no_grant fun _ _ h => by cases h)
      · exact ⟨rfl, rfl, rfl, rfl, rfl, .inr ⟨rfl, rfl, rfl⟩, le_rfl⟩
      · exact ⟨hc.epoch, rfl⟩
  | mintAuthority scope subject lifetime =>
    have hok : (World.answer ⟨c, disk⟩ ⟨.mintAuthority scope subject lifetime, env⟩).ok =
        (c.mintAuthority disk env scope subject lifetime).result.isOk :=
      Reply.step_ok fun _ => rfl
    cases mintAuthority_minted c disk env scope subject lifetime with
    | refused _ refusal => exact refusal.operated rfl hok
    | reached ho id _ expiresAt _ _ fencing hnext result c' persisted ends =>
      have hc : Coherent c := hcoherent ho
      have hlt : c.fencing < fencing := Sequence.lt_of_next hnext
      have hanswer : (World.answer ⟨c, disk⟩ ⟨.mintAuthority scope subject lifetime, env⟩) =
          ((c.mintAuthority disk env scope subject lifetime).step .granted).2 := rfl
      refine .reached { c with fencing } c' c.state c.expectations
        (c.tokens ++ [c.mintedToken id scope subject (env.clock 0) expiresAt fencing]) c.revoked
        (env.clock 1) result ho ⟨rfl, rfl, rfl, rfl, rfl, .inl ⟨rfl, rfl⟩, hlt.le⟩ (.same rfl)
        persisted ?_ ?_ ?_ ?_
      · rcases ends with ⟨status, rfl, -, he⟩ | ⟨rfl, -, he⟩ <;> rw [hok, he] <;> rfl
      · intro hfailed
        rcases ends with ⟨status, rfl, hcontroller, -⟩ | ⟨rfl, -, -⟩
        · exact hcontroller
        · cases hfailed
      · intro hdone
        rcases ends with ⟨status, rfl, -, -⟩ | ⟨-, hcontroller, -⟩
        · cases hdone
        · have hm {α : Type} (field : Memory → α) :
              field c'.memory = field { c with fencing }.memory :=
            congrArg field persisted.memory_eq
          change Took c' c.state c.expectations _ c.revoked
            (c.mintAuthority disk env scope subject lifetime).controller
          rw [hcontroller]
          exact ⟨hm Memory.state, (hm Memory.epoch).trans hc.epoch.symm,
            (hm Memory.lifecycle).trans hc.lifecycle.symm, hm Memory.expectations,
            congrArg (· ++ _) (hm Memory.tokens), hm Memory.revoked, rfl, rfl, rfl, rfl, rfl⟩
      · intro token ht
        rw [hanswer] at ht
        unfold Reply.step at ht
        rcases ends with ⟨status, -, -, he⟩ | ⟨-, -, he⟩
        · rw [he] at ht
          cases ht
        · rw [he] at ht
          have htoken : c.mintedToken id scope subject (env.clock 0) expiresAt fencing = token :=
            Answer.granted.inj ht
          rw [← htoken]
          exact ⟨hlt, rfl⟩
  | revokeAuthority lease =>
    have hok : (World.answer ⟨c, disk⟩ ⟨.revokeAuthority lease, env⟩).ok =
        (c.revokeAuthority disk env lease).result.isOk := Reply.step_ok fun _ => rfl
    rcases revokeAuthority_cases c disk env lease with
      ⟨-, hrefusal⟩ | ⟨ho, -, -, result, c', persisted, ends⟩
    · exact hrefusal.operated rfl hok
    · have hc : Coherent c := hcoherent ho
      refine .reached { c with revoked := c.revoked ++ [lease] } c' c.state c.expectations
        (c.tokens.filter fun token => token.lease ≠ lease) (c.revoked ++ [lease]) (env.clock 0)
        result ho ⟨rfl, rfl, rfl, rfl, rfl, .inl ⟨rfl, rfl⟩, le_rfl⟩ (.same rfl) persisted ?_ ?_ ?_
        (no_grant (step_no_grant fun _ _ h => by cases h))
      · rcases ends with ⟨status, rfl, -, he⟩ | ⟨rfl, -, he⟩ <;> rw [hok, he] <;> rfl
      · intro hfailed
        rcases ends with ⟨status, rfl, hcontroller, -⟩ | ⟨rfl, -, -⟩
        · exact hcontroller
        · cases hfailed
      · intro hdone
        rcases ends with ⟨status, rfl, -, -⟩ | ⟨-, hcontroller, -⟩
        · cases hdone
        · have hm {α : Type} (field : Memory → α) :
              field c'.memory = field { c with revoked := c.revoked ++ [lease] }.memory :=
            congrArg field persisted.memory_eq
          change Took c' c.state c.expectations _ (c.revoked ++ [lease])
            (c.revokeAuthority disk env lease).controller
          rw [hcontroller]
          exact ⟨hm Memory.state, (hm Memory.epoch).trans hc.epoch.symm,
            (hm Memory.lifecycle).trans hc.lifecycle.symm, hm Memory.expectations, rfl,
            hm Memory.revoked, rfl, rfl, rfl, rfl, rfl⟩

end PodFabric
