import PodFabric.Proof.Convergence
import PodFabric.Proof.Unpredicted

/-!
# The same evidence again

A controller that is given the same evidence over and over comes to rest: the second round adopts
nothing, records the expectations that are on record and keeps the tokens (`TakesOver.again`), so
that only the lifecycle may still move, and two rounds later it has come to an end. From then on
every round is reported as unchanged, with an empty plan (`repeated_rounds_settle`).
-/

namespace PodFabric

/-! ## Lifecycles -/

/-- Two requests for one lifecycle lead as far as any number of them. -/
theorem LifecycleState.next_thrice (current asked : LifecycleState) :
    ((current.next asked).next asked).next asked = (current.next asked).next asked := by
  cases current <;> cases asked <;> rfl

/-- Out of a recovery, the first request counts for one of the two. -/
theorem LifecycleState.next_first {asked first : LifecycleState} (h : First asked first)
    (current : LifecycleState) :
    ((current.next first).next asked).next asked = (current.next first).next asked := by
  rcases h with rfl | ⟨rfl, rfl⟩
  · exact next_thrice current first
  · cases current <;> rfl

/-! ## One round -/

/-- The controller `c'` has taken over what `c` has composed from evidence. -/
structure TakesOver (env : Env) (evidence : PodSnapshot) (c : PodController) (st : PodState)
    (c' : PodController) : Prop where
  admits : c.Admits env evidence
  composed : compose (c.request env evidence) = .ok st
  memory : c'.memory = {
    lifecycle := st.lifecycle, epoch := st.epoch, state := st
    expectations := PodController.deriveExpectations st c.expectations
    adminOverrides := c.adminOverrides, tokens := c.survivingTokens env st, revoked := c.revoked }
  options : c'.options = c.options
  isOpen : c'.isOpen = true
  store : c'.store.isSome = c.store.isSome
  incarnation : c'.incarnation = c.incarnation
  recoveredRound : c'.recoveredRound = false
  ambiguousCommit : c'.ambiguousCommit = false
  contextLifecycle : c'.contextLifecycle = c.lifecycle
  lastEvidence : c'.lastEvidence = PodController.effectiveSnapshot c.adminOverrides evidence
  haveLastEvidence : c'.haveLastEvidence = true
  index : c'.index = .ofDecisions st.decisions

section Round
variable {w : World} {c c' c'' : PodController} {env : Env} {evidence : PodSnapshot}
  {st st' : PodState} {p : Passes}

/-- A round over evidence that is admitted is reported and taken over. -/
theorem PodController.Admits.takesOver (h : w.controller.Admits env evidence) :
    ∃ st, TakesOver env evidence w.controller st (w.next ⟨.apply evidence, env⟩).controller ∧
      w.answer ⟨.apply evidence, env⟩ =
        .applied (w.controller.applyReport (w.controller.request env evidence) st
          (PodController.deriveExpectations st w.controller.expectations)
          (w.controller.survivingTokens env st)) := by
  obtain ⟨c, disk⟩ := w
  have hok := World.apply_ok_iff.2 h
  change ((c.apply disk env evidence).step Answer.applied).2.ok = true at hok
  cases apply_applied c disk env evidence with
  | refused _ _ _ _ error => simp [Reply.step, Answer.ok, error] at hok
  | unsaved _ _ _ _ _ error => simp [Reply.step, Answer.ok, error] at hok
  | published st c' isOpen composed persisted controller ok =>
    have hu := persisted.untouched
    refine ⟨st, ?_, ?_⟩
    · change TakesOver env evidence c st (c.apply disk env evidence).controller
      rw [controller]
      refine ⟨h, composed, ?_, hu.options, hu.isOpen.trans isOpen, hu.store, hu.incarnation, rfl,
        rfl, rfl, rfl, rfl, rfl⟩
      have hoverrides := congrArg Memory.adminOverrides hu.memory
      have hrevoked := congrArg Memory.revoked hu.memory
      exact congrArg₂ (fun overrides revoked => ({
        lifecycle := st.lifecycle, epoch := st.epoch, state := st
        expectations := PodController.deriveExpectations st c.expectations
        adminOverrides := overrides, tokens := c.survivingTokens env st
        revoked := revoked } : Memory)) hoverrides hrevoked
    · change ((c.apply disk env evidence).step Answer.applied).2 = _
      rw [Reply.step, ok]

namespace TakesOver

/-- The epoch taken over. -/
theorem epoch (h : TakesOver env evidence c st c') : c'.epoch = st.epoch :=
  congrArg Memory.epoch h.memory

/-- The lifecycle taken over. -/
theorem lifecycle (h : TakesOver env evidence c st c') : c'.lifecycle = st.lifecycle :=
  congrArg Memory.lifecycle h.memory

/-- The state taken over. -/
theorem state (h : TakesOver env evidence c st c') : c'.state = st :=
  congrArg Memory.state h.memory

/-- The expectations taken over. -/
theorem expectations (h : TakesOver env evidence c st c') :
    c'.expectations = PodController.deriveExpectations st c.expectations :=
  congrArg Memory.expectations h.memory

/-- The overrides stay. -/
theorem adminOverrides (h : TakesOver env evidence c st c') :
    c'.adminOverrides = c.adminOverrides :=
  congrArg Memory.adminOverrides h.memory

/-- The surviving tokens are taken over. -/
theorem tokens (h : TakesOver env evidence c st c') : c'.tokens = c.survivingTokens env st :=
  congrArg Memory.tokens h.memory

/-- The revoked leases stay. -/
theorem revoked (h : TakesOver env evidence c st c') : c'.revoked = c.revoked :=
  congrArg Memory.revoked h.memory

/-- The next request over the same evidence goes on from the composed state. -/
theorem continues (h : TakesOver env evidence c st c') :
    Continues (c.request env evidence) st (c'.request env evidence) where
  policy := congrArg ControllerOptions.policy h.options
  snapshot := congrArg (fun overrides => PodController.effectiveSnapshot overrides evidence)
    h.adminOverrides
  expectations := h.expectations
  epoch := h.epoch
  tokens := by
    change c'.tokens.length ≤ c.tokens.length
    rw [h.tokens, PodController.survivingTokens, List.length_map]
    refine (List.length_filter_le _ _).trans ?_
    rw [PodController.tokenVerdicts, List.length_mapIdx]

/-- The next round over the same evidence goes through as well. -/
theorem admits_again (h : TakesOver env evidence c st c') : c'.Admits env evidence := by
  obtain ⟨p, hp, -⟩ := compose_passesOf h.composed
  obtain ⟨hvalid, p', hp', -⟩ := h.continues.runPasses h.composed hp
  refine ⟨h.isOpen, ⟨_, compose_eq_ok.2 ⟨hvalid, p', hp', rfl⟩⟩, h.admits.2.2.imp_left ?_⟩
  intro hnone
  have hstore := h.store
  rw [hnone] at hstore
  exact Option.isNone_iff_eq_none.1 (Option.isSome_eq_false_iff.1 hstore)

/-- The rounds over the same evidence show the same members, and ask for the same lifecycle. -/
theorem passes_again (h : TakesOver env evidence c st c') (h' : TakesOver env evidence c' st' c'')
    (hp : runPasses (c.request env evidence) = .ok p) :
    st'.epoch = st.epoch ∧ st'.members = st.members ∧
      st'.lifecycle = c'.lifecycle.next (evidenceLifecycle p.findings) ∧
      ∃ p', runPasses (c'.request env evidence) = .ok p' ∧
        evidenceLifecycle p'.findings = evidenceLifecycle p.findings := by
  obtain ⟨-, p', hp', halike, hepoch⟩ := h.continues.runPasses h.composed hp
  obtain ⟨_, hruns, -, rfl⟩ := compose_passesOf h.composed
  obtain rfl := Except.ok.inj (hp.symm.trans hruns)
  obtain ⟨_, hruns', -, rfl⟩ := compose_passesOf h'.composed
  obtain rfl := Except.ok.inj (hp'.symm.trans hruns')
  refine ⟨hepoch, ?_, ?_, p', hp', halike.evidenceLifecycle⟩
  · have hverdicts := congrArg (List.map MemberWork.verdict) halike.members
    rw [List.map_map, List.map_map] at hverdicts
    exact congrArg (fun verdicts =>
      (sortOn MemberVerdict.rack verdicts).map MemberVerdict.canonicalise) hverdicts
  · have hcontext := (runPasses_passesOf hp').context
    rw [finalise_lifecycle, composedLifecycle_eq, hcontext, steady_desired,
      halike.evidenceLifecycle]
    · rfl
    · rw [hcontext]
      exact h.recoveredRound
    · rw [hcontext]
      exact h.ambiguousCommit
    · rw [hcontext, hepoch]
      exact h.epoch.symm

/-- What is recorded again is on record. -/
theorem expectations_again (h : TakesOver env evidence c st c')
    (h' : TakesOver env evidence c' st' c'') : c''.expectations = c'.expectations := by
  obtain ⟨p, hp, -⟩ := compose_passesOf h.composed
  obtain ⟨-, hmembers, -⟩ := h.passes_again h' hp
  rw [h'.expectations, h.expectations, PodController.deriveExpectations, hmembers,
    PodController.deriveExpectations]
  refine congrArg sorted (List.filterMap_congr fun m hm => ?_)
  have hrecorded : recorded (PodController.deriveExpectations st c.expectations) m.rack =
      PodController.derivedExpectation c.expectations m := recorded_derive h.composed hm
  by_cases hestablished : m.status = .established
  · rw [derived_of_established hestablished, derived_of_established hestablished]
  by_cases hretiring : m.status = .retiring
  · rw [derived_of_retiring hretiring, derived_of_retiring hretiring]
  · rw [derived_of_other hestablished hretiring]
    exact hrecorded

/-- With the clock standing still, every token is judged alike. -/
theorem survivingTokens_eq (hclock : ∀ i, env.clock i = env.clock 0) :
    c.survivingTokens env st = c.tokens.filter fun token => (validateToken token {
      pod := c.options.pod, epoch := st.epoch, incarnation := c.incarnation, now := env.clock 0
      clockSkew := c.options.policy.clockSkew, revoked := c.revoked }).valid := by
  have hverdicts : c.tokenVerdicts env st = c.tokens.map fun token => (token, validateToken token {
      pod := c.options.pod, epoch := st.epoch, incarnation := c.incarnation, now := env.clock 0
      clockSkew := c.options.policy.clockSkew, revoked := c.revoked }) := by
    rw [PodController.tokenVerdicts, List.mapIdx_eq_zipIdx_map]
    simp only [hclock (_ + 1)]
    conv_rhs => rw [← List.zipIdx_map_fst 0 c.tokens, List.map_map]
    rfl
  rw [PodController.survivingTokens, hverdicts, List.filter_map, List.map_map]
  exact List.map_id _

/-- At the same time a second round takes over the same tokens. -/
theorem tokens_again (hclock : ∀ i, env.clock i = env.clock 0)
    (h : TakesOver env evidence c st c') (h' : TakesOver env evidence c' st' c'') :
    c''.tokens = c'.tokens := by
  obtain ⟨p, hp, -⟩ := compose_passesOf h.composed
  obtain ⟨hepoch, -⟩ := h.passes_again h' hp
  rw [h'.tokens, survivingTokens_eq hclock, h.tokens, survivingTokens_eq hclock, h.options,
    h.incarnation, h.revoked, hepoch, List.filter_filter]
  simp only [Bool.and_self]

/-- Once the lifecycle has stood still for a round, the next request is the one before. -/
theorem request_again (hclock : ∀ i, env.clock i = env.clock 0)
    (h : TakesOver env evidence c st c') (h' : TakesOver env evidence c' st' c'')
    (hlifecycle : c''.lifecycle = c'.lifecycle) :
    c''.request env evidence = c'.request env evidence := by
  obtain ⟨p, hp, -⟩ := compose_passesOf h.composed
  obtain ⟨hepoch, -⟩ := h.passes_again h' hp
  rw [PodController.request, PodController.request, h'.adminOverrides, h'.options,
    h'.incarnation, h'.epoch, hepoch, ← h.epoch, h.expectations_again h', h.tokens_again hclock h',
    h'.revoked, h'.recoveredRound, h.recoveredRound, h'.ambiguousCommit, h.ambiguousCommit,
    hlifecycle]

end TakesOver

end Round

/-! ## The report of a round at rest -/

section Report
variable {decisions : List DecisionRecord}

/-- A collection does not differ from itself. -/
theorem diffCollection_self {α ι : Type} [DecidableEq α] [LinearOrder ι] {kind : DepKind}
    {token : ι → Text} {identity : α → ι} {items : List α} :
    diffCollection kind token identity items items = [] := by
  simp [diffCollection]

/-- Without changed keys nothing is planned. -/
theorem plan_nil {index : DecisionIndex} : index.plan [] = {} := by
  have hclose : ∀ fuel, index.close fuel [] [] 0 = ([], 0) := by
    intro fuel
    cases fuel <;> rfl
  rw [DecisionIndex.plan, List.flatMap_nil, visit, hclose]
  rfl

/-- The report on decisions that are published again finds nothing. -/
theorem revalidate_self {st : PodState} (hsome : st.decisions ≠ [])
    (hunique : (st.decisions.map DecisionRecord.id).Nodup) :
    revalidate (.ofDecisions st.decisions) st [] = { totalDecisions := st.decisions.length } := by
  have hplan : revalidationPlan (.ofDecisions st.decisions) st [] = {} := by
    rw [revalidationPlan, isEmpty_ofDecisions hsome, if_neg Bool.false_ne_true, plan_nil]
  have hnone {keep : DecisionRecord → Option DecisionRecord → Bool}
      (hkeep : ∀ record, keep record (some { record with deps := canonicalise record.deps }) =
        false) : comparedIds (.ofDecisions st.decisions) st keep = [] := by
    refine List.eq_nil_iff_forall_not_mem.2 fun id hid => ?_
    obtain ⟨record, hrecord, hkept, -⟩ := mem_comparedIds.1 hid
    rw [find_of_mem hunique hrecord, hkeep] at hkept
    cases hkept
  have hremoved : sorted ((DecisionIndex.ofDecisions st.decisions).allIds.filter fun id =>
      !st.decisions.any (fun record => record.id = id) &&
        !RevalidationPlan.contains {} id) = [] := by
    refine List.eq_nil_iff_forall_not_mem.2 fun id hid => ?_
    rw [sorted, mem_sortOn, List.mem_filter, mem_allIds, List.mem_map] at hid
    obtain ⟨⟨record, hrecord, rfl⟩, hgone⟩ := hid
    rw [Bool.and_eq_true, Bool.not_eq_true', List.any_eq_false] at hgone
    exact hgone.1 record hrecord (decide_eq_true rfl)
  rw [revalidate, hplan, hremoved, hnone, hnone, hnone, hnone]
  all_goals simp [RevalidationPlan.contains]

end Report

section Rest
variable {w : World} {c c₀ c₁ c₂ c₃ : PodController} {env : Env} {evidence : PodSnapshot}
  {st st₀ st₁ st₂ : PodState} {call : Call} {n : ℕ}

/-- After two rounds over the same evidence that have left the lifecycle alone, the next one
composes what is there already, and no key has changed. -/
theorem TakesOver.rests (hclock : ∀ i, env.clock i = env.clock 0)
    (h₀ : TakesOver env evidence c₀ st₀ c₁) (h₁ : TakesOver env evidence c₁ st₁ c₂)
    (h₂ : TakesOver env evidence c₂ st₂ c₃) (hlifecycle : c₂.lifecycle = c₁.lifecycle) :
    st₂ = st₁ ∧ c₃.memory = c₂.memory ∧
      c₂.changedKeys (c₂.request env evidence) st₂
        (PodController.deriveExpectations st₂ c₂.expectations)
        (c₂.survivingTokens env st₂) = [] := by
  have hrequest := h₀.request_again hclock h₁ hlifecycle
  have hsame : st₂ = st₁ := by
    have hcomposed := h₂.composed
    rw [hrequest, h₁.composed, Except.ok.injEq] at hcomposed
    exact hcomposed.symm
  have hexpectations := h₁.expectations_again h₂
  have htokens := h₁.tokens_again hclock h₂
  refine ⟨hsame, ?_, ?_⟩
  · rw [h₂.memory, h₁.memory, hsame, ← hsame, ← h₂.expectations, hexpectations, ← h₂.tokens,
      htokens, h₁.adminOverrides, h₁.revoked, h₁.expectations, h₁.tokens, hsame]
  · have hsnapshot : c₂.lastEvidence = (c₂.request env evidence).snapshot := by
      rw [h₁.lastEvidence]
      exact congrArg (fun overrides => PodController.effectiveSnapshot overrides evidence)
        h₁.adminOverrides.symm
    have hepoch : ¬ c₂.epoch ≠ st₂.epoch := not_not.2 (h₁.epoch.trans (congrArg _ hsame.symm))
    have hcontext : ¬ c₂.contextLifecycle ≠ c₂.lifecycle :=
      not_not.2 (h₁.contextLifecycle.trans hlifecycle.symm)
    rw [PodController.changedKeys, ← h₂.expectations, ← h₂.tokens, hexpectations, htokens,
      hsnapshot, if_neg hepoch, if_neg hcontext]
    simp [membershipChangeKeys, snapshotChangeKeys, tokenChangeKeys, diffCollection_self]

/-- The world after a call is made some times. -/
abbrev World.repeated (w : World) (call : Call) (n : ℕ) : World := w.run (List.replicate n call)

/-- One more repetition is one more call. -/
theorem World.repeated_succ : w.repeated call (n + 1) = (w.repeated call n).next call := by
  rw [World.repeated, List.replicate_succ', World.run, Run.final_append]
  rfl

/-- Every round over the same evidence is admitted and taken over. -/
theorem PodController.Admits.repeated (h : w.controller.Admits env evidence) (n : ℕ) :
    ∃ st, TakesOver env evidence (w.repeated ⟨.apply evidence, env⟩ n).controller st
        (w.repeated ⟨.apply evidence, env⟩ (n + 1)).controller ∧
      (w.repeated ⟨.apply evidence, env⟩ n).answer ⟨.apply evidence, env⟩ =
        .applied ((w.repeated ⟨.apply evidence, env⟩ n).controller.applyReport
          ((w.repeated ⟨.apply evidence, env⟩ n).controller.request env evidence) st
          (PodController.deriveExpectations st
            (w.repeated ⟨.apply evidence, env⟩ n).controller.expectations)
          ((w.repeated ⟨.apply evidence, env⟩ n).controller.survivingTokens env st)) := by
  have hadmits : (w.repeated ⟨.apply evidence, env⟩ n).controller.Admits env evidence := by
    induction n with
    | zero => exact h
    | succ n ih =>
      rw [World.repeated_succ]
      obtain ⟨st, htakes, -⟩ := ih.takesOver
      exact htakes.admits_again
  rw [World.repeated_succ]
  exact hadmits.takesOver

/-- From the second round on the rounds ask for one lifecycle. -/
theorem PodController.Admits.lifecycles {p : Passes} (h : w.controller.Admits env evidence)
    (hp : runPasses (w.controller.request env evidence) = .ok p) (n : ℕ) :
    (w.repeated ⟨.apply evidence, env⟩ (n + 2)).controller.lifecycle =
      (w.repeated ⟨.apply evidence, env⟩ (n + 1)).controller.lifecycle.next
        (evidenceLifecycle p.findings) := by
  have hasks : ∃ p', runPasses ((w.repeated ⟨.apply evidence, env⟩ n).controller.request env
      evidence) = .ok p' ∧ evidenceLifecycle p'.findings = evidenceLifecycle p.findings := by
    induction n with
    | zero => exact ⟨p, hp, rfl⟩
    | succ n ih =>
      obtain ⟨p', hp', hasked⟩ := ih
      obtain ⟨st, htakes, -⟩ := h.repeated n
      obtain ⟨st', htakes', -⟩ := h.repeated (n + 1)
      obtain ⟨-, -, -, p'', hp'', hagain⟩ := htakes.passes_again htakes' hp'
      exact ⟨p'', hp'', hagain.trans hasked⟩
  obtain ⟨p', hp', hasked⟩ := hasks
  obtain ⟨st, htakes, -⟩ := h.repeated n
  obtain ⟨st', htakes', -⟩ := h.repeated (n + 1)
  obtain ⟨-, -, hlifecycle, -⟩ := htakes.passes_again htakes' hp'
  rw [htakes'.lifecycle, hlifecycle, hasked]

/-- How many rounds it takes: one more out of a recovery. -/
def PodController.settling (c : PodController) : ℕ :=
  if c.recoveredRound = true ∨ c.ambiguousCommit = true then 4 else 3

/-- The lifecycle has come to an end one round before. -/
theorem PodController.Admits.lifecycle_rests (h : w.controller.Admits env evidence)
    (hn : w.controller.settling ≤ n + 1) :
    (w.repeated ⟨.apply evidence, env⟩ (n + 1)).controller.lifecycle =
      (w.repeated ⟨.apply evidence, env⟩ n).controller.lifecycle := by
  obtain ⟨st, hst⟩ := h.2.1
  obtain ⟨p, hp, -, rfl⟩ := compose_passesOf hst
  have hsteps := h.lifecycles hp
  by_cases hrecovery : w.controller.recoveredRound = true ∨ w.controller.ambiguousCommit = true
  · rw [PodController.settling, if_pos hrecovery] at hn
    obtain ⟨m, rfl⟩ := Nat.exists_eq_add_of_le' (show 3 ≤ n by omega)
    rw [hsteps (m + 2), hsteps (m + 1), hsteps m]
    exact LifecycleState.next_thrice _ _
  · rw [PodController.settling, if_neg hrecovery] at hn
    obtain ⟨m, rfl⟩ := Nat.exists_eq_add_of_le' (show 2 ≤ n by omega)
    cases m with
    | succ m =>
      rw [hsteps (m + 2), hsteps (m + 1), hsteps m]
      exact LifecycleState.next_thrice _ _
    | zero =>
      have hfirst : LifecycleState.First (evidenceLifecycle p.findings)
          (desiredLifecycle p.findings) := by
        rw [not_or, Bool.not_eq_true, Bool.not_eq_true] at hrecovery
        have hcontext := (runPasses_passesOf hp).context
        exact first_desired (hcontext ▸ hrecovery.1) (hcontext ▸ hrecovery.2)
      obtain ⟨st, htakes, -⟩ := h.repeated 0
      have hone : (w.repeated ⟨.apply evidence, env⟩ 1).controller.lifecycle =
          w.controller.lifecycle.next (desiredLifecycle p.findings) := by
        have hcomposed : st = p.draft.finalise := Except.ok.inj (htakes.composed.symm.trans hst)
        rw [htakes.lifecycle, hcomposed, finalise_lifecycle, composedLifecycle_eq,
          (runPasses_passesOf hp).context]
        rfl
      rw [hsteps 1, hsteps 0, hone]
      exact LifecycleState.next_first hfirst _

end Rest

/-- **The same evidence again.** A controller that admits some evidence, and is given it over and
over while the clock stands still, comes to rest after three rounds, or four out of a recovery:
every further round leaves everything that a client sees as it is, and is reported as unchanged, or
as one of a retired pod; with decisions of distinct identities its report finds nothing that had to
be revalidated. -/
theorem repeated_rounds_settle {w : World} {env : Env} {evidence : PodSnapshot} {n : ℕ}
    (hclock : ∀ i, env.clock i = env.clock 0)
    (haccepts : (w.answer ⟨.apply evidence, env⟩).ok = true)
    (hn : w.controller.settling ≤ n) :
    let rested := w.repeated ⟨.apply evidence, env⟩ n
    (rested.next ⟨.apply evidence, env⟩).controller.memory = rested.controller.memory ∧
    ∃ report, rested.answer ⟨.apply evidence, env⟩ = .applied report ∧
      report.state = rested.controller.state ∧
      report.outcome =
        (if rested.controller.lifecycle = .retired then .retired else .unchanged) ∧
      ((rested.controller.state.decisions.map DecisionRecord.id).Nodup →
        report.revalidation =
          { totalDecisions := rested.controller.state.decisions.length }) := by
  have hadmits := World.apply_ok_iff.1 haccepts
  obtain ⟨n, rfl⟩ : ∃ m, n = m + 2 := Nat.exists_eq_add_of_le' (by
    rw [PodController.settling] at hn
    split at hn <;> omega)
  intro rested
  obtain ⟨st₀, h₀, -⟩ := hadmits.repeated n
  obtain ⟨st₁, h₁, -⟩ := hadmits.repeated (n + 1)
  obtain ⟨st₂, h₂, hanswer⟩ := hadmits.repeated (n + 2)
  obtain ⟨rfl, hmemory, hkeys⟩ := h₀.rests hclock h₁ h₂ (hadmits.lifecycle_rests hn)
  rw [← World.repeated_succ]
  refine ⟨hmemory, _, hanswer, h₁.state.symm, ?_, fun hunique => ?_⟩
  · change rested.controller.applyOutcome st₂ = _
    have hlifecycle : rested.controller.lifecycle = st₂.lifecycle := h₁.lifecycle
    have hepoch : ¬ rested.controller.epoch ≠ st₂.epoch := not_not.2 h₁.epoch
    have hsame : rested.controller.state.stateDigest = st₂.stateDigest ∧
        rested.controller.lifecycle = st₂.lifecycle :=
      ⟨congrArg PodState.stateDigest h₁.state, h₁.lifecycle⟩
    rw [PodController.applyOutcome, h₁.recoveredRound, if_neg Bool.false_ne_true, if_neg hepoch,
      if_pos hsame]
  · have hstate : rested.controller.state = st₂ := h₁.state
    change revalidate rested.controller.index st₂ _ = _
    rw [hstate] at hunique ⊢
    rw [hkeys, h₁.index]
    refine revalidate_self ?_ hunique
    obtain ⟨p, -, hp, rfl⟩ := compose_passesOf h₁.composed
    exact decisions_ne_nil

/-- A controller that has been opened over the directory of an earlier one rests after four rounds
of the sample evidence. -/
theorem restarted_rests :
    let w := Sample.restarted.next ⟨.«open», Sample.env⟩
    w.controller.settling = 4 ∧ ((w.repeated Sample.round 4).next Sample.round).controller.memory =
      (w.repeated Sample.round 4).controller.memory := by
  intro w
  have hsettling : w.controller.settling = 4 := by decide +kernel
  exact ⟨hsettling, (repeated_rounds_settle (fun _ => rfl) (by decide +kernel)
    hsettling.le).1⟩

end PodFabric
