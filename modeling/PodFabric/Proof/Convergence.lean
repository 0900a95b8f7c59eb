import PodFabric.Proof.Rerun
import PodFabric.Proof.Transitions

/-!
# Where the lifecycle goes

Evidence that is applied over and over asks for the same lifecycle in every round (`Steady`), and
from the second round on the pod either has it or stays where it was. Two controllers that differ in
nothing but their lifecycle end up alike exactly if they already are, if the evidence asks for one
of the states that every lifecycle has a way to, or if it asks for a legal move from both
(`lifecycle_converges_iff`).
-/

namespace PodFabric

/-! ## Lifecycles -/

namespace LifecycleState

/-- The first lifecycle asked for: an advance of the epoch holds an active pod back. -/
def First (asked first : LifecycleState) : Prop :=
  first = asked ∨ (asked = active ∧ first = degraded)

/-- The lifecycle can be reached: it is one that illegal requests are led to, or a legal move. -/
def Reachable (asked current : LifecycleState) : Prop :=
  asked = active ∨ asked = degraded ∨ legal current asked = true

instance (asked current : LifecycleState) : Decidable (Reachable asked current) :=
  inferInstanceAs (Decidable (_ ∨ _ ∨ _))

/-- After two rounds the pod has the lifecycle asked for, or the one it had. -/
theorem next_next {asked first current : LifecycleState} (hlive : current ≠ retired)
    (hfirst : First asked first) :
    (current.next first).next asked = if Reachable asked current then asked else current := by
  rcases hfirst with rfl | ⟨rfl, rfl⟩
  · cases current <;> cases first <;> first | exact absurd rfl hlive | decide
  · cases current <;> first | exact absurd rfl hlive | decide

/-- And it stays there. -/
theorem next_settled {asked current : LifecycleState} (hlive : current ≠ retired) :
    (if Reachable asked current then asked else current).next asked =
      if Reachable asked current then asked else current := by
  cases current <;> cases asked <;> first | exact absurd rfl hlive | decide

/-- A lifecycle that cannot be reached differs from the current one. -/
theorem not_reachable {asked current : LifecycleState} (h : ¬ Reachable asked current) :
    asked ≠ current := by
  rintro rfl
  exact h (.inr (.inr (legal_self asked)))

/-- The lifecycle of a run of rounds, from the second on. -/
theorem iterate_next {asked first current : LifecycleState} (hlive : current ≠ retired)
    (hfirst : First asked first) (n : ℕ) :
    (fun l : LifecycleState => l.next asked)^[n + 1] (current.next first) =
      if Reachable asked current then asked else current := by
  rw [Function.iterate_succ_apply, next_next hlive hfirst]
  exact Function.iterate_fixed (next_settled hlive) n

/-- When two lifecycles come to be the same. -/
theorem settled_iff {asked current current' : LifecycleState} :
    (if Reachable asked current then asked else current) =
        (if Reachable asked current' then asked else current') ↔
      current = current' ∨ asked = active ∨ asked = degraded ∨
        (legal current asked = true ∧ legal current' asked = true) := by
  by_cases hled : asked = active ∨ asked = degraded
  · have hall (l : LifecycleState) : Reachable asked l := hled.elim .inl fun h => .inr (.inl h)
    simp only [if_pos (hall _), true_iff]
    exact .inr (hled.elim .inl fun h => .inr (.inl h))
  · have hlegal (l : LifecycleState) : Reachable asked l ↔ legal l asked = true := by
      unfold Reachable
      tauto
    have hnot (l : LifecycleState) (h : ¬ legal l asked = true) : asked ≠ l :=
      not_reachable (mt (hlegal l).1 h)
    simp only [hlegal]
    by_cases h : legal current asked = true <;> by_cases h' : legal current' asked = true
    · simp [h, h']
    · have hne : current ≠ current' := fun heq => h' (heq ▸ h)
      rw [if_pos h, if_neg h']
      exact iff_of_false (hnot _ h') (by tauto)
    · have hne : current ≠ current' := fun heq => h (heq ▸ h')
      rw [if_neg h, if_pos h']
      exact iff_of_false (hnot _ h).symm (by tauto)
    · rw [if_neg h, if_neg h']
      tauto

end LifecycleState

/-! ## Rounds -/

section Rounds
variable {c : PodController} {disk : DurableState} {env : Env} {evidence : PodSnapshot}
  {w : World} {st : PodState} {asked : LifecycleState}

/-- A controller whose next round over the evidence goes through, adopts nothing and asks for a
lifecycle. -/
structure Steady (env : Env) (evidence : PodSnapshot) (asked : LifecycleState)
    (w : World) : Prop where
  isOpen : w.controller.isOpen = true
  commits : w.controller.store = none ∨ env.commit = .committed
  recoveredRound : w.controller.recoveredRound = false
  ambiguousCommit : w.controller.ambiguousCommit = false
  shown : w.controller.state.lifecycle = w.controller.lifecycle
  valid : (w.controller.request env evidence).validate = .ok ()
  passes : ∃ p, runPasses (w.controller.request env evidence) = .ok p ∧
    evidenceLifecycle p.findings = asked ∧ p.findings.epoch = w.controller.epoch

/-- What a round that is published leaves for the next one over the same evidence. -/
structure Leaves (env : Env) (evidence : PodSnapshot) (st : PodState) (w w' : World) : Prop where
  isOpen : w'.controller.isOpen = true
  commits : w'.controller.store = none ∨ env.commit = .committed
  recoveredRound : w'.controller.recoveredRound = false
  ambiguousCommit : w'.controller.ambiguousCommit = false
  state : w'.controller.state = st
  lifecycle : w'.controller.lifecycle = st.lifecycle
  epoch : w'.controller.epoch = st.epoch
  continues : Continues (w.controller.request env evidence) st (w'.controller.request env evidence)

/-- A round that is admitted leaves a composed state. -/
theorem PodController.Admits.leaves (h : w.controller.Admits env evidence) :
    ∃ st, compose (w.controller.request env evidence) = .ok st ∧
      Leaves env evidence st w (w.next ⟨.apply evidence, env⟩) := by
  obtain ⟨c, disk⟩ := w
  have hok := World.apply_ok_iff.2 h
  change ((c.apply disk env evidence).step Answer.applied).2.ok = true at hok
  cases apply_applied c disk env evidence with
  | refused _ _ _ _ error => simp [Reply.step, Answer.ok, error] at hok
  | unsaved _ _ _ _ _ error => simp [Reply.step, Answer.ok, error] at hok
  | published composed c' isOpen hcompose persisted controller =>
    refine ⟨composed, hcompose, ?_⟩
    have hu := persisted.untouched
    have hoverrides : c'.adminOverrides = c.adminOverrides :=
      congrArg Memory.adminOverrides hu.memory
    have hnext : (World.next ⟨c, disk⟩ ⟨.apply evidence, env⟩).controller =
      c'.published (c.request env evidence) composed
        (PodController.deriveExpectations composed c.expectations)
        (c.survivingTokens env composed) := controller
    have htokens := (apply_applied c disk env evidence).tokens
    rw [controller] at htokens
    refine ⟨?_, ?_, ?_, ?_, ?_, ?_, ?_, ?_⟩
    · rw [hnext]
      exact hu.isOpen.trans isOpen
    · rw [hnext]
      refine persisted.commits.imp_left fun hnone => ?_
      have hstore := hu.store
      rw [hnone] at hstore
      exact Option.isSome_eq_false_iff.1 hstore |> Option.isNone_iff_eq_none.1
    · rw [hnext]
      rfl
    · rw [hnext]
      rfl
    · rw [hnext]
      rfl
    · rw [hnext]
      rfl
    · rw [hnext]
      rfl
    · rw [hnext]
      refine ⟨?_, ?_, rfl, rfl, htokens⟩
      · exact congrArg ControllerOptions.policy hu.options
      · exact congrArg (fun overrides => PodController.effectiveSnapshot overrides evidence)
          hoverrides

/-- The first lifecycle that a round asks for, out of a recovery. -/
theorem first_desired {fd : Findings} (hr : fd.context.recoveredFromStore = false)
    (ha : fd.context.ambiguousCommit = false) :
    LifecycleState.First (evidenceLifecycle fd) (desiredLifecycle fd) := by
  unfold desiredLifecycle
  simp only [hr, ha, Bool.false_eq_true, if_false]
  split
  · next h => exact .inr ⟨h.2, rfl⟩
  · exact .inl rfl

/-- What is asked for when nothing is adopted. -/
theorem steady_desired {fd : Findings} (hr : fd.context.recoveredFromStore = false)
    (ha : fd.context.ambiguousCommit = false) (he : fd.epoch = fd.context.epoch) :
    desiredLifecycle fd = evidenceLifecycle fd := by
  unfold desiredLifecycle
  simp [hr, ha, he]

/-- After a round over evidence the controller is steady under it. -/
theorem Leaves.steady {w' : World} {p : Passes} (h : Leaves env evidence st w w')
    (hst : compose (w.controller.request env evidence) = .ok st)
    (hp : runPasses (w.controller.request env evidence) = .ok p) :
    Steady env evidence (evidenceLifecycle p.findings) w' := by
  obtain ⟨hvalid, p', hp', halike, hepoch⟩ := h.continues.runPasses hst hp
  exact ⟨h.isOpen, h.commits, h.recoveredRound, h.ambiguousCommit, by rw [h.state, h.lifecycle],
    hvalid, p', hp', halike.evidenceLifecycle, by rw [hepoch, h.epoch]⟩

/-- A steady controller moves by the lifecycle asked for, and stays steady. -/
theorem Steady.next (h : Steady env evidence asked w) :
    Steady env evidence asked (w.next ⟨.apply evidence, env⟩) ∧
      (w.next ⟨.apply evidence, env⟩).controller.lifecycle = w.controller.lifecycle.next asked := by
  obtain ⟨p, hp, hasked, hepoch⟩ := h.passes
  have hcompose : compose (w.controller.request env evidence) = .ok p.draft.finalise :=
    compose_eq_ok.2 ⟨h.valid, p, hp, rfl⟩
  have hadmits : w.controller.Admits env evidence := ⟨h.isOpen, ⟨_, hcompose⟩, h.commits⟩
  obtain ⟨st, hst, hleaves⟩ := hadmits.leaves
  have hcontext := (runPasses_passesOf hp).context
  refine ⟨hasked ▸ hleaves.steady hst hp, ?_⟩
  rw [hst, Except.ok.injEq] at hcompose
  rw [hleaves.lifecycle, hcompose, finalise_lifecycle, composedLifecycle_eq, steady_desired,
    hasked, hcontext]
  · rfl
  · rw [hcontext]
    exact h.recoveredRound
  · rw [hcontext]
    exact h.ambiguousCommit
  · rw [hcontext]
    exact hepoch

/-- The lifecycle that a steady controller shows after some rounds. -/
theorem Steady.run : ∀ {n : ℕ} {w : World}, Steady env evidence asked w →
    (w.run (List.replicate n ⟨.apply evidence, env⟩)).controller.state.lifecycle =
      (fun l : LifecycleState => l.next asked)^[n] w.controller.lifecycle
  | 0, _, h => h.shown
  | n + 1, w, h => by
    obtain ⟨hsteady, hlifecycle⟩ := h.next
    rw [List.replicate_succ, Function.iterate_succ_apply, ← hlifecycle]
    exact hsteady.run

/-- The lifecycle that a controller shows after two rounds and more, out of a recovery. -/
theorem PodController.Admits.run {p : Passes} (h : w.controller.Admits env evidence)
    (hlive : w.controller.lifecycle ≠ .retired) (hr : w.controller.recoveredRound = false)
    (ha : w.controller.ambiguousCommit = false)
    (hp : runPasses (w.controller.request env evidence) = .ok p) {n : ℕ} (hn : 2 ≤ n) :
    (w.run (List.replicate n ⟨.apply evidence, env⟩)).controller.state.lifecycle =
      if LifecycleState.Reachable (evidenceLifecycle p.findings) w.controller.lifecycle then
        evidenceLifecycle p.findings
      else w.controller.lifecycle := by
  obtain ⟨n, rfl⟩ := Nat.exists_eq_add_of_le' hn
  obtain ⟨st, hst, hleaves⟩ := h.leaves
  have hcontext := (runPasses_passesOf hp).context
  have hfirst : LifecycleState.First (evidenceLifecycle p.findings) (desiredLifecycle p.findings) :=
    first_desired (hcontext ▸ hr) (hcontext ▸ ha)
  have hmoved : (w.next ⟨.apply evidence, env⟩).controller.lifecycle =
      w.controller.lifecycle.next (desiredLifecycle p.findings) := by
    obtain ⟨-, p', hp', rfl⟩ := compose_eq_ok.1 hst
    rw [hp, Except.ok.injEq] at hp'
    rw [hleaves.lifecycle, ← hp', finalise_lifecycle, composedLifecycle_eq, hcontext]
    rfl
  rw [List.replicate_succ]
  change ((w.next _).run _).controller.state.lifecycle = _
  rw [(hleaves.steady hst hp).run, hmoved]
  exact LifecycleState.iterate_next hlive hfirst n

end Rounds

/-! ## Two controllers -/

/-- The two controllers judge evidence alike: they differ in nothing that a round asks of a
controller but the lifecycle. -/
structure ButLifecycle (c c' : PodController) : Prop where
  policy : c'.options.policy = c.options.policy
  epoch : c'.epoch = c.epoch
  expectations : c'.expectations = c.expectations
  adminOverrides : c'.adminOverrides = c.adminOverrides

/-- The passes of two such controllers ask for the same lifecycle. -/
theorem ButLifecycle.passes {c c' : PodController} (h : ButLifecycle c c') {env : Env}
    {evidence : PodSnapshot} {p p' : Passes} (hp : runPasses (c.request env evidence) = .ok p)
    (hp' : runPasses (c'.request env evidence) = .ok p') :
    evidenceLifecycle p'.findings = evidenceLifecycle p.findings := by
  have hsnapshot : (c'.request env evidence).snapshot = (c.request env evidence).snapshot :=
    congrArg (fun overrides => PodController.effectiveSnapshot overrides evidence) h.adminOverrides
  have hexpectations : (c'.request env evidence).context.expectations =
    (c.request env evidence).context.expectations := h.expectations
  have hpolicy : (c'.request env evidence).policy = (c.request env evidence).policy := h.policy
  have hracks : coveredRacks (c'.request env evidence) = coveredRacks (c.request env evidence) := by
    unfold coveredRacks
    rw [hsnapshot, hexpectations]
  have hwork : memberWork (c'.request env evidence) = memberWork (c.request env evidence) := by
    unfold memberWork
    rw [hsnapshot, hexpectations, hpolicy]
  have hepoch := (runPasses_passesOf hp').epoch
  have hreruns : Reruns (c.request env evidence) (c'.request env evidence) :=
    ⟨hpolicy, hsnapshot, hracks, fun rack _ => by rw [hwork]⟩
  obtain ⟨p'', hp'', halike, -⟩ := hreruns.runPasses hp hepoch
  rw [hp', Except.ok.injEq] at hp''
  exact hp'' ▸ halike.evidenceLifecycle

/-- The lifecycle that the controller shows after `n` calls. -/
def World.showsAfter (w : World) (call : Call) (n : ℕ) : LifecycleState :=
  (w.run (List.replicate n call)).controller.state.lifecycle

/-- From the round `n` on the two controllers show one lifecycle. -/
def Converged (w w' : World) (call : Call) (n : ℕ) : Prop :=
  ∃ lifecycle, ∀ m, n ≤ m → w.showsAfter call m = lifecycle ∧ w'.showsAfter call m = lifecycle

/-- **Convergence of the lifecycle.** Two controllers that differ in nothing but the lifecycle, none
of them retired or in a recovery round, are given the same evidence over and over, which both
accept. They come to show one lifecycle for good, and then do from the second round on, exactly if
theirs is the same already or the evidence asks for one that both reach. -/
theorem lifecycle_converges_iff {w w' : World} {env : Env} {evidence : PodSnapshot}
    (hsame : ButLifecycle w.controller w'.controller)
    (hlive : w.controller.lifecycle ≠ .retired ∧ w'.controller.lifecycle ≠ .retired)
    (hrecovery : w.controller.recoveredRound = false ∧ w'.controller.recoveredRound = false)
    (hambiguous : w.controller.ambiguousCommit = false ∧ w'.controller.ambiguousCommit = false)
    (haccepts : (w.answer ⟨.apply evidence, env⟩).ok = true)
    (haccepts' : (w'.answer ⟨.apply evidence, env⟩).ok = true) :
    ∃ p, runPasses (w.controller.request env evidence) = .ok p ∧
      ((∃ n, Converged w w' ⟨.apply evidence, env⟩ n) ↔
        Converged w w' ⟨.apply evidence, env⟩ 2) ∧
      (Converged w w' ⟨.apply evidence, env⟩ 2 ↔
        w.controller.lifecycle = w'.controller.lifecycle ∨
          evidenceLifecycle p.findings = .active ∨ evidenceLifecycle p.findings = .degraded ∨
          (LifecycleState.legal w.controller.lifecycle (evidenceLifecycle p.findings) = true ∧
            LifecycleState.legal w'.controller.lifecycle (evidenceLifecycle p.findings) =
              true)) := by
  have hadmits := World.apply_ok_iff.1 haccepts
  have hadmits' := World.apply_ok_iff.1 haccepts'
  obtain ⟨st, hst⟩ := hadmits.2.1
  obtain ⟨st', hst'⟩ := hadmits'.2.1
  obtain ⟨-, p, hp, -⟩ := compose_eq_ok.1 hst
  obtain ⟨-, p', hp', -⟩ := compose_eq_ok.1 hst'
  have hshown := fun n (hn : 2 ≤ n) => hadmits.run hlive.1 hrecovery.1 hambiguous.1 hp hn
  have hshown' := fun n (hn : 2 ≤ n) => hadmits'.run hlive.2 hrecovery.2 hambiguous.2 hp' hn
  rw [hsame.passes hp hp'] at hshown'
  refine ⟨p, hp, ?_⟩
  generalize evidenceLifecycle p.findings = asked at *
  -- from the second round on, both show what they come to for good
  have hconverged (n : ℕ) : Converged w w' ⟨.apply evidence, env⟩ (max n 2) ↔
      (if LifecycleState.Reachable asked w.controller.lifecycle then asked
        else w.controller.lifecycle) =
      if LifecycleState.Reachable asked w'.controller.lifecycle then asked
        else w'.controller.lifecycle := by
    constructor
    · rintro ⟨lifecycle, h⟩
      obtain ⟨hl, hl'⟩ := h (max n 2) le_rfl
      rw [← hshown _ (le_max_right n 2), ← hshown' _ (le_max_right n 2)]
      exact hl.trans hl'.symm
    · intro h
      refine ⟨_, fun m hm => ⟨hshown m ((le_max_right n 2).trans hm), ?_⟩⟩
      rw [h]
      exact hshown' m ((le_max_right n 2).trans hm)
  have htwo := hconverged 0
  rw [Nat.zero_max] at htwo
  refine ⟨⟨fun ⟨n, lifecycle, h⟩ => ?_, fun h => ⟨2, h⟩⟩, htwo.trans LifecycleState.settled_iff⟩
  exact htwo.2 ((hconverged n).1 ⟨lifecycle, fun m hm => h m ((le_max_left n 2).trans hm)⟩)

namespace Sample

/-- The open sample controller, had it come to the given lifecycle. -/
def inState (lifecycle : LifecycleState) : World :=
  { world false with controller := { (world false).controller with lifecycle } }

/-- Evidence that describes no rack. -/
def bare : PodSnapshot where
  pod := snapshot.pod
  schema := snapshotSchema
  observedAt := 100

end Sample

/-- A controller under construction and one in maintenance agree after two rounds of the sample
evidence. -/
theorem sample_converges :
    Converged (Sample.inState .constructing) (Sample.inState .maintenance) Sample.round 2 := by
  have hasked : (runPasses ((Sample.inState .constructing).controller.request Sample.env
      Sample.snapshot)).toOption.map (fun p => evidenceLifecycle p.findings) = some .active := by
    decide +kernel
  obtain ⟨p, hp, -, hiff⟩ := @lifecycle_converges_iff (Sample.inState .constructing)
    (Sample.inState .maintenance) Sample.env Sample.snapshot ⟨rfl, rfl, rfl, rfl⟩
      (by decide +kernel)
    (by decide +kernel) (by decide +kernel) (by decide +kernel) (by decide +kernel)
  rw [hp] at hasked
  exact hiff.2 (.inr (.inl (by simpa [Except.toOption] using hasked)))

/-- Evidence without an established rack asks for a pod under construction, which a pod that is
active never becomes. -/
theorem lifecycle_trapped : ¬ ∀ (w w' : World) (env : Env) (evidence : PodSnapshot),
    ButLifecycle w.controller w'.controller →
    w.controller.lifecycle ≠ .retired ∧ w'.controller.lifecycle ≠ .retired →
    w.controller.recoveredRound = false ∧ w'.controller.recoveredRound = false →
    w.controller.ambiguousCommit = false ∧ w'.controller.ambiguousCommit = false →
    (w.answer ⟨.apply evidence, env⟩).ok = true → (w'.answer ⟨.apply evidence, env⟩).ok = true →
    ∃ n, Converged w w' ⟨.apply evidence, env⟩ n := by
  intro hclaim
  have haccepts : ((Sample.inState .constructing).answer ⟨.apply Sample.bare, Sample.env⟩).ok =
      true := by
    decide +kernel
  have haccepts' : ((Sample.inState .active).answer ⟨.apply Sample.bare, Sample.env⟩).ok =
      true := by
    decide +kernel
  obtain ⟨n, lifecycle, h⟩ := hclaim (Sample.inState .constructing)
    (Sample.inState .active) Sample.env
    Sample.bare ⟨rfl, rfl, rfl, rfl⟩ (by decide +kernel) (by decide +kernel) (by decide +kernel)
    haccepts haccepts'
  obtain ⟨hfirst, hsecond⟩ := h (max n 2) (le_max_left n 2)
  -- the evidence asks for a pod under construction, whatever the pod is
  have hasked (l : LifecycleState) (hl : l = .constructing ∨ l = .active) :
      (runPasses ((Sample.inState l).controller.request Sample.env Sample.bare)).toOption.map
        (fun p => evidenceLifecycle p.findings) = some .constructing := by
    rcases hl with rfl | rfl <;> decide +kernel
  have hshown (l : LifecycleState) (hl : l = .constructing ∨ l = .active)
      (hok : ((Sample.inState l).answer ⟨.apply Sample.bare, Sample.env⟩).ok = true) :
      (Sample.inState l).showsAfter ⟨.apply Sample.bare, Sample.env⟩ (max n 2) =
        if LifecycleState.Reachable .constructing l then .constructing else l := by
    have hadmits := World.apply_ok_iff.1 hok
    obtain ⟨st, hst⟩ := hadmits.2.1
    obtain ⟨-, p, hp, -⟩ := compose_eq_ok.1 hst
    have hp' := hasked l hl
    rw [hp] at hp'
    have hto : evidenceLifecycle p.findings = .constructing := by simpa [Except.toOption] using hp'
    have hlive : l ≠ .retired := by rcases hl with rfl | rfl <;> decide
    have hrun := hadmits.run hlive rfl rfl hp (le_max_right n 2)
    rw [hto] at hrun
    exact hrun
  rw [hshown _ (.inl rfl) haccepts] at hfirst
  rw [hshown _ (.inr rfl) haccepts', ← hfirst] at hsecond
  exact absurd hsecond (by decide)

end PodFabric
