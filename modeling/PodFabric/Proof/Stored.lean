import PodFabric.Control.Stored
import PodFabric.Proof.Generations

/-!
# Worlds over a journal that may be torn

A call on a stored world does to the controller what it does to that of a world, and does the same
to the directory or leaves it as it was (`next_world`). So what holds of a controller and of its
directory each by itself is kept by a call over a torn journal if it is kept over a whole one
(`next_stands`); only what the call brings about has to be committed to a journal that is whole
(`next_begins`).
-/

namespace PodFabric

/-- Being consistent is a matter of the controller alone. -/
theorem Consistent.of_controller {w w' : World} (h : Consistent w)
    (hsame : w'.controller = w.controller) : Consistent w' :=
  ⟨hsame ▸ h.identity, hsame ▸ h.store⟩

/-- What holds of a world holds of its controller and, if the controller is durable, of its
directory, and of each by itself. -/
def PerSide (P : World → Prop) : Prop :=
  ∀ {w w' : World}, P w' → w.controller.options.durable = w'.controller.options.durable →
    (w'.controller.options.durable = true → P w) → P ⟨w'.controller, w.disk⟩

namespace StoredWorld

section Step
variable {s : StoredWorld} {x : StoredCall}

theorem next_controller : (s.next x).world.controller = (s.world.next x.call).controller := rfl

/-- The call goes as over a journal that is whole, or its commit is lost. -/
theorem next_world : (s.next x).world = s.world.next x.call ∨
    (s.next x).world = ⟨(s.world.next x.call).controller, s.world.disk⟩ := by
  have hdisk : (s.next x).world.disk = (s.world.next x.call).disk ∨
      (s.next x).world.disk = s.world.disk := by
    change s.diskAfter x = _ ∨ s.diskAfter x = _
    unfold diskAfter
    split
    · exact .inl rfl
    · exact .inl rfl
    · exact .inr rfl
  exact hdisk.imp (congrArg (World.mk _)) (congrArg (World.mk _))

/-- A call whose commit is kept goes as over a journal that is whole. -/
theorem next_of_keeps (h : s.keeps x = true) : (s.next x).world = s.world.next x.call := by
  have hdisk : s.diskAfter x = (s.world.next x.call).disk := by
    rw [diskAfter, h]
    cases x.call.op <;> rfl
  exact congrArg (World.mk _) hdisk

theorem next_durable : (s.next x).world.controller.options.durable =
    s.world.controller.options.durable :=
  World.next_durable s.world x.call

/-- What held before a call is kept over a torn journal if it is kept over a whole one. -/
theorem next_stands {P : World → Prop} (hP : PerSide P) (h : P s.world)
    (hnext : P (s.world.next x.call)) : P (s.next x).world := by
  rcases @next_world s x with hw | hw
  · exact hw ▸ hnext
  · exact hw ▸ hP hnext (World.next_durable s.world x.call).symm fun _ => h

/-- What a call brings about stands, if its commit is kept. -/
theorem next_begins {P : World → Prop} (hP : PerSide P) (hnext : P (s.world.next x.call))
    (hkept : s.world.controller.options.durable = true → s.keeps x = true) :
    P (s.next x).world := by
  by_cases hdurable : s.world.controller.options.durable = true
  · rw [next_of_keeps (hkept hdurable)]
    exact hnext
  · rcases @next_world s x with hw | hw
    · exact hw ▸ hnext
    · refine hw ▸ hP hnext (World.next_durable s.world x.call).symm fun hd => ?_
      exact absurd ((World.next_durable s.world x.call).symm.trans hd) hdurable

end Step

/-- In every state of a run the controller is consistent, and as durable as it was constructed. -/
theorem trace_consistent {options : ControllerOptions} {disk : DurableState} {torn : Bool}
    {calls : List StoredCall} :
    ∀ x ∈ (start options disk torn).trace calls,
      Consistent x.1.world ∧ x.1.world.controller.options.durable = options.durable := by
  have hstart : Consistent (start options disk torn).world :=
    ⟨fun ho => (by cases ho), fun ho => (by cases ho)⟩
  refine (Run.trace_invariant (P := fun s : StoredWorld => Consistent s.world ∧
    s.world.controller.options.durable = options.durable) ⟨hstart, rfl⟩ fun x _ h => ?_).1
  exact ⟨h.1.next.of_controller next_controller, next_durable.trans h.2⟩

end StoredWorld

namespace Sample

/-- A token is to be minted, and the write of the commit comes short. -/
def tornMint : StoredCall where
  call := ⟨.mintAuthority .pod .nil 10,
    { env with commit := .failed ⟨.unavailable, "short write to file"⟩ false false }⟩
  tears := true

end Sample

end PodFabric
