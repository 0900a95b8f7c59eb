import PodFabric.Proof.Failure

/-!
# What the operations leave alone

An operation on an open controller is made of a few steps: it changes an override, a fencing value,
the revoked leases or the tokens, retires the pod, commits, or publishes a round. A relation between
worlds that can be composed and that each of these steps is in is one that every operation is in
(`Steps.next`).
-/

namespace PodFabric

/-- The relation is composed of the steps of the operations. -/
structure Steps (R : World → World → Prop) : Prop where
  refl (w : World) : R w w
  trans {w w' w'' : World} : R w w' → R w' w'' → R w w''
  overrides (c : PodController) (disk : DurableState) (o : OrderedMap RackId AdminState) :
    R ⟨c, disk⟩ ⟨{ c with adminOverrides := o }, disk⟩
  fencing (c : PodController) (disk : DurableState) (f : FencingSequence) :
    R ⟨c, disk⟩ ⟨{ c with fencing := f }, disk⟩
  revoked (c : PodController) (disk : DurableState) (leases : List LeaseId) :
    R ⟨c, disk⟩ ⟨{ c with revoked := leases }, disk⟩
  tokens (c : PodController) (disk : DurableState) (tokens : List AuthorityToken) :
    R ⟨c, disk⟩ ⟨{ c with tokens := tokens }, disk⟩
  retiring (c : PodController) (disk : DurableState) : R ⟨c, disk⟩ ⟨c.retiring, disk⟩
  persisted {c c' : PodController} {disk disk' : DurableState} {env : Env} {composed : PodState}
    {expectations : List MemberExpectation} {tokens : List AuthorityToken} {revoked : List LeaseId}
    {writtenAt : Nanos} {result : Result Unit} :
    Persisted c disk env (c.durableState composed expectations tokens revoked writtenAt) c' disk'
      result → R ⟨c, disk⟩ ⟨c', disk'⟩
  published (c : PodController) (disk : DurableState) (request : CompositionRequest)
    (composed : PodState) (derived : List MemberExpectation) (surviving : List AuthorityToken) :
    R ⟨c, disk⟩ ⟨c.published request composed derived surviving, disk⟩

namespace Steps
variable {R : World → World → Prop} {c : PodController} {disk : DurableState} {env : Env}
  {w : World} {call : Call}

/-- A relation that every step keeps holds over a refused call. -/
theorem refusal {α : Type} {reply : Reply α} (h : Steps R) (hrefusal : Refusal c disk reply) :
    R ⟨c, disk⟩ ⟨reply.controller, reply.disk⟩ := by
  rw [hrefusal.controller, hrefusal.disk]
  exact h.refl _

/-- A relation that every step keeps holds over an application. -/
theorem applied {evidence : PodSnapshot} {reply : Reply PodController.ApplyReport} (h : Steps R)
    (happlied : Applied c disk env evidence reply) :
    R ⟨c, disk⟩ ⟨reply.controller, reply.disk⟩ := by
  cases happlied with
  | refused _ _ controller disk =>
    rw [controller, disk]
    exact h.refl _
  | unsaved _ _ _ _ persisted => exact h.persisted persisted
  | published composed c' _ _ persisted controller =>
    rw [controller]
    exact h.trans (h.persisted persisted) (h.published ..)

/-- A relation that every step keeps holds over a saved override. -/
theorem saved {reply : Reply Unit} (h : Steps R) (hsaved : Saved c disk env reply) :
    R ⟨c, disk⟩ ⟨reply.controller, reply.disk⟩ := by
  obtain ⟨_, persisted, -⟩ := hsaved
  exact h.persisted persisted

/-- A relation that every step keeps holds over a new composition. -/
theorem recomposed {reply : Reply Unit} (h : Steps R) (hrecomposed : Recomposed c disk env reply) :
    R ⟨c, disk⟩ ⟨reply.controller, reply.disk⟩ := by
  cases hrecomposed with
  | composed _ round applied controller disk =>
    rw [controller, disk]
    exact h.applied applied
  | saved _ saved => exact h.saved saved

/-- Every operation on the controller is in the relation. -/
theorem next (h : Steps R) (hop : call.op.operates = true) : R w (w.next call) := by
  obtain ⟨c, disk⟩ := w
  obtain ⟨op, env⟩ := call
  cases op with
  | «open» | close | restart => cases hop
  | apply evidence => exact h.applied (apply_applied c disk env evidence)
  | setAdminState rack state =>
    rcases setAdminState_cases c disk env rack state with ⟨-, hrefusal⟩ | ⟨-, -, -, hrecomposed⟩
    · exact h.refusal hrefusal
    · exact h.trans (h.overrides c disk _) (h.recomposed hrecomposed)
  | clearAdminState rack =>
    rcases clearAdminState_cases c disk env rack with ⟨-, hrefusal⟩ | ⟨-, -, hrecomposed⟩
    · exact h.refusal hrefusal
    · exact h.trans (h.overrides c disk _) (h.recomposed hrecomposed)
  | retire =>
    rcases retire_cases c disk env with ⟨-, hrefusal⟩ | ⟨-, -, hsaved⟩
    · exact h.refusal hrefusal
    · exact h.trans (h.retiring c disk) (h.saved hsaved)
  | mintAuthority scope subject lifetime =>
    have hnext : World.next ⟨c, disk⟩ ⟨.mintAuthority scope subject lifetime, env⟩ =
      ⟨(c.mintAuthority disk env scope subject lifetime).controller,
        (c.mintAuthority disk env scope subject lifetime).disk⟩ := rfl
    rw [hnext]
    cases mintAuthority_minted c disk env scope subject lifetime with
    | refused _ refusal => exact h.refusal refusal
    | reached _ id _ expiresAt _ _ fencing _ result c' persisted ends =>
      have htaken := h.trans (h.fencing c disk fencing) (h.persisted persisted)
      rcases ends with ⟨_, -, hcontroller, -⟩ | ⟨-, hcontroller, -⟩
      · rw [hcontroller]
        exact htaken
      · rw [hcontroller]
        exact h.trans htaken (h.tokens ..)
  | revokeAuthority lease =>
    have hnext : World.next ⟨c, disk⟩ ⟨.revokeAuthority lease, env⟩ =
      ⟨(c.revokeAuthority disk env lease).controller, (c.revokeAuthority disk env lease).disk⟩ :=
        rfl
    rw [hnext]
    rcases revokeAuthority_cases c disk env lease with
      ⟨-, hrefusal⟩ | ⟨-, -, -, _, c', persisted, ends⟩
    · exact h.refusal hrefusal
    · have htaken := h.trans (h.revoked c disk (c.revoked ++ [lease])) (h.persisted persisted)
      rcases ends with ⟨_, -, hcontroller, -⟩ | ⟨-, hcontroller, -⟩
      · rw [hcontroller]
        exact htaken
      · rw [hcontroller]
        exact h.trans htaken (h.tokens ..)

end Steps

end PodFabric
