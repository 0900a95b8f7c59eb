import PodFabric.Proof.Calls

/-!
# Failed calls

What a call that returns an error leaves behind. Requests for rounds and for tokens change nothing
until they are committed. The other operations change the controller before a step that can still
fail, so that their failure leaves no trace exactly when the request was refused at its first checks
or asked for what was there already (`failed_call_iff`).
-/

namespace PodFabric

/-! ## Requests -/

/-- The operations on an open controller. -/
def Op.operates : Op → Bool
  | .«open» | .close | .restart => false
  | _ => true

/-- The first checks of the operation refuse it. -/
def Op.refusedBy (c : PodController) : Op → Prop
  | .setAdminState rack _ => c.isOpen = false ∨ rack = .nil ∨ c.lifecycle = .retired
  | .clearAdminState _ => c.isOpen = false ∨ c.lifecycle = .retired
  | .retire => c.isOpen = false ∨ c.lifecycle = .retired
  | .revokeAuthority lease => c.isOpen = false ∨ lease = .nil ∨ lease ∈ c.revoked
  | _ => c.isOpen = false

/-- A failure of the operation cannot show: it changes nothing before its last step, its first
checks refuse it, or the override is already as requested. -/
def Op.traceless (c : PodController) (op : Op) : Prop :=
  match op with
  | .setAdminState rack state => op.refusedBy c ∨ c.adminOverrides.find? rack = some state
  | .clearAdminState rack => op.refusedBy c ∨ c.adminOverrides.find? rack = none
  | .retire | .revokeAuthority _ => op.refusedBy c
  | _ => True

/-! ## Failures -/

section Failure
variable {c : PodController} {disk : DurableState} {env : Env}

/-- A round that fails changes nothing a client sees. -/
theorem Applied.memory_of_error {evidence : PodSnapshot} {reply : Reply PodController.ApplyReport}
    {fault : Fault} (h : Applied c disk env evidence reply) (he : reply.result = .error fault) :
    reply.controller.memory = c.memory := by
  cases h with
  | refused _ _ controller => rw [controller]
  | unsaved _ _ _ _ persisted => exact persisted.memory_eq
  | published _ _ _ _ _ _ ok => rw [ok] at he; cases he

/-- A change of the overrides that fails has changed the overrides. -/
theorem Recomposed.memory_of_error {reply : Reply Unit} {fault : Fault}
    (h : Recomposed c disk env reply) (he : reply.result = .error fault) :
    reply.controller.memory = c.memory := by
  cases h with
  | composed _ round applied controller _ result =>
    rw [controller]
    cases hr : round.result with
    | error fault' => exact applied.memory_of_error hr
    | ok report => rw [result, hr] at he; cases he
  | saved _ saved =>
    obtain ⟨result, persisted, -⟩ := saved
    exact persisted.memory_eq

/-- A failed override leaves the memory when it fails before it changes it. -/
theorem setAdminState_error_iff {rack : RackId} {state : AdminState} {fault : Fault}
    (he : (c.setAdminState disk env rack state).result = .error fault) :
    (c.setAdminState disk env rack state).controller.memory = c.memory ↔
      (Op.setAdminState rack state).traceless c := by
  rcases setAdminState_cases c disk env rack state with ⟨hwhy, hrefusal⟩ | ⟨hopen, hrack,
    hlife, hrecomposed⟩
  · exact ⟨fun _ => .inl hwhy, fun _ => by rw [hrefusal.controller]⟩
  have hmemory := hrecomposed.memory_of_error he
  have hrefused : ¬ (Op.setAdminState rack state).refusedBy c := by
    simp [Op.refusedBy, hopen, hrack, hlife]
  rw [hmemory]
  constructor
  · intro h
    have hoverrides : c.adminOverrides.insert rack state = c.adminOverrides :=
      congrArg Memory.adminOverrides h
    exact .inr (hoverrides ▸ OrderedMap.find?_insert_self)
  · rintro (h | h)
    · exact absurd h hrefused
    · simp only [PodController.memory, OrderedMap.insert_eq_self h]

/-- A failed clearing leaves the memory when it fails before it changes it. -/
theorem clearAdminState_error_iff {rack : RackId} {fault : Fault}
    (he : (c.clearAdminState disk env rack).result = .error fault) :
    (c.clearAdminState disk env rack).controller.memory = c.memory ↔
      (Op.clearAdminState rack).traceless c := by
  rcases clearAdminState_cases c disk env rack with ⟨hwhy, hrefusal⟩ | ⟨hopen, hlife, hrecomposed⟩
  · exact ⟨fun _ => .inl hwhy, fun _ => by rw [hrefusal.controller]⟩
  have hmemory := hrecomposed.memory_of_error he
  have hrefused : ¬ (Op.clearAdminState rack).refusedBy c := by
    simp [Op.refusedBy, hopen, hlife]
  rw [hmemory]
  constructor
  · intro h
    have hoverrides : c.adminOverrides.erase rack = c.adminOverrides :=
      congrArg Memory.adminOverrides h
    exact .inr (hoverrides ▸ OrderedMap.find?_erase_self)
  · rintro (h | h)
    · exact absurd h hrefused
    · simp only [PodController.memory, OrderedMap.erase_eq_self h]

/-- A retirement that passes its checks retires the pod, whether or not it is committed. -/
theorem retire_memory_iff : (c.retire disk env).controller.memory = c.memory ↔
    Op.retire.traceless c := by
  rcases retire_cases c disk env with ⟨hwhy, hrefusal⟩ | ⟨hopen, hlife, result, persisted, -⟩
  · exact ⟨fun _ => hwhy, fun _ => by rw [hrefusal.controller]⟩
  rw [persisted.memory_eq]
  constructor
  · intro h
    exact absurd (congrArg Memory.lifecycle h).symm hlife
  · rintro (h | h)
    · simp [hopen] at h
    · exact absurd h hlife

/-- A failed revocation leaves the memory when it fails before it changes it. -/
theorem revokeAuthority_error_iff {lease : LeaseId} {fault : Fault}
    (he : (c.revokeAuthority disk env lease).result = .error fault) :
    (c.revokeAuthority disk env lease).controller.memory = c.memory ↔
      (Op.revokeAuthority lease).traceless c := by
  rcases revokeAuthority_cases c disk env lease with ⟨hwhy, hrefusal⟩ | ⟨hopen, hlease, hnew,
    result, c', persisted, hends⟩
  · exact ⟨fun _ => hwhy, fun _ => by rw [hrefusal.controller]⟩
  rcases hends with ⟨status, -, hcontroller, -⟩ | ⟨-, -, hok⟩
  · rw [hcontroller, persisted.memory_eq]
    constructor
    · intro h
      have hrevoked : c.revoked ++ [lease] = c.revoked := congrArg Memory.revoked h
      simp at hrevoked
    · rintro (h | h | h)
      · simp [hopen] at h
      · exact absurd h hlease
      · exact absurd h hnew
  · rw [hok] at he
    cases he

/-- A failed grant leaves the memory. -/
theorem mintAuthority_error {scope : AuthorityScope} {subject : RackId} {lifetime : Nanos}
    {fault : Fault} (he : (c.mintAuthority disk env scope subject lifetime).result = .error fault) :
    (c.mintAuthority disk env scope subject lifetime).controller.memory = c.memory := by
  cases mintAuthority_minted c disk env scope subject lifetime with
  | refused _ refusal => rw [refusal.controller]
  | reached _ _ _ _ _ _ _ _ _ _ persisted ends =>
    rcases ends with ⟨status, -, hcontroller, -⟩ | ⟨-, -, hok⟩
    · rw [hcontroller]
      exact persisted.memory_eq
    · rw [hok] at he
      cases he

end Failure

/-- A failed step comes from a failed reply. -/
theorem Reply.step_failed {α : Type} {answer : α → Answer} {reply : Reply α} {fault : Fault}
    (hanswer : ∀ a, (answer a).ok = true) (h : (reply.step answer).2 = .failed fault) :
    reply.result = .error fault := by
  unfold Reply.step at h
  split at h
  · next value _ =>
    have := hanswer value
    simp only at h
    rw [h] at this
    cases this
  · next fault' hr =>
    simp only [Answer.failed.injEq] at h
    rw [hr, h]

/-- **When a failed call leaves no trace.** A call that returns an error leaves the lifecycle, the
epoch, the state, the expectations, the overrides, the tokens and the revoked leases as they were if
and only if it is a request for a round or a token, its first checks refuse it, or it asks for an
override that is as requested already. -/
theorem failed_call_iff {w : World} {call : Call} {status : Status}
    (hop : call.op.operates = true) (h : w.answer call = .failed (.status status)) :
    (w.next call).controller.memory = w.controller.memory ↔ call.op.traceless w.controller := by
  obtain ⟨c, disk⟩ := w
  obtain ⟨op, env⟩ := call
  cases op with
  | «open» | close | restart => cases hop
  | apply evidence =>
    exact iff_of_true ((apply_applied ..).memory_of_error (Reply.step_failed (fun _ => rfl) h))
      trivial
  | setAdminState rack state => exact setAdminState_error_iff (Reply.step_failed (fun _ => rfl) h)
  | clearAdminState rack => exact clearAdminState_error_iff (Reply.step_failed (fun _ => rfl) h)
  | retire => exact retire_memory_iff
  | mintAuthority scope subject lifetime =>
    exact iff_of_true (mintAuthority_error (Reply.step_failed (fun _ => rfl) h)) trivial
  | revokeAuthority lease => exact revokeAuthority_error_iff (Reply.step_failed (fun _ => rfl) h)

/-- A retirement whose commit fails has retired the pod. -/
theorem failed_retirement_shows : ¬ ∀ (w : World) (call : Call) (status : Status),
    call.op.operates = true → w.answer call = .failed (.status status) →
      (w.next call).controller.memory = w.controller.memory := by
  intro h
  have hsame := h (Sample.world true) ⟨.retire, Sample.failing⟩
    ⟨.unavailable, "the disk is full"⟩ rfl (by decide +kernel)
  exact absurd hsame (by decide +kernel)

/-- An override that is already as requested survives the failure of the request. -/
theorem failed_override_hidden :
    let w := (Sample.world true).next ⟨.setAdminState Sample.rackA .draining, Sample.env⟩
    let call : Call := ⟨.setAdminState Sample.rackA .draining, Sample.failing⟩
    (w.next call).controller.memory = w.controller.memory := by
  intro w call
  exact (@failed_call_iff w call ⟨.unavailable, "the disk is full"⟩ rfl (by decide +kernel)).2
    (.inr (by decide +kernel))

end PodFabric
