import PodFabric.Proof.Stored

/-!
# Which tokens are accepted

A token is judged by its own fields and by the leases that have been revoked, and not by the tokens
that were minted (`unminted_token_accepted`). A revocation that succeeds, and a retirement that
succeeds, put their leases on the list, in memory and on disk, and no later call takes them off
again (`Struck`), so that no token with such a lease is accepted in the rest of the run
(`accepted_token`). On disk they are on the list only if the journal was whole when they were
committed.
-/

namespace PodFabric

/-! ## Revoked leases -/

/-- The lease is on the list of the revoked: in memory, unless the controller was rebuilt and is not
open yet, and on the disk of a durable controller. -/
structure Struck (rebuilt : Prop) (lease : LeaseId) (w : World) : Prop where
  consistent : Consistent w
  durable : rebuilt → w.controller.options.durable = true
  memory : (rebuilt → w.controller.isOpen = true) → lease ∈ w.controller.revoked
  disk : w.controller.options.durable = true → w.disk.pod ≠ .nil ∧ lease ∈ w.disk.revoked

/-- Closing leaves the revoked leases. -/
theorem close_revoked {c : PodController} {disk : DurableState} {env : Env} :
    (c.close disk env).controller.revoked = c.revoked := by
  unfold PodController.close
  split
  · rfl
  · dsimp only
    split <;> rfl

/-- The directory after a commit by the controller: it is as it was, or it recovers to the leases
that the controller has revoked. -/
def HoldsRevoked (c : PodController) (disk disk' : DurableState) : Prop :=
  disk' = disk ∨ (c.isOpen = true ∧ disk'.pod = c.options.pod ∧ ∀ lease ∈ c.revoked,
    lease ∈ disk'.revoked)

/-- What a call does to the revoked leases. -/
structure KeepsRevoked (w w' : World) : Prop where
  memory : ∀ lease ∈ w.controller.revoked, lease ∈ w'.controller.revoked
  disk : HoldsRevoked w.controller w.disk w'.disk

section Persist
variable {c c' : PodController} {disk disk' next : DurableState} {env : Env}
  {result : Result Unit}

/-- A round that is saved leaves the directory, or the state it saves. -/
theorem Persisted.disk_cases (h : Persisted c disk env next c' disk' result) :
    disk' = disk ∨ ∃ held, disk' = next.stamped held env.system := by
  cases h with
  | memory _ _ same => exact .inl same
  | committed held _ _ _ written => exact .inr ⟨held, written⟩
  | failed held _ _ _ _ _ written => exact written.imp_right fun h => ⟨held, h⟩

/-- A round that is saved keeps the revoked leases. -/
theorem Persisted.holdsRevoked (h : Persisted c disk env next c' disk' result)
    (hopen : c.isOpen = true) (hpod : next.pod = c.options.pod)
    (hrevoked : ∀ lease ∈ c.revoked, lease ∈ next.revoked) : HoldsRevoked c disk disk' := by
  rcases h.disk_cases with rfl | ⟨held, rfl⟩
  · exact .inl rfl
  · exact .inr ⟨hopen, hpod, hrevoked⟩

/-- Applying evidence keeps the revoked leases. -/
theorem Applied.keepsRevoked {evidence : PodSnapshot} {reply : Reply PodController.ApplyReport}
    (h : Applied c disk env evidence reply) :
    KeepsRevoked ⟨c, disk⟩ ⟨reply.controller, reply.disk⟩ := by
  cases h with
  | refused _ _ controller same =>
    rw [controller, same]
    exact ⟨fun _ h => h, .inl rfl⟩
  | unsaved _ _ isOpen _ persisted =>
    have hrevoked : reply.controller.revoked = c.revoked :=
      congrArg Memory.revoked persisted.memory_eq
    exact ⟨fun _ h => hrevoked ▸ h, persisted.holdsRevoked isOpen rfl fun _ h => h⟩
  | published _ c' isOpen _ persisted controller =>
    have hrevoked : c'.revoked = c.revoked := congrArg Memory.revoked persisted.memory_eq
    rw [controller]
    exact ⟨fun _ h => hrevoked ▸ h, persisted.holdsRevoked isOpen rfl fun _ h => h⟩

/-- Saving an override keeps the revoked leases. -/
theorem Saved.keepsRevoked {reply : Reply Unit} (h : Saved c disk env reply)
    (hopen : c.isOpen = true) : KeepsRevoked ⟨c, disk⟩ ⟨reply.controller, reply.disk⟩ := by
  obtain ⟨result, persisted, -⟩ := h
  have hrevoked : reply.controller.revoked = c.revoked :=
    congrArg Memory.revoked persisted.memory_eq
  exact ⟨fun _ h => hrevoked ▸ h, persisted.holdsRevoked hopen rfl fun _ h => h⟩

/-- Composing again keeps the revoked leases. -/
theorem Recomposed.keepsRevoked {reply : Reply Unit} (h : Recomposed c disk env reply)
    (hopen : c.isOpen = true) : KeepsRevoked ⟨c, disk⟩ ⟨reply.controller, reply.disk⟩ := by
  cases h with
  | composed _ round applied controller same =>
    rw [controller, same]
    exact applied.keepsRevoked
  | saved _ saved => exact saved.keepsRevoked hopen

end Persist

/-- No operation on a controller takes a lease off the list. -/
theorem World.keepsRevoked {w : World} {call : Call} (hop : call.op.operates = true) :
    KeepsRevoked w (w.next call) := by
  obtain ⟨c, disk⟩ := w
  obtain ⟨op, env⟩ := call
  have refused {α : Type} {reply : Reply α} (h : Refusal c disk reply) :
      KeepsRevoked ⟨c, disk⟩ ⟨reply.controller, reply.disk⟩ := by
    rw [h.controller, h.disk]
    exact ⟨fun _ h => h, .inl rfl⟩
  cases op with
  | «open» | close | restart => cases hop
  | apply evidence => exact (apply_applied c disk env evidence).keepsRevoked
  | setAdminState rack state =>
    rcases setAdminState_cases c disk env rack state with ⟨-, h⟩ | ⟨hopen, -, -, h⟩
    · exact refused h
    · exact ⟨(h.keepsRevoked hopen).memory, (h.keepsRevoked hopen).disk⟩
  | clearAdminState rack =>
    rcases clearAdminState_cases c disk env rack with ⟨-, h⟩ | ⟨hopen, -, h⟩
    · exact refused h
    · exact ⟨(h.keepsRevoked hopen).memory, (h.keepsRevoked hopen).disk⟩
  | retire =>
    rcases retire_cases c disk env with ⟨-, h⟩ | ⟨hopen, -, h⟩
    · exact refused h
    · have hkeeps := h.keepsRevoked hopen
      refine ⟨fun lease hl => hkeeps.memory lease (List.mem_append_left _ hl),
        hkeeps.disk.imp_right fun ⟨ho, hpod, hl⟩ => ⟨ho, hpod, fun lease h =>
          hl lease (List.mem_append_left _ h)⟩⟩
  | mintAuthority scope subject lifetime =>
    cases mintAuthority_minted c disk env scope subject lifetime with
    | refused _ refusal => exact refused refusal
    | reached isOpen _ _ _ _ _ _ _ _ c' persisted ends =>
      have hrevoked : c'.revoked = c.revoked := congrArg Memory.revoked persisted.memory_eq
      have hdisk := persisted.holdsRevoked isOpen rfl fun _ h => h
      refine ⟨fun lease hl => ?_, hdisk⟩
      change lease ∈ (c.mintAuthority disk env scope subject lifetime).controller.revoked
      rcases ends with ⟨_, -, hcontroller, -⟩ | ⟨-, hcontroller, -⟩ <;> rw [hcontroller]
      · exact hrevoked ▸ hl
      · exact hrevoked ▸ hl
  | revokeAuthority lease =>
    rcases revokeAuthority_cases c disk env lease with ⟨-, h⟩ | ⟨hopen, -, -, _, c',
      persisted, ends⟩
    · exact refused h
    · have hrevoked : c'.revoked = c.revoked ++ [lease] :=
        congrArg Memory.revoked persisted.memory_eq
      have hdisk := persisted.holdsRevoked hopen rfl fun _ h => h
      refine ⟨fun lease' hl => ?_, hdisk.imp_right fun ⟨ho, hpod, hl⟩ => ⟨ho, hpod,
        fun lease' h => hl lease' (List.mem_append_left _ h)⟩⟩
      change lease' ∈ (c.revokeAuthority disk env lease).controller.revoked
      have hmem : lease' ∈ c'.revoked := hrevoked ▸ List.mem_append_left _ hl
      rcases ends with ⟨_, -, hcontroller, -⟩ | ⟨-, hcontroller, -⟩ <;> rw [hcontroller]
      · exact hmem
      · exact hmem

/-- An operation leaves the world open or closed, with its options. -/
theorem World.steady {w : World} {call : Call} (hop : call.op.operates = true) :
    (w.next call).controller.isOpen = w.controller.isOpen ∧
      (w.next call).controller.options = w.controller.options := by
  cases w.stepped call hop with
  | published _ _ _ _ _ _ publishes => exact ⟨publishes.isOpen, publishes.options⟩
  | unsaved _ _ _ _ same => exact ⟨same.isOpen, same.options⟩
  | idle _ same => exact ⟨same.isOpen, same.options⟩

section Strike
variable {rebuilt : Prop} {lease : LeaseId} {w : World} {call : Call}

/-- A struck lease stays struck. -/
theorem Struck.next (h : Struck rebuilt lease w) (hrestart : call.op = .restart → rebuilt) :
    Struck rebuilt lease (w.next call) := by
  have hconsistent : Consistent (w.next call) := h.consistent.next
  have hdurable : rebuilt → (w.next call).controller.options.durable = true := fun hr =>
    (World.next_durable w call).trans (h.durable hr)
  by_cases hop : call.op.operates = true
  · obtain ⟨hopen, hoptions⟩ := @World.steady w call hop
    obtain ⟨hmemory, hdisk⟩ := @World.keepsRevoked w call hop
    refine ⟨hconsistent, hdurable, fun ho => hmemory lease (h.memory fun hr => hopen ▸ ho hr),
      fun hd => ?_⟩
    rw [hoptions] at hd
    rcases hdisk with hsame | ⟨ho, hpod, hrevoked⟩
    · exact hsame ▸ h.disk hd
    · exact ⟨hpod ▸ h.consistent.identity ho, hrevoked lease (h.memory fun _ => ho)⟩
  · obtain ⟨c, disk⟩ := w
    obtain ⟨op, env⟩ := call
    cases op with
    | «open» =>
      change Struck rebuilt lease ⟨(c.«open» disk env).controller, (c.«open» disk env).disk⟩
      cases open_opened c disk env with
      | refused refusal =>
        rw [refusal.controller, refusal.disk]
        exact h
      | failed durable _ closed revoked same =>
        obtain ⟨hpod, hlease⟩ := h.disk durable
        refine ⟨hconsistent, hdurable, fun ho => ?_, fun _ =>
          ⟨same.pod ▸ hpod, same.revoked ▸ hlease⟩⟩
        have hnot : ¬ rebuilt := fun hr => by simpa [closed] using ho hr
        rcases revoked with hr | hr <;> rw [hr]
        · exact h.memory fun hr => absurd hr hnot
        · exact hlease
      | fresh _ _ _ _ store memory =>
        have hnot : c.options.durable = false := by
          cases hd : c.options.durable with
          | false => rfl
          | true => exact absurd (store hd).1 (h.disk hd).1
        have hlost : ¬ rebuilt := fun hr =>
          absurd (hnot.symm.trans (h.durable hr)) (by simp)
        refine ⟨hconsistent, hdurable, fun _ => ?_, fun hd => ?_⟩
        · have hrevoked : (c.«open» disk env).controller.revoked = c.revoked :=
            congrArg Memory.revoked memory
          exact hrevoked ▸ h.memory fun hr => absurd hr hlost
        · have hsame := World.next_durable ⟨c, disk⟩ ⟨.«open», env⟩
          exact absurd (hsame.symm.trans hd) (by simp [hnot])
      | recovered _ durable _ _ _ recovered same =>
        obtain ⟨hpod, hlease⟩ := h.disk durable
        exact ⟨hconsistent, hdurable, fun _ => recovered.revoked ▸ hlease, fun _ =>
          ⟨same.pod ▸ hpod, same.revoked ▸ hlease⟩⟩
    | close =>
      obtain ⟨-, -, hoptions, hclosed, hdisk⟩ := @close_standing c disk env
      change Struck rebuilt lease ⟨(c.close disk env).controller, (c.close disk env).disk⟩
      refine ⟨hconsistent, hdurable, fun ho => ?_, fun hd => ?_⟩
      · have hnot : ¬ rebuilt := fun hr => by simpa [hclosed] using ho hr
        have hrevoked : (c.close disk env).controller.revoked = c.revoked := close_revoked
        exact hrevoked ▸ h.memory fun hr => absurd hr hnot
      · rw [hoptions] at hd
        rw [hdisk]
        exact h.disk hd
    | restart =>
      have hr : rebuilt := hrestart rfl
      exact ⟨hconsistent, hdurable, fun ho => (by cases ho hr), fun _ => h.disk (h.durable hr)⟩
    | apply _ | setAdminState _ _ | clearAdminState _ | retire | mintAuthority _ _ _
    | revokeAuthority _ => exact absurd rfl hop

/-- The call succeeds in withdrawing the lease: it revokes it, or it retires the pod while a live
token has it. -/
def Withdraws (w : World) (call : Call) (lease : LeaseId) : Prop :=
  (w.answer call).ok = true ∧ (call.op = .revokeAuthority lease ∨
    (call.op = .retire ∧ ∃ token ∈ w.controller.tokens, token.lease = lease))

/-- A withdrawn lease is struck. -/
theorem Struck.of_withdraws (hw : Consistent w)
    (hdurable : rebuilt → w.controller.options.durable = true) (h : Withdraws w call lease) :
    Struck rebuilt lease (w.next call) := by
  have hconsistent : Consistent (w.next call) := hw.next
  have hdurable' : rebuilt → (w.next call).controller.options.durable = true := fun hr =>
    (World.next_durable w call).trans (hdurable hr)
  obtain ⟨c, disk⟩ := w
  obtain ⟨op, env⟩ := call
  obtain ⟨hok, rfl | ⟨rfl, token, htoken, rfl⟩⟩ := h
  · have hresult : (c.revokeAuthority disk env lease).result.isOk = true :=
      (Reply.step_ok fun _ => rfl).symm.trans hok
    rcases revokeAuthority_cases c disk env lease with
      ⟨-, h⟩ | ⟨hopen, -, -, result, c', persisted, ends⟩
    · rw [h.isOk] at hresult
      cases hresult
    rcases ends with ⟨status, -, -, herror⟩ | ⟨rfl, hcontroller, -⟩
    · rw [herror] at hresult
      cases hresult
    have hrevoked : c'.revoked = c.revoked ++ [lease] := congrArg Memory.revoked persisted.memory_eq
    refine ⟨hconsistent, hdurable', fun _ => ?_, fun hd => ?_⟩
    · change lease ∈ (c.revokeAuthority disk env lease).controller.revoked
      rw [hcontroller]
      exact hrevoked ▸ List.mem_append_right _ (by simp)
    · rw [World.next_durable] at hd
      obtain ⟨held, hdisk⟩ := persisted.durable (hw.store hopen hd)
      change (c.revokeAuthority disk env lease).disk.pod ≠ .nil ∧
        lease ∈ (c.revokeAuthority disk env lease).disk.revoked
      rw [hdisk]
      exact ⟨hw.identity hopen, List.mem_append_right _ (by simp)⟩
  · have hresult : (c.retire disk env).result.isOk = true :=
      (Reply.step_ok fun _ => rfl).symm.trans hok
    rcases retire_cases c disk env with ⟨-, h⟩ | ⟨hopen, -, result, persisted, hres⟩
    · rw [h.isOk] at hresult
      cases hresult
    have hmem : token.lease ∈ c.retiring.revoked :=
      List.mem_append_right _ (List.mem_map.2 ⟨token, htoken, rfl⟩)
    have hrevoked : (c.retire disk env).controller.revoked = c.retiring.revoked :=
      congrArg Memory.revoked persisted.memory_eq
    refine ⟨hconsistent, hdurable', fun _ => ?_, fun hd => ?_⟩
    · exact hrevoked ▸ hmem
    · rw [World.next_durable] at hd
      have hdone : result = .ok () := by
        rw [hres] at hresult
        cases result with
        | ok _ => rfl
        | error status => cases hresult
      obtain ⟨held, hdisk⟩ := (hdone ▸ persisted).durable (hw.store hopen hd)
      change (c.retire disk env).disk.pod ≠ .nil ∧ token.lease ∈ (c.retire disk env).disk.revoked
      rw [hdisk]
      exact ⟨hw.identity hopen, hmem⟩

end Strike

/-- Whether a lease is struck depends on that side's state only. -/
theorem Struck.perSide {rebuilt : Prop} {lease : LeaseId} : PerSide (Struck rebuilt lease) := by
  intro w w' h hsame hw
  refine ⟨h.consistent.of_controller rfl, h.durable, h.memory, ?_⟩
  intro hdurable
  exact (hw hdurable).disk (hsame.trans hdurable)

/-! ## Accepted tokens -/

/-- The beginning of the lease window, as an inequality of integers: where the difference wraps, the
lease began long before any clock reading. -/
theorem lease_begun {issued skew now : Nanos} (hskew : 0 ≤ skew) (h : issued - skew ≤ now) :
    issued.toInt ≤ now.toInt + skew.toInt := by
  rw [Int64.le_iff_toInt_le] at hskew h
  rw [Int64.toInt_sub] at h
  have hi := issued.le_toInt
  have hn := now.le_toInt
  have hs := skew.toInt_lt
  have hi' := issued.toInt_lt
  have hs' : 0 ≤ skew.toInt := hskew
  rw [Int.bmod_def] at h
  omega

/-- **Which tokens are accepted.** In every state of every run, a token that `check_authority`
accepts has a lease and a pod; its pod, its incarnation and its epoch are the controller's own; the
clock is within its lease, up to the skew at the beginning; its scope and its subject cover the
request; and no call of the run has withdrawn its lease, neither by revoking it nor by retiring the
pod while a live token had it, unless the withdrawal was committed behind a torn record of a durable
pod's journal. A controller that was rebuilt has to be durable and open to know what its
predecessors withdrew. -/
theorem accepted_token {options : ControllerOptions} {disk : DurableState} {torn : Bool}
    {calls : List StoredCall} {now : Nanos} {token : AuthorityToken} {scope : AuthorityScope}
    {subject : RackId}
    (hkept : (∀ call ∈ calls, call.call.op ≠ .restart) ∨ (options.durable = true ∧
      ((StoredWorld.start options disk torn).run calls).world.controller.isOpen = true))
    (h : (((StoredWorld.start options disk torn).run calls).world.controller.checkAuthority now
      token scope subject).valid = true) :
    let c := ((StoredWorld.start options disk torn).run calls).world.controller
    (token.lease ≠ .nil ∧ token.pod ≠ .nil ∧ token.pod = c.options.pod ∧
      token.incarnation = c.incarnation ∧ token.epoch = c.epoch) ∧
    (token.issuedAt < token.expiresAt ∧ now ≤ token.expiresAt ∧
      (0 ≤ c.options.policy.clockSkew →
        token.issuedAt.toInt ≤ now.toInt + c.options.policy.clockSkew.toInt)) ∧
    ((token.scope = .pod ∨ token.scope = scope) ∧
      (subject = .nil ∨ token.scope = .pod ∨ token.subject = subject)) ∧
    ∀ x ∈ (StoredWorld.start options disk torn).trace calls,
      (options.durable = true → x.1.keeps x.2 = true) →
        ¬ Withdraws x.1.world x.2.call token.lease := by
  intro c
  unfold PodController.checkAuthority at h
  dsimp only at h
  split at h
  · next hinvalid => exact absurd h hinvalid
  next hvalid =>
  split at h
  · cases h
  next hsubject =>
  have hadmitted := validateToken_valid_iff.1 (not_not.1 hvalid)
  refine ⟨⟨hadmitted.lease, hadmitted.pod, hadmitted.samePod, hadmitted.sameIncarnation,
    hadmitted.sameEpoch⟩, ⟨hadmitted.window, hadmitted.unexpired, fun hskew =>
      lease_begun hskew hadmitted.begun⟩, ⟨hadmitted.covered rfl, by tauto⟩,
        fun x hx hwhole hwithdraws => ?_⟩
  obtain ⟨front, back, htrace⟩ := List.append_of_mem hx
  obtain ⟨hconsistent, hdurable⟩ := StoredWorld.trace_consistent x hx
  have hstruck : Struck (∃ call ∈ calls, call.call.op = .restart) token.lease
      (x.1.next x.2).world := by
    refine StoredWorld.next_begins Struck.perSide (.of_withdraws hconsistent ?_ hwithdraws)
      fun hd => hwhole (hdurable.symm.trans hd)
    rintro ⟨call, hcall, hop⟩
    rcases hkept with hnone | ⟨hd, -⟩
    · exact absurd hop (hnone call hcall)
    · exact hdurable.trans hd
  -- the lease stays on the list from the call that withdrew it to the end of the run
  have hfinal := Run.final_of_trace (P := fun s : StoredWorld =>
    Struck (∃ call ∈ calls, call.call.op = .restart) token.lease s.world) htrace hstruck
    fun y hy hs => StoredWorld.next_stands Struck.perSide hs (hs.next fun hop => by
      have hy' : y ∈ (StoredWorld.start options disk torn).trace calls := by simp [htrace, hy]
      exact ⟨y.2, Run.call_of_trace hy', hop⟩)
  refine hadmitted.unrevoked (hfinal.memory fun ⟨call, hcall, hop⟩ => ?_)
  rcases hkept with hnone | ⟨-, hopen⟩
  · exact absurd hop (hnone call hcall)
  · exact hopen

namespace Sample

/-- A token of pod scope is minted, and the next one cannot be. -/
def mintedCalls : List StoredCall :=
  [{ call := ⟨.«open», env⟩ }, { call := ⟨.mintAuthority .pod .nil 10, env⟩ }, tornMint]

/-- The sample controller after these calls. -/
def minted : StoredWorld := (StoredWorld.start (options true) {} true).run mintedCalls

/-- A token of pod scope with all its fields made up by a client of the sample controller. -/
def forged : AuthorityToken where
  lease := idOf "lease-forged"
  pod := snapshot.pod
  epoch := ⟨0⟩
  incarnation := ⟨uuid⟩
  scope := .pod
  issuedAt := 100
  expiresAt := 200

end Sample

/-- A token that was minted is accepted while its lease runs: the durable controller was opened over
a journal that is torn, and has torn it again after the token was minted. -/
theorem minted_token_accepted : ∃ token ∈ Sample.minted.world.controller.tokens,
    (Sample.minted.world.controller.checkAuthority 105 token .pod .nil).valid = true ∧
      token.epoch = Sample.minted.world.controller.epoch ∧
      ¬ ∃ x ∈ (StoredWorld.start (Sample.options true) {} true).trace Sample.mintedCalls,
        x.1.keeps x.2 = true ∧ Withdraws x.1.world x.2.call token.lease := by
  have hvalid : ∃ token ∈ Sample.minted.world.controller.tokens,
      (Sample.minted.world.controller.checkAuthority 105 token .pod .nil).valid = true := by
    decide +kernel
  obtain ⟨token, htoken, hvalid⟩ := hvalid
  have h := @accepted_token (Sample.options true) {} true Sample.mintedCalls 105 token .pod .nil
    (.inl (by simp [Sample.mintedCalls, Sample.tornMint])) hvalid
  refine ⟨token, htoken, hvalid, h.1.2.2.2.2, ?_⟩
  rintro ⟨x, hx, hkept, hw⟩
  exact h.2.2.2 x hx (fun _ => hkept) hw

/-- A token that nobody minted is accepted, even by a pod that is retired. -/
theorem unminted_token_accepted : ¬ ∀ (options : ControllerOptions) (disk : DurableState)
    (torn : Bool) (calls : List StoredCall) (now : Nanos) (token : AuthorityToken)
    (scope : AuthorityScope) (subject : RackId), (∀ call ∈ calls, call.call.op ≠ .restart) →
    (((StoredWorld.start options disk torn).run calls).world.controller.checkAuthority now token
      scope subject).valid = true →
    (∃ x ∈ (StoredWorld.start options disk torn).trace calls, x.1.answer x.2 = .granted token) ∧
      ∀ x ∈ (StoredWorld.start options disk torn).trace calls, x.2.call.op = .retire →
        (x.1.answer x.2).ok = false := by
  intro hclaim
  let calls : List StoredCall :=
    [{ call := ⟨.«open», Sample.env⟩ }, { call := ⟨.retire, Sample.env⟩ }]
  obtain ⟨⟨x, hx, hgranted⟩, -⟩ := hclaim (Sample.options false) {} false calls 105 Sample.forged
    .pod .nil (by simp [calls]) (by decide +kernel)
  have hnone : ∀ x ∈ (StoredWorld.start (Sample.options false) {} false).trace calls,
      x.1.answer x.2 = .done := by decide +kernel
  rw [hnone x hx] at hgranted
  cases hgranted

end PodFabric
