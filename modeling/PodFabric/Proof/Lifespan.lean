import PodFabric.Proof.Aftermath
import PodFabric.Proof.Tokens

/-!
# The life of a token

Within the incarnation that granted it, a token is accepted for as long as its lease lasts, up to
the first call that strikes its lease, whether or not this call can commit, or to the first round
that adopts a generation (`granted_token_accepted_iff`). Nothing else ends its life: not the rounds
that adopt nothing, nor the calls on other leases or overrides, successful or not.
-/

namespace PodFabric

/-! ## Struck leases -/

/-- The call strikes the lease: it asks for its revocation, or retires the pod while a live token
has it. What becomes of the commit does not matter. -/
inductive Strikes (w : World) (call : Call) (lease : LeaseId) : Prop
  | revoking (op : call.op = .revokeAuthority lease) (isOpen : w.controller.isOpen = true)
      (named : lease ≠ .nil)
  | retiring (op : call.op = .retire) (isOpen : w.controller.isOpen = true)
      (live : w.controller.lifecycle ≠ .retired)
      (held : ∃ token ∈ w.controller.tokens, token.lease = lease)

section Calls
variable {c : PodController} {disk : DurableState} {env : Env} {evidence : PodSnapshot}
  {w : World} {call : Call} {lease : LeaseId}

/-- Applying evidence revokes nothing. -/
theorem Applied.revoked_eq {reply : Reply PodController.ApplyReport}
    (h : Applied c disk env evidence reply) : reply.controller.revoked = c.revoked := by
  cases h with
  | refused _ _ controller => rw [controller]
  | unsaved _ _ _ _ persisted => exact congrArg Memory.revoked persisted.memory_eq
  | published _ c' _ _ persisted controller =>
    rw [controller]
    exact congrArg Memory.revoked persisted.memory_eq

/-- Composing again revokes nothing. -/
theorem Recomposed.revoked_eq {reply : Reply Unit} (h : Recomposed c disk env reply) :
    reply.controller.revoked = c.revoked := by
  cases h with
  | composed _ _ applied controller => exact controller ▸ applied.revoked_eq
  | saved _ saved =>
    obtain ⟨result, persisted, -⟩ := saved
    exact congrArg Memory.revoked persisted.memory_eq

/-- The leases revoked after a call are those from before, and the ones that it strikes. -/
theorem World.mem_revoked_next (hop : call.op.operates = true) :
    lease ∈ (w.next call).controller.revoked ↔
      lease ∈ w.controller.revoked ∨ Strikes w call lease := by
  obtain ⟨c, disk⟩ := w
  obtain ⟨op, env⟩ := call
  have kept {c' : PodController} (hrevoked : c'.revoked = c.revoked)
      (hnot : ¬ Strikes ⟨c, disk⟩ ⟨op, env⟩ lease) :
      lease ∈ c'.revoked ↔ lease ∈ c.revoked ∨ Strikes ⟨c, disk⟩ ⟨op, env⟩ lease := by
    rw [hrevoked]
    simp [hnot]
  cases op with
  | «open» | close | restart => cases hop
  | apply evidence =>
    exact kept (apply_applied c disk env evidence).revoked_eq (by rintro (⟨⟨⟩⟩ | ⟨⟨⟩⟩))
  | setAdminState rack state =>
    refine kept ?_ (by rintro (⟨⟨⟩⟩ | ⟨⟨⟩⟩))
    rcases setAdminState_cases c disk env rack state with ⟨-, h⟩ | ⟨-, -, -, h⟩
    · exact congrArg PodController.revoked h.controller
    · exact h.revoked_eq
  | clearAdminState rack =>
    refine kept ?_ (by rintro (⟨⟨⟩⟩ | ⟨⟨⟩⟩))
    rcases clearAdminState_cases c disk env rack with ⟨-, h⟩ | ⟨-, -, h⟩
    · exact congrArg PodController.revoked h.controller
    · exact h.revoked_eq
  | mintAuthority scope subject lifetime =>
    refine kept ?_ (by rintro (⟨⟨⟩⟩ | ⟨⟨⟩⟩))
    change (c.mintAuthority disk env scope subject lifetime).controller.revoked = c.revoked
    cases mintAuthority_minted c disk env scope subject lifetime with
    | refused _ refusal => rw [refusal.controller]
    | reached _ _ _ _ _ _ _ _ _ c' persisted ends =>
      have hrevoked : c'.revoked = c.revoked := congrArg Memory.revoked persisted.memory_eq
      rcases ends with ⟨_, -, hcontroller, -⟩ | ⟨-, hcontroller, -⟩ <;> rw [hcontroller]
      · exact hrevoked
      · exact hrevoked
  | retire =>
    change lease ∈ (c.retire disk env).controller.revoked ↔ _
    rcases retire_cases c disk env with ⟨hwhy, h⟩ | ⟨hopen, hlive, result, persisted, -⟩
    · refine kept (congrArg PodController.revoked h.controller) ?_
      rintro (⟨⟨⟩⟩ | ⟨-, isOpen, live, -⟩)
      rcases hwhy with hclosed | hretired
      · exact absurd (isOpen.symm.trans hclosed) (by simp)
      · exact live hretired
    · have hrevoked : (c.retire disk env).controller.revoked =
          c.revoked ++ c.tokens.map AuthorityToken.lease :=
        congrArg Memory.revoked persisted.memory_eq
      rw [hrevoked, List.mem_append, List.mem_map]
      refine or_congr_right ⟨fun held => .retiring rfl hopen hlive held, ?_⟩
      rintro (⟨⟨⟩⟩ | ⟨-, -, -, held⟩)
      exact held
  | revokeAuthority other =>
    change lease ∈ (c.revokeAuthority disk env other).controller.revoked ↔ _
    rcases revokeAuthority_cases c disk env other with
      ⟨hwhy, h⟩ | ⟨hopen, hnamed, -, result, c', persisted, hends⟩
    · rw [h.controller]
      refine ⟨.inl, ?_⟩
      rintro (hrevoked | (⟨op, isOpen, named⟩ | ⟨⟨⟩⟩))
      · exact hrevoked
      · obtain rfl : other = lease := Op.revokeAuthority.inj op
        rcases hwhy with hclosed | hnil | hrevoked
        · exact absurd (isOpen.symm.trans hclosed) (by simp)
        · exact absurd hnil named
        · exact hrevoked
    · have hrevoked : c'.revoked = c.revoked ++ [other] :=
        congrArg Memory.revoked persisted.memory_eq
      have hcontroller : (c.revokeAuthority disk env other).controller.revoked =
          c.revoked ++ [other] := by
        rcases hends with ⟨_, -, hcontroller, -⟩ | ⟨-, hcontroller, -⟩ <;> rw [hcontroller]
        · exact hrevoked
        · exact hrevoked
      rw [hcontroller, List.mem_append, List.mem_singleton]
      refine or_congr_right ⟨?_, ?_⟩
      · rintro rfl
        exact .revoking rfl hopen hnamed
      · rintro (⟨op, -, -⟩ | ⟨⟨⟩⟩)
        exact (Op.revokeAuthority.inj op).symm

/-- No call strikes the lease. -/
def Unstruck (w : World) (calls : List Call) (lease : LeaseId) : Prop :=
  ∀ x ∈ w.trace calls, ¬ Strikes x.1 x.2 lease

/-- A lease stays unrevoked over a run that does not strike it. -/
theorem mem_revoked_run {calls : List Call} (hops : ∀ call ∈ calls, call.op.operates = true) :
    lease ∉ (w.run calls).controller.revoked ↔
      lease ∉ w.controller.revoked ∧ Unstruck w calls lease := by
  induction calls generalizing w with
  | nil => simp [Unstruck]
  | cons call calls ih =>
    have hnext := @World.mem_revoked_next w call lease (hops call List.mem_cons_self)
    have hunstruck : Unstruck w (call :: calls) lease ↔
        ¬ Strikes w call lease ∧ Unstruck (w.next call) calls lease := List.forall_mem_cons
    rw [World.run, Run.final_cons, ih fun call' h => hops call' (List.mem_cons_of_mem _ h), hnext,
      hunstruck, not_or, and_assoc]

/-! ## Epochs -/

/-- The rounds of the calls adopt no generation. -/
def AdoptsNothing (w : World) (calls : List Call) : Prop :=
  ∀ x ∈ w.trace calls, ∀ request st, x.1.request x.2 = some request →
    x.1.published x.2 = some st → ¬ AdoptsSome request st

/-- A call advances the epoch exactly if its round adopts a generation. -/
theorem World.epoch_next (hop : call.op.operates = true) :
    w.controller.epoch.value.toNat ≤ (w.next call).controller.epoch.value.toNat ∧
      ((w.next call).controller.epoch = w.controller.epoch ↔
        ∀ request st, w.request call = some request → w.published call = some st →
          ¬ AdoptsSome request st) := by
  classical
  cases w.stepped call hop with
  | published request st isOpen asks composed published publishes =>
    have hadvance := compose_epoch composed
    rw [(World.asksFor asks).epoch] at hadvance
    rw [publishes.epoch, hadvance]
    refine ⟨Nat.le_add_right _ _, ?_, fun hnone => ?_⟩
    · intro hsame request' st' hasks' hpublished' hadopts
      obtain rfl := Option.some.inj (asks.symm.trans hasks')
      obtain rfl := Option.some.inj (published.symm.trans hpublished')
      rw [if_pos hadopts, hsame] at hadvance
      omega
    · rw [if_neg (hnone request st asks published)] at hadvance
      exact PodEpoch.eq_of_toNat hadvance
  | unsaved request _ _ unpublished same =>
    rw [same.epoch]
    refine ⟨le_rfl, iff_of_true rfl fun _ st _ hpublished => ?_⟩
    rw [unpublished] at hpublished
    cases hpublished
  | idle unpublished same =>
    rw [same.epoch]
    refine ⟨le_rfl, iff_of_true rfl fun _ st _ hpublished => ?_⟩
    rw [unpublished] at hpublished
    cases hpublished

/-- Over a run without restarts the epoch grows exactly by what is adopted. -/
theorem epoch_run {calls : List Call} (hops : ∀ call ∈ calls, call.op.operates = true) :
    w.controller.epoch.value.toNat ≤ (w.run calls).controller.epoch.value.toNat ∧
      ((w.run calls).controller.epoch = w.controller.epoch ↔ AdoptsNothing w calls) := by
  induction calls generalizing w with
  | nil => exact ⟨le_rfl, iff_of_true rfl fun x hx => by cases hx⟩
  | cons call calls ih =>
    obtain ⟨hle, hiff⟩ := @World.epoch_next w call (hops call List.mem_cons_self)
    obtain ⟨hrest, hrestiff⟩ := @ih (w.next call) fun call' h =>
      hops call' (List.mem_cons_of_mem _ h)
    rw [AdoptsNothing, World.trace, Run.trace_cons, List.forall_mem_cons, World.run, Run.final_cons]
    refine ⟨hle.trans hrest, ?_⟩
    rw [← hiff]
    constructor
    · intro hsame
      have hback : (w.next call).controller.epoch = w.controller.epoch := by
        refine PodEpoch.eq_of_toNat (le_antisymm ?_ hle)
        rw [← congrArg (fun epoch : PodEpoch => epoch.value.toNat) hsame]
        exact hrest
      exact ⟨hback, hrestiff.1 (hsame.trans hback.symm)⟩
    · rintro ⟨hback, hnone⟩
      exact (hrestiff.2 hnone).trans hback

end Calls

/-! ## Granted tokens -/

section Grants
variable {c : PodController} {env : Env} {id : Uuid} {scope : AuthorityScope} {subject : RackId}
  {lifetime : Nanos} {token : AuthorityToken} {w : World} {calls : List Call}

/-- A granted lease has an identifier. -/
theorem makeLeaseId_ne_nil : PodController.makeLeaseId id ≠ .nil := by
  rw [PodController.makeLeaseId, BasicId.parse]
  split
  · next lease hlease =>
    split at hlease
    · intro hnil
      have htoken := congrArg BasicId.token ((Except.ok.inj hlease).trans hnil)
      cases htoken
    · cases hlease
  · intro hnil
    cases congrArg BasicId.token hnil

/-- What a controller grants, and the controller it is granted by. -/
theorem World.granted_token
    (h : w.answer ⟨.mintAuthority scope subject lifetime, env⟩ = .granted token) :
    (∃ id expiresAt fencing, token =
      w.controller.mintedToken id scope subject (env.clock 0) expiresAt fencing) ∧
    w.controller.isOpen = true ∧
    (w.next ⟨.mintAuthority scope subject lifetime, env⟩).controller.revoked =
      w.controller.revoked := by
  obtain ⟨c, disk⟩ := w
  have hreply : (c.mintAuthority disk env scope subject lifetime).result = .ok token := by
    unfold World.answer World.perform Reply.step at h
    dsimp only at h
    split at h
    · next value hvalue => rw [hvalue, Answer.granted.inj h]
    · cases h
  change _ ∧ _ ∧ (c.mintAuthority disk env scope subject lifetime).controller.revoked = c.revoked
  cases mintAuthority_minted c disk env scope subject lifetime with
  | refused _ refusal =>
    obtain ⟨status, herror⟩ := refusal.error
    rw [herror] at hreply
    cases hreply
  | reached isOpen id _ expiresAt _ _ fencing _ _ c' persisted ends =>
    have hrevoked : c'.revoked = c.revoked := congrArg Memory.revoked persisted.memory_eq
    rcases ends with ⟨_, -, -, herror⟩ | ⟨-, hcontroller, hok⟩
    · rw [herror] at hreply
      cases hreply
    · rw [hok, Except.ok.injEq] at hreply
      refine ⟨⟨id, expiresAt, fencing, hreply.symm⟩, isOpen, ?_⟩
      rw [hcontroller]
      exact hrevoked

/-- The calls on a controller keep its incarnation. -/
theorem World.incarnation_next {call : Call} (hop : call.op.operates = true) :
    (w.next call).controller.incarnation = w.controller.incarnation := by
  cases w.roundLeft call hop with
  | same _ same => exact same.incarnation
  | round request _ asks _ sets =>
    rw [sets.incarnation]
    unfold World.request at asks
    dsimp only at asks
    split at asks
    · rw [← Option.some.inj asks]
      rfl
    · split at asks
      · rw [← Option.some.inj asks]
        rfl
      · cases asks
    · split at asks
      · rw [← Option.some.inj asks]
        rfl
      · cases asks
    · cases asks

/-- A run without restarts leaves the incarnation and the options. -/
theorem fixed_run (hops : ∀ call ∈ calls, call.op.operates = true) :
    (w.run calls).controller.incarnation = w.controller.incarnation ∧
      (w.run calls).controller.options = w.controller.options := by
  induction calls generalizing w with
  | nil => exact ⟨rfl, rfl⟩
  | cons call calls ih =>
    have hop := hops call List.mem_cons_self
    obtain ⟨hincarnation, hoptions⟩ := @ih (w.next call) fun call' h =>
      hops call' (List.mem_cons_of_mem _ h)
    exact ⟨hincarnation.trans (World.incarnation_next hop),
      hoptions.trans (World.steady hop).2⟩

/-- What a controller accepts. -/
theorem checkAuthority_valid_iff {now : Nanos} :
    (c.checkAuthority now token scope subject).valid = true ↔
      TokenAdmitted token {
        pod := c.options.pod, epoch := c.epoch, incarnation := c.incarnation, now := now
        clockSkew := c.options.policy.clockSkew, revoked := c.revoked, required := scope
        enforceScope := true } ∧
      (subject = .nil ∨ token.scope = .pod ∨ token.subject = subject) := by
  rw [← validateToken_valid_iff, PodController.checkAuthority]
  split
  · next hinvalid => exact iff_of_false hinvalid fun h => hinvalid h.1
  next hvalid =>
  split
  · next hother =>
    refine iff_of_false (by decide) fun h => ?_
    rcases h.2 with hnil | hpod | hsame
    · exact hother.1 hnil
    · exact hother.2.1 hpod
    · exact hother.2.2 hsame
  · next hcovered => exact iff_of_true (not_not.1 hvalid) ⟨not_not.1 hvalid, by tauto⟩

end Grants

/-- **The life of a token.** A token that is granted in a run is accepted after further calls on the
same incarnation exactly if its lease was not on the list of the revoked already and no call has
struck it, no round has adopted a generation, its lease window is not empty and the clock is within
it, and its scope and its subject cover the request. -/
theorem granted_token_accepted_iff {options : ControllerOptions} {disk : DurableState}
    {before after : List Call} {env : Env} {scope required : AuthorityScope}
    {subject target : RackId} {lifetime now : Nanos} {token : AuthorityToken}
    (hgranted : ((World.start options disk).run before).answer
      ⟨.mintAuthority scope subject lifetime, env⟩ = .granted token)
    (hops : ∀ call ∈ after, call.op.operates = true) :
    let w := (World.start options disk).run before
    let granting : Call := ⟨.mintAuthority scope subject lifetime, env⟩
    (((w.next granting).run after).controller.checkAuthority now token required target).valid =
        true ↔
      (token.lease ∉ w.controller.revoked ∧ Unstruck (w.next granting) after token.lease) ∧
      AdoptsNothing (w.next granting) after ∧
      (token.issuedAt < token.expiresAt ∧
        token.issuedAt - w.controller.options.policy.clockSkew ≤ now ∧ now ≤ token.expiresAt) ∧
      (scope = .pod ∨ scope = required) ∧ (target = .nil ∨ scope = .pod ∨ subject = target) := by
  intro w granting
  obtain ⟨⟨id, expiresAt, fencing, htoken⟩, hopen, hrevoked⟩ := World.granted_token hgranted
  have hfields : token.lease ≠ .nil ∧ token.pod = w.controller.options.pod ∧
      token.epoch = w.controller.epoch ∧ token.incarnation = w.controller.incarnation ∧
      token.scope = scope ∧ token.subject = subject := by
    rw [htoken]
    exact ⟨makeLeaseId_ne_nil, rfl, rfl, rfl, rfl, rfl⟩
  obtain ⟨hlease, hpod, hepoch, hincarnation, hscope, hsubject⟩ := hfields
  have hconsistent : Consistent w := Run.final_invariant
    (⟨fun ho => (by cases ho), fun ho => (by cases ho)⟩ : Consistent (World.start options disk))
    fun x _ h => h.next
  have hgrants : granting.op.operates = true := rfl
  have hsame : (w.next granting).controller.epoch = w.controller.epoch :=
    (World.epoch_next hgrants).2.2 fun request _ hasks => by cases hasks
  obtain ⟨-, hoptions⟩ := @World.steady w granting hgrants
  obtain ⟨hrunIncarnation, hrunOptions⟩ := @fixed_run (w.next granting) after hops
  rw [World.incarnation_next hgrants] at hrunIncarnation
  have hstruck := @mem_revoked_run (w.next granting) token.lease after hops
  rw [hrevoked] at hstruck
  have hadopts := (@epoch_run (w.next granting) after hops).2
  rw [hsame] at hadopts
  rw [checkAuthority_valid_iff, hrunOptions, hrunIncarnation, hoptions, ← hstruck, ← hadopts,
    hscope, hsubject]
  constructor
  · rintro ⟨h, hcovers⟩
    exact ⟨h.unrevoked, h.sameEpoch.symm.trans hepoch, ⟨h.window, h.begun, h.unexpired⟩,
      hscope ▸ h.covered rfl, hcovers⟩
  · rintro ⟨hunrevoked, hkept, ⟨hwindow, hbegun, hunexpired⟩, hcovered, hcovers⟩
    exact ⟨⟨hlease, hpod ▸ hconsistent.identity hopen, hwindow, hpod, hunrevoked, hincarnation,
      hepoch.trans hkept.symm, hbegun, hunexpired, fun _ => hscope ▸ hcovered⟩, hcovers⟩

namespace Sample

/-- The sample controller over a directory, after a round. -/
def observing : List Call := [⟨.«open», env⟩, round]

/-- A grant of a token for the pod. -/
def grantingCall : Call := ⟨.mintAuthority .pod .nil 10, env⟩

/-- The token of an answer, if there is one. -/
def grantedToken : Answer → Option AuthorityToken
  | .granted token => some token
  | _ => none

end Sample

/-- The sample evidence does not end the life of a token that is granted after it, and a revocation
that cannot be committed does. -/
theorem sample_token_struck : ∃ token,
    let w := (World.start (Sample.options true) {}).run Sample.observing
    w.answer Sample.grantingCall = .granted token ∧
      AdoptsNothing (w.next Sample.grantingCall) [Sample.round] ∧
      ¬ (((w.next Sample.grantingCall).run [⟨.revokeAuthority token.lease,
        Sample.failing⟩]).controller.checkAuthority 105 token .pod .nil).valid = true := by
  have hruns : (Sample.grantedToken (((World.start (Sample.options true) {}).run
      Sample.observing).answer Sample.grantingCall)).map (fun token =>
        (((((World.start (Sample.options true) {}).run Sample.observing).next
          Sample.grantingCall).run [Sample.round]).controller.checkAuthority 105 token .pod
            .nil).valid) = some true := by decide +kernel
  obtain ⟨token, htoken, haccepted⟩ := Option.map_eq_some_iff.1 hruns
  have hgranted : ((World.start (Sample.options true) {}).run Sample.observing).answer
      Sample.grantingCall = .granted token := by
    cases hanswer : ((World.start (Sample.options true) {}).run Sample.observing).answer
        Sample.grantingCall with
    | granted token' => rw [hanswer] at htoken; rw [Option.some.inj htoken]
    | done | applied _ | failed _ => rw [hanswer] at htoken; cases htoken
  have hlease : token.lease ≠ .nil := by
    obtain ⟨⟨id, expiresAt, fencing, rfl⟩, -⟩ := World.granted_token hgranted
    exact makeLeaseId_ne_nil
  refine ⟨token, hgranted, ?_, fun hstill => ?_⟩
  · exact ((granted_token_accepted_iff hgranted (by simp [Sample.round, Op.operates])).1
      haccepted).2.1
  · have hunstruck := ((granted_token_accepted_iff hgranted (by simp [Op.operates])).1 hstill).1.2
    have hopen : (((World.start (Sample.options true) {}).run Sample.observing).next
        Sample.grantingCall).controller.isOpen = true := by decide +kernel
    exact hunstruck _ List.mem_cons_self (.revoking rfl hopen hlease)

end PodFabric
