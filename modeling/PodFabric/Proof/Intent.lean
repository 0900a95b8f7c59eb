import PodFabric.Proof.Overrides
import PodFabric.Proof.Lifespan

/-!
# Operator intent

A change of an override that is acknowledged stands until the override of the same rack is changed
again: no other call touches it, neither a call that fails nor the end of the process, if the
controller is durable. Every state that is published meanwhile shows the rack in the mode it was put
in, or in the mode of its evidence if its override was taken away (`override_stands`).
-/

namespace PodFabric

/-! ## What calls do to an override -/

/-- The directory is as it was, or recovers to the overrides of the controller. -/
def HoldsAdmin (c : PodController) (disk disk' : DurableState) : Prop :=
  disk' = disk ∨ (c.isOpen = true ∧ disk'.pod = c.options.pod ∧
    disk'.admin = c.adminOverrides.entries)

/-- The overrides are kept, in memory and on disk. -/
structure KeepsAdmin (c : PodController) (disk : DurableState) (c' : PodController)
    (disk' : DurableState) : Prop where
  overrides : c'.adminOverrides = c.adminOverrides
  disk : HoldsAdmin c disk disk'

section Ends
variable {c c' : PodController} {disk disk' next : DurableState} {env : Env}
  {result : Result Unit}

/-- Saving a round leaves the overrides in memory and on disk alike. -/
theorem Persisted.keepsAdmin (h : Persisted c disk env next c' disk' result)
    (hopen : c.isOpen = true) (hpod : next.pod = c.options.pod)
    (hadmin : next.admin = c.adminOverrides.entries) : KeepsAdmin c disk c' disk' := by
  refine ⟨congrArg Memory.adminOverrides h.memory_eq, ?_⟩
  rcases h.disk_cases with hsame | ⟨held, hwritten⟩
  · exact .inl hsame
  · rw [hwritten]
    exact .inr ⟨hopen, hpod, hadmin⟩

/-- Nothing done keeps the overrides. -/
theorem KeepsAdmin.refl : KeepsAdmin c disk c disk := ⟨rfl, .inl rfl⟩

/-- A refused call keeps the overrides. -/
theorem Refusal.keepsAdmin {α : Type} {reply : Reply α} (h : Refusal c disk reply) :
    KeepsAdmin c disk reply.controller reply.disk := by
  rw [h.controller, h.disk]
  exact .refl

/-- Applying evidence keeps the overrides. -/
theorem Applied.keepsAdmin {evidence : PodSnapshot} {reply : Reply PodController.ApplyReport}
    (h : Applied c disk env evidence reply) :
    KeepsAdmin c disk reply.controller reply.disk := by
  cases h with
  | refused _ _ controller same =>
    rw [controller, same]
    exact .refl
  | unsaved _ _ isOpen _ persisted => exact persisted.keepsAdmin isOpen rfl rfl
  | published _ c' isOpen _ persisted controller =>
    obtain ⟨hoverrides, hdisk⟩ := persisted.keepsAdmin isOpen rfl rfl
    rw [controller]
    exact ⟨hoverrides, hdisk⟩

/-- Saving keeps the overrides it saves. -/
theorem Saved.keepsAdmin {reply : Reply Unit} (h : Saved c disk env reply)
    (hopen : c.isOpen = true) : KeepsAdmin c disk reply.controller reply.disk := by
  obtain ⟨_, persisted, -⟩ := h
  exact persisted.keepsAdmin hopen rfl rfl

/-- Composing again keeps the overrides. -/
theorem Recomposed.keepsAdmin {reply : Reply Unit} (h : Recomposed c disk env reply)
    (hopen : c.isOpen = true) : KeepsAdmin c disk reply.controller reply.disk := by
  cases h with
  | composed _ _ applied controller same =>
    rw [controller, same]
    exact applied.keepsAdmin
  | saved _ saved => exact saved.keepsAdmin hopen

/-- A change that is acknowledged is on disk, if there is one. -/
theorem Recomposed.durableAdmin {reply : Reply Unit} (h : Recomposed c disk env reply)
    (hdone : reply.result = .ok ()) (hstore : c.store.isSome = true) :
    reply.disk.pod = c.options.pod ∧ reply.disk.admin = c.adminOverrides.entries := by
  cases h with
  | composed _ round applied _ same result =>
    rw [result] at hdone
    rw [same]
    cases applied with
    | refused _ _ _ _ error => rw [error] at hdone; cases hdone
    | unsaved _ _ _ _ _ error => rw [error] at hdone; cases hdone
    | published _ _ _ _ persisted =>
      obtain ⟨held, hwritten⟩ := persisted.durable hstore
      rw [hwritten]
      exact ⟨rfl, rfl⟩
  | saved _ saved =>
    obtain ⟨result, persisted, hresult⟩ := saved
    cases result with
    | error status => rw [hresult] at hdone; cases hdone
    | ok _ =>
      obtain ⟨held, hwritten⟩ := persisted.durable hstore
      rw [hwritten]
      exact ⟨rfl, rfl⟩

end Ends

/-- What a call does to the overrides. -/
structure Administers (w : World) (call : Call) (w' : World) : Prop where
  others : ∀ rack, call.op.changes ≠ some rack →
    w'.controller.adminOverrides.find? rack = w.controller.adminOverrides.find? rack
  disk : w'.disk = w.disk ∨ (w.controller.isOpen = true ∧
    w'.disk.pod = w.controller.options.pod ∧
    w'.disk.admin = w'.controller.adminOverrides.entries)

section Step
variable {c c₁ c' : PodController} {disk disk' : DurableState} {w : World} {call : Call}
  {rack : RackId} {mode : Option AdminState}

/-- A call that keeps the overrides of `c₁`, which it has come to from those of `c`. -/
theorem KeepsAdmin.administers (h : KeepsAdmin c₁ disk c' disk')
    (hopen : c₁.isOpen = c.isOpen) (hoptions : c₁.options = c.options)
    (hothers : ∀ rack, call.op.changes ≠ some rack →
      c₁.adminOverrides.find? rack = c.adminOverrides.find? rack) :
    Administers ⟨c, disk⟩ call ⟨c', disk'⟩ := by
  refine ⟨fun rack hrack => ?_, ?_⟩
  · rw [← hothers rack hrack, ← h.overrides]
  · refine h.disk.imp_right fun ⟨ho, hpod, hadmin⟩ => ⟨hopen ▸ ho, hoptions ▸ hpod, ?_⟩
    rw [hadmin]
    exact congrArg OrderedMap.entries h.overrides.symm

/-- An operation changes at most the override of its rack, and commits what it leaves in memory. -/
theorem World.administers (hop : call.op.operates = true) : Administers w call (w.next call) := by
  obtain ⟨c, disk⟩ := w
  obtain ⟨op, env⟩ := call
  cases op with
  | «open» | close | restart => cases hop
  | apply evidence =>
    exact (apply_applied c disk env evidence).keepsAdmin.administers rfl rfl fun _ _ => rfl
  | setAdminState rack state =>
    rcases setAdminState_cases c disk env rack state with ⟨-, h⟩ | ⟨hopen, -, -, h⟩
    · exact h.keepsAdmin.administers rfl rfl fun _ _ => rfl
    · refine (h.keepsAdmin hopen).administers rfl rfl fun other hother => ?_
      have hne : other ≠ rack := fun heq => hother (congrArg some heq.symm)
      exact (OrderedMap.find?_insert _ _ _ _).trans (if_neg hne)
  | clearAdminState rack =>
    rcases clearAdminState_cases c disk env rack with ⟨-, h⟩ | ⟨hopen, -, h⟩
    · exact h.keepsAdmin.administers rfl rfl fun _ _ => rfl
    · refine (h.keepsAdmin hopen).administers rfl rfl fun other hother => ?_
      have hne : other ≠ rack := fun heq => hother (congrArg some heq.symm)
      exact (OrderedMap.find?_erase _ _ _).trans (if_neg hne)
  | retire =>
    rcases retire_cases c disk env with ⟨-, h⟩ | ⟨hopen, -, h⟩
    · exact h.keepsAdmin.administers rfl rfl fun _ _ => rfl
    · exact (h.keepsAdmin hopen).administers rfl rfl fun _ _ => rfl
  | mintAuthority scope subject lifetime =>
    cases mintAuthority_minted c disk env scope subject lifetime with
    | refused _ refusal => exact refusal.keepsAdmin.administers rfl rfl fun _ _ => rfl
    | reached isOpen _ _ _ _ _ fencing _ _ c' persisted ends =>
      have hkeeps : KeepsAdmin { c with fencing } disk
          (c.mintAuthority disk env scope subject lifetime).controller
          (c.mintAuthority disk env scope subject lifetime).disk := by
        obtain ⟨hoverrides, hdisk⟩ := persisted.keepsAdmin isOpen rfl rfl
        rcases ends with ⟨_, -, hcontroller, -⟩ | ⟨-, hcontroller, -⟩ <;> rw [hcontroller]
        · exact ⟨hoverrides, hdisk⟩
        · exact ⟨hoverrides, hdisk⟩
      exact hkeeps.administers rfl rfl fun _ _ => rfl
  | revokeAuthority lease =>
    rcases revokeAuthority_cases c disk env lease with
      ⟨-, h⟩ | ⟨hopen, -, -, _, c', persisted, ends⟩
    · exact h.keepsAdmin.administers rfl rfl fun _ _ => rfl
    · have hkeeps : KeepsAdmin { c with revoked := c.revoked ++ [lease] } disk
          (c.revokeAuthority disk env lease).controller
          (c.revokeAuthority disk env lease).disk := by
        obtain ⟨hoverrides, hdisk⟩ := persisted.keepsAdmin hopen rfl rfl
        rcases ends with ⟨_, -, hcontroller, -⟩ | ⟨-, hcontroller, -⟩ <;> rw [hcontroller]
        · exact ⟨hoverrides, hdisk⟩
        · exact ⟨hoverrides, hdisk⟩
      exact hkeeps.administers rfl rfl fun _ _ => rfl

end Step

/-! ## What stands -/

/-- The override of the rack stands: for the controller, while it is open or has no store, and for
what the directory of a durable controller recovers to. No mode is an override taken away. -/
structure Overridden (rack : RackId) (mode : Option AdminState) (w : World) : Prop where
  consistent : Consistent w
  memory : w.controller.isOpen = true ∨ w.controller.options.durable = false →
    w.controller.adminOverrides.find? rack = mode
  disk : w.controller.options.durable = true → w.disk.pod ≠ .nil ∧
    (OrderedMap.ofList w.disk.admin).find? rack = mode

section Stand
variable {c : PodController} {disk : DurableState} {env : Env} {w : World} {call : Call}
  {rack : RackId} {mode : Option AdminState}

/-- Closing keeps the overrides in memory. -/
theorem close_admin : (c.close disk env).controller.adminOverrides = c.adminOverrides := by
  rw [PodController.close]
  split
  · rfl
  · dsimp only
    split <;> rfl

/-- Opening finds the override where it was left. -/
theorem Overridden.«open» (h : Overridden rack mode ⟨c, disk⟩) :
    Overridden rack mode (World.next ⟨c, disk⟩ ⟨.«open», env⟩) := by
  have hconsistent : Consistent (World.next ⟨c, disk⟩ ⟨.«open», env⟩) := h.consistent.next
  change Overridden rack mode ⟨(c.«open» disk env).controller, (c.«open» disk env).disk⟩
  cases open_opened c disk env with
  | refused refusal =>
    rw [refusal.controller, refusal.disk]
    exact h
  | failed durable reopened closed _ same =>
    obtain ⟨hpod, hadmin⟩ := h.disk durable
    refine ⟨hconsistent, fun hlives => ?_, fun _ => ⟨same.pod ▸ hpod, same.admin ▸ hadmin⟩⟩
    rcases hlives with hopen | hmemory
    · exact absurd (hopen.symm.trans closed) (by simp)
    · rw [reopened.options] at hmemory
      exact absurd (hmemory.symm.trans durable) (by simp)
  | fresh _ _ reopened _ store memory =>
    -- a durable controller does not begin afresh over a directory that has the override
    have hmemory : c.options.durable = false := by
      cases hd : c.options.durable with
      | false => rfl
      | true => exact absurd (store hd).1 (h.disk hd).1
    have hoverrides : (c.«open» disk env).controller.adminOverrides = c.adminOverrides :=
      congrArg Memory.adminOverrides memory
    refine ⟨hconsistent, fun _ => hoverrides ▸ h.memory (.inr hmemory), fun hd => ?_⟩
    rw [reopened.options] at hd
    exact absurd (hmemory.symm.trans hd) (by simp)
  | recovered _ durable _ _ _ recovered same =>
    obtain ⟨hpod, hadmin⟩ := h.disk durable
    exact ⟨hconsistent, fun _ => recovered.adminOverrides ▸ hadmin, fun _ =>
      ⟨same.pod ▸ hpod, same.admin ▸ hadmin⟩⟩

/-- A call on another rack, or on none, leaves the override standing. -/
theorem Overridden.next (h : Overridden rack mode w)
    (hrestart : call.op = .restart → w.controller.options.durable = true)
    (hstays : call.op.changes ≠ some rack) : Overridden rack mode (w.next call) := by
  by_cases hop : call.op.operates = true
  · obtain ⟨hopen, hoptions⟩ := @World.steady w call hop
    obtain ⟨hothers, hdisk⟩ := @World.administers w call hop
    have hmemory : w.controller.isOpen = true ∨ w.controller.options.durable = false →
        (w.next call).controller.adminOverrides.find? rack = mode := fun hlives =>
      (hothers rack hstays).trans (h.memory hlives)
    refine ⟨h.consistent.next, fun hlives => hmemory (by rwa [hopen, hoptions] at hlives),
      fun hd => ?_⟩
    rw [hoptions] at hd
    rcases hdisk with hsame | ⟨ho, hpod, hadmin⟩
    · rw [hsame]
      exact h.disk hd
    · rw [hpod, hadmin, OrderedMap.ofList_entries]
      exact ⟨h.consistent.identity ho, hmemory (.inl ho)⟩
  · obtain ⟨c, disk⟩ := w
    obtain ⟨op, env⟩ := call
    cases op with
    | «open» => exact h.«open»
    | close =>
      obtain ⟨-, -, hoptions, hclosed, hdisk⟩ := @close_standing c disk env
      have hconsistent : Consistent (World.next ⟨c, disk⟩ ⟨.close, env⟩) := h.consistent.next
      change Overridden rack mode ⟨(c.close disk env).controller, (c.close disk env).disk⟩
      refine ⟨hconsistent, fun hlives => ?_, fun hd => ?_⟩
      · rcases hlives with hopen | hmemory
        · exact absurd (hopen.symm.trans hclosed) (by simp)
        · rw [hoptions] at hmemory
          exact (congrArg (OrderedMap.find? · rack) close_admin).trans (h.memory (.inr hmemory))
      · rw [hoptions] at hd
        rw [hdisk]
        exact h.disk hd
    | restart =>
      have hd : c.options.durable = true := hrestart rfl
      refine ⟨h.consistent.next, fun hlives => ?_, fun _ => h.disk hd⟩
      rcases hlives with hopen | hmemory
      · cases hopen
      · exact absurd (hd.symm.trans hmemory) (by simp)
    | apply _ | setAdminState _ _ | clearAdminState _ | retire | mintAuthority _ _ _
    | revokeAuthority _ => exact absurd rfl hop

/-- A result without a value that is no error is `ok`. -/
theorem eq_ok_of_isOk {ε : Type} : ∀ {result : Except ε Unit}, result.isOk = true →
    result = .ok ()
  | .ok (), _ => rfl
  | .error _, h => by cases h

/-- A change that is acknowledged is in memory and on disk. -/
theorem Recomposed.overridden {reply : Reply Unit} (h : Recomposed c disk env reply)
    (hdone : reply.result = .ok ()) (hw : Consistent w) (hopen : w.controller.isOpen = true)
    (hoptions : c.options = w.controller.options) (hstore : c.store = w.controller.store)
    (hnext : w.next call = ⟨reply.controller, reply.disk⟩) :
    Overridden rack (c.adminOverrides.find? rack) (w.next call) := by
  refine ⟨hw.next, fun _ => ?_, fun hd => ?_⟩
  · rw [hnext]
    exact congrArg (OrderedMap.find? · rack) h.adminOverrides
  · rw [World.next_durable] at hd
    obtain ⟨hpod, hadmin⟩ := h.durableAdmin hdone (hstore ▸ hw.store hopen hd)
    rw [hnext, hpod, hadmin, OrderedMap.ofList_entries, hoptions]
    exact ⟨hw.identity hopen, rfl⟩

/-- A change that is acknowledged stands. -/
theorem Overridden.of_changed (hw : Consistent w) (hchange : call.op.changes = some rack)
    (hok : (w.answer call).ok = true) : Overridden rack (call.op.mode rack) (w.next call) := by
  obtain ⟨c, disk⟩ := w
  obtain ⟨op, env⟩ := call
  cases op with
  | setAdminState other state =>
    obtain rfl : other = rack := Option.some.inj hchange
    have hresult : (c.setAdminState disk env other state).result.isOk = true :=
      (Reply.step_ok fun _ => rfl).symm.trans hok
    rcases setAdminState_cases c disk env other state with ⟨-, h⟩ | ⟨hopen, -, -, h⟩
    · rw [h.isOk] at hresult
      cases hresult
    · have hmode : (c.adminOverrides.insert other state).find? other =
          Op.mode other (.setAdminState other state) :=
        OrderedMap.find?_insert_self.trans (if_pos rfl).symm
      rw [← hmode]
      exact h.overridden (eq_ok_of_isOk hresult) hw hopen rfl rfl rfl
  | clearAdminState other =>
    obtain rfl : other = rack := Option.some.inj hchange
    have hresult : (c.clearAdminState disk env other).result.isOk = true :=
      (Reply.step_ok fun _ => rfl).symm.trans hok
    rcases clearAdminState_cases c disk env other with ⟨-, h⟩ | ⟨hopen, -, h⟩
    · rw [h.isOk] at hresult
      cases hresult
    · have hmode : (c.adminOverrides.erase other).find? other =
          Op.mode other (.clearAdminState other) := OrderedMap.find?_erase_self
      rw [← hmode]
      exact h.overridden (eq_ok_of_isOk hresult) hw hopen rfl rfl rfl
  | «open» | close | restart | apply _ | retire | mintAuthority _ _ _ | revokeAuthority _ =>
    cases hchange

end Stand

/-! ## What is published meanwhile -/

/-- The evidence that a call composes, before the overrides are laid over it. -/
def World.evidence (w : World) (call : Call) : PodSnapshot :=
  match call.op with
  | .apply evidence => evidence
  | _ => w.controller.lastEvidence

section Publish
variable {w : World} {call : Call} {request : CompositionRequest} {st : PodState} {rack : RackId}
  {mode : Option AdminState} {record : MemberRecord} {m : MemberVerdict}

/-- What a call composes is the evidence it stands on, under the overrides it leaves. -/
theorem World.request_snapshot (hasks : w.request call = some request) :
    request.snapshot = PodController.effectiveSnapshot
      (call.op.override w.controller.adminOverrides) (w.evidence call) := by
  obtain ⟨c, disk⟩ := w
  obtain ⟨op, env⟩ := call
  cases op with
  | apply evidence =>
    cases hasks
    rfl
  | setAdminState rack state | clearAdminState rack =>
    obtain ⟨-, hasks⟩ := Option.ite_none_right_eq_some.1 hasks
    cases hasks
    rfl
  | «open» | close | restart | retire | mintAuthority _ _ _ | revokeAuthority _ => cases hasks

/-- An operation leaves the overrides of other racks. -/
theorem Op.override_other {op : Op} {overrides : OrderedMap RackId AdminState}
    (hstays : op.changes ≠ some rack) :
    (op.override overrides).find? rack = overrides.find? rack := by
  cases op with
  | setAdminState other state =>
    have hne : rack ≠ other := fun heq => hstays (congrArg some heq.symm)
    exact (OrderedMap.find?_insert _ _ _ _).trans (if_neg hne)
  | clearAdminState other =>
    have hne : rack ≠ other := fun heq => hstays (congrArg some heq.symm)
    exact (OrderedMap.find?_erase _ _ _).trans (if_neg hne)
  | «open» | close | restart | apply _ | retire | mintAuthority _ _ _ | revokeAuthority _ => rfl

/-- An operation that changes a rack's override leaves the one it asks for. -/
theorem Op.override_changed {op : Op} {overrides : OrderedMap RackId AdminState}
    (hchange : op.changes = some rack) : (op.override overrides).find? rack = op.mode rack := by
  cases op with
  | setAdminState other state =>
    obtain rfl : other = rack := Option.some.inj hchange
    exact OrderedMap.find?_insert_self.trans (if_pos rfl).symm
  | clearAdminState other =>
    obtain rfl : other = rack := Option.some.inj hchange
    exact OrderedMap.find?_erase_self
  | «open» | close | restart | apply _ | retire | mintAuthority _ _ _ | revokeAuthority _ =>
    cases hchange

/-- The single record of a rack is composed in the mode of its override. -/
theorem effectiveSnapshot_mode {overrides : OrderedMap RackId AdminState} {evidence : PodSnapshot}
    (hrecord : (evidence.members.filter fun member => member.rack = rack) = [record]) :
    ((PodController.effectiveSnapshot overrides evidence).members.filter
      fun member => member.rack = rack) =
        [{ record with admin := (overrides.find? rack).getD record.admin }] := by
  obtain rfl : record.rack = rack := by
    have hmem : record ∈ evidence.members.filter fun member => member.rack = rack :=
      hrecord ▸ List.mem_singleton_self record
    simpa using (List.mem_filter.1 hmem).2
  rw [PodController.effectiveSnapshot, List.filter_map]
  simp only [Function.comp_def, hrecord, List.map_singleton]

/-- The records of a rack are composed in the mode of its override, if there is one. -/
theorem effectiveSnapshot_overridden {overrides : OrderedMap RackId AdminState}
    {evidence : PodSnapshot} {mode : AdminState} (hmode : overrides.find? rack = some mode) :
    ∀ record ∈ (PodController.effectiveSnapshot overrides evidence).members,
      record.rack = rack → record.admin = mode := by
  intro record hrecord hrack
  obtain ⟨member, -, rfl⟩ := List.mem_map.1 hrecord
  obtain rfl : member.rack = rack := hrack
  change (overrides.find? member.rack).getD member.admin = mode
  rw [hmode, Option.getD_some]

/-- A state shows its overrides: a rack with a single record is in the mode of its override, or in
that of the record without one, and a rack that is disabled is not trusted, whatever there is of
it. -/
theorem World.shows_override (hpub : w.published call = some st)
    (hmode : (call.op.override w.controller.adminOverrides).find? rack = mode) :
    (∀ record, ((w.evidence call).members.filter fun member => member.rack = rack) = [record] →
        ∀ m ∈ st.members, m.rack = rack → m.admin = mode.getD record.admin) ∧
      (mode = some .disabled → ∀ m ∈ st.members, m.rack = rack → ¬ m.Trusted) := by
  obtain ⟨-, request, hasks, hcompose, -⟩ := World.round_of_published hpub
  have hsnapshot := World.request_snapshot hasks
  refine ⟨fun record hrecord m hm hrack => ?_, fun hdisabled m hm hrack htrusted => ?_⟩
  · rw [← hmode]
    have honly := hsnapshot ▸ effectiveSnapshot_mode hrecord
    exact composed_admin hcompose honly hm hrack
  · obtain ⟨hestablished, -, hnot⟩ := htrusted
    obtain ⟨record, hby⟩ := compose_established hcompose hm hestablished
    have honly : (request.snapshot.members.filter fun member => member.rack = m.rack) = [record] :=
      hby.only
    have hmem : record ∈ request.snapshot.members.filter fun member => member.rack = m.rack :=
      honly ▸ List.mem_singleton_self record
    have hadmin : m.admin = record.admin := composed_admin hcompose honly hm rfl
    have hrecord : record ∈ (PodController.effectiveSnapshot
        (call.op.override w.controller.adminOverrides) (w.evidence call)).members :=
      hsnapshot ▸ (List.mem_filter.1 hmem).1
    have hown : record.rack = rack := by simpa [hrack] using (List.mem_filter.1 hmem).2
    exact hnot (hadmin.trans
      (effectiveSnapshot_overridden (hmode.trans hdisabled) record hrecord hown))

end Publish

/-- An override acts on each side of a link by itself. -/
theorem Overridden.perSide {rack : RackId} {mode : Option AdminState} :
    PerSide (Overridden rack mode) := by
  intro w w' h hsame hw
  refine ⟨h.consistent.of_controller rfl, h.memory, ?_⟩
  intro hdurable
  exact (hw hdurable).disk (hsame.trans hdurable)

/-- **A change of an override stands.** From a change that is acknowledged on, an open controller
has the rack's override in the mode it was put in, or has none if it was taken away, until the
override of this rack is changed again, whatever is done, what fails, and whether the controller is
closed and opened, or dies and recovers, if it is durable. Every state that is published meanwhile
shows it: a rack with a single record is in that mode, or in the mode of its record, and while it is
disabled no state trusts it. The journal of a durable controller may be torn before or after the
change, but the change itself is not committed behind a torn record. -/
theorem override_stands {options : ControllerOptions} {disk : DurableState} {torn : Bool}
    {calls : List StoredCall} {front middle : List (StoredWorld × StoredCall)}
    {x : StoredWorld × StoredCall} {rack : RackId}
    (hrestart : options.durable = true ∨ ∀ call ∈ calls, call.call.op ≠ .restart)
    (htrace : (StoredWorld.start options disk torn).trace calls = front ++ x :: middle)
    (hchange : x.2.call.op.changes = some rack) (hok : (x.1.answer x.2).ok = true)
    (hkept : options.durable = true → x.1.keeps x.2 = true)
    (hstays : ∀ y ∈ middle, y.2.call.op.changes ≠ some rack) :
    (((StoredWorld.start options disk torn).run calls).world.controller.isOpen = true →
      ((StoredWorld.start options disk torn).run calls).world.controller.adminOverrides.find? rack =
        x.2.call.op.mode rack) ∧
    ∀ y ∈ x :: middle, ∀ st, y.1.world.published y.2.call = some st →
      (∀ record, ((y.1.world.evidence y.2.call).members.filter fun member =>
          member.rack = rack) = [record] →
        ∀ m ∈ st.members, m.rack = rack →
          m.admin = (x.2.call.op.mode rack).getD record.admin) ∧
      (x.2.call.op.mode rack = some .disabled →
        ∀ m ∈ st.members, m.rack = rack → ¬ m.Trusted) := by
  obtain ⟨first, second, -, -, -, hmiddle⟩ := Run.trace_eq_cons htrace
  have hx : x ∈ (StoredWorld.start options disk torn).trace calls := by simp [htrace]
  obtain ⟨hconsistent, hdurable⟩ := StoredWorld.trace_consistent x hx
  have hset : Overridden rack (x.2.call.op.mode rack) (x.1.next x.2).world :=
    StoredWorld.next_begins Overridden.perSide (.of_changed hconsistent hchange hok)
      fun hd => hkept (hdurable.symm.trans hd)
  have hnext : ∀ y ∈ middle, Overridden rack (x.2.call.op.mode rack) y.1.world →
      Overridden rack (x.2.call.op.mode rack) (y.1.next y.2).world := by
    intro y hy h
    have hy' : y ∈ (StoredWorld.start options disk torn).trace calls := by simp [htrace, hy]
    refine StoredWorld.next_stands Overridden.perSide h (h.next (fun hop => ?_) (hstays y hy))
    rcases hrestart with hdurable | hnone
    · exact (StoredWorld.trace_consistent y hy').2.trans hdurable
    · exact absurd hop (hnone y.2 (Run.call_of_trace hy'))
  have hfinal := Run.final_of_trace (P := fun s : StoredWorld =>
    Overridden rack (x.2.call.op.mode rack) s.world) htrace hset hnext
  refine ⟨fun hopen => hfinal.memory (.inl hopen), fun y hy st hpub => ?_⟩
  rcases List.mem_cons.1 hy with rfl | hy
  · exact World.shows_override hpub (Op.override_changed hchange)
  · -- the state that a later round is composed in is the end of a run
    have hy' : Overridden rack (x.2.call.op.mode rack) y.1.world := by
      rw [← hmiddle] at hy hnext
      exact (Run.trace_invariant (P := fun s : StoredWorld =>
        Overridden rack (x.2.call.op.mode rack) s.world) hset hnext).1 y hy
    obtain ⟨hopen, -⟩ := World.round_of_published hpub
    exact World.shows_override hpub
      ((Op.override_other (hstays y hy)).trans (hy'.memory (.inl hopen)))

namespace Sample

/-- A durable controller is opened and given its evidence. -/
def observedCalls : List StoredCall := observing.map fun call => { call }

/-- The controller after these calls. -/
def observed : StoredWorld := (StoredWorld.start (options true) {} false).run observedCalls

/-- A rack is disabled. -/
def disabling : StoredCall := { call := ⟨.setAdminState rackA .disabled, env⟩ }

/-- The journal is torn, the process of the controller ends, and another one opens its
directory. -/
def replacement : List StoredCall :=
  [tornMint, { call := ⟨.restart, env⟩ }, { call := ⟨.«open», env⟩ }]

/-- A round of the sample evidence. -/
def nextRound : StoredCall := { call := round }

end Sample

/-- A rack that reports that it is enabled is still disabled in the next process. -/
theorem disabled_survives : ∃ st,
    ((Sample.observed.next Sample.disabling).run Sample.replacement).world.published
      Sample.round = some st ∧
        ∀ m ∈ st.members, m.rack = Sample.rackA → m.admin = .disabled ∧ ¬ m.Trusted := by
  have hpublishes : (((Sample.observed.next Sample.disabling).run
      Sample.replacement).world.published Sample.round).isSome = true := by decide +kernel
  obtain ⟨st, hst⟩ := Option.isSome_iff_exists.1 hpublishes
  have hok : (Sample.observed.answer Sample.disabling).ok = true := by decide +kernel
  have htrace : (StoredWorld.start (Sample.options true) {} false).trace
      (Sample.observedCalls ++ Sample.disabling :: (Sample.replacement ++ [Sample.nextRound])) =
      (StoredWorld.start (Sample.options true) {} false).trace Sample.observedCalls ++
        (Sample.observed, Sample.disabling) :: (Sample.observed.next Sample.disabling).trace
          (Sample.replacement ++ [Sample.nextRound]) := Run.trace_append
  have hstays : ∀ y ∈ (Sample.observed.next Sample.disabling).trace
      (Sample.replacement ++ [Sample.nextRound]), y.2.call.op.changes ≠ some Sample.rackA := by
    intro y hy
    have hcall : ∀ call ∈ Sample.replacement ++ [Sample.nextRound],
        call.call.op.changes ≠ some Sample.rackA := by
      simp [Sample.replacement, Sample.nextRound, Sample.tornMint, Sample.round, Op.changes]
    exact hcall y.2 (Run.call_of_trace hy)
  obtain ⟨-, hshown⟩ := override_stands (.inl rfl) htrace rfl hok (fun _ => by decide +kernel)
    hstays
  obtain ⟨hmode, hdisabled⟩ := hshown (_, Sample.nextRound)
    (.tail _ (.tail _ (.tail _ (.tail _ (.head _))))) st hst
  exact ⟨st, hst, fun m hm hrack => ⟨hmode _ rfl m hm hrack, hdisabled rfl m hm hrack⟩⟩

end PodFabric
