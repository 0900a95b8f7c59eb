import PodFabric.Proof.Identity

/-!
# Overrides over remembered evidence

A controller that composes again starts from the snapshot it composed last, which has the overrides
of that time laid over the evidence already. So a mode that an override put on a rack stays after
the override is taken away, until a client applies evidence again: taking an override away restores
the evidence exactly if the racks without an override were last composed under the mode that they
report (`clear_restores_iff`).
-/

namespace PodFabric

/-! ## Layers -/

/-- The evidence with modes laid over it. -/
def layered (modes : RackId → Option AdminState) (evidence : PodSnapshot) : PodSnapshot :=
  { evidence with
    members := evidence.members.map fun member =>
      { member with admin := (modes member.rack).getD member.admin } }

section Layers
variable {modes modes' : RackId → Option AdminState} {evidence : PodSnapshot}

/-- The effective snapshot is the evidence under the overrides. -/
theorem effectiveSnapshot_layered {overrides : OrderedMap RackId AdminState} :
    PodController.effectiveSnapshot overrides evidence = layered overrides.find? evidence := rfl

/-- A layer over a layer hides it where it has a mode. -/
theorem layered_layered : layered modes (layered modes' evidence) =
    layered (fun rack => (modes rack).or (modes' rack)) evidence := by
  unfold layered
  simp only [List.map_map]
  congr 1
  refine List.map_congr_left fun member _ => ?_
  simp only [Function.comp_apply]
  cases modes member.rack <;> rfl

/-- A larger layer shows the same as a part of it if it agrees with the evidence elsewhere. -/
theorem layered_eq_iff (hpart : ∀ rack mode, modes rack = some mode → modes' rack = some mode) :
    layered modes' evidence = layered modes evidence ↔ ∀ record ∈ evidence.members,
      modes record.rack = none → ∀ mode, modes' record.rack = some mode → mode = record.admin := by
  have hmembers : layered modes' evidence = layered modes evidence ↔
      ∀ record ∈ evidence.members,
        (modes' record.rack).getD record.admin = (modes record.rack).getD record.admin := by
    unfold layered
    simp only [PodSnapshot.ext_iff, and_true, true_and, List.map_inj_left, MemberRecord.ext_iff]
  rw [hmembers]
  refine forall₂_congr fun record _ => ?_
  cases hmode : modes record.rack with
  | some mode => simp [hpart _ _ hmode]
  | none => cases modes' record.rack <;> simp

end Layers

/-! ## What has been applied -/

/-- The evidence that a client applied last, and the mode of the override under which each rack was
composed last since, if there was one. -/
structure History where
  evidence : PodSnapshot
  modes : RackId → Option AdminState

/-- The evidence is composed again under the overrides. -/
def History.recomposed (h : History) (overrides : OrderedMap RackId AdminState) : History :=
  { h with modes := fun rack => (overrides.find? rack).or (h.modes rack) }

/-- The history after a call. -/
def History.after (h : Option History) (w : World) (call : Call) : Option History :=
  if (w.answer call).ok then
    match call.op with
    | .restart => none
    | .apply evidence => some ⟨evidence, (w.next call).controller.adminOverrides.find?⟩
    | .setAdminState _ _ | .clearAdminState _ =>
      h.map fun h => h.recomposed (w.next call).controller.adminOverrides
    | _ => h
  else h

/-- The history after some calls. -/
def World.history (w : World) (h : Option History) : List Call → Option History
  | [] => h
  | call :: calls => (w.next call).history (History.after h w call) calls

/-- The controller remembers the history: what it composed last is the evidence under the modes. -/
def Recalls (c : PodController) : Option History → Prop
  | none => c.haveLastEvidence = false
  | some h => c.haveLastEvidence = true ∧ c.lastEvidence = layered h.modes h.evidence

section Recalls
variable {c c' : PodController} {disk : DurableState} {env : Env} {h : Option History} {w : World}
  {call : Call}

/-- What a controller recalls depends on its last evidence only. -/
theorem Recalls.congr (hr : Recalls c h) (hlast : c'.lastEvidence = c.lastEvidence)
    (hhave : c'.haveLastEvidence = c.haveLastEvidence) : Recalls c' h := by
  cases h with
  | none => exact hhave.trans hr
  | some h => exact ⟨hhave.trans hr.1, hlast.trans hr.2⟩

/-- Composing again leaves the overrides alone. -/
theorem Recomposed.adminOverrides {reply : Reply Unit} (h : Recomposed c disk env reply) :
    reply.controller.adminOverrides = c.adminOverrides := by
  cases h with
  | composed _ round applied controller =>
    rw [controller]
    cases applied with
    | refused _ _ controller => rw [controller]
    | unsaved _ _ _ _ persisted => exact congrArg Memory.adminOverrides persisted.memory_eq
    | published _ _ _ _ persisted controller =>
      rw [controller]
      exact congrArg Memory.adminOverrides persisted.memory_eq
  | saved _ saved =>
    obtain ⟨_, persisted, -⟩ := saved
    exact congrArg Memory.adminOverrides persisted.memory_eq

/-- A round that composes again moves the history on if it succeeds, and leaves it otherwise. -/
theorem Recalls.recomposed (hr : Recalls c h) {reply : Reply Unit}
    (hreply : Recomposed c disk env reply) :
    Recalls reply.controller
      (if reply.result.isOk then h.map fun h => h.recomposed c.adminOverrides else h) := by
  cases hreply with
  | composed have_last round applied controller disk result =>
    cases h with
    | none => cases have_last.symm.trans hr
    | some h =>
    rw [controller, result]
    cases applied with
    | refused fault why controller disk error =>
      rw [controller, error]
      exact hr
    | unsaved composed status isOpen compose persisted error =>
      rw [error]
      have hu := persisted.untouched
      exact hr.congr hu.lastEvidence hu.haveLastEvidence
    | published composed c' isOpen compose persisted controller ok =>
      rw [controller, ok]
      refine ⟨rfl, ?_⟩
      change PodController.effectiveSnapshot c.adminOverrides c.lastEvidence = _
      rw [effectiveSnapshot_layered, hr.2, layered_layered]
      rfl
  | saved have_none saved =>
    cases h with
    | some h => cases have_none.symm.trans hr.1
    | none =>
    obtain ⟨result, persisted, result_eq⟩ := saved
    have hu := persisted.untouched
    have hkept : Recalls reply.controller none := hr.congr hu.lastEvidence hu.haveLastEvidence
    split <;> exact hkept

/-- A reply counts as a success if it has a result. -/
theorem step_ok {α : Type} {reply : Reply α} {answer : α → Answer} (h : ∀ x, (answer x).ok = true) :
    (reply.step answer).2.ok = reply.result.isOk := by
  unfold Reply.step
  cases reply.result with
  | error fault => rfl
  | ok x => exact h x

/-- A controller that nothing touched recalls the same. -/
theorem Recalls.untouched (hr : Recalls c h) (hu : Untouched c c') : Recalls c' h :=
  hr.congr hu.lastEvidence hu.haveLastEvidence

/-- A refused call leaves what the controller recalls. -/
theorem Recalls.refusal {α : Type} {reply : Reply α} (hr : Recalls c h)
    (hrefusal : Refusal c disk reply) : Recalls reply.controller h := by
  rw [hrefusal.controller]
  exact hr

/-- Every call is remembered. -/
theorem Recalls.next (hr : Recalls w.controller h) :
    Recalls (w.next call).controller (History.after h w call) := by
  obtain ⟨c, disk⟩ := w
  obtain ⟨op, env⟩ := call
  cases op with
  | restart => exact rfl
  | «open» =>
    rw [History.after, ite_self]
    change Recalls (c.«open» disk env).controller h
    cases open_opened c disk env with
    | refused refusal => exact hr.refusal refusal
    | failed _ reopened => exact hr.congr reopened.lastEvidence reopened.haveLastEvidence
    | fresh _ _ reopened => exact hr.congr reopened.lastEvidence reopened.haveLastEvidence
    | recovered _ _ reopened => exact hr.congr reopened.lastEvidence reopened.haveLastEvidence
  | close =>
    rw [History.after, ite_self]
    obtain ⟨-, -, hlast, hhave⟩ := @close_keeps c disk env
    exact hr.congr hlast hhave
  | apply evidence =>
    change Recalls (c.apply disk env evidence).controller
      (if ((c.apply disk env evidence).step Answer.applied).2.ok then
        some ⟨evidence, (c.apply disk env evidence).controller.adminOverrides.find?⟩ else h)
    rw [step_ok fun _ => rfl]
    cases apply_applied c disk env evidence with
    | refused fault _ controller _ error =>
      rw [error, controller]
      exact hr
    | unsaved _ _ _ _ persisted error =>
      rw [error]
      exact hr.untouched persisted.untouched
    | published _ c' _ _ persisted controller ok =>
      rw [ok, controller]
      have hoverrides : c'.adminOverrides = c.adminOverrides :=
        congrArg Memory.adminOverrides persisted.untouched.memory
      refine ⟨rfl, ?_⟩
      change layered c.adminOverrides.find? evidence = layered c'.adminOverrides.find? evidence
      rw [hoverrides]
  | setAdminState rack state =>
    change Recalls (c.setAdminState disk env rack state).controller
      (if ((c.setAdminState disk env rack state).step fun _ => Answer.done).2.ok then
        h.map fun h => h.recomposed (c.setAdminState disk env rack state).controller.adminOverrides
        else h)
    rw [step_ok fun _ => rfl]
    rcases setAdminState_cases c disk env rack state with ⟨-, hrefusal⟩ | ⟨-, -, -, hrecomposed⟩
    · obtain ⟨status, herror⟩ := hrefusal.error
      rw [herror]
      exact hr.refusal hrefusal
    · have hset : Recalls { c with adminOverrides := c.adminOverrides.insert rack state } h :=
        hr.congr rfl rfl
      rw [hrecomposed.adminOverrides]
      exact hset.recomposed hrecomposed
  | clearAdminState rack =>
    change Recalls (c.clearAdminState disk env rack).controller
      (if ((c.clearAdminState disk env rack).step fun _ => Answer.done).2.ok then
        h.map fun h => h.recomposed (c.clearAdminState disk env rack).controller.adminOverrides
        else h)
    rw [step_ok fun _ => rfl]
    rcases clearAdminState_cases c disk env rack with ⟨-, hrefusal⟩ | ⟨-, -, hrecomposed⟩
    · obtain ⟨status, herror⟩ := hrefusal.error
      rw [herror]
      exact hr.refusal hrefusal
    · have hcleared : Recalls { c with adminOverrides := c.adminOverrides.erase rack } h :=
        hr.congr rfl rfl
      rw [hrecomposed.adminOverrides]
      exact hcleared.recomposed hrecomposed
  | retire =>
    rw [History.after, ite_self]
    change Recalls (c.retire disk env).controller h
    rcases retire_cases c disk env with ⟨-, hrefusal⟩ | ⟨-, -, _, persisted, -⟩
    · exact hr.refusal hrefusal
    · have hretiring : Recalls c.retiring h := hr.congr rfl rfl
      exact hretiring.untouched persisted.untouched
  | mintAuthority scope subject lifetime =>
    rw [History.after, ite_self]
    change Recalls (c.mintAuthority disk env scope subject lifetime).controller h
    cases mintAuthority_minted c disk env scope subject lifetime with
    | refused _ refusal => exact hr.refusal refusal
    | reached _ id _ expiresAt _ _ fencing _ result c' persisted ends =>
      have hfenced : Recalls { c with fencing } h := hr.congr rfl rfl
      have hkept := hfenced.untouched persisted.untouched
      rcases ends with ⟨_, -, hcontroller, -⟩ | ⟨-, hcontroller, -⟩
      · rw [hcontroller]
        exact hkept
      · rw [hcontroller]
        exact hkept.congr rfl rfl
  | revokeAuthority lease =>
    rw [History.after, ite_self]
    change Recalls (c.revokeAuthority disk env lease).controller h
    rcases revokeAuthority_cases c disk env lease with
      ⟨-, hrefusal⟩ | ⟨-, -, -, _, c', persisted, ends⟩
    · exact hr.refusal hrefusal
    · have hrevoked : Recalls { c with revoked := c.revoked ++ [lease] } h := hr.congr rfl rfl
      have hkept := hrevoked.untouched persisted.untouched
      rcases ends with ⟨_, -, hcontroller, -⟩ | ⟨-, hcontroller, -⟩
      · rw [hcontroller]
        exact hkept
      · rw [hcontroller]
        exact hkept.congr rfl rfl

/-- What a controller recalls over a run is the run's history. Induction on the calls. -/
theorem Recalls.run : ∀ {w : World} {h : Option History} {calls : List Call},
    Recalls w.controller h → Recalls (w.run calls).controller (w.history h calls)
  | _, _, [], hr => hr
  | _, _, _ :: _, hr => hr.next.run

end Recalls

/-! ## Changes of overrides -/

/-- The call changes the override of the rack. -/
def Op.changes : Op → Option RackId
  | .setAdminState rack _ | .clearAdminState rack => some rack
  | _ => none

/-- The overrides once the call has changed them. -/
def Op.override (overrides : OrderedMap RackId AdminState) : Op → OrderedMap RackId AdminState
  | .setAdminState rack state => overrides.insert rack state
  | .clearAdminState rack => overrides.erase rack
  | _ => overrides

/-- The mode that the call puts the rack in, if it does. -/
def Op.mode (rack : RackId) : Op → Option AdminState
  | .setAdminState other state => if other = rack then some state else none
  | _ => none

/-- The overrides that calls leave when all of them succeed. -/
def overridesAfter (overrides : OrderedMap RackId AdminState) (calls : List Call) :
    OrderedMap RackId AdminState :=
  calls.foldl (fun overrides call => call.op.override overrides) overrides

/-- The mode that the calls put the rack in last. -/
def lastMode (rack : RackId) : List Call → Option AdminState
  | [] => none
  | call :: calls => (lastMode rack calls).or (call.op.mode rack)

/-- The modes show every override. -/
def Shows (modes : RackId → Option AdminState) (overrides : OrderedMap RackId AdminState) : Prop :=
  ∀ rack mode, overrides.find? rack = some mode → modes rack = some mode

section Changes
variable {w : World} {h : History} {call : Call} {rack : RackId}
  {overrides : OrderedMap RackId AdminState}

/-- What was composed again shows the overrides. -/
theorem History.recomposed_shows : Shows (h.recomposed overrides).modes overrides :=
  fun rack mode hmode => by simp [History.recomposed, hmode]

/-- A change of an override that succeeds is composed. -/
theorem changed_recomposed (hchange : call.op.changes.isSome) (hok : (w.answer call).ok = true) :
    ∃ reply, Recomposed { w.controller with
        adminOverrides := call.op.override w.controller.adminOverrides } w.disk call.env reply ∧
      (w.next call).controller = reply.controller ∧ reply.result = .ok () := by
  obtain ⟨c, disk⟩ := w
  obtain ⟨op, env⟩ := call
  have hresult {reply : Reply Unit} (hok : (reply.step fun _ => Answer.done).2.ok = true) :
      reply.result = .ok () := by
    rw [step_ok fun _ => rfl] at hok
    cases hreply : reply.result with
    | error fault =>
      rw [hreply] at hok
      cases hok
    | ok => rfl
  have hfailed {reply : Reply Unit} (hrefusal : Refusal c disk reply) : reply.result ≠ .ok () := by
    obtain ⟨status, herror⟩ := hrefusal.error
    rw [herror]
    exact nofun
  cases op with
  | setAdminState rack state =>
    have hdone : (c.setAdminState disk env rack state).result = .ok () := hresult hok
    rcases setAdminState_cases c disk env rack state with ⟨-, hrefusal⟩ | ⟨-, -, -, hrecomposed⟩
    · exact absurd hdone (hfailed hrefusal)
    · exact ⟨_, hrecomposed, rfl, hdone⟩
  | clearAdminState rack =>
    have hdone : (c.clearAdminState disk env rack).result = .ok () := hresult hok
    rcases clearAdminState_cases c disk env rack with ⟨-, hrefusal⟩ | ⟨-, -, hrecomposed⟩
    · exact absurd hdone (hfailed hrefusal)
    · exact ⟨_, hrecomposed, rfl, hdone⟩
  | «open» | close | restart | apply _ | retire | mintAuthority _ _ _ | revokeAuthority _ =>
    cases hchange

/-- A successful change leaves the override it asks for, and the history of having composed again.
-/
theorem changed_next (hchange : call.op.changes.isSome) (hok : (w.answer call).ok = true) :
    (w.next call).controller.adminOverrides = call.op.override w.controller.adminOverrides ∧
      History.after (some h) w call =
        some (h.recomposed (call.op.override w.controller.adminOverrides)) := by
  obtain ⟨reply, hrecomposed, hnext, -⟩ := changed_recomposed hchange hok
  have hoverrides : (w.next call).controller.adminOverrides =
      call.op.override w.controller.adminOverrides := hnext ▸ hrecomposed.adminOverrides
  refine ⟨hoverrides, ?_⟩
  rw [History.after, if_pos hok, ← hoverrides]
  obtain ⟨op, env⟩ := call
  cases op with
  | setAdminState rack state | clearAdminState rack => rfl
  | «open» | close | restart | apply _ | retire | mintAuthority _ _ _ | revokeAuthority _ =>
    cases hchange

/-- Where the modes show the overrides, a change adds its own mode. -/
theorem recomposed_modes (hshows : Shows h.modes overrides) (hchange : call.op.changes.isSome) :
    (h.recomposed (call.op.override overrides)).modes rack =
      (call.op.mode rack).or (h.modes rack) := by
  obtain ⟨op, env⟩ := call
  have hown : (overrides.find? rack).or (h.modes rack) = h.modes rack := by
    cases hfind : overrides.find? rack with
    | none => rfl
    | some mode => exact (hshows rack mode hfind).symm
  cases op with
  | setAdminState other state =>
    simp only [History.recomposed, Op.override, Op.mode, OrderedMap.find?_insert]
    by_cases hsame : other = rack
    · rw [if_pos hsame, if_pos hsame.symm]
    · rw [if_neg hsame, if_neg (Ne.symm hsame)]
      exact hown
  | clearAdminState other =>
    simp only [History.recomposed, Op.override, Op.mode, OrderedMap.find?_erase]
    split
    · rfl
    · exact hown
  | «open» | close | restart | apply _ | retire | mintAuthority _ _ _ | revokeAuthority _ =>
    cases hchange

/-- What some changes of overrides leave, if all of them succeed. -/
theorem changed_run : ∀ {w : World} {h : History} {calls : List Call},
    (∀ call ∈ calls, call.op.changes.isSome) →
    (∀ x ∈ w.trace calls, (x.1.answer x.2).ok = true) →
    Shows h.modes w.controller.adminOverrides →
    (w.run calls).controller.adminOverrides = overridesAfter w.controller.adminOverrides calls ∧
      w.history (some h) calls =
        some ⟨h.evidence, fun rack => (lastMode rack calls).or (h.modes rack)⟩ ∧
      Shows (fun rack => (lastMode rack calls).or (h.modes rack))
        (overridesAfter w.controller.adminOverrides calls)
  | _, _, [], _, _, hshows => ⟨rfl, rfl, hshows⟩
  | w, h, call :: calls, hchanges, hok, hshows => by
    rw [List.forall_mem_cons] at hchanges
    rw [World.trace, Run.trace_cons, List.forall_mem_cons] at hok
    obtain ⟨hoverrides, hafter⟩ := @changed_next w h call hchanges.1 hok.1
    have hnext : Shows (h.recomposed (call.op.override w.controller.adminOverrides)).modes
        (w.next call).controller.adminOverrides := by
      rw [hoverrides]
      exact History.recomposed_shows
    obtain ⟨hrun, hhistory, hrunShows⟩ := changed_run hchanges.2 hok.2 hnext
    have hmodes : (fun rack => (lastMode rack calls).or
        ((h.recomposed (call.op.override w.controller.adminOverrides)).modes rack)) =
          fun rack => (lastMode rack (call :: calls)).or (h.modes rack) := by
      funext rack
      rw [recomposed_modes hshows hchanges.1, lastMode, Option.or_assoc]
    rw [hoverrides] at hrun hrunShows
    rw [hmodes] at hhistory hrunShows
    refine ⟨hrun, ?_, hrunShows⟩
    rw [World.history, hafter]
    exact hhistory

end Changes

/-! ## Taking an override away -/

/-- An override is set, more overrides are changed, and the first is taken away. -/
def clearing (rack : RackId) (mode : AdminState) (env env' : Env) (calls : List Call) : List Call :=
  ⟨.setAdminState rack mode, env⟩ :: (calls ++ [⟨.clearAdminState rack, env'⟩])

/-- The snapshot that was composed last is the evidence under the overrides that are left, and the
state has the rack in the mode that its record reports. -/
structure Restored (evidence : PodSnapshot) (rack : RackId) (c : PodController) : Prop where
  snapshot : c.lastEvidence = PodController.effectiveSnapshot c.adminOverrides evidence
  mode : ∀ record, (evidence.members.filter fun member => member.rack = rack) = [record] →
    ∀ m ∈ c.state.members, m.rack = rack → m.admin = record.admin

/-- The racks of the evidence that are without an override at the end report the mode that they were
under last: one of the calls put them in it, or an override that was there before, or one that was
there in a round before. -/
def Unstained (h : History) (overrides : OrderedMap RackId AdminState) (calls : List Call) : Prop :=
  ∀ record ∈ h.evidence.members, (overridesAfter overrides calls).find? record.rack = none →
    ∀ mode, ((lastMode record.rack calls).or
      ((overrides.find? record.rack).or (h.modes record.rack))) = some mode → mode = record.admin

/-- The state has a rack in the mode of its only record. -/
theorem composed_admin {request : CompositionRequest} {st : PodState} {rack : RackId}
    {record : MemberRecord} {m : MemberVerdict} (hst : compose request = .ok st)
    (hrecord : (request.snapshot.members.filter fun member => member.rack = rack) = [record])
    (hm : m ∈ st.members) (hrack : m.rack = rack) : m.admin = record.admin := by
  obtain ⟨p, -, hpasses, rfl⟩ := compose_passesOf hst
  obtain ⟨work, hwork, rfl⟩ := mem_finalise_members.1 hm
  obtain ⟨rack', -, rfl⟩ := hpasses.mem_members.1 hwork
  obtain rfl : rack' = rack := evaluateMember_keeps.verdictRack.symm.trans hrack
  change (memberWork request rack').verdict.admin = record.admin
  unfold memberWork
  rw [hrecord]
  rcases @evaluateMember_cases request.policy request.snapshot.observedAt rack' [record]
    (request.context.expectations.findRev? fun expectation => expectation.rack = rack') with
    ⟨record', hsame, hjudged⟩ | ⟨hnot, -⟩
  · obtain rfl : record = record' := List.head_eq_of_cons_eq hsame
    cases hjudged with
    | withheld _ reports => exact reports.admin
    | established _ reports => exact reports.admin
  · exact absurd rfl (hnot record)

/-- A round that composes again publishes the state of the snapshot it leaves behind. -/
theorem Recomposed.state {c : PodController} {disk : DurableState} {env : Env} {reply : Reply Unit}
    (h : Recomposed c disk env reply) (hdone : reply.result = .ok ())
    (hhave : reply.controller.haveLastEvidence = true) :
    ∃ request, compose request = .ok reply.controller.state ∧
      reply.controller.lastEvidence = request.snapshot := by
  cases h with
  | composed have_last round applied controller disk result =>
    rw [result] at hdone
    rw [controller]
    cases applied with
    | refused _ _ _ _ error => rw [error] at hdone; cases hdone
    | unsaved _ _ _ _ _ error => rw [error] at hdone; cases hdone
    | published composed c' _ hcompose _ controller =>
      rw [controller]
      exact ⟨_, hcompose, rfl⟩
  | saved have_none saved =>
    obtain ⟨_, persisted, -⟩ := saved
    cases (have_none.symm.trans persisted.untouched.haveLastEvidence.symm).trans hhave

/-- The only record of a rack without an override is composed as it is. -/
theorem effectiveSnapshot_record {overrides : OrderedMap RackId AdminState} {evidence : PodSnapshot}
    {rack : RackId} {record : MemberRecord} (hnone : overrides.find? rack = none)
    (hrecord : (evidence.members.filter fun member => member.rack = rack) = [record]) :
    ((PodController.effectiveSnapshot overrides evidence).members.filter
      fun member => member.rack = rack) = [record] := by
  obtain rfl : record.rack = rack := by
    have hmem : record ∈ evidence.members.filter fun member => member.rack = rack :=
      hrecord ▸ List.mem_singleton_self record
    simpa using (List.mem_filter.1 hmem).2
  unfold PodController.effectiveSnapshot
  rw [List.filter_map]
  simp only [Function.comp_def, hrecord, List.map_singleton, hnone, Option.getD_none]

section Clearing
variable {options : ControllerOptions} {disk : DurableState} {before calls : List Call}
  {h : History} {rack : RackId} {mode : AdminState} {env env' : Env}

/-- What the calls leave of a history that the controller remembers. -/
theorem cleared_history {w : World} (hchanges : ∀ call ∈ calls, call.op.changes.isSome)
    (hok : ∀ x ∈ w.trace (clearing rack mode env env' calls), (x.1.answer x.2).ok = true) :
    (w.run (clearing rack mode env env' calls)).controller.adminOverrides =
        overridesAfter w.controller.adminOverrides (clearing rack mode env env' calls) ∧
      w.history (some h) (clearing rack mode env env' calls) =
        some ⟨h.evidence, fun other => (lastMode other (clearing rack mode env env' calls)).or
          ((w.controller.adminOverrides.find? other).or (h.modes other))⟩ ∧
      Shows (fun other => (lastMode other (clearing rack mode env env' calls)).or
          ((w.controller.adminOverrides.find? other).or (h.modes other)))
        (overridesAfter w.controller.adminOverrides (clearing rack mode env env' calls)) := by
  rw [clearing, World.trace, Run.trace_cons, List.forall_mem_cons] at hok
  obtain ⟨hoverrides, hafter⟩ := @changed_next w h ⟨.setAdminState rack mode, env⟩ rfl hok.1
  have hnext : Shows (h.recomposed (w.controller.adminOverrides.insert rack mode)).modes
      (w.next ⟨.setAdminState rack mode, env⟩).controller.adminOverrides := by
    rw [hoverrides]
    exact History.recomposed_shows
  have hrest : ∀ call ∈ calls ++ [⟨.clearAdminState rack, env'⟩], call.op.changes.isSome := by
    intro call hcall
    rcases List.mem_append.1 hcall with hcall | hcall
    · exact hchanges call hcall
    · rw [List.mem_singleton.1 hcall]
      rfl
  obtain ⟨hrun, hhistory, hshows⟩ := changed_run hrest hok.2 hnext
  have hmodes : (fun other => (lastMode other (calls ++ [⟨.clearAdminState rack, env'⟩])).or
      ((h.recomposed (w.controller.adminOverrides.insert rack mode)).modes other)) =
        fun other => (lastMode other (clearing rack mode env env' calls)).or
          ((w.controller.adminOverrides.find? other).or (h.modes other)) := by
    funext other
    rw [clearing, lastMode, Option.or_assoc]
    simp only [History.recomposed, OrderedMap.find?_insert, Op.mode]
    by_cases hsame : rack = other
    · rw [if_pos hsame, if_pos hsame.symm]
      rfl
    · rw [if_neg hsame, if_neg (Ne.symm hsame)]
      rfl
  rw [hmodes] at hhistory hshows
  rw [hoverrides] at hrun hshows
  refine ⟨hrun, ?_, hshows⟩
  rw [clearing, World.history, hafter]
  exact hhistory

/-- **Taking an override away restores the evidence just when no rack without an override is left in
a mode that it does not report.** -/
theorem clear_restores_iff (hhistory : (World.start options disk).history none before = some h)
    (hchanges : ∀ call ∈ calls, call.op.changes.isSome)
    (hok : ∀ x ∈ ((World.start options disk).run before).trace
      (clearing rack mode env env' calls), (x.1.answer x.2).ok = true) :
    Restored h.evidence rack
        (((World.start options disk).run before).run (clearing rack mode env env' calls)).controller
          ↔
      Unstained h ((World.start options disk).run before).controller.adminOverrides
        (clearing rack mode env env' calls) := by
  have hrecalls : Recalls ((World.start options disk).run before).controller (some h) := by
    rw [← hhistory]
    exact Recalls.run rfl
  generalize (World.start options disk).run before = w at hok hrecalls ⊢
  obtain ⟨hoverrides, hafter, hshows⟩ := @cleared_history _ h _ _ _ _ w hchanges hok
  have hrun : Recalls (w.run (clearing rack mode env env' calls)).controller
      (w.history (some h) (clearing rack mode env env' calls)) := hrecalls.run
  rw [hafter] at hrun
  have hsnapshot : (w.run (clearing rack mode env env' calls)).controller.lastEvidence =
      PodController.effectiveSnapshot
        (w.run (clearing rack mode env env' calls)).controller.adminOverrides h.evidence ↔
          Unstained h w.controller.adminOverrides (clearing rack mode env env' calls) := by
    rw [hrun.2, hoverrides, effectiveSnapshot_layered, layered_eq_iff hshows]
    rfl
  constructor
  · exact fun hrestored => hsnapshot.1 hrestored.snapshot
  · intro hunstained
    have hsame := hsnapshot.2 hunstained
    refine ⟨hsame, fun record hrecord m hm hrack => ?_⟩
    -- the last call composes the snapshot that it leaves behind
    have hlast : w.run (clearing rack mode env env' calls) =
        (w.run (⟨.setAdminState rack mode, env⟩ :: calls)).next ⟨.clearAdminState rack, env'⟩ := by
      rw [clearing, ← List.cons_append, World.run, Run.final_append]
      rfl
    have hlastOk : ((w.run (⟨.setAdminState rack mode, env⟩ :: calls)).answer
        ⟨.clearAdminState rack, env'⟩).ok = true := by
      refine hok (_, _) ?_
      rw [clearing, ← List.cons_append, World.trace, Run.trace_append]
      exact List.mem_append_right _ (List.mem_singleton_self _)
    obtain ⟨reply, hrecomposed, hnext, hdone⟩ := changed_recomposed rfl hlastOk
    rw [← hlast] at hnext
    rw [hnext] at hrun hsame hm
    obtain ⟨request, hcompose, hleft⟩ := hrecomposed.state hdone hrun.1
    have hnone : reply.controller.adminOverrides.find? rack = none := by
      rw [hrecomposed.adminOverrides]
      exact OrderedMap.find?_erase_self
    refine composed_admin hcompose ?_ hm hrack
    rw [← hleft, hsame]
    exact effectiveSnapshot_record hnone hrecord

end Clearing

/-- The sample evidence is applied to a controller that is opened. -/
theorem sample_history : (World.start (Sample.options false) {}).history none
    [⟨.«open», Sample.env⟩, Sample.round] =
      some ⟨Sample.snapshot, ((Sample.world false).next
        Sample.round).controller.adminOverrides.find?⟩ := by
  have hround : ((Sample.world false).answer Sample.round).ok = true := by decide +kernel
  rw [World.history, World.history, World.history, History.after]
  exact if_pos hround

/-- A rack that reports that it is enabled is enabled by the operator, and left alone again. -/
theorem enabled_restored : ∃ h, (World.start (Sample.options false) {}).history none
      [⟨.«open», Sample.env⟩, Sample.round] = some h ∧
    Restored h.evidence Sample.rackA (((World.start (Sample.options false) {}).run
      [⟨.«open», Sample.env⟩, Sample.round]).run
        (clearing Sample.rackA .enabled Sample.env Sample.env [])).controller := by
  refine ⟨_, sample_history, (clear_restores_iff sample_history (by simp) ?_).2 ?_⟩
  · decide +kernel
  · have hall : ∀ record ∈ Sample.snapshot.members,
        ((lastMode record.rack (clearing Sample.rackA .enabled Sample.env Sample.env [])).or
          ((((World.start (Sample.options false) {}).run
            [⟨.«open», Sample.env⟩, Sample.round]).controller.adminOverrides.find? record.rack).or
              (((Sample.world false).next Sample.round).controller.adminOverrides.find?
                record.rack))) ∈ [none, some record.admin] := by
      decide +kernel
    intro record hrecord _ mode hmode
    have hmem := hall record hrecord
    rw [hmode] at hmem
    simpa using hmem

/-- A rack is put in maintenance, and stays there when its override is taken away. -/
theorem maintenance_stays : ¬ ∀ (options : ControllerOptions) (disk : DurableState)
    (before calls : List Call) (h : History) (rack : RackId) (mode : AdminState) (env env' : Env),
    (World.start options disk).history none before = some h →
    ((World.start options disk).run before).controller.adminOverrides.find? rack = none →
    (∀ call ∈ calls, ∃ other, call.op.changes = some other ∧ other ≠ rack) →
    (∀ x ∈ ((World.start options disk).run before).trace (clearing rack mode env env' calls),
      (x.1.answer x.2).ok = true) →
    Restored h.evidence rack (((World.start options disk).run before).run
      (clearing rack mode env env' calls)).controller := by
  intro hclaim
  have hrestored := hclaim (Sample.options false) {} [⟨.«open», Sample.env⟩, Sample.round] [] _
    Sample.rackA .maintenance Sample.env Sample.env sample_history (by decide +kernel) (by simp)
    (by decide +kernel)
  have hstays : (((World.start (Sample.options false) {}).run
      [⟨.«open», Sample.env⟩, Sample.round]).run
        (clearing Sample.rackA .maintenance Sample.env Sample.env [])).controller.state.members.map
          (fun m => (m.rack, m.admin)) =
            [(Sample.rackA, .maintenance), (Sample.rackB, .enabled)] := by decide +kernel
  have hmem : (Sample.rackA, AdminState.maintenance) ∈ _ := hstays ▸ List.mem_cons_self ..
  obtain ⟨m, hm, hview⟩ := List.mem_map.1 hmem
  obtain ⟨hrack, hadmin⟩ := Prod.mk.inj hview
  have henabled := hrestored.mode (Sample.member Sample.rackA ⟨1⟩) (by decide +kernel) m hm hrack
  exact absurd (hadmin.symm.trans henabled) (by decide)

end PodFabric
