import PodFabric.Proof.Durable

/-!
# Epochs and fencing values never go back

An epoch that an open controller has shown is reached by every later one: the record that the
directory recovers to is at it or past it before the controller shows it, and a restart starts past
the record (`Reached`). The fencing value of a token is committed before the token is granted
(`Fenced`). So neither goes back over a history of one durable pod (`epochs_and_fencing_advance`).
-/

namespace PodFabric

/-! ## How a call moves the counters -/

/-- How a call of a durable controller moves the epoch and the fencing value, in memory and on
disk. -/
inductive Moved (w w' : World) : Prop
  | closed (closed : w'.controller.isOpen = false) (same : SameBeliefs w.disk w'.disk)
  | kept (wasOpen : w.controller.isOpen = true) (epoch : w'.controller.epoch = w.controller.epoch)
      (fencing : w.controller.fencing ≤ w'.controller.fencing) (disk : w'.disk = w.disk)
  | written (wasOpen : w.controller.isOpen = true) (identity : w'.disk.pod ≠ .nil)
      (epoch : w.controller.epoch ≤ w'.controller.epoch)
      (recorded : w'.controller.epoch ≤ w'.disk.epoch)
      (fencing : w.controller.fencing ≤ w'.controller.fencing)
      (fenced : w'.disk.fencing = w'.controller.fencing)
  | fresh (unused : w.disk.pod = .nil) (epoch : w'.controller.epoch = ⟨0⟩) (disk : w'.disk = w.disk)
  | recovered (identity : w.disk.pod ≠ .nil) (same : SameBeliefs w.disk w'.disk)
      (epoch : w.disk.epoch ≤ w'.controller.epoch)
      (recorded : w'.controller.epoch ≤ w'.disk.epoch)
      (fencing : w'.controller.fencing = w.disk.fencing)

/-- The first epoch is the least. -/
theorem PodEpoch.zero_le (epoch : PodEpoch) : (⟨0⟩ : PodEpoch) ≤ epoch :=
  show (0 : UInt64) ≤ epoch.value from UInt64.zero_le

section Step
variable {w w' : World} {call : Call} {c c₀ : PodController} {env : Env} {st : PodState}

/-- What an operation proposes is not behind the controller. -/
theorem Proposed.not_behind (h : Proposed c₀ env st) (hc : Coherent c₀) : c₀.epoch ≤ st.epoch := by
  cases h with
  | round evidence composed =>
    have hadvance := compose_epoch composed
    have hepoch : (c₀.request env evidence).context.epoch = c₀.epoch := rfl
    rw [hepoch] at hadvance
    have hle : c₀.epoch.value.toNat ≤ st.epoch.value.toNat := by omega
    exact UInt64.le_iff_toNat_le.2 hle
  | same same => rw [same, hc.epoch]

/-- An operation keeps the counters, or writes them. -/
theorem Operated.moved (h : Operated w call) (horderly : Orderly w)
    (hdurable : w.controller.options.durable = true) : Moved w (w.next call) := by
  cases h with
  | stopped c₀ prepared controller disk =>
    by_cases ho : w.controller.isOpen = true
    · refine .kept ho ?_ ?_ disk
      · rw [controller, prepared.epoch]
      · rw [controller]
        exact prepared.fencing
    · refine .closed ?_ ?_
      · rw [controller, prepared.isOpen]
        simpa using ho
      · rw [disk]
        exact .refl
  | reached c₀ c₁ st expectations tokens revoked writtenAt result ho prepared proposed persisted _
      failed done =>
    have hc₀ : Coherent c₀ := prepared.coherent (horderly.coherent ho)
    have hbehind : w.controller.epoch ≤ st.epoch := prepared.epoch ▸ proposed.not_behind hc₀
    have hpod : c₀.options.pod ≠ .nil := by
      rw [prepared.options]
      exact horderly.consistent.identity ho
    cases persisted with
    | memory store =>
      have hstore := horderly.consistent.store ho hdurable
      rw [← prepared.store, store] at hstore
      cases hstore
    | committed held _ _ controller written ok =>
      have htook := done ok
      have hepoch : (w.next call).disk.epoch = st.epoch := by rw [written]; rfl
      have hfencing : (w.next call).controller.fencing = c₀.fencing := by
        rw [htook.fencing, controller]
      refine .written ho ?_ ?_ ?_ ?_ ?_
      · rw [written]
        exact hpod
      · rw [htook.epoch]
        exact hbehind
      · rw [htook.epoch, hepoch]
      · rw [hfencing]
        exact prepared.fencing
      · rw [hfencing, written]
        rfl
    | failed held held' status _ _ controller written error =>
      have hnext : (w.next call).controller = { c₀ with store := some held' } :=
        (failed (by rw [error]; rfl)).trans controller
      have hepoch : (w.next call).controller.epoch = w.controller.epoch := by
        rw [hnext]
        exact prepared.epoch
      have hfencing : (w.next call).controller.fencing = c₀.fencing := by rw [hnext]
      rcases written with hdisk | hdisk
      · exact .kept ho hepoch (hfencing ▸ prepared.fencing) hdisk
      · refine .written ho ?_ hepoch.ge ?_ (hfencing ▸ prepared.fencing) ?_
        · rw [hdisk]
          exact hpod
        · rw [hepoch, hdisk]
          exact hbehind
        · rw [hfencing, hdisk]
          rfl

/-- How any call of a durable controller moves the counters. -/
theorem World.moved (horderly : Orderly w) (hdurable : w.controller.options.durable = true) :
    Moved w (w.next call) := by
  by_cases hop : call.op.operates = true
  · exact (w.operated call hop horderly.coherent).moved horderly hdurable
  · obtain ⟨c, disk⟩ := w
    obtain ⟨op, env⟩ := call
    cases op with
    | «open» =>
      change Moved ⟨c, disk⟩ ⟨(c.«open» disk env).controller, (c.«open» disk env).disk⟩
      cases open_opened c disk env with
      | refused refusal =>
        rw [refusal.controller, refusal.disk]
        cases ho : c.isOpen with
        | false => exact .closed ho .refl
        | true => exact .kept ho rfl le_rfl rfl
      | failed _ _ closed _ same => exact .closed closed same
      | fresh _ _ _ _ store memory same =>
        exact .fresh (store hdurable).1 (congrArg Memory.epoch memory) same
      | recovered _ _ _ _ identity recovered same _ inStep =>
        exact .recovered identity same recovered.epoch inStep.2.epoch.ge recovered.fencing
    | close =>
      obtain ⟨-, -, -, hclosed, hdisk⟩ := @close_standing c disk env
      refine .closed hclosed ?_
      change SameBeliefs disk (c.close disk env).disk
      rw [hdisk]
      exact .refl
    | restart => exact .closed rfl .refl
    | apply _ | setAdminState _ _ | clearAdminState _ | retire | mintAuthority _ _ _
    | revokeAuthority _ => exact absurd rfl hop

/-! ## Epochs -/

/-- The epoch is behind an open controller, and behind every later one over its directory. -/
structure Reached (epoch : PodEpoch) (w : World) : Prop where
  memory : w.controller.isOpen = true → epoch ≤ w.controller.epoch
  disk : epoch = ⟨0⟩ ∨ w.disk.pod ≠ .nil ∧ epoch ≤ w.disk.epoch

/-- A world that moves stays beyond the epochs it reached. -/
theorem Reached.moved {epoch : PodEpoch} (h : Reached epoch w) (hmoved : Moved w w') :
    Reached epoch w' := by
  cases hmoved with
  | closed closed same =>
    refine ⟨fun ho => ?_, h.disk.imp_right fun ⟨hpod, hle⟩ => ?_⟩
    · rw [closed] at ho
      cases ho
    · exact ⟨same.pod ▸ hpod, hle.trans same.epoch⟩
  | kept wasOpen hepoch _ disk =>
    refine ⟨fun _ => ?_, disk ▸ h.disk⟩
    rw [hepoch]
    exact h.memory wasOpen
  | written wasOpen identity hepoch recorded =>
    have hle : epoch ≤ w'.controller.epoch := (h.memory wasOpen).trans hepoch
    exact ⟨fun _ => hle, .inr ⟨identity, hle.trans recorded⟩⟩
  | fresh unused hepoch disk =>
    have hzero : epoch = ⟨0⟩ := h.disk.resolve_right fun hdisk => hdisk.1 unused
    exact ⟨fun _ => hzero ▸ PodEpoch.zero_le _, .inl hzero⟩
  | recovered identity same hepoch recorded =>
    have hle : epoch ≤ w.disk.epoch :=
      h.disk.elim (fun hzero => hzero ▸ PodEpoch.zero_le _) And.right
    exact ⟨fun _ => hle.trans hepoch, .inr ⟨same.pod ▸ identity, hle.trans same.epoch⟩⟩

/-- The epoch of an open controller is on record, unless it is the first. -/
def Recorded (w : World) : Prop :=
  w.controller.isOpen = true → Reached w.controller.epoch w

/-- A world that moves keeps its epoch on record. -/
theorem Recorded.moved (h : Recorded w) (hmoved : Moved w w') : Recorded w' := by
  intro ho
  refine ⟨fun _ => le_rfl, ?_⟩
  cases hmoved with
  | closed closed =>
    rw [closed] at ho
    cases ho
  | kept wasOpen hepoch _ disk =>
    rw [hepoch, disk]
    exact (h wasOpen).disk
  | written _ identity _ recorded => exact .inr ⟨identity, recorded⟩
  | fresh _ hepoch => exact .inl hepoch
  | recovered identity same _ recorded => exact .inr ⟨same.pod ▸ identity, recorded⟩

/-! ## Fencing values -/

/-- The fencing value is behind an open controller, and behind every later one over its
directory. -/
structure Fenced (fencing : FencingSequence) (w : World) : Prop where
  memory : w.controller.isOpen = true → fencing ≤ w.controller.fencing
  disk : w.disk.pod ≠ .nil ∧ fencing ≤ w.disk.fencing

/-- A world that moves stays beyond the fences it set. -/
theorem Fenced.moved {fencing : FencingSequence} (h : Fenced fencing w) (hmoved : Moved w w') :
    Fenced fencing w' := by
  obtain ⟨hpod, hdisk⟩ := h.disk
  cases hmoved with
  | closed closed same =>
    refine ⟨fun ho => ?_, same.pod ▸ hpod, same.fencing ▸ hdisk⟩
    rw [closed] at ho
    cases ho
  | kept wasOpen _ hfencing disk =>
    exact ⟨fun _ => (h.memory wasOpen).trans hfencing, disk ▸ h.disk⟩
  | written wasOpen identity _ _ hfencing fenced =>
    have hle : fencing ≤ w'.controller.fencing := (h.memory wasOpen).trans hfencing
    exact ⟨fun _ => hle, identity, fenced ▸ hle⟩
  | fresh unused => exact absurd unused hpod
  | recovered identity same _ _ hfencing =>
    exact ⟨fun _ => hfencing ▸ hdisk, same.pod ▸ hpod, same.fencing ▸ hdisk⟩

/-- A token is granted at a fencing value past that of the controller, once it is committed. -/
theorem World.granted {token : AuthorityToken} (horderly : Orderly w)
    (hdurable : w.controller.options.durable = true) (h : w.answer call = .granted token) :
    w.controller.isOpen = true ∧ w.controller.fencing < token.fencing ∧
      Fenced token.fencing (w.next call) := by
  have hok : (w.answer call).ok = true := by rw [h]; rfl
  have hop : call.op.operates = true := by
    obtain ⟨c, disk⟩ := w
    obtain ⟨op, env⟩ := call
    cases op with
    | «open» =>
      refine absurd h ?_
      exact step_no_grant (fun _ _ h => by cases h) token
    | close =>
      refine absurd h ?_
      exact step_no_grant (fun _ _ h => by cases h) token
    | restart => cases h
    | apply _ | setAdminState _ _ | clearAdminState _ | retire | mintAuthority _ _ _
    | revokeAuthority _ => rfl
  cases w.operated call hop horderly.coherent with
  | stopped _ _ _ _ failed => rw [failed] at hok; cases hok
  | reached c₀ c₁ st _ _ _ _ result ho prepared _ persisted answer _ done granted =>
    obtain ⟨hlt, hfencing⟩ := granted token h
    refine ⟨ho, hlt, ?_⟩
    cases persisted with
    | memory store =>
      have hstore := horderly.consistent.store ho hdurable
      rw [← prepared.store, store] at hstore
      cases hstore
    | failed _ _ _ _ _ _ _ error =>
      rw [answer, error] at hok
      cases hok
    | committed held _ _ controller written ok =>
      refine ⟨fun _ => ?_, ?_, ?_⟩
      · rw [(done ok).fencing, controller, hfencing]
      · rw [written]
        change c₀.options.pod ≠ .nil
        rw [prepared.options]
        exact horderly.consistent.identity ho
      · rw [written, hfencing]
        rfl

end Step

/-! ## Whole histories -/

/-- The state that a controller shows while it is open. -/
def World.shown (w : World) : Option PodState :=
  if w.controller.isOpen then some w.controller.state else none

/-- A world shows its published state when it is open. -/
theorem World.shown_eq_some {w : World} {st : PodState} (h : w.shown = some st) :
    w.controller.isOpen = true ∧ st = w.controller.state := by
  unfold World.shown at h
  split at h
  · next ho => exact ⟨ho, (Option.some.inj h).symm⟩
  · cases h

/-- Every step of a durable run moves on, with its epoch on record. -/
theorem trace_recorded {options : ControllerOptions} {disk : DurableState} {calls : List Call}
    (hdurable : options.durable = true) :
    ∀ x ∈ (World.start options disk).trace calls, Recorded x.1 ∧ Moved x.1 (x.1.next x.2) := by
  have hmoved : ∀ x ∈ (World.start options disk).trace calls, Moved x.1 (x.1.next x.2) :=
    fun x hx => World.moved (trace_orderly x hx) ((trace_consistent x hx).2.trans hdurable)
  have hstart : Recorded (World.start options disk) := fun ho => (by cases ho)
  have hall := (Run.trace_invariant hstart fun x hx h => h.moved (hmoved x hx)).1
  exact fun x hx => ⟨hall x hx, hmoved x hx⟩

/-- **Epochs and fencing values never go back.** Over every history of a durable pod, restarts and
failed operations included: a later state is at the epoch of an earlier one or past it; the opening
of a store that holds a pod that is not retired is past the epoch of every earlier state; and tokens
are granted at growing fencing values. -/
theorem epochs_and_fencing_advance {options : ControllerOptions} {disk : DurableState}
    {calls : List Call} {front middle back : List (World × Call)} {x y : World × Call}
    (hdurable : options.durable = true)
    (htrace : (World.start options disk).trace calls = front ++ x :: middle ++ y :: back) :
    (∀ st st', (x.1.next x.2).shown = some st → (y.1.next y.2).shown = some st' →
      st.epoch ≤ st'.epoch) ∧
    (∀ st st', (x.1.next x.2).shown = some st → (y.1.next y.2).shown = some st' →
      y.2.op = .«open» → (y.1.answer y.2).ok = true →
      y.1.disk.pod ≠ .nil → y.1.disk.lifecycle ≠ .retired → st.epoch < st'.epoch) ∧
    ∀ token token', x.1.answer x.2 = .granted token → y.1.answer y.2 = .granted token' →
      token.fencing < token'.fencing := by
  have hx : x ∈ (World.start options disk).trace calls := by simp [htrace]
  have hy : y ∈ (World.start options disk).trace calls := by simp [htrace]
  have hmoved : ∀ z ∈ middle, Moved z.1 (z.1.next z.2) := fun z hz =>
    have hz : z ∈ (World.start options disk).trace calls := by simp [htrace, hz]
    (trace_recorded hdurable z hz).2
  obtain ⟨hrecorded, hmovedx⟩ := trace_recorded hdurable x hx
  have hmovedy := (trace_recorded hdurable y hy).2
  have hreached : ∀ st, (x.1.next x.2).shown = some st → Reached st.epoch y.1 := by
    intro st hst
    obtain ⟨ho, rfl⟩ := World.shown_eq_some hst
    have hcoherent := (trace_orderly x hx).next.coherent ho
    refine Run.between htrace ?_ fun z hz h => h.moved (hmoved z hz)
    rw [hcoherent.epoch]
    exact hrecorded.moved hmovedx ho
  refine ⟨fun st st' hst hst' => ?_, fun st st' hst hst' hop hok hpod hlive => ?_,
    fun token token' htoken htoken' => ?_⟩
  · obtain ⟨ho, rfl⟩ := World.shown_eq_some hst'
    rw [((trace_orderly y hy).next.coherent ho).epoch]
    exact ((hreached st hst).moved hmovedy).memory ho
  · obtain ⟨ho, rfl⟩ := World.shown_eq_some hst'
    rw [((trace_orderly y hy).next.coherent ho).epoch]
    have hle : st.epoch ≤ y.1.disk.epoch :=
      (hreached st hst).disk.elim (fun hzero => hzero ▸ PodEpoch.zero_le _) And.right
    refine hle.trans_lt ?_
    obtain ⟨w, op, env⟩ := y
    subst hop
    exact (recovered_of_ok ((trace_consistent _ hy).2.trans hdurable) hpod
      (World.open_ok.symm.trans hok)).1.advanced hlive
  · have hfenced : Fenced token.fencing y.1 := by
      refine Run.between htrace ?_ fun z hz h => h.moved (hmoved z hz)
      exact (World.granted (trace_orderly x hx)
        ((trace_consistent x hx).2.trans hdurable) htoken).2.2
    obtain ⟨ho, hlt, -⟩ :=
      World.granted (trace_orderly y hy) ((trace_consistent y hy).2.trans hdurable) htoken'
    exact (hfenced.memory ho).trans_lt hlt

/-! ## Two incarnations of the sample pod -/

namespace Sample

/-- A request for a token of pod scope. -/
def mint : Call := ⟨.mintAuthority .pod .nil 10, env⟩

/-- The pod opened, given a token, and opened again by a new controller. -/
def reopened : World := (world true).run [mint, ⟨.restart, env⟩, ⟨.«open», env⟩]

/-- The token that a call grants. -/
def grantOf (w : World) (call : Call) : Option AuthorityToken :=
  match w.answer call with
  | .granted token => some token
  | _ => none

/-- A token that a call hands out is its answer. -/
theorem granted_of_grantOf {w : World} {call : Call} (h : (grantOf w call).isSome = true) :
    ∃ token, w.answer call = .granted token := by
  unfold grantOf at h
  split at h
  · next token ha => exact ⟨token, ha⟩
  · cases h

end Sample

/-- The second incarnation of the sample pod grants past the first one, at a later epoch. -/
theorem reopened_advances : ∃ token token',
    (Sample.world true).answer Sample.mint = .granted token ∧
    Sample.reopened.answer Sample.mint = .granted token' ∧ token.fencing < token'.fencing ∧
    ((Sample.world true).next Sample.mint).controller.state.epoch <
      Sample.reopened.controller.state.epoch := by
  let start := World.start (Sample.options true) {}
  let ended := (Sample.world true).run [Sample.mint, ⟨.restart, Sample.env⟩]
  obtain ⟨token, htoken⟩ := Sample.granted_of_grantOf
    (show (Sample.grantOf (Sample.world true) Sample.mint).isSome = true by decide +kernel)
  obtain ⟨token', htoken'⟩ := Sample.granted_of_grantOf
    (show (Sample.grantOf Sample.reopened Sample.mint).isSome = true by decide +kernel)
  have hmints : start.trace [⟨.«open», Sample.env⟩, Sample.mint, ⟨.restart, Sample.env⟩,
      ⟨.«open», Sample.env⟩, Sample.mint] = [(start, ⟨.«open», Sample.env⟩)] ++
        (Sample.world true, Sample.mint) ::
          [((Sample.world true).next Sample.mint, ⟨.restart, Sample.env⟩),
            (ended, ⟨.«open», Sample.env⟩)] ++ (Sample.reopened, Sample.mint) :: [] := rfl
  have hopens : start.trace [⟨.«open», Sample.env⟩, Sample.mint, ⟨.restart, Sample.env⟩,
      ⟨.«open», Sample.env⟩] = [(start, ⟨.«open», Sample.env⟩)] ++
        (Sample.world true, Sample.mint) ::
          [((Sample.world true).next Sample.mint, ⟨.restart, Sample.env⟩)] ++
            (ended, ⟨.«open», Sample.env⟩) :: [] := rfl
  refine ⟨token, token', htoken, htoken', ?_, ?_⟩
  · exact (epochs_and_fencing_advance rfl hmints).2.2 token token' htoken htoken'
  · have hshown : ((Sample.world true).next Sample.mint).controller.isOpen = true := by
      decide +kernel
    have hshown' : (ended.next ⟨.«open», Sample.env⟩).controller.isOpen = true := by decide +kernel
    exact (epochs_and_fencing_advance rfl hopens).2.1 _ _ (if_pos hshown) (if_pos hshown') rfl
      (by decide +kernel) (by decide +kernel) (by decide +kernel)

end PodFabric
