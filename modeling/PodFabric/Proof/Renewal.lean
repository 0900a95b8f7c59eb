import PodFabric.Proof.Frames
import PodFabric.Proof.Identity

/-!
# Opening a controller again

A controller that is closed and opened again keeps more than its store directory does. It is the
same to its clients as a new controller over the directory exactly if it has published no round and,
unless the store recovers a record for it, has no token, lease, override or fencing value
(`renewal_iff`).
-/

namespace PodFabric

/-! ## What a client can tell -/

/-- The evidence that the operations on overrides are applied to, if there is any. -/
def PodController.replays (c : PodController) : Option PodSnapshot :=
  if c.haveLastEvidence then some c.lastEvidence else none

/-- A client cannot tell the two apart: by the state, by what later rounds and administrative
operations start from, by the flags of a recovery, or by the answers to any later calls. -/
structure Indistinguishable (w w' : World) : Prop where
  state : w'.controller.state = w.controller.state
  expectations : w'.controller.expectations = w.controller.expectations
  tokens : w'.controller.tokens = w.controller.tokens
  revoked : w'.controller.revoked = w.controller.revoked
  adminOverrides : w'.controller.adminOverrides = w.controller.adminOverrides
  replays : w'.controller.replays = w.controller.replays
  recoveredRound : w'.controller.recoveredRound = w.controller.recoveredRound
  ambiguousCommit : w'.controller.ambiguousCommit = w.controller.ambiguousCommit
  recovery : w'.controller.recovery = w.controller.recovery
  answers : ∀ calls call, (w'.run calls).answer call = (w.run calls).answer call

/-! ## What a controller has from its runs -/

/-- What the fields of a controller that opening does not set tell about its run. -/
structure Traceable (w : World) : Prop where
  policy : (PodController.new w.controller.options).options = w.controller.options
  unfed : w.controller.haveLastEvidence = false → w.controller.index = {} ∧
    w.controller.lastEvidence = {} ∧ w.controller.contextLifecycle = .constructing
  memoryOnly : w.controller.options.durable = false →
    w.controller.recovery = {} ∧ w.controller.store = none
  fenced : w.controller.fencedOnRestart ≠ 0 → w.controller.options.durable = true ∧
    w.controller.options.pod ≠ .nil ∧ w.disk.pod = w.controller.options.pod

/-- What the operations on an open controller leave of these fields. -/
structure Spares (w w' : World) : Prop where
  options : w'.controller.options = w.controller.options
  recovery : w'.controller.recovery = w.controller.recovery
  store : w.controller.store = none → w'.controller.store = none
  fencedOnRestart : w'.controller.fencedOnRestart = w.controller.fencedOnRestart
  unfed : w'.controller.haveLastEvidence = false → w.controller.haveLastEvidence = false ∧
    w'.controller.index = w.controller.index ∧
    w'.controller.lastEvidence = w.controller.lastEvidence ∧
    w'.controller.contextLifecycle = w.controller.contextLifecycle
  disk : w'.disk = w.disk ∨ w'.disk.pod = w.controller.options.pod

/-- Every operation spares what a renewal needs. -/
theorem spares_steps : Steps Spares where
  refl _ := ⟨rfl, rfl, id, rfl, fun h => ⟨h, rfl, rfl, rfl⟩, .inl rfl⟩
  trans {w w' w''} h h' := by
    refine ⟨h'.options.trans h.options, h'.recovery.trans h.recovery, h'.store ∘ h.store,
      h'.fencedOnRestart.trans h.fencedOnRestart, fun hnone => ?_, ?_⟩
    · obtain ⟨hnone, hindex, hlast, hcontext⟩ := h'.unfed hnone
      obtain ⟨hnone, hindex', hlast', hcontext'⟩ := h.unfed hnone
      exact ⟨hnone, hindex.trans hindex', hlast.trans hlast', hcontext.trans hcontext'⟩
    · rcases h'.disk with hdisk | hpod
      · rw [hdisk]
        exact h.disk
      · exact .inr (hpod.trans (congrArg ControllerOptions.pod h.options))
  overrides _ _ _ := ⟨rfl, rfl, id, rfl, fun h => ⟨h, rfl, rfl, rfl⟩, .inl rfl⟩
  fencing _ _ _ := ⟨rfl, rfl, id, rfl, fun h => ⟨h, rfl, rfl, rfl⟩, .inl rfl⟩
  revoked _ _ _ := ⟨rfl, rfl, id, rfl, fun h => ⟨h, rfl, rfl, rfl⟩, .inl rfl⟩
  tokens _ _ _ := ⟨rfl, rfl, id, rfl, fun h => ⟨h, rfl, rfl, rfl⟩, .inl rfl⟩
  retiring _ _ := ⟨rfl, rfl, id, rfl, fun h => ⟨h, rfl, rfl, rfl⟩, .inl rfl⟩
  persisted h := by
    cases h with
    | memory _ controller same =>
      rw [controller, same]
      exact ⟨rfl, rfl, id, rfl, fun h => ⟨h, rfl, rfl, rfl⟩, .inl rfl⟩
    | committed held store _ controller written =>
      rw [controller, written]
      refine ⟨rfl, rfl, fun hnone => ?_, rfl, fun h => ⟨h, rfl, rfl, rfl⟩, .inr rfl⟩
      cases store.symm.trans hnone
    | failed held _ _ store _ controller written =>
      rw [controller]
      refine ⟨rfl, rfl, fun hnone => ?_, rfl, fun h => ⟨h, rfl, rfl, rfl⟩, ?_⟩
      · cases store.symm.trans hnone
      exact written.imp id fun hwritten => by rw [hwritten]; rfl
  published _ _ _ _ _ _ := ⟨rfl, rfl, id, rfl, (fun h => by cases h), .inl rfl⟩

section Traceable
variable {w w' : World} {c : PodController} {disk : DurableState} {env : Env} {call : Call}

/-- A world that is spared stays traceable. -/
theorem Traceable.spared (h : Traceable w) (hs : Spares w w') : Traceable w' := by
  refine ⟨by rw [hs.options]; exact h.policy, fun hnone => ?_, fun hmemory => ?_, fun hne => ?_⟩
  · obtain ⟨hnone, hindex, hlast, hcontext⟩ := hs.unfed hnone
    obtain ⟨hindex', hlast', hcontext'⟩ := h.unfed hnone
    exact ⟨hindex.trans hindex', hlast.trans hlast', hcontext.trans hcontext'⟩
  · rw [hs.options] at hmemory
    obtain ⟨hrecovery, hstore⟩ := h.memoryOnly hmemory
    exact ⟨hs.recovery.trans hrecovery, hs.store hstore⟩
  · rw [hs.fencedOnRestart] at hne
    obtain ⟨hdurable, hpod, hdisk⟩ := h.fenced hne
    rw [hs.options]
    exact ⟨hdurable, hpod, hs.disk.elim (fun hsame => by rw [hsame]; exact hdisk) id⟩

/-- What opening leaves of the reports of a recovery. -/
structure Marks (c : PodController) (disk : DurableState) (c' : PodController)
    (disk' : DurableState) : Prop where
  memoryOnly : c.options.durable = false → c'.recovery = c.recovery ∧ c'.store = c.store
  fenced : c'.fencedOnRestart = c.fencedOnRestart ∨
    c.options.durable = true ∧ c.options.pod ≠ .nil ∧ disk.pod = c.options.pod
  pod : disk'.pod = disk.pod

/-- What the commit of a restart leaves of the reports. -/
theorem commitRestart_marks {c₀ : PodController} {recovered : DurableState}
    (hmemory : ∀ {r : RecoveryReport} {held : Option DurableState}, c₀.options.durable = false →
      r = c₀.recovery ∧ held = c₀.store)
    (hfenced : c.fencedOnRestart = c₀.fencedOnRestart ∨ c₀.options.durable = true ∧
      c₀.options.pod ≠ .nil ∧ recovered.pod = c₀.options.pod) :
    Marks c₀ recovered (c.commitRestart recovered env recovered).controller
      (c.commitRestart recovered env recovered).disk := by
  unfold PodController.commitRestart commitTo
  dsimp only
  cases env.commit with
  | committed => exact ⟨hmemory, hfenced, rfl⟩
  | failed status onDisk inStore =>
    refine ⟨hmemory, hfenced, ?_⟩
    cases onDisk <;> rfl

/-- What opening leaves of the reports. -/
theorem open_marks : Marks c disk (c.«open» disk env).controller (c.«open» disk env).disk := by
  unfold PodController.«open»
  split
  · exact ⟨fun _ => ⟨rfl, rfl⟩, .inl rfl, rfl⟩
  split
  · exact ⟨fun _ => ⟨rfl, rfl⟩, .inl rfl, rfl⟩
  next hpod =>
  split
  · exact ⟨fun _ => ⟨rfl, rfl⟩, .inl rfl, rfl⟩
  · exact ⟨fun _ => ⟨rfl, rfl⟩, .inl rfl, rfl⟩
  split
  swap
  · exact ⟨fun _ => ⟨rfl, rfl⟩, .inl rfl, rfl⟩
  next hdurable =>
  have hmemory {r : RecoveryReport} {held : Option DurableState} (h : c.options.durable = false) :
      r = c.recovery ∧ held = c.store := by
    rw [hdurable] at h
    cases h
  unfold PodController.openStore
  dsimp only
  split
  · exact ⟨hmemory, .inl rfl, rfl⟩
  split
  · exact ⟨hmemory, .inl rfl, rfl⟩
  split
  · exact ⟨hmemory, .inl rfl, rfl⟩
  next hsame =>
  have hfenced {n : ℕ} : n = c.fencedOnRestart ∨
      c.options.durable = true ∧ c.options.pod ≠ .nil ∧ disk.pod = c.options.pod :=
    .inr ⟨hdurable, hpod, not_not.1 hsame⟩
  unfold PodController.recover
  dsimp only
  split
  · exact commitRestart_marks hmemory hfenced
  split
  · exact ⟨hmemory, hfenced, rfl⟩
  · exact commitRestart_marks hmemory hfenced

/-- What closing leaves. -/
theorem close_spares (hnone : c.haveLastEvidence = false → c.index = {}) :
    Spares ⟨c, disk⟩ ⟨(c.close disk env).controller, (c.close disk env).disk⟩ := by
  unfold PodController.close
  split
  · exact spares_steps.refl _
  · dsimp only
    split
    · exact ⟨rfl, rfl, fun _ => rfl, rfl, fun h => ⟨h, rfl, rfl, rfl⟩, .inl rfl⟩
    · exact ⟨rfl, rfl, fun _ => rfl, rfl, fun h => ⟨h, (hnone h).symm, rfl, rfl⟩, .inl rfl⟩

/-- Every call keeps the world traceable. -/
theorem Traceable.next (h : Traceable w) : Traceable (w.next call) := by
  by_cases hop : call.op.operates = true
  · exact h.spared (spares_steps.next hop)
  obtain ⟨c, disk⟩ := w
  obtain ⟨op, env⟩ := call
  cases op with
  | «open» =>
    have hmarks := @open_marks c disk env
    have hreopened : (c.«open» disk env).controller = c ∨
        Reopened c (c.«open» disk env).controller := by
      cases open_opened c disk env with
      | refused refusal => exact .inl refusal.controller
      | failed _ reopened => exact .inr reopened
      | fresh _ _ reopened => exact .inr reopened
      | recovered _ _ reopened => exact .inr reopened
    have hreopened : Reopened c (c.«open» disk env).controller :=
      hreopened.elim (fun hsame => by rw [hsame]; exact ⟨rfl, rfl, rfl, rfl, rfl⟩) id
    change Traceable ⟨(c.«open» disk env).controller, (c.«open» disk env).disk⟩
    refine ⟨by rw [hreopened.options]; exact h.policy, fun hnone => ?_, fun hmemory => ?_,
      fun hne => ?_⟩
    · rw [hreopened.haveLastEvidence] at hnone
      rw [hreopened.index, hreopened.lastEvidence, hreopened.contextLifecycle]
      exact h.unfed hnone
    · rw [hreopened.options] at hmemory
      obtain ⟨hrecovery, hstore⟩ := h.memoryOnly hmemory
      exact (hmarks.memoryOnly hmemory).imp (·.trans hrecovery) (·.trans hstore)
    · dsimp only at hne ⊢
      rw [hreopened.options, hmarks.pod]
      rcases hmarks.fenced with hsame | hfenced
      · rw [hsame] at hne
        exact h.fenced hne
      · exact hfenced
  | close => exact h.spared (close_spares fun hnone => (h.unfed hnone).1)
  | restart => exact ⟨rfl, fun _ => ⟨rfl, rfl, rfl⟩, fun _ => ⟨rfl, rfl⟩, fun hne => absurd rfl hne⟩
  | apply _ | setAdminState _ _ | clearAdminState _ | retire | mintAuthority _ _ _
  | revokeAuthority _ => exact absurd rfl hop

/-- Every world of a run is traceable. -/
theorem run_traceable {options : ControllerOptions} {calls : List Call} :
    Traceable ((World.start options disk).run calls) :=
  Run.final_invariant (show Traceable (World.start options disk) from
    ⟨rfl, fun _ => ⟨rfl, rfl, rfl⟩, fun _ => ⟨rfl, rfl⟩, fun hne => absurd rfl hne⟩) fun _
      _ h => h.next

end Traceable

/-! ## Opening over the same directory -/

section Opening
variable {c c' : PodController} {disk recovered : DurableState} {env : Env}

/-- How the commit of a restart ends. -/
theorem commitRestart_result : (c.commitRestart disk env recovered).result =
    match env.commit with
    | .committed => .ok ()
    | .failed status _ _ => .error (.status status) := by
  unfold PodController.commitRestart commitTo
  cases env.commit <;> rfl

/-- Opening the store succeeds or not whatever the controller remembers. -/
theorem openStore_result (hoptions : c'.options = c.options) :
    (c'.openStore disk env).result = (c.openStore disk env).result := by
  unfold PodController.openStore
  dsimp only
  cases env.storeOpened with
  | error e => rfl
  | ok u =>
    dsimp only
    rw [hoptions]
    by_cases hpod : disk.pod = .nil
    · rw [if_pos hpod, if_pos hpod]
      rfl
    rw [if_neg hpod, if_neg hpod]
    by_cases hsame : disk.pod ≠ c.options.pod
    · rw [if_pos hsame, if_pos hsame]
    rw [if_neg hsame, if_neg hsame]
    unfold PodController.recover
    dsimp only [PodController.recovering]
    by_cases hretired : disk.lifecycle = .retired
    · rw [if_pos hretired, if_pos hretired, commitRestart_result, commitRestart_result]
    rw [if_neg hretired, if_neg hretired]
    cases disk.epoch.next with
    | error e => rfl
    | ok bumped => exact commitRestart_result.trans commitRestart_result.symm

/-- Opening succeeds or not whatever the controller remembers. -/
theorem open_result (hopen : c'.isOpen = c.isOpen) (hoptions : c'.options = c.options) :
    (PodController.«open» c' disk env).result = (c.«open» disk env).result := by
  unfold PodController.«open»
  rw [hopen, hoptions]
  split
  · rfl
  split
  · rfl
  split
  · rfl
  · rfl
  split
  · exact openStore_result hoptions
  · rfl

/-- How a closed controller is opened over a store with a record of its own. -/
theorem openStore_of_ok (hok : (c.openStore disk env).result = .ok ()) (hpod : disk.pod ≠ .nil) :
    c.openStore disk env = ({ c with
      recovery := env.recovery, store := some disk, durable := true } : PodController).recover disk
        env disk := by
  unfold PodController.openStore at hok ⊢
  dsimp only at hok ⊢
  cases hopened : env.storeOpened with
  | error e =>
    rw [hopened] at hok
    cases hok
  | ok u =>
    rw [hopened] at hok
    dsimp only at hok ⊢
    rw [if_neg hpod] at hok ⊢
    by_cases hsame : disk.pod ≠ c.options.pod
    · rw [if_pos hsame] at hok
      cases hok
    · rw [if_neg hsame]

/-- How a closed controller is opened. -/
theorem open_of_ok (hok : (c.«open» disk env).result = .ok ()) :
    ∃ id, env.random = .ok id ∧ c.«open» disk env =
      if c.options.durable then (c.started id).openStore disk env
      else (c.started id).opened disk := by
  unfold PodController.«open» at hok ⊢
  split
  · next h =>
    rw [if_pos h] at hok
    cases hok
  next hopen =>
  rw [if_neg hopen] at hok
  split
  · next h =>
    rw [if_pos h] at hok
    cases hok
  next hpod =>
  rw [if_neg hpod] at hok
  split at hok
  · cases hok
  · cases hok
  · next id _ hrandom => exact ⟨id, hrandom, rfl⟩

/-- The fields that opening takes over from a record count for nothing before. -/
theorem recover_congr (h : c'.recovering recovered c'.recovery =
    c.recovering recovered c.recovery) :
    c'.recover disk env recovered = c.recover disk env recovered := by
  unfold PodController.recover
  rw [h]

end Opening

/-- What is left of the run of a controller that is not open does not show once it is opened: it has
published no round, and unless the store recovers a record for it, it has no token, lease, override
or fencing value. -/
structure LikeNew (c : PodController) (disk : DurableState) : Prop where
  unfed : c.haveLastEvidence = false
  blank : (c.options.durable = true ∧ disk.pod ≠ .nil) ∨
    (c.expectations = [] ∧ c.tokens = [] ∧ c.revoked = [] ∧ c.adminOverrides = .empty ∧
      c.fencing = {})

section Renewal
variable {c : PodController} {disk : DurableState} {env : Env}

/-- A new controller is one with its options and nothing else. -/
theorem new_eq {options : ControllerOptions} (h : (PodController.new options).options = options) :
    PodController.new options = { options := options } := by
  have hsame : PodController.new options = { options := (PodController.new options).options } := rfl
  rw [hsame, h]

/-- Such a controller is opened as a new one is. -/
theorem LikeNew.open (h : LikeNew c disk) (ht : Traceable ⟨c, disk⟩) (hclosed : c.isOpen = false)
    (hok : (c.«open» disk env).result = .ok ()) :
    (PodController.new c.options).«open» disk env = c.«open» disk env := by
  have hok' : ((PodController.new c.options).«open» disk env).result = .ok () :=
    (open_result hclosed.symm ht.policy).trans hok
  obtain ⟨id, hrandom, hopen⟩ := open_of_ok hok
  obtain ⟨id', hrandom', hopen'⟩ := open_of_ok hok'
  obtain rfl : id' = id := Except.ok.inj (hrandom'.symm.trans hrandom)
  rw [hopen'] at hok'
  rw [hopen] at hok
  rw [hopen, hopen', ht.policy]
  rw [ht.policy] at hok'
  rw [new_eq ht.policy] at hok' ⊢
  obtain ⟨hnone, hblank⟩ := h
  obtain ⟨hindex, hlast, hcontext⟩ := ht.unfed hnone
  have hmemory := ht.memoryOnly
  have hfenced := ht.fenced
  obtain ⟨options, store, isOpen, incarnation, epoch, lifecycle, contextLifecycle, state,
    expectations, tokens, revoked, fencing, adminOverrides, lastEvidence, haveLastEvidence, index,
    recoveredRound, ambiguousCommit, durable, fencedOnRestart, recovery⟩ := c
  dsimp only at *
  subst hclosed hnone hindex hlast hcontext
  by_cases hpod : options.durable = true ∧ disk.pod ≠ .nil
  · rw [if_pos hpod.1] at hok hok' ⊢
    rw [if_pos hpod.1, openStore_of_ok hok hpod.2, openStore_of_ok hok' hpod.2]
    exact recover_congr rfl
  -- without a record nothing is taken over
  obtain ⟨rfl, rfl, rfl, rfl, rfl⟩ := hblank.resolve_left hpod
  obtain rfl : fencedOnRestart = 0 := by
    by_contra hne
    obtain ⟨hdurable, hne, hsame⟩ := hfenced hne
    exact hpod ⟨hdurable, hsame ▸ hne⟩
  by_cases hdurable : options.durable = true
  · rw [if_pos hdurable, if_pos hdurable]
    rfl
  · obtain ⟨rfl, rfl⟩ := hmemory (by simpa using hdurable)
    rfl

/-! ## What tells two controllers apart -/

/-- A request for a token, in surroundings in which nothing fails. -/
def Sample.leaseRequest : Call := ⟨.mintAuthority .pod .nil 1, Sample.env⟩

/-- The token tells the fencing value. -/
theorem granted_fencing {token : AuthorityToken}
    (h : World.answer ⟨c, disk⟩ Sample.leaseRequest = .granted token) :
    c.fencing.next = .ok token.fencing := by
  have hstep : World.answer ⟨c, disk⟩ Sample.leaseRequest =
    ((c.mintAuthority disk Sample.env .pod .nil 1).step .granted).2 := rfl
  rw [hstep, Reply.step] at h
  cases mintAuthority_minted c disk Sample.env .pod .nil 1 with
  | refused _ refusal =>
    obtain ⟨status, he⟩ := refusal.error
    rw [he] at h
    cases h
  | reached _ _ _ _ _ _ fencing next _ _ _ ends =>
    rcases ends with ⟨_, -, -, he⟩ | ⟨-, -, he⟩
    · rw [he] at h
      cases h
    · rw [he] at h
      have htoken := Answer.granted.inj h
      rw [next, ← htoken]
      rfl

/-- An open controller with a fencing value to spare grants the token. -/
theorem lease_granted {fencing : FencingSequence} (hopen : c.isOpen = true)
    (hlive : c.lifecycle ≠ .retired) (hnext : c.fencing.next = .ok fencing) :
    ∃ token, World.answer ⟨c, disk⟩ Sample.leaseRequest = .granted token := by
  have hstep : World.answer ⟨c, disk⟩ Sample.leaseRequest =
    ((c.mintAuthority disk Sample.env .pod .nil 1).step .granted).2 := rfl
  rw [hstep, Reply.step]
  cases mintAuthority_minted c disk Sample.env .pod .nil 1 with
  | refused why _ =>
    rcases why with hclosed | hrandom | hend | hretired | hspent
    · rw [hopen] at hclosed
      cases hclosed
    · cases hrandom
    · have hlease : (c.leaseEnd Sample.env 1).isOk = true := by
        rw [PodController.leaseEnd, if_pos (by decide)]
        decide
      rw [hend] at hlease
      cases hlease
    · exact absurd hretired hlive
    · rw [hnext] at hspent
      cases hspent
  | reached _ _ _ _ _ _ _ _ result _ persisted ends =>
    rcases ends with ⟨status, rfl, -, -⟩ | ⟨-, -, he⟩
    · cases persisted with
      | memory _ _ _ ok => cases ok
      | committed _ _ _ _ _ ok => cases ok
      | failed _ _ _ _ commit => exact absurd rfl commit
    · rw [he]
      exact ⟨_, rfl⟩

/-- The fencing value before the first one. -/
theorem fencing_of_next {fencing : FencingSequence}
    (h : fencing.next = ({} : FencingSequence).next) : fencing = {} := by
  have hone : ({} : FencingSequence).next = .ok ⟨1⟩ := by decide
  rw [hone, Sequence.next_eq_ok] at h
  obtain ⟨-, hvalue⟩ := h
  exact Sequence.ext (add_right_cancel (show fencing.value + 1 = 0 + 1 from hvalue.symm))

end Renewal

/-! ## Opening again -/

namespace World

/-- The controller is closed and opened again. -/
def renewed (w : World) (closing opening : Env) : World :=
  (w.next ⟨.close, closing⟩).next ⟨.«open», opening⟩

/-- A new controller is constructed with the same options and opened over the same directory. -/
def anew (w : World) (opening : Env) : World :=
  (w.next ⟨.restart, opening⟩).next ⟨.«open», opening⟩

end World

section Renewed
variable {w : World} {c : PodController} {disk : DurableState} {env closing opening : Env}

/-- Closing leaves what opening is given. -/
structure Closes (c c' : PodController) : Prop where
  isOpen : c'.isOpen = false
  options : c'.options = c.options
  haveLastEvidence : c'.haveLastEvidence = c.haveLastEvidence
  expectations : c'.expectations = c.expectations
  tokens : c'.tokens = c.tokens
  revoked : c'.revoked = c.revoked
  adminOverrides : c'.adminOverrides = c.adminOverrides
  fencing : c'.fencing = c.fencing

/-- What closing does. -/
theorem close_closes : Closes c (c.close disk env).controller ∧ (c.close disk env).disk = disk := by
  unfold PodController.close
  split
  · next h => exact ⟨⟨by simpa using h, rfl, rfl, rfl, rfl, rfl, rfl, rfl⟩, rfl⟩
  · dsimp only
    split <;> exact ⟨⟨rfl, rfl, rfl, rfl, rfl, rfl, rfl, rfl⟩, rfl⟩

/-- A closed controller is like a new one exactly when it was before. -/
theorem Closes.likeNew {c' : PodController} (h : Closes c c') :
    LikeNew c' disk ↔ LikeNew c disk := by
  constructor
  · rintro ⟨hnone, hblank⟩
    rw [h.options, h.expectations, h.tokens, h.revoked, h.adminOverrides, h.fencing] at hblank
    exact ⟨h.haveLastEvidence ▸ hnone, hblank⟩
  · rintro ⟨hnone, hblank⟩
    refine ⟨h.haveLastEvidence ▸ hnone, ?_⟩
    rw [h.options, h.expectations, h.tokens, h.revoked, h.adminOverrides, h.fencing]
    exact hblank

/-- What opening leaves of a controller that recovers no record. -/
structure Restores (c c' : PodController) : Prop where
  isOpen : c'.isOpen = true
  lifecycle : c'.lifecycle = .constructing
  expectations : c'.expectations = c.expectations
  tokens : c'.tokens = c.tokens
  revoked : c'.revoked = c.revoked
  adminOverrides : c'.adminOverrides = c.adminOverrides
  fencing : c'.fencing = c.fencing

/-- What opening restores when the directory is empty or not used. -/
theorem open_restores (hok : (c.«open» disk env).result = .ok ())
    (hnot : ¬ (c.options.durable = true ∧ disk.pod ≠ .nil)) :
    Restores c (c.«open» disk env).controller := by
  cases open_opened c disk env with
  | refused refusal =>
    obtain ⟨_, he⟩ := refusal.error
    rw [he] at hok
    cases hok
  | failed _ _ _ _ _ error =>
    obtain ⟨_, he⟩ := error
    rw [he] at hok
    cases hok
  | fresh _ _ _ isOpen _ memory _ _ _ fencing =>
    have hm {α : Type} (field : Memory → α) := congrArg field memory
    exact ⟨isOpen, hm Memory.lifecycle, hm Memory.expectations, hm Memory.tokens, hm Memory.revoked,
      hm Memory.adminOverrides, fencing⟩
  | recovered _ durable _ _ identity => exact absurd ⟨durable, identity⟩ hnot

/-- A controller that opens was opened again. -/
theorem open_reopened (hok : (c.«open» disk env).result = .ok ()) :
    Reopened c (c.«open» disk env).controller := by
  cases open_opened c disk env with
  | refused refusal =>
    obtain ⟨_, he⟩ := refusal.error
    rw [he] at hok
    cases hok
  | failed _ reopened => exact reopened
  | fresh _ _ reopened => exact reopened
  | recovered _ _ reopened => exact reopened

/-- What a client can tell of a controller that has been opened. -/
theorem Indistinguishable.likeNew {n : PodController} (hoptions : n.options = c.options)
    (hnew : n = { options := n.options }) (hok : (c.«open» disk env).result = .ok ())
    (hok' : (n.«open» disk env).result = .ok ())
    (h : Indistinguishable ⟨(c.«open» disk env).controller, (c.«open» disk env).disk⟩
      ⟨(n.«open» disk env).controller, (n.«open» disk env).disk⟩) : LikeNew c disk := by
  have hunfed : (n.«open» disk env).controller.haveLastEvidence = false := by
    rw [(open_reopened hok').haveLastEvidence, hnew]
  refine ⟨?_, or_iff_not_imp_left.2 fun hnot => ?_⟩
  · have hreplays := h.replays
    rw [PodController.replays, PodController.replays, hunfed,
      (open_reopened hok).haveLastEvidence] at hreplays
    cases hhave : c.haveLastEvidence with
    | false => rfl
    | true =>
      rw [hhave] at hreplays
      cases hreplays
  · have hr := open_restores hok hnot
    have hr' := open_restores hok' (by rw [hoptions]; exact hnot)
    -- the fencing value shows in the next token
    have hfencing : (n.«open» disk env).controller.fencing = {} := by rw [hr'.fencing, hnew]
    obtain ⟨token, htoken⟩ := @lease_granted (n.«open» disk env).controller
      (n.«open» disk env).disk ⟨1⟩ hr'.isOpen (by rw [hr'.lifecycle]; decide)
      (by rw [hfencing]; decide)
    have htoken' : World.answer ⟨(c.«open» disk env).controller, (c.«open» disk env).disk⟩
      Sample.leaseRequest = .granted token := (h.answers [] Sample.leaseRequest).symm.trans htoken
    have hnext := (granted_fencing htoken').trans (granted_fencing htoken).symm
    rw [hfencing, hr.fencing] at hnext
    refine ⟨?_, ?_, ?_, ?_, fencing_of_next hnext⟩
    · rw [← hr.expectations, ← h.expectations, hr'.expectations, hnew]
    · rw [← hr.tokens, ← h.tokens, hr'.tokens, hnew]
    · rw [← hr.revoked, ← h.revoked, hr'.revoked, hnew]
    · rw [← hr.adminOverrides, ← h.adminOverrides, hr'.adminOverrides, hnew]

end Renewed

/-- **Opening again.** A controller that is closed and opened again after a run opens whenever a new
controller over its directory does. A client can then tell the two apart exactly unless it has
published no round and, where the store recovers no record for it, has no token, lease, override or
fencing value. -/
theorem renewal_iff {options : ControllerOptions} {disk : DurableState} {calls : List Call}
    {closing opening : Env} {w : World} (hw : w = (World.start options disk).run calls) :
    ((w.next ⟨.close, closing⟩).answer ⟨.«open», opening⟩).ok =
      ((w.next ⟨.restart, opening⟩).answer ⟨.«open», opening⟩).ok ∧
    (((w.next ⟨.close, closing⟩).answer ⟨.«open», opening⟩).ok = true →
      (Indistinguishable (w.renewed closing opening) (w.anew opening) ↔
        LikeNew w.controller w.disk)) := by
  have ht : Traceable w := hw ▸ run_traceable
  have ht' : Traceable (w.next ⟨.close, closing⟩) := ht.next
  obtain ⟨c, held⟩ := w
  obtain ⟨hcloses, hheld⟩ := @close_closes c held closing
  change Traceable ⟨(c.close held closing).controller, (c.close held closing).disk⟩ at ht'
  have hclosed : World.next ⟨c, held⟩ ⟨.close, closing⟩ =
      ⟨(c.close held closing).controller, (c.close held closing).disk⟩ := rfl
  have hanswer (c : PodController) : (World.answer ⟨c, held⟩ ⟨.«open», opening⟩).ok =
      (c.«open» held opening).result.isOk := Reply.step_ok fun _ => rfl
  have hrestarted : World.next ⟨c, held⟩ ⟨.restart, opening⟩ = ⟨.new c.options, held⟩ := rfl
  unfold World.renewed World.anew
  rw [hheld] at ht' hclosed
  rw [hclosed, hrestarted, hanswer, hanswer]
  generalize (c.close held closing).controller = c' at *
  rw [← hcloses.options]
  have hresult := @open_result c' (.new c'.options) held opening hcloses.isOpen.symm ht'.policy
  refine ⟨by rw [hresult], fun hok => ?_⟩
  have hok : (PodController.«open» c' held opening).result = .ok () := by
    cases hr : (PodController.«open» c' held opening).result with
    | ok u => rfl
    | error e =>
      rw [hr] at hok
      cases hok
  rw [← hcloses.likeNew]
  constructor
  · exact Indistinguishable.likeNew ht'.policy ((new_eq ht'.policy).trans (by rw [ht'.policy])) hok
      (hresult.trans hok)
  · intro hlike
    have hsame := hlike.open ht' hcloses.isOpen hok
    have hnext (c : PodController) : World.next ⟨c, held⟩ ⟨.«open», opening⟩ =
      ⟨(c.«open» held opening).controller, (c.«open» held opening).disk⟩ := rfl
    rw [hnext, hnext, hsame]
    exact ⟨rfl, rfl, rfl, rfl, rfl, rfl, rfl, rfl, rfl, fun _ _ => rfl⟩

namespace Sample

/-- A durable controller that has been opened, and has granted a token. -/
def leased : World := (World.start (options true) {}).run [⟨.«open», env⟩, leaseRequest]

end Sample

/-- A durable controller that has published no round is opened again as a new one is. -/
theorem leased_renewed :
    Indistinguishable (Sample.leased.renewed Sample.env Sample.env)
      (Sample.leased.anew Sample.env) :=
  ((renewal_iff (show Sample.leased = _ from rfl)).2 (by decide +kernel)).2
    ⟨by decide +kernel, .inl (by decide +kernel)⟩

/-- A controller without a store that has published a round keeps what it expects of the racks. -/
theorem expectations_survive : ¬ ∀ (options : ControllerOptions) (disk : DurableState)
    (calls : List Call) (closing opening : Env),
    ((((World.start options disk).run calls).next ⟨.close, closing⟩).answer
      ⟨.«open», opening⟩).ok = true →
    Indistinguishable (((World.start options disk).run calls).renewed closing opening)
      (((World.start options disk).run calls).anew opening) := by
  intro hclaim
  have hsame := (hclaim (Sample.options false) {} [⟨.«open», Sample.env⟩, Sample.round] Sample.env
    Sample.env (by decide +kernel)).expectations
  revert hsame
  decide +kernel

end PodFabric
