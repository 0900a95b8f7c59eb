import PodFabric.Control.Run
import PodFabric.Proof.Composition

/-!
# How a call ends

One inversion per operation of the controller: what it leaves of the controller and of the store's
directory, and when. Everything goes through the commit (`persistState_persisted`) and through the
round (`apply_applied`); later proofs cite these and do not unfold an operation again.
-/

namespace PodFabric

/-! ## What a client sees -/

/-- The fields of a controller that its operations are judged by. -/
structure Memory where
  lifecycle : LifecycleState
  epoch : PodEpoch
  state : PodState
  expectations : List MemberExpectation
  adminOverrides : OrderedMap RackId AdminState
  tokens : List AuthorityToken
  revoked : List LeaseId
  deriving DecidableEq

/-- What the controller keeps of its published round. -/
def PodController.memory (c : PodController) : Memory where
  lifecycle := c.lifecycle
  epoch := c.epoch
  state := c.state
  expectations := c.expectations
  adminOverrides := c.adminOverrides
  tokens := c.tokens
  revoked := c.revoked

/-! ## Commits -/

/-- How a commit of the controller ends: there is no store, the store commits, or the commit fails,
with the record on disk or not. -/
inductive Persisted (c : PodController) (disk : DurableState) (env : Env) (next : DurableState)
    (c' : PodController) (disk' : DurableState) (result : Result Unit) : Prop
  | memory (store : c.store = none) (controller : c' = c) (same : disk' = disk)
      (ok : result = .ok ())
  | committed (held : DurableState) (store : c.store = some held)
      (commit : env.commit = .committed)
      (controller : c' = { c with
        store := some (next.stamped held env.system), recoveredRound := false
        ambiguousCommit := false })
      (written : disk' = next.stamped held env.system) (ok : result = .ok ())
  | failed (held held' : DurableState) (status : Status) (store : c.store = some held)
      (commit : env.commit ≠ .committed) (controller : c' = { c with store := some held' })
      (written : disk' = disk ∨ disk' = next.stamped held env.system)
      (error : result = .error status)

section Persist
variable {c c' : PodController} {disk disk' next : DurableState} {env : Env}
  {composed : PodState} {expectations : List MemberExpectation} {tokens : List AuthorityToken}
  {revoked : List LeaseId} {writtenAt : Nanos} {result : Result Unit}

variable (c disk env composed expectations tokens revoked writtenAt) in
/-- How saving a round ends. -/
theorem persistState_persisted :
    Persisted c disk env (c.durableState composed expectations tokens revoked writtenAt)
      (c.persistState disk env composed expectations tokens revoked writtenAt).1
      (c.persistState disk env composed expectations tokens revoked writtenAt).2.1
      (c.persistState disk env composed expectations tokens revoked writtenAt).2.2 := by
  unfold PodController.persistState
  cases hstore : c.store with
  | none => exact .memory hstore rfl rfl rfl
  | some held =>
    unfold commitTo
    cases hcommit : env.commit with
    | committed => exact .committed held hstore hcommit rfl rfl rfl
    | failed status onDisk inStore =>
      refine .failed held _ status hstore (by simp [hcommit]) rfl ?_ rfl
      cases onDisk
      · exact .inl rfl
      · exact .inr rfl

/-- A commit changes nothing a client sees. -/
theorem Persisted.memory_eq (h : Persisted c disk env next c' disk' result) :
    c'.memory = c.memory := by
  cases h with
  | memory _ controller => rw [controller]
  | committed _ _ _ controller => rw [controller]; rfl
  | failed _ _ _ _ _ controller => rw [controller]; rfl

/-- The fields that a commit leaves alone. -/
structure Untouched (c c' : PodController) : Prop where
  memory : c'.memory = c.memory
  options : c'.options = c.options
  isOpen : c'.isOpen = c.isOpen
  incarnation : c'.incarnation = c.incarnation
  fencing : c'.fencing = c.fencing
  contextLifecycle : c'.contextLifecycle = c.contextLifecycle
  lastEvidence : c'.lastEvidence = c.lastEvidence
  haveLastEvidence : c'.haveLastEvidence = c.haveLastEvidence
  index : c'.index = c.index
  store : c'.store.isSome = c.store.isSome

/-- Saving a round leaves what is published. -/
theorem Persisted.untouched (h : Persisted c disk env next c' disk' result) :
    Untouched c c' := by
  cases h with
  | memory _ controller =>
    subst controller; exact ⟨rfl, rfl, rfl, rfl, rfl, rfl, rfl, rfl, rfl, rfl⟩
  | committed _ store _ controller =>
    subst controller; exact ⟨rfl, rfl, rfl, rfl, rfl, rfl, rfl, rfl, rfl, by rw [store]; rfl⟩
  | failed _ _ _ store _ controller =>
    subst controller; exact ⟨rfl, rfl, rfl, rfl, rfl, rfl, rfl, rfl, rfl, by rw [store]; rfl⟩

end Persist

/-! ## Opening -/

/-- A call that fails and changes nothing. -/
structure Refusal {α : Type} (c : PodController) (disk : DurableState)
    (reply : Reply α) : Prop where
  controller : reply.controller = c
  disk : reply.disk = disk
  error : ∃ status, reply.result = .error (.status status)

/-- The directory still recovers to the same beliefs, if at a later epoch. -/
structure SameBeliefs (disk disk' : DurableState) : Prop where
  pod : disk'.pod = disk.pod
  epoch : disk.epoch ≤ disk'.epoch
  fencing : disk'.fencing = disk.fencing
  expectations : disk'.expectations = disk.expectations
  revoked : disk'.revoked = disk.revoked
  admin : disk'.admin = disk.admin

/-- The composed state is at the epoch and the lifecycle of the controller. -/
structure Coherent (c : PodController) : Prop where
  epoch : c.state.epoch = c.epoch
  lifecycle : c.state.lifecycle = c.lifecycle

/-- The durable state is what the controller believes. -/
structure Agrees (held : DurableState) (c : PodController) : Prop where
  pod : held.pod = c.options.pod
  epoch : held.epoch = c.epoch
  lifecycle : held.lifecycle = c.lifecycle
  expectations : held.expectations = c.expectations
  tokens : held.tokens = c.tokens
  revoked : held.revoked = c.revoked
  admin : .ofList held.admin = c.adminOverrides
  fencing : held.fencing = c.fencing

/-- The store holds, and its directory recovers to, what the controller believes. -/
def InStep (c : PodController) (disk : DurableState) : Prop :=
  c.store = some disk ∧ Agrees disk c

/-- What a controller takes over from the state `disk`, as incarnation `id`. -/
structure Recovered (c : PodController) (disk : DurableState) (env : Env) (c' : PodController) :
    Prop where
  pod : disk.pod = c.options.pod
  lifecycle : c'.lifecycle = if disk.lifecycle = .retired then .retired else .recovering
  expectations : c'.expectations = disk.expectations
  adminOverrides : c'.adminOverrides = .ofList disk.admin
  tokens : c'.tokens = []
  revoked : c'.revoked = disk.revoked
  recoveredRound : c'.recoveredRound = true
  ambiguousCommit : c'.ambiguousCommit = env.recovery.ambiguousCommit
  store : c'.store.isSome = true
  epoch : disk.epoch ≤ c'.epoch
  advanced : disk.lifecycle ≠ .retired → disk.epoch < c'.epoch
  fencing : c'.fencing = disk.fencing
  coherent : Coherent c'
  authority : c'.state.authority = {}

/-- What opening leaves of a controller in any case. -/
structure Reopened (c c' : PodController) : Prop where
  options : c'.options = c.options
  lastEvidence : c'.lastEvidence = c.lastEvidence
  haveLastEvidence : c'.haveLastEvidence = c.haveLastEvidence
  contextLifecycle : c'.contextLifecycle = c.contextLifecycle
  index : c'.index = c.index

/-- How opening ends: it is refused; it fails on the store and leaves the controller closed; it
starts without a recovered state; or it recovers one. -/
inductive Opened (c : PodController) (disk : DurableState) (env : Env) (reply : Reply Unit) : Prop
  | refused (refusal : Refusal c disk reply)
  | failed (durable : c.options.durable = true) (reopened : Reopened c reply.controller)
      (closed : reply.controller.isOpen = false)
      (revoked : reply.controller.revoked = c.revoked ∨ reply.controller.revoked = disk.revoked)
      (same : SameBeliefs disk reply.disk)
      (error : ∃ status, reply.result = .error (.status status))
  | fresh (closed : c.isOpen = false) (identity : c.options.pod ≠ .nil)
      (reopened : Reopened c reply.controller) (isOpen : reply.controller.isOpen = true)
      (store : c.options.durable = true → disk.pod = .nil ∧ reply.controller.store.isSome = true)
      (memory : reply.controller.memory = { c.memory with
        lifecycle := .constructing, epoch := ⟨0⟩, state := reply.controller.state })
      (same : reply.disk = disk) (ok : reply.result = .ok ())
      (coherent : Coherent reply.controller) (fencing : reply.controller.fencing = c.fencing)
      (authority : reply.controller.state.authority = {})
  | recovered (closed : c.isOpen = false) (durable : c.options.durable = true)
      (reopened : Reopened c reply.controller) (isOpen : reply.controller.isOpen = true)
      (identity : disk.pod ≠ .nil) (recovered : Recovered c disk env reply.controller)
      (same : SameBeliefs disk reply.disk) (ok : reply.result = .ok ())
      (inStep : InStep reply.controller reply.disk)

section Open
variable {c : PodController} {disk : DurableState} {env : Env}

/-- A directory recovers to what it recovers to. -/
theorem SameBeliefs.refl : SameBeliefs disk disk := ⟨rfl, le_rfl, rfl, rfl, rfl, rfl⟩

variable (c disk env) in
/-- The commit of a restart opens the controller, or leaves it closed with an error. -/
theorem commitRestart_cases (hepoch : disk.epoch ≤ c.epoch) :
    SameBeliefs disk (c.commitRestart disk env disk).disk ∧
      ∃ held, (∃ status, (c.commitRestart disk env disk).result = .error (.status status) ∧
          (c.commitRestart disk env disk).controller = { c with store := some held }) ∨
        ((c.commitRestart disk env disk).result = .ok () ∧
          (c.commitRestart disk env disk).controller = { c with
            store := some held, isOpen := true
            state := { c.state with epoch := c.epoch, lifecycle := c.lifecycle } } ∧
          (c.commitRestart disk env disk).disk = held ∧
          held = ({ disk with
            writer := c.incarnation, tokens := [], epoch := c.epoch, lifecycle := c.lifecycle
            lastStateDigest := .zero } : DurableState).stamped disk env.system) := by
  unfold PodController.commitRestart commitTo
  dsimp only
  cases env.commit with
  | committed => exact ⟨⟨rfl, hepoch, rfl, rfl, rfl, rfl⟩, _, .inr ⟨rfl, rfl, rfl, rfl⟩⟩
  | failed status onDisk inStore =>
    refine ⟨?_, _, .inl ⟨status, rfl, rfl⟩⟩
    cases onDisk
    · exact .refl
    · exact ⟨rfl, hepoch, rfl, rfl, rfl, rfl⟩

variable (c disk env) in
/-- How opening ends. -/
theorem open_opened : Opened c disk env (c.«open» disk env) := by
  unfold PodController.«open»
  split
  · exact .refused ⟨rfl, rfl, _, rfl⟩
  next hclosed =>
  have hclosed : c.isOpen = false := by simpa using hclosed
  split
  · exact .refused ⟨rfl, rfl, _, rfl⟩
  next hpod =>
  split
  · exact .refused ⟨rfl, rfl, _, rfl⟩
  · exact .refused ⟨rfl, rfl, _, rfl⟩
  next id _ _ =>
  split
  · next hdurable =>
    unfold PodController.openStore
    dsimp only
    split
    · exact .failed hdurable ⟨rfl, rfl, rfl, rfl, rfl⟩ hclosed (.inl rfl) .refl ⟨_, rfl⟩
    split
    · next hfresh =>
      exact .fresh hclosed hpod ⟨rfl, rfl, rfl, rfl, rfl⟩ rfl (fun _ => ⟨hfresh, rfl⟩) rfl rfl rfl
        ⟨rfl, rfl⟩ rfl rfl
    next hidentity =>
    split
    · exact .failed hdurable ⟨rfl, rfl, rfl, rfl, rfl⟩ hclosed (.inl rfl) .refl ⟨_, rfl⟩
    next hsame =>
    have hsame : disk.pod = c.options.pod := not_not.1 hsame
    unfold PodController.recover
    dsimp only
    split
    · next hretired =>
      have hretired : disk.lifecycle = .retired := hretired
      obtain ⟨hbeliefs, held, ⟨status, hr, hc⟩ | ⟨hr, hc, hd, hheld⟩⟩ := commitRestart_cases
        (({ c.started id with
          recovery := env.recovery, store := some disk, durable := true } :
            PodController).recovering
            disk env.recovery) disk env le_rfl
      · refine .failed hdurable ?_ ?_ ?_ hbeliefs ⟨status, hr⟩ <;> rw [hc]
        · exact ⟨rfl, rfl, rfl, rfl, rfl⟩
        · exact hclosed
        · exact .inr rfl
      · refine .recovered hclosed hdurable ?_ ?_ hidentity ?_ hbeliefs hr ?_
        · rw [hc]
          exact ⟨rfl, rfl, rfl, rfl, rfl⟩
        · rw [hc]
        · rw [hc]
          exact ⟨hsame, (if_pos hretired).symm ▸ hretired, rfl, rfl, rfl, rfl, rfl,
            rfl, rfl, le_rfl,
            fun hlive => absurd hretired hlive, rfl, ⟨rfl, rfl⟩, rfl⟩
        · rw [hc, hd]
          exact ⟨rfl, by rw [hheld]; exact ⟨hsame, rfl, rfl, rfl, rfl, rfl, rfl, rfl⟩⟩
    next hretired =>
    have hretired : disk.lifecycle ≠ .retired := hretired
    split
    · exact .failed hdurable ⟨rfl, rfl, rfl, rfl, rfl⟩ hclosed (.inr rfl) .refl ⟨_, rfl⟩
    next bumped hbumped =>
    have hadvanced : disk.epoch < bumped := Sequence.lt_of_next hbumped
    obtain ⟨hbeliefs, held, ⟨status, hr, hc⟩ | ⟨hr, hc, hd, hheld⟩⟩ := commitRestart_cases
        { ({ c.started id with
          recovery := env.recovery, store := some disk, durable := true } :
            PodController).recovering
            disk env.recovery with epoch := bumped, lifecycle := .recovering }
        disk env hadvanced.le
    · refine .failed hdurable ?_ ?_ ?_ hbeliefs ⟨status, hr⟩ <;> rw [hc]
      · exact ⟨rfl, rfl, rfl, rfl, rfl⟩
      · exact hclosed
      · exact .inr rfl
    · refine .recovered hclosed hdurable ?_ ?_ hidentity ?_ hbeliefs hr ?_
      · rw [hc]
        exact ⟨rfl, rfl, rfl, rfl, rfl⟩
      · rw [hc]
      · rw [hc]
        exact ⟨hsame, (if_neg hretired).symm ▸ rfl, rfl, rfl, rfl, rfl, rfl, rfl, rfl, hadvanced.le,
          fun _ => hadvanced, rfl, ⟨rfl, rfl⟩, rfl⟩
      · rw [hc, hd]
        exact ⟨rfl, by rw [hheld]; exact ⟨hsame, rfl, rfl, rfl, rfl, rfl, rfl, rfl⟩⟩
  · next hmemory =>
    exact .fresh hclosed hpod ⟨rfl, rfl, rfl, rfl, rfl⟩ rfl (fun h => absurd h hmemory) rfl rfl rfl
      ⟨rfl, rfl⟩ rfl rfl

end Open

/-! ## Rounds -/

/-- How a round ends: it is refused before the commit, its commit fails, or it is published. -/
inductive Applied (c : PodController) (disk : DurableState) (env : Env) (evidence : PodSnapshot)
    (reply : Reply PodController.ApplyReport) : Prop
  | refused (fault : Fault)
      (why : c.isOpen = false ∨ compose (c.request env evidence) = .error fault)
      (controller : reply.controller = c) (disk : reply.disk = disk)
      (error : reply.result = .error fault)
  | unsaved (composed : PodState) (status : Status) (isOpen : c.isOpen = true)
      (compose : compose (c.request env evidence) = .ok composed)
      (persisted : Persisted c disk env
        (c.durableState composed (PodController.deriveExpectations composed c.expectations)
          (c.survivingTokens env composed) c.revoked (env.clock (c.tokens.length + 1)))
        reply.controller reply.disk (.error status))
      (error : reply.result = .error (.status status))
  | published (composed : PodState) (c' : PodController) (isOpen : c.isOpen = true)
      (compose : compose (c.request env evidence) = .ok composed)
      (persisted : Persisted c disk env
        (c.durableState composed (PodController.deriveExpectations composed c.expectations)
          (c.survivingTokens env composed) c.revoked (env.clock (c.tokens.length + 1)))
        c' reply.disk (.ok ()))
      (controller : reply.controller = c'.published (c.request env evidence) composed
        (PodController.deriveExpectations composed c.expectations)
        (c.survivingTokens env composed))
      (ok : reply.result = .ok (c.applyReport (c.request env evidence) composed
        (PodController.deriveExpectations composed c.expectations)
        (c.survivingTokens env composed)))

section Apply
variable {c : PodController} {disk : DurableState} {env : Env} {evidence : PodSnapshot}

variable (c disk env evidence) in
/-- How applying evidence ends. -/
theorem apply_applied : Applied c disk env evidence (c.apply disk env evidence) := by
  unfold PodController.apply
  split
  · next h => exact .refused _ (.inl (by simpa using h)) rfl rfl rfl
  next hopen =>
  have hopen : c.isOpen = true := by simpa using hopen
  dsimp only
  split
  · next fault h => exact .refused fault (.inr h) rfl rfl rfl
  next composed h =>
  have hp := persistState_persisted c disk env composed
    (PodController.deriveExpectations composed c.expectations) (c.survivingTokens env composed)
    c.revoked (env.clock (c.tokens.length + 1))
  split
  · next c' disk' status hpersist =>
    rw [hpersist] at hp
    exact .unsaved composed status hopen h hp rfl
  · next c' disk' hpersist =>
    rw [hpersist] at hp
    exact .published composed c' hopen h hp rfl rfl

end Apply

/-! ## Operator intent -/

/-- The fields are committed as they are. -/
inductive Saved (c : PodController) (disk : DurableState) (env : Env) (reply : Reply Unit) : Prop
  | intro (result : Result Unit)
      (persisted : Persisted c disk env
        (c.durableState c.state c.expectations c.tokens c.revoked (env.clock 0))
        reply.controller reply.disk result)
      (result_eq : reply.result = Result.lift result)

/-- The change of an override takes effect: by a round over the last evidence if there is one, and
by a commit otherwise. -/
inductive Recomposed (c : PodController) (disk : DurableState) (env : Env)
    (reply : Reply Unit) : Prop
  | composed (have_last : c.haveLastEvidence = true) (round : Reply PodController.ApplyReport)
      (applied : Applied c disk env c.lastEvidence round)
      (controller : reply.controller = round.controller) (disk : reply.disk = round.disk)
      (result : reply.result = round.result.map fun _ => ())
  | saved (have_none : c.haveLastEvidence = false) (saved : Saved c disk env reply)

section Intent
variable {c : PodController} {disk : DurableState} {env : Env} {rack : RackId}

/-- How composing again after an override ends. -/
theorem recompose_recomposed {detail : Text} :
    Recomposed c disk env (c.recompose disk env rack detail) := by
  unfold PodController.recompose
  dsimp only
  split
  · next h =>
    refine .composed h _ (apply_applied ..) ?_ ?_ ?_ <;>
      cases (c.apply disk env c.lastEvidence).result <;> rfl
  · next h =>
    refine .saved (by simpa using h) ?_
    have hp := persistState_persisted c disk env c.state c.expectations c.tokens c.revoked
      (env.clock 0)
    split
    · next c' disk' status hpersist =>
      rw [hpersist] at hp
      exact ⟨_, hp, rfl⟩
    · next c' disk' hpersist =>
      rw [hpersist] at hp
      exact ⟨_, hp, rfl⟩

variable (c disk env rack) in
/-- The override of a rack is set once the request has passed its checks. -/
theorem setAdminState_cases (state : AdminState) :
    ((c.isOpen = false ∨ rack = .nil ∨ c.lifecycle = .retired) ∧
      Refusal c disk (c.setAdminState disk env rack state)) ∨
    (c.isOpen = true ∧ rack ≠ .nil ∧ c.lifecycle ≠ .retired ∧
      Recomposed { c with adminOverrides := c.adminOverrides.insert rack state } disk env
        (c.setAdminState disk env rack state)) := by
  unfold PodController.setAdminState
  split
  · next h => exact .inl ⟨.inl (by simpa using h), rfl, rfl, _, rfl⟩
  split
  · next h => exact .inl ⟨.inr (.inl h), rfl, rfl, _, rfl⟩
  split
  · next h => exact .inl ⟨.inr (.inr h), rfl, rfl, _, rfl⟩
  · next hopen hrack hlife =>
    exact .inr ⟨by simpa using hopen, hrack, hlife, recompose_recomposed⟩

variable (c disk env rack) in
/-- The override of a rack is taken away once the request has passed its checks. -/
theorem clearAdminState_cases :
    ((c.isOpen = false ∨ c.lifecycle = .retired) ∧
      Refusal c disk (c.clearAdminState disk env rack)) ∨
    (c.isOpen = true ∧ c.lifecycle ≠ .retired ∧
      Recomposed { c with adminOverrides := c.adminOverrides.erase rack } disk env
        (c.clearAdminState disk env rack)) := by
  unfold PodController.clearAdminState
  split
  · next h => exact .inl ⟨.inl (by simpa using h), rfl, rfl, _, rfl⟩
  split
  · next h => exact .inl ⟨.inr h, rfl, rfl, _, rfl⟩
  · next hopen hlife =>
    exact .inr ⟨by simpa using hopen, hlife, recompose_recomposed⟩

variable (c disk env) in
/-- The pod is retired in memory once the request has passed its checks, and then committed. -/
theorem retire_cases :
    ((c.isOpen = false ∨ c.lifecycle = .retired) ∧ Refusal c disk (c.retire disk env)) ∨
    (c.isOpen = true ∧ c.lifecycle ≠ .retired ∧
      Saved c.retiring disk env (c.retire disk env)) := by
  unfold PodController.retire
  split
  · next h => exact .inl ⟨.inl (by simpa using h), rfl, rfl, _, rfl⟩
  split
  · next h => exact .inl ⟨.inr h, rfl, rfl, _, rfl⟩
  · next hopen hlife =>
    refine .inr ⟨by simpa using hopen, hlife, ?_⟩
    have hp := persistState_persisted c.retiring disk env c.retiring.state
      c.retiring.expectations c.retiring.tokens c.retiring.revoked (env.clock 0)
    dsimp only
    split
    · next c' disk' status hpersist =>
      rw [hpersist] at hp
      exact ⟨_, hp, rfl⟩
    · next c' disk' hpersist =>
      rw [hpersist] at hp
      exact ⟨_, hp, rfl⟩

end Intent

/-! ## Authority -/

section Authority
variable {c : PodController} {disk : DurableState} {env : Env}

/-- How a request for a token ends: it is refused before the commit, its commit fails, or the token
is granted. The fencing value is taken before the commit. -/
inductive Minted (c : PodController) (disk : DurableState) (env : Env) (scope : AuthorityScope)
    (subject : RackId) (lifetime : Nanos) (reply : Reply AuthorityToken) : Prop
  | refused (why : c.isOpen = false ∨ env.random.isOk = false ∨
        (c.leaseEnd env lifetime).isOk = false ∨ c.lifecycle = .retired ∨
        c.fencing.next.isOk = false)
      (refusal : Refusal c disk reply)
  | reached (isOpen : c.isOpen = true) (id : Uuid) (random : env.random = .ok id)
      (expiresAt : Nanos) (expires : c.leaseEnd env lifetime = .ok expiresAt)
      (live : c.lifecycle ≠ .retired) (fencing : FencingSequence)
      (next : c.fencing.next = .ok fencing) (result : Result Unit) (c' : PodController)
      (persisted : Persisted { c with fencing } disk env
        ({ c with fencing }.durableState c.state c.expectations
          (c.tokens ++ [c.mintedToken id scope subject (env.clock 0) expiresAt fencing]) c.revoked
          (env.clock 1))
        c' reply.disk result)
      (ends : (∃ status, result = .error status ∧ reply.controller = c' ∧
          reply.result = .error (.status status)) ∨
        (result = .ok () ∧
          reply.controller = { c' with
            tokens := c'.tokens ++
              [c.mintedToken id scope subject (env.clock 0) expiresAt fencing] } ∧
          reply.result =
            .ok (c.mintedToken id scope subject (env.clock 0) expiresAt fencing)))

/-- How a revocation that has passed its checks ends. The lease counts as revoked before the
commit. -/
inductive Revoking (c : PodController) (disk : DurableState) (env : Env) (lease : LeaseId)
    (reply : Reply Unit) : Prop
  | intro (result : Result Unit) (c' : PodController)
      (persisted : Persisted { c with revoked := c.revoked ++ [lease] } disk env
        ({ c with revoked := c.revoked ++ [lease] }.durableState c.state c.expectations
          (c.tokens.filter fun token => token.lease ≠ lease) (c.revoked ++ [lease])
          (env.clock 0))
        c' reply.disk result)
      (ends : (∃ status, result = .error status ∧ reply.controller = c' ∧
          reply.result = .error (.status status)) ∨
        (result = .ok () ∧
          reply.controller = { c' with
            tokens := c.tokens.filter fun token => token.lease ≠ lease } ∧
          reply.result = .ok ()))

variable (c disk env) in
/-- How granting a token ends. -/
theorem mintAuthority_minted (scope : AuthorityScope) (subject : RackId) (lifetime : Nanos) :
    Minted c disk env scope subject lifetime
      (c.mintAuthority disk env scope subject lifetime) := by
  unfold PodController.mintAuthority
  split
  · next h => exact .refused (.inl (by simpa using h)) ⟨rfl, rfl, _, rfl⟩
  next hopen =>
  split
  · next h => exact .refused (.inr (.inl (by rw [h]; rfl))) ⟨rfl, rfl, _, rfl⟩
  next id hrandom =>
  split
  · next h => exact .refused (.inr (.inr (.inl (by rw [h]; rfl)))) ⟨rfl, rfl, _, rfl⟩
  next expiresAt hexpires =>
  split
  · next h => exact .refused (.inr (.inr (.inr (.inl h)))) ⟨rfl, rfl, _, rfl⟩
  next hlive =>
  split
  · next h => exact .refused (.inr (.inr (.inr (.inr (by rw [h]; rfl))))) ⟨rfl, rfl, _, rfl⟩
  next fencing hnext =>
  have hp := persistState_persisted { c with fencing } disk env c.state c.expectations
    (c.tokens ++ [c.mintedToken id scope subject (env.clock 0) expiresAt fencing]) c.revoked
    (env.clock 1)
  unfold PodController.grant
  have hopen : c.isOpen = true := by simpa using hopen
  split
  · next c' disk' status hpersist =>
    rw [hpersist] at hp
    exact .reached hopen id hrandom expiresAt hexpires hlive fencing hnext _ c' hp
      (.inl ⟨status, rfl, rfl, rfl⟩)
  · next c' disk' hpersist =>
    rw [hpersist] at hp
    exact .reached hopen id hrandom expiresAt hexpires hlive fencing hnext _ c' hp
      (.inr ⟨rfl, rfl, rfl⟩)

variable (c disk env) in
/-- How a revocation ends: it is refused, or the lease is revoked in memory and then committed. -/
theorem revokeAuthority_cases (lease : LeaseId) :
    ((c.isOpen = false ∨ lease = .nil ∨ lease ∈ c.revoked) ∧
      Refusal c disk (c.revokeAuthority disk env lease)) ∨
    (c.isOpen = true ∧ lease ≠ .nil ∧ lease ∉ c.revoked ∧
      Revoking c disk env lease (c.revokeAuthority disk env lease)) := by
  unfold PodController.revokeAuthority
  split
  · next h => exact .inl ⟨.inl (by simpa using h), rfl, rfl, _, rfl⟩
  split
  · next h => exact .inl ⟨.inr (.inl h), rfl, rfl, _, rfl⟩
  split
  · next h => exact .inl ⟨.inr (.inr h), rfl, rfl, _, rfl⟩
  next hopen hlease hnew =>
  refine .inr ⟨by simpa using hopen, hlease, hnew, ?_⟩
  have hp := persistState_persisted { c with revoked := c.revoked ++ [lease] } disk env c.state
    c.expectations (c.tokens.filter fun token => token.lease ≠ lease) (c.revoked ++ [lease])
    (env.clock 0)
  dsimp only
  split
  · next c' disk' status hpersist =>
    rw [hpersist] at hp
    exact ⟨_, c', hp, .inl ⟨status, rfl, rfl, rfl⟩⟩
  · next c' disk' hpersist =>
    rw [hpersist] at hp
    exact ⟨_, c', hp, .inr ⟨rfl, rfl, rfl⟩⟩

end Authority

/-! ## A sample controller -/

namespace Sample

/-- An identifier of sixteen equal bytes. -/
def uuid : Uuid := ⟨List.replicate 16 7, rfl⟩

/-- Surroundings in which nothing fails. -/
def env : Env where
  clock := fun _ => 100
  random := .ok uuid

/-- Surroundings in which the store cannot commit. -/
def failing : Env := { env with commit := .failed ⟨.unavailable, "the disk is full"⟩ false false }

/-- Options of a controller, with a store or without. -/
def options (durable : Bool) : ControllerOptions where
  pod := snapshot.pod
  durable := durable

/-- A controller that is open, over a fresh directory if it is durable. -/
def world (durable : Bool) : World := (World.start (options durable) {}).next ⟨.«open», env⟩

/-- A round of the sample evidence. -/
def round : Call := ⟨.apply snapshot, env⟩

/-- The process ended after a round, and a new controller is over the directory. -/
def restarted : World := (world true).run [round, ⟨.restart, env⟩]

end Sample

end PodFabric
