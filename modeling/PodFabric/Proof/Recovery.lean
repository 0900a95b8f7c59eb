import PodFabric.Proof.Failure

/-!
# The first round after a restart

A restart leaves two flags for the first round of evidence: the state is historical, and the last
commit may be ambiguous. A round that is composed under the first keeps the pod out of authority
(`compose_recovered`). Every commit clears both flags, whichever call it belongs to, so that the
first round is composed under them exactly when no other call has committed before it
(`first_round_iff`).
-/

namespace PodFabric

/-! ## Composing under the flags -/

section Join
variable (f : AuthorityFold) (code : Code) (reasons : List Reason)

/-- A contribution does not make the authority less severe. -/
theorem le_severity_join_left : f.1.severity ≤ (f.join code reasons).1.severity := by
  simp [AuthorityFold.join]

/-- The authority is at least as severe as what it is joined with. -/
theorem le_severity_join_right : code.severity ≤ (f.join code reasons).1.severity := by
  simp [AuthorityFold.join]

end Join

section Findings
variable {fd : Findings}

/-- The tokens do not make the authority less severe. -/
theorem stateAuthority_le_finalAuthority :
    (stateAuthority fd).1.severity ≤ (finalAuthority fd).1.severity := by
  unfold finalAuthority
  dsimp only
  split
  · exact (le_severity_join_left ..).trans (le_severity_join_left ..)
  · exact le_severity_join_left ..

/-- The recovery of the state weighs on the authority. -/
theorem stateAuthority_of_recovered (h : fd.context.recoveredFromStore = true) :
    Code.severity .indeterminate ≤ (stateAuthority fd).1.severity := by
  unfold stateAuthority
  dsimp only
  rw [if_pos h]
  split
  · exact (le_severity_join_right ..).trans (le_severity_join_left ..)
  · exact le_severity_join_right ..

/-- A recovered pod is recovering, or partitioned if its last commit is ambiguous. -/
theorem composedLifecycle_of_recovered (h : fd.context.recoveredFromStore = true) :
    composedLifecycle fd = if fd.context.lifecycle = .retired then .retired
      else if fd.context.ambiguousCommit = true then .partitioned else .recovering := by
  have hdesired : desiredLifecycle fd =
      if fd.context.ambiguousCommit = true then .partitioned else .recovering := by
    unfold desiredLifecycle
    dsimp only
    rw [if_pos h]
    split <;> rw [if_neg (by simp)]
  unfold composedLifecycle
  rw [hdesired]
  split
  · rfl
  next hlive =>
  refine LifecycleState.next_of_legal ?_
  revert hlive
  generalize fd.context.lifecycle = lifecycle
  cases lifecycle <;> cases fd.context.ambiguousCommit <;> decide

end Findings

/-- A round over a recovered state publishes no authority. -/
theorem compose_recovered {request : CompositionRequest} {st : PodState}
    (h : compose request = .ok st) (hrec : request.context.recoveredFromStore = true) :
    (st.lifecycle = .recovering ∨ st.lifecycle = .partitioned ∨ st.lifecycle = .retired) ∧
      Code.severity .indeterminate ≤ st.authority.status.severity := by
  obtain ⟨p, -, hparts, rfl⟩ := compose_passesOf h
  rw [← hparts.context] at hrec
  rw [finalise_lifecycle, finalise_authority, composedLifecycle_of_recovered hrec]
  refine ⟨?_, (stateAuthority_of_recovered hrec).trans stateAuthority_le_finalAuthority⟩
  split_ifs <;> simp

/-! ## Commits -/

/-- The operation passes every check on its way to the commit. -/
def Op.reachesStore (c : PodController) (env : Env) (op : Op) : Prop :=
  match op with
  | .«open» | .close | .restart => False
  | .apply evidence =>
    ¬ op.refusedBy c ∧ (compose (c.request env evidence)).isOk = true
  | .setAdminState rack state => ¬ op.refusedBy c ∧ (c.haveLastEvidence = true →
      (compose ({ c with adminOverrides := c.adminOverrides.insert rack state }.request env
        c.lastEvidence)).isOk = true)
  | .clearAdminState rack => ¬ op.refusedBy c ∧ (c.haveLastEvidence = true →
      (compose ({ c with adminOverrides := c.adminOverrides.erase rack }.request env
        c.lastEvidence)).isOk = true)
  | .mintAuthority _ _ lifetime => ¬ op.refusedBy c ∧ env.random.isOk = true ∧
      (c.leaseEnd env lifetime).isOk = true ∧ c.lifecycle ≠ .retired ∧ c.fencing.next.isOk = true
  | .retire | .revokeAuthority _ => ¬ op.refusedBy c

/-- The call comes to its commit, and the store commits. -/
def Call.commits (c : PodController) (call : Call) : Prop :=
  call.op.reachesStore c call.env ∧ call.env.commit = .committed

/-- How an operation leaves the flags: a failure leaves them as they are, a success clears them. -/
structure Settles (c c' : PodController) (ok : Bool) (commits : Prop) : Prop where
  isOpen : c'.isOpen = c.isOpen
  store : c'.store.isSome = c.store.isSome
  ok_iff : ok = true ↔ commits
  failed : ok = false →
    c'.recoveredRound = c.recoveredRound ∧ c'.ambiguousCommit = c.ambiguousCommit
  done : ok = true → c'.recoveredRound = false

section Settle
variable {c c' : PodController} {disk disk' next : DurableState} {env : Env}
  {result : Result Unit}

/-- A result is `ok` when it returns something. -/
theorem isOk_eq_true {ε α : Type} {x : Except ε α} : x.isOk = true ↔ ∃ a, x = .ok a := by
  cases x <;> simp [Except.isOk, Except.toBool]

/-- How saving a round leaves the flags. -/
theorem Persisted.settles (h : Persisted c disk env next c' disk' result)
    (hs : c.store.isSome = true) : Settles c c' result.isOk (env.commit = .committed) := by
  cases h with
  | memory store => rw [store] at hs; cases hs
  | committed held store commit controller _ ok =>
    subst controller ok
    exact ⟨rfl, by rw [store]; rfl, by simp [commit, Except.isOk, Except.toBool], by
      simp [Except.isOk, Except.toBool], fun _ => rfl⟩
  | failed held held' status store commit controller _ error =>
    subst controller error
    exact ⟨rfl, by rw [store]; rfl, by simp [commit, Except.isOk, Except.toBool],
      fun _ => ⟨rfl, rfl⟩, by simp [Except.isOk, Except.toBool]⟩

/-- The condition of a settled operation may be replaced by an equivalent one. -/
theorem Settles.of_eq {ok : Bool} {commits commits' : Prop} (h : Settles c c' ok commits)
    (hc : commits ↔ commits') : Settles c c' ok commits' :=
  ⟨h.isOpen, h.store, h.ok_iff.trans hc, h.failed, h.done⟩

/-- A refused call leaves the flags alone. -/
theorem Refusal.settles {α : Type} {reply : Reply α} {commits : Prop}
    (h : Refusal c disk reply) (hn : ¬ commits) :
    Settles c reply.controller reply.result.isOk commits := by
  obtain ⟨status, he⟩ := h.error
  rw [h.controller, he]
  exact ⟨rfl, rfl, by simp [hn, Except.isOk, Except.toBool], fun _ => ⟨rfl, rfl⟩, by
    simp [Except.isOk, Except.toBool]⟩

/-- How applying evidence leaves the flags. -/
theorem Applied.settles {evidence : PodSnapshot} {reply : Reply PodController.ApplyReport}
    (h : Applied c disk env evidence reply) (hs : c.store.isSome = true) :
    Settles c reply.controller reply.result.isOk
      ((c.isOpen = true ∧ (compose (c.request env evidence)).isOk = true) ∧
        env.commit = .committed) := by
  cases h with
  | refused fault why controller _ error =>
    rw [controller, error]
    refine ⟨rfl, rfl, ?_, fun _ => ⟨rfl, rfl⟩, by simp [Except.isOk, Except.toBool]⟩
    rcases why with hclosed | hfault
    · simp [hclosed, Except.isOk, Except.toBool]
    · simp [hfault, Except.isOk, Except.toBool]
  | unsaved composed status isOpen compose persisted error =>
    rw [error]
    refine (persisted.settles hs).of_eq ?_
    simp [isOpen, compose, Except.isOk, Except.toBool]
  | published composed c'' isOpen compose persisted controller ok =>
    have hp := persisted.settles hs
    rw [controller, ok]
    refine ⟨hp.isOpen, hp.store, ?_, by simp [Except.isOk, Except.toBool], fun _ => rfl⟩
    have hcommit : env.commit = .committed := hp.ok_iff.1 rfl
    simp [isOpen, compose, hcommit, Except.isOk, Except.toBool]

/-- How saving an override leaves the flags. -/
theorem Saved.settles {reply : Reply Unit} (h : Saved c disk env reply)
    (hs : c.store.isSome = true) :
    Settles c reply.controller reply.result.isOk (env.commit = .committed) := by
  obtain ⟨result, persisted, hresult⟩ := h
  have hok : reply.result.isOk = result.isOk := by rw [hresult]; cases result <;> rfl
  rw [hok]
  exact persisted.settles hs

/-- The change of an override, for a controller `c` that has it changed already. -/
theorem Recomposed.settles {reply : Reply Unit} (h : Recomposed c disk env reply)
    (hs : c.store.isSome = true) (hopen : c.isOpen = true) :
    Settles c reply.controller reply.result.isOk
      ((c.haveLastEvidence = true →
        (compose (c.request env c.lastEvidence)).isOk = true) ∧ env.commit = .committed) := by
  cases h with
  | composed have_last round applied controller _ result =>
    have hok : reply.result.isOk = round.result.isOk := by
      rw [result]; cases round.result <;> rfl
    rw [hok, controller]
    refine (applied.settles hs).of_eq ?_
    simp [have_last, hopen]
  | saved have_none saved =>
    refine (saved.settles hs).of_eq ?_
    simp [have_none]

/-- How granting a token leaves the flags. -/
theorem Minted.settles {scope : AuthorityScope} {subject : RackId} {lifetime : Nanos}
    {reply : Reply AuthorityToken} (h : Minted c disk env scope subject lifetime reply)
    (hs : c.store.isSome = true) :
    Settles c reply.controller reply.result.isOk
      ((Op.mintAuthority scope subject lifetime).reachesStore c env ∧
        env.commit = .committed) := by
  cases h with
  | refused why refusal =>
    refine refusal.settles ?_
    rintro ⟨⟨hopen, hrandom, hexpiry, hlive, hnext⟩, -⟩
    rcases why with h | h | h | h | h
    · exact hopen h
    · simp [hrandom] at h
    · simp [hexpiry] at h
    · exact hlive h
    · simp [hnext] at h
  | reached isOpen id random expiresAt expires live fencing next result c' persisted ends =>
    have hp := persisted.settles hs
    have hready : (Op.mintAuthority scope subject lifetime).reachesStore c env := by
      refine ⟨by simp [Op.refusedBy, isOpen], isOk_eq_true.2 ⟨id, random⟩,
        isOk_eq_true.2 ⟨expiresAt, expires⟩, live, isOk_eq_true.2 ⟨fencing, next⟩⟩
    have hiff : env.commit = .committed ↔
        (Op.mintAuthority scope subject lifetime).reachesStore c env ∧
          env.commit = .committed := ⟨fun h => ⟨hready, h⟩, And.right⟩
    rcases ends with ⟨status, rfl, hcontroller, herror⟩ | ⟨rfl, hcontroller, hok⟩
    · rw [herror, hcontroller]
      exact Settles.of_eq ⟨hp.isOpen, hp.store, hp.ok_iff, hp.failed, hp.done⟩ hiff
    · rw [hok, hcontroller]
      exact Settles.of_eq ⟨hp.isOpen, hp.store, hp.ok_iff, hp.failed, hp.done⟩ hiff

/-- How a revocation leaves the flags. -/
theorem Revoking.settles {lease : LeaseId} {reply : Reply Unit}
    (h : Revoking c disk env lease reply) (hs : c.store.isSome = true) :
    Settles c reply.controller reply.result.isOk (env.commit = .committed) := by
  obtain ⟨result, c', persisted, hends⟩ := h
  have hp := persisted.settles hs
  rcases hends with ⟨status, rfl, hcontroller, herror⟩ | ⟨rfl, hcontroller, hok⟩
  · rw [herror, hcontroller]
    exact ⟨hp.isOpen, hp.store, hp.ok_iff, hp.failed, hp.done⟩
  · rw [hok, hcontroller]
    exact ⟨hp.isOpen, hp.store, hp.ok_iff, hp.failed, hp.done⟩

end Settle

/-! ## Calls -/

/-- A step succeeds when its reply does. -/
theorem Reply.step_ok {α : Type} {answer : α → Answer} {reply : Reply α}
    (hanswer : ∀ a, (answer a).ok = true) : (reply.step answer).2.ok = reply.result.isOk := by
  unfold Reply.step
  cases reply.result with
  | ok value => exact hanswer value
  | error fault => rfl

/-- Every operation on a controller with a store succeeds exactly when it commits. -/
theorem World.settles {w : World} {call : Call} (hop : call.op.operates = true)
    (hs : w.controller.store.isSome = true) :
    Settles w.controller (w.next call).controller (w.answer call).ok
      (call.commits w.controller) := by
  obtain ⟨c, disk⟩ := w
  obtain ⟨op, env⟩ := call
  cases op with
  | «open» | close | restart => cases hop
  | apply evidence =>
    unfold World.answer
    rw [show (World.perform ⟨c, disk⟩ ⟨.apply evidence, env⟩).2.ok = _ from
      Reply.step_ok fun _ => rfl]
    refine ((apply_applied ..).settles hs).of_eq ?_
    simp [Call.commits, Op.reachesStore, Op.refusedBy]
  | setAdminState rack state =>
    unfold World.answer
    rw [show (World.perform ⟨c, disk⟩ ⟨.setAdminState rack state, env⟩).2.ok = _ from
      Reply.step_ok fun _ => rfl]
    rcases setAdminState_cases c disk env rack state with
      ⟨hwhy, hrefusal⟩ | ⟨hopen, hrack, hlife, hrecomposed⟩
    · exact hrefusal.settles fun h => h.1.1 hwhy
    · have h := hrecomposed.settles hs hopen
      refine Settles.of_eq ⟨h.isOpen, h.store, h.ok_iff, h.failed, h.done⟩ ?_
      simp [Call.commits, Op.reachesStore, Op.refusedBy, hopen, hrack, hlife]
  | clearAdminState rack =>
    unfold World.answer
    rw [show (World.perform ⟨c, disk⟩ ⟨.clearAdminState rack, env⟩).2.ok = _ from
      Reply.step_ok fun _ => rfl]
    rcases clearAdminState_cases c disk env rack with
      ⟨hwhy, hrefusal⟩ | ⟨hopen, hlife, hrecomposed⟩
    · exact hrefusal.settles fun h => h.1.1 hwhy
    · have h := hrecomposed.settles hs hopen
      refine Settles.of_eq ⟨h.isOpen, h.store, h.ok_iff, h.failed, h.done⟩ ?_
      simp [Call.commits, Op.reachesStore, Op.refusedBy, hopen, hlife]
  | retire =>
    unfold World.answer
    rw [show (World.perform ⟨c, disk⟩ ⟨.retire, env⟩).2.ok = _ from
      Reply.step_ok fun _ => rfl]
    rcases retire_cases c disk env with
      ⟨hwhy, hrefusal⟩ | ⟨hopen, hlife, hsaved⟩
    · exact hrefusal.settles fun h => h.1 hwhy
    · have h := hsaved.settles hs
      refine Settles.of_eq ⟨h.isOpen, h.store, h.ok_iff, h.failed, h.done⟩ ?_
      simp [Call.commits, Op.reachesStore, Op.refusedBy, hopen, hlife]
  | mintAuthority scope subject lifetime =>
    unfold World.answer
    rw [show (World.perform ⟨c, disk⟩ ⟨.mintAuthority scope subject lifetime, env⟩).2.ok = _ from
      Reply.step_ok fun _ => rfl]
    exact (mintAuthority_minted ..).settles hs
  | revokeAuthority lease =>
    unfold World.answer
    rw [show (World.perform ⟨c, disk⟩ ⟨.revokeAuthority lease, env⟩).2.ok = _ from
      Reply.step_ok fun _ => rfl]
    rcases revokeAuthority_cases c disk env lease with
      ⟨hwhy, hrefusal⟩ | ⟨hopen, hlease, hnew, hrevoking⟩
    · exact hrefusal.settles fun h => h.1 hwhy
    · have h := hrevoking.settles hs
      refine Settles.of_eq ⟨h.isOpen, h.store, h.ok_iff, h.failed, h.done⟩ ?_
      simp [Call.commits, Op.reachesStore, Op.refusedBy, hopen, hlease, hnew]

/-! ## The first round -/

/-- The operations that may come between a restart and the first round. -/
def Op.intervenes : Op → Bool
  | .setAdminState .. | .clearAdminState _ | .mintAuthority .. | .revokeAuthority _ => true
  | _ => false

/-- The round is composed under the flags of the recovery, and publishes no authority. -/
structure HistoricalRound (c : PodController) (env : Env) (evidence : PodSnapshot)
    (ambiguous : Bool) (st : PodState) : Prop where
  recovered : (c.request env evidence).context.recoveredFromStore = true
  ambiguous : (c.request env evidence).context.ambiguousCommit = ambiguous
  lifecycle : st.lifecycle = .recovering ∨ st.lifecycle = .partitioned ∨ st.lifecycle = .retired
  authority : Code.severity .indeterminate ≤ st.authority.status.severity

/-- A round that is reported was composed. -/
theorem World.composed_of_applied {w : World} {env : Env} {evidence : PodSnapshot}
    {report : PodController.ApplyReport} (h : w.answer ⟨.apply evidence, env⟩ = .applied report) :
    compose (w.controller.request env evidence) = .ok report.state := by
  obtain ⟨c, disk⟩ := w
  have hreport : (c.apply disk env evidence).result = .ok report := by
    unfold World.answer World.perform Reply.step at h
    dsimp only at h
    split at h
    · next report' hr => rw [hr, Answer.applied.inj h]
    · cases h
  cases apply_applied c disk env evidence with
  | refused _ _ _ _ error => rw [error] at hreport; cases hreport
  | unsaved _ _ _ _ _ error => rw [error] at hreport; cases hreport
  | published composed _ _ compose _ _ ok =>
    rw [ok, Except.ok.injEq] at hreport
    rw [← hreport]
    exact compose

/-- The flags after opening a directory with a state of the pod. -/
theorem World.opened_recovered {w : World} {call : Call} (hop : call.op = .«open»)
    (hdone : w.answer call = .done) (hdurable : w.controller.options.durable = true)
    (hidentity : w.disk.pod ≠ .nil) :
    Recovered w.controller w.disk call.env (w.next call).controller := by
  obtain ⟨c, disk⟩ := w
  obtain ⟨op, env⟩ := call
  subst hop
  have hok : (c.«open» disk env).result = .ok () := by
    unfold World.answer World.perform Reply.step at hdone
    dsimp only at hdone
    split at hdone
    · next hr => exact hr
    · cases hdone
  cases open_opened c disk env with
  | refused refusal =>
    obtain ⟨status, he⟩ := refusal.error
    rw [he] at hok
    cases hok
  | failed _ _ _ _ _ error =>
    obtain ⟨status, he⟩ := error
    rw [he] at hok
    cases hok
  | fresh _ _ _ _ store => exact absurd (store hdurable).1 hidentity
  | recovered _ _ _ _ _ recovered => exact recovered

/-- **The first round after a restart.** Let a durable controller open a directory with a state of
the pod, let overrides be changed and tokens be minted and revoked (or rounds fail), and let then a
first round be applied. It is composed under the flags of the recovery, and publishes no authority,
if and only if none of the calls before it has come to a successful commit. -/
theorem first_round_iff {w : World} {call : Call} {calls : List Call} {env : Env}
    {evidence : PodSnapshot} {report : PodController.ApplyReport} (hop : call.op = .«open»)
    (hdone : w.answer call = .done) (hdurable : w.controller.options.durable = true)
    (hidentity : w.disk.pod ≠ .nil)
    (hcalls : ∀ x ∈ (w.next call).trace calls, x.2.op.intervenes = true ∨
      (∃ evidence, x.2.op = .apply evidence) ∧ (x.1.answer x.2).ok = false)
    (hround : ((w.next call).run calls).answer ⟨.apply evidence, env⟩ = .applied report) :
    HistoricalRound ((w.next call).run calls).controller env evidence
        call.env.recovery.ambiguousCommit report.state ↔
      ∀ x ∈ (w.next call).trace calls, ¬ x.2.commits x.1.controller := by
  have hrecovered := World.opened_recovered hop hdone hdurable hidentity
  have hoperates : ∀ x ∈ (w.next call).trace calls, x.2.op.operates = true := by
    intro x hx
    rcases hcalls x hx with h | ⟨⟨_, h⟩, -⟩
    · revert h
      cases x.2.op <;> simp [Op.intervenes, Op.operates]
    · rw [h]
      rfl
  have hstores : ∀ x ∈ (w.next call).trace calls, x.1.controller.store.isSome = true :=
    (Run.trace_invariant (P := fun w => w.controller.store.isSome = true) hrecovered.store
      fun x hx hs => (World.settles (hoperates x hx) hs).store.trans hs).1
  have hcomposed := World.composed_of_applied hround
  constructor
  · -- a commit clears the flag, and no later call sets it again
    intro h x hx hcommits
    obtain ⟨front, back, htrace⟩ := List.append_of_mem hx
    have hfinal := Run.final_of_trace (P := fun w => w.controller.recoveredRound = false) htrace
      ((World.settles (hoperates x hx) (hstores x hx)).done
        ((World.settles (hoperates x hx) (hstores x hx)).ok_iff.2 hcommits))
      fun y hy hfalse => by
        have hy : y ∈ (w.next call).trace calls := by simp [htrace, hy]
        have hsettles := World.settles (hoperates y hy) (hstores y hy)
        cases hok : (y.1.answer y.2).ok with
        | true => exact hsettles.done hok
        | false => exact (hsettles.failed hok).1.trans hfalse
    exact absurd (h.recovered.symm.trans hfinal) (by simp)
  · intro hquiet
    obtain ⟨hflag, hambiguous⟩ := Run.final_invariant (P := fun w' : World =>
        w'.controller.recoveredRound = true ∧
          w'.controller.ambiguousCommit = call.env.recovery.ambiguousCommit)
      ⟨hrecovered.recoveredRound, hrecovered.ambiguousCommit⟩ fun x hx hflags => by
        have hsettles := World.settles (hoperates x hx) (hstores x hx)
        have hfailed := hsettles.failed (by
          simpa using mt hsettles.ok_iff.1 (hquiet x hx))
        exact ⟨hfailed.1.trans hflags.1, hfailed.2.trans hflags.2⟩
    obtain ⟨hlifecycle, hauthority⟩ := compose_recovered hcomposed hflag
    exact ⟨hflag, hambiguous, hlifecycle, hauthority⟩

/-- What a round publishes, if it does. -/
def Answer.published : Answer → Option PodState
  | .applied report => some report.state
  | _ => none

/-- A round right after the restart is composed under the flags. -/
theorem first_round_after_restart : ∃ st,
    ((Sample.restarted.next ⟨.«open», Sample.env⟩).answer Sample.round).published = some st ∧
      HistoricalRound (Sample.restarted.next ⟨.«open», Sample.env⟩).controller Sample.env
        Sample.snapshot false st := by
  have hrun : ((Sample.restarted.next ⟨.«open», Sample.env⟩).answer Sample.round).published.isSome =
      true := by decide +kernel
  cases h : (Sample.restarted.next ⟨.«open», Sample.env⟩).answer Sample.round with
  | applied report =>
    exact ⟨report.state, rfl, (@first_round_iff Sample.restarted ⟨.«open», Sample.env⟩ [] _ _ _ rfl
      (by decide +kernel) rfl (by decide +kernel) (by simp) h).2 (by simp)⟩
  | done | granted _ | failed _ => simp [h, Answer.published] at hrun

/-- A token that is minted before the first round clears the flags: the round is composed as if
there had been no restart. -/
theorem mint_hides_restart : ¬ ∀ (w : World) (call : Call) (calls : List Call) (env : Env)
    (evidence : PodSnapshot) (report : PodController.ApplyReport), call.op = .«open» →
    w.answer call = .done → w.controller.options.durable = true → w.disk.pod ≠ .nil →
    w.disk.lifecycle ≠ .retired → (∀ c ∈ calls, c.op.intervenes = true) →
    ((w.next call).run calls).answer ⟨.apply evidence, env⟩ = .applied report →
    HistoricalRound ((w.next call).run calls).controller env evidence
      call.env.recovery.ambiguousCommit report.state := by
  intro hclaim
  let opened := Sample.restarted.next ⟨.«open», Sample.env⟩
  let mint : Call := ⟨.mintAuthority .pod .nil 10, Sample.env⟩
  have hrun : ((opened.next mint).answer Sample.round).published.isSome = true := by decide +kernel
  cases h : (opened.next mint).answer Sample.round with
  | applied report =>
    have hround := hclaim Sample.restarted ⟨.«open», Sample.env⟩ [mint] Sample.env
      Sample.snapshot report rfl (by decide +kernel) rfl (by decide +kernel) (by decide +kernel)
      (by simp [mint, Op.intervenes]) h
    exact absurd hround.recovered (by decide +kernel)
  | done | granted _ | failed _ => simp [h, Answer.published] at hrun

end PodFabric
