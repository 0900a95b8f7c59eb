import PodFabric.Proof.Acknowledged
import PodFabric.Proof.Durable

/-!
# The store behind the controller

The controller is modelled over two durable states, the one that its store holds and the one that
its directory recovers to (`commitTo`). The store over the bytes of its files refines this as long
as every commit finds the journal whole: each commit ends as `commitTo` says for one of its
outcomes, over any session (`session_refined`), a commit that goes through leaves the journal whole
(`Session.Kept.stays_whole`), and the directory is opened to the second state (`reopen_refined`).
Behind a torn record the bytes of an acknowledged commit are cut off, as in a stored world.
-/

namespace PodFabric

/-- A store as the controller sees it: the state it holds, and the one its directory recovers to. -/
structure StoreView where
  held : DurableState
  disk : DurableState

/-- What a commit makes of the two states. -/
def StoreView.commit (v : StoreView) (env : Env) (next : DurableState) : StoreView :=
  ⟨(commitTo env v.held v.disk next).2.1, (commitTo env v.held v.disk next).2.2⟩

/-- The surroundings of a controller whose store is given the call, which ends with the outcome. -/
def CommitCall.env (call : CommitCall) (env : Env) (outcome : CommitOutcome) : Env :=
  { env with system := call.now, commit := outcome }

/-- The store over the bytes holds the one state, and its directory the other. -/
structure Session.Shows (s : Session) (v : StoreView) : Prop where
  held : s.store.state = v.held
  disk : s.Kept [(v.disk, true)]

section Refine
variable {s s' : Session} {call : CommitCall} {v : StoreView} {env : Env} {next : DurableState}
  {history history' : List (DurableState × Bool)} {x : Except Status Unit}

/-- What is kept of a history is kept of one in which more survives. -/
theorem Session.Kept.mono (h : s.Kept history)
    (hmono : ∀ state, Survives history state → Survives history' state) : s.Kept history' := by
  obtain ⟨checkpoint, state, hloads, hcovered, hsurvives, hstores⟩ := h.holds
  exact ⟨h.policy, h.isOpen, checkpoint, state, hloads, hcovered, hmono state hsurvives, hstores⟩

/-- The only state handed over survives. -/
theorem Survives.singleton {state : DurableState} {ok : Bool} : Survives [(state, ok)] state :=
  ⟨[], ok, [], rfl, by simp⟩

/-- After a commit that fails one of two states is left. -/
theorem Survives.pair {a b state : DurableState} (h : Survives [(a, true), (b, false)] state) :
    state = a ∨ state = b := by
  obtain ⟨before, ok, after, heq, -⟩ := h
  have hmem : (state, ok) ∈ [(a, true), (b, false)] := by
    rw [heq]
    exact List.mem_append_right _ List.mem_cons_self
  simp only [List.mem_cons, Prod.mk.injEq, List.not_mem_nil, or_false] at hmem
  exact hmem.imp And.left And.left

/-- A store holds the state that it has committed. A commit that fails leaves it with the state it
had, or with the new one. -/
theorem PodStore.Committed.held (h : PodStore.Committed s next s' x) :
    (x = .ok () → s'.store.state = next) ∧
      (s'.store.state = s.store.state ∨ s'.store.state = next) := by
  cases h with
  | refused => exact ⟨fun h => (by cases h), .inl rfl⟩
  | tornBegin _ _ did => exact ⟨fun h => (by cases h), .inl (congrArg PodStore.state did.store)⟩
  | tornCommit _ _ _ did => exact ⟨fun h => (by cases h), .inl (congrArg PodStore.state did.store)⟩
  | kept _ _ _ did =>
    have hstate : s'.store.state = next := congrArg PodStore.state did.store
    exact ⟨fun _ => hstate, .inr hstate⟩
  | compacting _ _ _ did executed =>
    rw [← did.store] at executed
    obtain ⟨hstore, -, -⟩ := PodStore.compact_leaves executed
    have hstate : s'.store.state = next := by
      rw [hstore, did.store]
      rfl
    exact ⟨fun _ => hstate, .inr hstate⟩

/-- A commit over a whole journal ends as the controller's model of it says, for one of its
outcomes. -/
theorem commitTo_refined (h : s.Shows v) (hsound : s.Sound call) :
    ∃ outcome, (s.commit call).1 = (commitTo (call.env env outcome) v.held v.disk call.next).1 ∧
      (s.next call).Shows (v.commit (call.env env outcome) call.next) := by
  obtain ⟨hheld, hdisk⟩ := h
  have hkept := hdisk.next hsound
  have hcommitted := @PodStore.commit_committed { s with writes := call.writes } call.next call.now
  obtain ⟨hdone, hcases⟩ := hcommitted.held
  change (s.commit call).1 = .ok () → (s.next call).store.state = s.written call at hdone
  change (s.next call).store.state = s.store.state ∨ (s.next call).store.state = s.written call
    at hcases
  have hwritten : s.written call = call.next.stamped v.held call.now := by
    rw [Session.written, hheld]
  rw [hwritten] at hdone hcases
  rw [hheld] at hcases
  have houtcome : Session.outcome (s, call) =
      (call.next.stamped v.held call.now, (s.commit call).1.isOk) := by
    rw [← hwritten]
    rfl
  rw [houtcome] at hkept
  cases hresult : (s.commit call).1 with
  | ok done =>
    rw [hresult] at hkept
    refine ⟨.committed, rfl, hdone hresult, hkept.mono fun state hsurvives => ?_⟩
    rw [hsurvives.acknowledged]
    exact .singleton
  | error status =>
    rw [hresult] at hkept
    obtain ⟨checkpoint, state, hloads, hcovered, hsurvives, hstores⟩ := hkept.holds
    have hleft : ∃ onDisk : Bool, state =
        if onDisk then call.next.stamped v.held call.now else v.disk := by
      rcases Survives.pair hsurvives with hstate | hstate
      · exact ⟨false, hstate⟩
      · exact ⟨true, hstate⟩
    have hkeeps : ∃ inStore : Bool, (s.next call).store.state =
        if inStore then call.next.stamped v.held call.now else v.held := by
      rcases hcases with hstate | hstate
      · exact ⟨false, hstate⟩
      · exact ⟨true, hstate⟩
    obtain ⟨onDisk, hstate⟩ := hleft
    obtain ⟨inStore, hstore⟩ := hkeeps
    refine ⟨.failed status onDisk inStore, rfl, hstore, hkept.policy, hkept.isOpen, checkpoint,
      state, hloads, hcovered, ?_, hstores⟩
    rw [hstate]
    exact .singleton

/-- A commit that goes through leaves a whole journal whole. -/
theorem Session.Kept.stays_whole (h : s.Kept history) (hwhole : s.Whole)
    (hok : (s.commit call).1 = .ok ()) : (s.next call).Whole := by
  have hcommitted := @PodStore.commit_committed { s with writes := call.writes } call.next call.now
  change PodStore.Committed { s with writes := call.writes } (s.written call) (s.next call)
    (s.commit call).1 at hcommitted
  rw [hok] at hcommitted
  obtain ⟨checkpoint, records, r, -, -, -, hwritten, -⟩ := h.whole hwhole
  generalize s.next call = s' at hcommitted ⊢
  cases hcommitted with
  | @kept body _ hadmits _ _ did =>
    have hjournal : s'.directory.journal = s.directory.journal ++
        ((s.written call).beginRecord body).frame ++ (s.written call).commitRecord.frame := by
      rw [did.directory, PodStore.commitPlan]
      split <;> rfl
    have hlimit : s'.store.recordLimit = s.store.recordLimit := by
      rw [did.store]
      rfl
    have hbegun : Written s.store.recordLimit _
        (records ++ [(s.written call).beginRecord body]) [] := hwritten.append hadmits.fits
    have hlanded : Written s.store.recordLimit _ (records ++
        [(s.written call).beginRecord body] ++ [(s.written call).commitRecord]) [] :=
      hbegun.append (Nat.zero_le _)
    rw [Session.Whole, hjournal, hlimit]
    exact (scan_written hlanded (.inl rfl)).2.1 rfl
  | @compacting body s₁ _ _ hadmits _ _ did executed =>
    cases executed with
    | whole hdid =>
      have hjournal : s'.directory.journal = encodeJournalHeader journalVersion ++
          ((s.store.committed (s.written call)).checkpointRecord body).frame := by
        rw [hdid.directory, PodStore.compactPlan]
        rfl
      have hlimit : s'.store.recordLimit = s.store.recordLimit := by
        rw [hdid.store]
        rfl
      have hcompacted : Written s.store.recordLimit _
          ([] ++ [(s.store.committed (s.written call)).checkpointRecord body]) [] :=
        written_header.append hadmits.fits
      rw [Session.Whole, hjournal, hlimit]
      exact (scan_written hcompacted (.inl rfl)).2.1 rfl

/-- A step of the view, for a call that ends with the outcome. -/
def StoreView.step (env : Env) (v : StoreView) (x : CommitCall × CommitOutcome) : StoreView :=
  v.commit (x.1.env env x.2) x.1.next

/-- **The store refines the controller's model of it.** Over a session whose commits all find the
journal whole, the store holds and its directory recovers to what `commitTo` makes of the commits,
for some outcome of each. -/
theorem session_refined (calls : List CommitCall) (h : s.Shows v)
    (hsound : ∀ x ∈ Run.trace Session.next s calls, x.1.Sound x.2) :
    ∃ outcomes : List CommitOutcome, outcomes.length = calls.length ∧
      (Run.final Session.next s calls).Shows
        (Run.final (StoreView.step env) v (calls.zip outcomes)) := by
  induction calls generalizing s v with
  | nil => exact ⟨[], rfl, h⟩
  | cons call calls ih =>
    rw [Run.trace_cons, List.forall_mem_cons] at hsound
    obtain ⟨outcome, -, hshows⟩ := @commitTo_refined s call v env h hsound.1
    obtain ⟨outcomes, hlength, hfinal⟩ := ih hshows hsound.2
    refine ⟨outcome :: outcomes, congrArg (· + 1) hlength, ?_⟩
    rw [Run.final_cons, List.zip_cons_cons, Run.final_cons]
    exact hfinal

/-- The directory is opened to the second state, and the store that opens it holds this state. -/
theorem reopen_refined {now : Nanos} (h : s.Shows v) (hreopen : s.Reopenable) :
    ∃ s', s.reopen now = (.ok (), s') ∧ s'.Shows ⟨v.disk, v.disk⟩ := by
  obtain ⟨s', hs', hsurvives⟩ := @Session.Kept.reopen s _ now h.disk hreopen
  have hstate : s'.store.state = v.disk := @Survives.acknowledged [] _ _ hsurvives
  exact ⟨s', hs', hstate, hstate ▸ kept_of_open hs'⟩

end Refine

/-! ## Behind a torn record -/

namespace Sample

/-- The state that the store of a controller holds. -/
def held (s : StoredWorld) : DurableState := s.world.controller.store.getD {}

/-- The durable controller after an override has been acknowledged. -/
def overridden : StoredWorld :=
  (StoredWorld.start (options true) {} false).run (overriding.take 2)

/-- The controller after the last call of `overriding`. -/
def forgetful : StoredWorld := (StoredWorld.start (options true) {} false).run overriding

/-- What the calls of `overriding` give their store to commit: the write for the token comes short
after five bytes. -/
def overridingCommits : List CommitCall :=
  [{ next := held overridden, now := 1 },
    { next := held (overridden.next { call := ⟨.mintAuthority .pod .nil 10, env⟩ }), now := 1
      writes := [some 5] },
    { next := held forgetful, now := 1 }]

end Sample

set_option maxRecDepth 8000 in
-- The store over the bytes forgets the override that was acknowledged behind the torn record as the
-- stored world does: every commit but the second goes through, the store holds what the controller
-- believes, and the directory is opened to what the stored world has for it.
example :
    (Sample.freshSession.attempts Sample.overridingCommits).map Prod.snd = [true, false, true] ∧
      (Run.final Session.next Sample.freshSession Sample.overridingCommits).store.state =
        Sample.held Sample.forgetful ∧
      ((Run.final Session.next Sample.freshSession Sample.overridingCommits).reopen 9).1 = .ok () ∧
      ((Run.final Session.next Sample.freshSession Sample.overridingCommits).reopen 9).2.store.state
        = Sample.forgetful.world.disk := by
  decide +kernel

end PodFabric
