import PodFabric.Proof.Tokens

/-!
# The identity of the pod

A controller names its own pod in what it commits and in the tokens it mints, and it opens no
directory of another pod. The state it publishes names the pod of the evidence, which nothing
compares with its own: what it publishes is its own pod exactly as long as no evidence of another
pod gets through (`identity_iff`).
-/

namespace PodFabric

/-- The controller, its tokens, its last evidence and its store directory are of one pod. -/
structure Own (c : PodController) (disk : DurableState) : Prop where
  state : c.state.pod = c.options.pod
  tokens : ∀ token ∈ c.tokens, token.pod = c.options.pod
  evidence : c.haveLastEvidence = true → c.lastEvidence.pod = c.options.pod
  disk : c.options.durable = true → disk.pod = .nil ∨ disk.pod = c.options.pod

/-- The evidence would be published: the controller is open, the evidence composes, and the commit
succeeds. -/
def PodController.Admits (c : PodController) (env : Env) (evidence : PodSnapshot) : Prop :=
  c.isOpen = true ∧ (∃ st, compose (c.request env evidence) = .ok st) ∧
    (c.store = none ∨ env.commit = .committed)

section Rounds
variable {c c₀ c' : PodController} {disk disk' next : DurableState} {env : Env}
  {result : Result Unit} {evidence : PodSnapshot}

/-- The composed state is of the pod the evidence names. -/
theorem compose_pod {request : CompositionRequest} {st : PodState} (h : compose request = .ok st) :
    st.pod = request.snapshot.pod := by
  obtain ⟨p, -, hp, rfl⟩ := compose_passesOf h
  rw [finalise_pod, hp.snapshot]

/-- A round that was saved is on disk, if there is a store. -/
theorem Persisted.commits (h : Persisted c disk env next c' disk' (.ok ())) :
    c.store = none ∨ env.commit = .committed := by
  cases h with
  | memory store => exact .inl store
  | committed _ _ commit => exact .inr commit
  | failed _ _ _ _ _ _ _ error => cases error

/-- A commit leaves a record of the pod or none. -/
theorem Own.persisted (h : Own c disk) (hp : Persisted c disk env next c' disk' result)
    (hpod : next.pod = c.options.pod) : Own c' disk' := by
  have hu := hp.untouched
  have hm {α : Type} (field : Memory → α) : field c'.memory = field c.memory :=
    congrArg field hu.memory
  have hstate : c'.state = c.state := hm Memory.state
  have htokens : c'.tokens = c.tokens := hm Memory.tokens
  refine ⟨?_, ?_, ?_, fun hdurable => ?_⟩
  · rw [hstate, hu.options]
    exact h.state
  · rw [htokens, hu.options]
    exact h.tokens
  · rw [hu.haveLastEvidence, hu.lastEvidence, hu.options]
    exact h.evidence
  · rw [hu.options] at hdurable ⊢
    cases hp with
    | memory _ _ same => exact same ▸ h.disk hdurable
    | committed _ _ _ _ written => exact .inr (by rw [written]; exact hpod)
    | failed _ _ _ _ _ _ written =>
      rcases written with rfl | rfl
      · exact h.disk hdurable
      · exact .inr hpod

/-- The tokens that survive a round were there before. -/
theorem mem_survivingTokens {composed : PodState} {token : AuthorityToken}
    (h : token ∈ c.survivingTokens env composed) : token ∈ c.tokens := by
  obtain ⟨⟨_, verdict⟩, hp, rfl⟩ := List.mem_map.1 h
  obtain ⟨i, hi, heq⟩ := List.mem_mapIdx.1 (List.mem_filter.1 hp).1
  cases heq
  exact List.getElem_mem hi

/-- A round leaves everything of one pod, unless it publishes evidence of another. -/
theorem Own.applied {reply : Reply PodController.ApplyReport} (h : Own c disk)
    (happlied : Applied c disk env evidence reply)
    (hpod : c.Admits env evidence → evidence.pod = c.options.pod) :
    Own reply.controller reply.disk := by
  cases happlied with
  | refused fault _ controller same =>
    rw [controller, same]
    exact h
  | unsaved composed status isOpen hcompose persisted => exact h.persisted persisted rfl
  | published composed c' isOpen hcompose persisted controller =>
    have hown := h.persisted persisted rfl
    have hu := persisted.untouched
    have hsame : evidence.pod = c'.options.pod :=
      hu.options ▸ hpod ⟨isOpen, ⟨composed, hcompose⟩, persisted.commits⟩
    rw [controller]
    refine ⟨(compose_pod hcompose).trans hsame, fun token htoken => ?_, fun _ => hsame, hown.disk⟩
    rw [show (c'.published _ _ _ _).options = c.options from hu.options]
    exact h.tokens token (mem_survivingTokens htoken)

/-- Saving an override keeps the controller's pod its own. -/
theorem Own.saved {reply : Reply Unit} (h : Own c disk) (hsaved : Saved c disk env reply) :
    Own reply.controller reply.disk := by
  obtain ⟨result, persisted, -⟩ := hsaved
  exact h.persisted persisted rfl

/-- Composing the last evidence again brings in no other pod. -/
theorem Own.recomposed {reply : Reply Unit} (h : Own c disk)
    (hrecomposed : Recomposed c disk env reply) : Own reply.controller reply.disk := by
  cases hrecomposed with
  | composed have_last round applied controller disk =>
    rw [controller, disk]
    exact h.applied applied fun _ => h.evidence have_last
  | saved _ saved => exact h.saved saved

end Rounds

/-! ## Worlds -/

/-- What holds of a world whether its controller is open or not. -/
structure Minds (w : World) : Prop where
  state : w.controller.state.pod = .nil ∨ w.controller.state.pod = w.controller.options.pod
  tokens : ∀ token ∈ w.controller.tokens, token.pod = w.controller.options.pod
  evidence : w.controller.haveLastEvidence = true →
    w.controller.lastEvidence.pod = w.controller.options.pod
  own : w.controller.isOpen = true → Own w.controller w.disk

section Worlds
variable {c : PodController} {disk : DurableState} {env : Env} {w : World} {call : Call}

/-- A controller that owns its pod minds it. -/
theorem Own.minds (h : Own c disk) : Minds ⟨c, disk⟩ :=
  ⟨.inr h.state, h.tokens, h.evidence, fun _ => h⟩

/-- What opening leaves of the tokens and of the state. -/
structure Begins (c c' : PodController) : Prop where
  tokens : c'.tokens = c.tokens ∨ c'.tokens = []
  state : c'.state.pod = c.options.pod

/-- The commit of a restart begins a controller. -/
theorem commitRestart_begins {recovered : DurableState} {c₀ : PodController} (h : Begins c₀ c) :
    Begins c₀ (c.commitRestart disk env recovered).controller := by
  unfold PodController.commitRestart
  dsimp only
  split <;> exact ⟨h.tokens, h.state⟩

/-- Opening is refused, or starts from the state of its own pod. -/
theorem open_begins : (c.«open» disk env).controller = c ∨
    Begins c (c.«open» disk env).controller := by
  unfold PodController.«open»
  split
  · exact .inl rfl
  split
  · exact .inl rfl
  split
  · exact .inl rfl
  · exact .inl rfl
  split
  swap
  · exact .inr ⟨.inl rfl, rfl⟩
  unfold PodController.openStore
  dsimp only
  split
  · exact .inr ⟨.inl rfl, rfl⟩
  split
  · exact .inr ⟨.inl rfl, rfl⟩
  split
  · exact .inr ⟨.inl rfl, rfl⟩
  unfold PodController.recover
  dsimp only
  split
  · exact .inr (commitRestart_begins ⟨.inr rfl, rfl⟩)
  split
  · exact .inr ⟨.inr rfl, rfl⟩
  · exact .inr (commitRestart_begins ⟨.inr rfl, rfl⟩)

/-- Closing leaves what the controller knows of its pod. -/
theorem close_keeps : (c.close disk env).controller.state = c.state ∧
    (c.close disk env).controller.tokens = c.tokens ∧
    (c.close disk env).controller.lastEvidence = c.lastEvidence ∧
    (c.close disk env).controller.haveLastEvidence = c.haveLastEvidence := by
  unfold PodController.close
  split
  · exact ⟨rfl, rfl, rfl, rfl⟩
  · dsimp only
    split <;> exact ⟨rfl, rfl, rfl, rfl⟩

/-- Opening keeps the pod minded. -/
theorem Minds.open (h : Minds ⟨c, disk⟩) :
    Minds ⟨(c.«open» disk env).controller, (c.«open» disk env).disk⟩ := by
  have hbegins := @open_begins c disk env
  have hopened := open_opened c disk env
  generalize c.«open» disk env = reply at hbegins hopened
  rcases hbegins with hsame | hbegins
  · -- the controller is as it was, open or closed
    refine ⟨by rw [hsame]; exact h.state, by rw [hsame]; exact h.tokens,
      by rw [hsame]; exact h.evidence, fun hopen => ?_⟩
    cases hopened with
    | refused refusal =>
      rw [refusal.controller] at hopen ⊢
      rw [refusal.disk]
      exact h.own hopen
    | failed _ _ closed => rw [closed] at hopen; cases hopen
    | fresh closed => rw [hsame, closed] at hopen; cases hopen
    | recovered closed => rw [hsame, closed] at hopen; cases hopen
  · have hreopened : reply.controller = c ∧ reply.disk = disk ∨
        Reopened c reply.controller ∧ (reply.controller.isOpen = true →
          c.options.durable = true →
            reply.disk.pod = .nil ∨ reply.disk.pod = c.options.pod) := by
      cases hopened with
      | refused refusal => exact .inl ⟨refusal.controller, refusal.disk⟩
      | failed _ reopened closed =>
        exact .inr ⟨reopened, fun hopen => by rw [closed] at hopen; cases hopen⟩
      | fresh _ _ reopened _ store _ same =>
        exact .inr ⟨reopened, fun _ hdurable => .inl (same ▸ (store hdurable).1)⟩
      | recovered _ _ reopened _ _ recovered same =>
        exact .inr ⟨reopened, fun _ _ => .inr (same.pod.trans recovered.pod)⟩
    rcases hreopened with ⟨hsame, hdisk⟩ | ⟨hreopened, hdisk⟩
    · rw [hsame, hdisk]
      exact h
    have htokens : ∀ token ∈ reply.controller.tokens, token.pod = reply.controller.options.pod := by
      rw [hreopened.options]
      rcases hbegins.tokens with htokens | htokens
      · rw [htokens]
        exact h.tokens
      · simp [htokens]
    have hevidence : reply.controller.haveLastEvidence = true →
        reply.controller.lastEvidence.pod = reply.controller.options.pod := by
      rw [hreopened.haveLastEvidence, hreopened.lastEvidence, hreopened.options]
      exact h.evidence
    have hstate : reply.controller.state.pod = reply.controller.options.pod := by
      rw [hbegins.state, hreopened.options]
    refine ⟨.inr hstate, htokens, hevidence, fun hopen => ⟨hstate, htokens, hevidence, ?_⟩⟩
    · rw [hreopened.options]
      exact hdisk hopen

/-- The call applies no evidence of another pod that would be published. -/
def World.Faithful (w : World) (call : Call) : Prop :=
  ∀ evidence, call.op = .apply evidence → w.controller.Admits call.env evidence →
    evidence.pod = w.controller.options.pod

/-- A faithful call keeps the pod minded. -/
theorem Minds.next (h : Minds w) (hcall : w.Faithful call) : Minds (w.next call) := by
  obtain ⟨c, disk⟩ := w
  obtain ⟨op, env⟩ := call
  have hrefused {α : Type} {reply : Reply α} (hrefusal : Refusal c disk reply) :
      Minds ⟨reply.controller, reply.disk⟩ := by
    rw [hrefusal.controller, hrefusal.disk]
    exact h
  cases op with
  | «open» => exact h.open
  | close =>
    obtain ⟨hstate, htokens, hlast, hhave⟩ := @close_keeps c disk env
    obtain ⟨-, -, hoptions, hclosed, -⟩ := @close_standing c disk env
    change Minds ⟨(c.close disk env).controller, (c.close disk env).disk⟩
    refine ⟨?_, ?_, ?_, fun hopen => ?_⟩
    · rw [hstate, hoptions]
      exact h.state
    · rw [htokens, hoptions]
      exact h.tokens
    · rw [hhave, hlast, hoptions]
      exact h.evidence
    · rw [hclosed] at hopen
      cases hopen
  | restart =>
    change Minds ⟨.new c.options, disk⟩
    refine ⟨.inl rfl, fun token htoken => ?_, fun hlast => ?_, fun hopen => ?_⟩
    · simp [PodController.new] at htoken
    · cases hlast
    · cases hopen
  | apply evidence =>
    have happlied := apply_applied c disk env evidence
    change Minds ⟨(c.apply disk env evidence).controller, (c.apply disk env evidence).disk⟩
    by_cases hopen : c.isOpen = true
    · exact ((h.own hopen).applied happlied (hcall evidence rfl)).minds
    · cases happlied with
      | refused _ _ controller same => rw [controller, same]; exact h
      | unsaved _ _ isOpen => exact absurd isOpen hopen
      | published _ _ isOpen => exact absurd isOpen hopen
  | setAdminState rack state =>
    rcases setAdminState_cases c disk env rack state with ⟨-, hrefusal⟩ | ⟨hopen, -, -, hr⟩
    · exact hrefused hrefusal
    · obtain ⟨hstate, htokens, hevidence, hdisk⟩ := h.own hopen
      have hset : Own { c with adminOverrides := c.adminOverrides.insert rack state } disk :=
        ⟨hstate, htokens, hevidence, hdisk⟩
      exact (hset.recomposed hr).minds
  | clearAdminState rack =>
    rcases clearAdminState_cases c disk env rack with ⟨-, hrefusal⟩ | ⟨hopen, -, hr⟩
    · exact hrefused hrefusal
    · obtain ⟨hstate, htokens, hevidence, hdisk⟩ := h.own hopen
      have hcleared : Own { c with adminOverrides := c.adminOverrides.erase rack } disk :=
        ⟨hstate, htokens, hevidence, hdisk⟩
      exact (hcleared.recomposed hr).minds
  | retire =>
    rcases retire_cases c disk env with ⟨-, hrefusal⟩ | ⟨hopen, -, hsaved⟩
    · exact hrefused hrefusal
    · obtain ⟨hstate, -, hevidence, hdisk⟩ := h.own hopen
      have hretiring : Own c.retiring disk :=
        ⟨hstate, by simp [PodController.retiring], hevidence, hdisk⟩
      exact (hretiring.saved hsaved).minds
  | mintAuthority scope subject lifetime =>
    cases mintAuthority_minted c disk env scope subject lifetime with
    | refused _ refusal => exact hrefused refusal
    | reached hopen id _ expiresAt _ _ fencing _ result c' persisted ends =>
      obtain ⟨hstate, htokens, hevidence, hdisk⟩ := h.own hopen
      have hfenced : Own { c with fencing } disk := ⟨hstate, htokens, hevidence, hdisk⟩
      have hown := hfenced.persisted persisted rfl
      change Minds ⟨(c.mintAuthority disk env scope subject lifetime).controller,
        (c.mintAuthority disk env scope subject lifetime).disk⟩
      rcases ends with ⟨_, -, hcontroller, -⟩ | ⟨-, hcontroller, -⟩
      · rw [hcontroller]
        exact hown.minds
      · rw [hcontroller]
        refine Own.minds ⟨hown.state, fun token htoken => ?_, hown.evidence, hown.disk⟩
        rcases List.mem_append.1 htoken with htoken | htoken
        · exact hown.tokens token htoken
        · rw [List.mem_singleton.1 htoken]
          exact persisted.untouched.options ▸ rfl
  | revokeAuthority lease =>
    rcases revokeAuthority_cases c disk env lease with
      ⟨-, hrefusal⟩ | ⟨hopen, -, -, result, c', persisted, ends⟩
    · exact hrefused hrefusal
    · obtain ⟨hstate, htokens, hevidence, hdisk⟩ := h.own hopen
      have hrevoked : Own { c with revoked := c.revoked ++ [lease] } disk :=
        ⟨hstate, htokens, hevidence, hdisk⟩
      have hown := hrevoked.persisted persisted rfl
      change Minds ⟨(c.revokeAuthority disk env lease).controller,
        (c.revokeAuthority disk env lease).disk⟩
      rcases ends with ⟨_, -, hcontroller, -⟩ | ⟨-, hcontroller, -⟩
      · rw [hcontroller]
        exact hown.minds
      · rw [hcontroller]
        refine Own.minds ⟨hown.state, fun token htoken => ?_, hown.evidence, hown.disk⟩
        rw [show ({ c' with tokens := _ } : PodController).options = c.options from
          persisted.untouched.options]
        exact htokens token (List.mem_of_mem_filter htoken)

/-- The world names one pod: the state that an open controller shows, the record in its directory
and its tokens are of the pod of its options. -/
structure Identifies (w : World) : Prop where
  state : w.controller.state.pod = .nil ∨ w.controller.state.pod = w.controller.options.pod
  published : w.controller.isOpen = true → w.controller.state.pod = w.controller.options.pod
  tokens : ∀ token ∈ w.controller.tokens, token.pod = w.controller.options.pod
  disk : w.controller.isOpen = true → w.controller.options.durable = true →
    w.disk.pod = .nil ∨ w.disk.pod = w.controller.options.pod

/-- A round over evidence of another pod is refused, and the controller is as it was. -/
def World.RefusesOthers (w : World) (call : Call) : Prop :=
  ∀ evidence, call.op = .apply evidence → evidence.pod ≠ w.controller.options.pod →
    (w.answer call).ok = false ∧ (w.next call).controller.memory = w.controller.memory

/-- A world that minds its pod identifies it. -/
theorem Minds.identifies (h : Minds w) : Identifies w :=
  ⟨h.state, fun hopen => (h.own hopen).state, h.tokens, fun hopen => (h.own hopen).disk⟩

/-- A round succeeds exactly if its evidence is admitted. -/
theorem World.apply_ok_iff {evidence : PodSnapshot} :
    (w.answer ⟨.apply evidence, env⟩).ok = true ↔ w.controller.Admits env evidence := by
  obtain ⟨c, disk⟩ := w
  change ((c.apply disk env evidence).step Answer.applied).2.ok = true ↔ c.Admits env evidence
  cases apply_applied c disk env evidence with
  | refused fault why _ _ error =>
    refine iff_of_false (by simp [Reply.step, Answer.ok, error]) fun ⟨hopen, ⟨st, hst⟩, _⟩ => ?_
    rcases why with hclosed | hrefused
    · exact absurd (hopen.symm.trans hclosed) (by decide)
    · rw [hst] at hrefused
      cases hrefused
  | unsaved _ _ _ _ persisted error =>
    refine iff_of_false (by simp [Reply.step, Answer.ok, error]) fun ⟨_, _, hcommits⟩ => ?_
    cases persisted with
    | memory _ _ _ ok => cases ok
    | committed _ _ _ _ _ ok => cases ok
    | failed _ _ _ store commit =>
      rcases hcommits with hnone | hcommitted
      · rw [hnone] at store
        cases store
      · exact commit hcommitted
  | published composed c' isOpen hcompose persisted _ ok =>
    exact iff_of_true (by simp [Reply.step, Answer.ok, ok])
      ⟨isOpen, ⟨composed, hcompose⟩, persisted.commits⟩

/-- A round that fails changes nothing a client sees. -/
theorem World.apply_failed {evidence : PodSnapshot}
    (h : (w.answer ⟨.apply evidence, env⟩).ok = false) :
    (w.next ⟨.apply evidence, env⟩).controller.memory = w.controller.memory := by
  obtain ⟨c, disk⟩ := w
  change ((c.apply disk env evidence).step Answer.applied).2.ok = false at h
  change (c.apply disk env evidence).controller.memory = c.memory
  cases apply_applied c disk env evidence with
  | refused _ _ controller => rw [controller]
  | unsaved _ _ _ _ persisted => exact persisted.memory_eq
  | published _ _ _ _ _ _ ok => simp [Reply.step, Answer.ok, ok] at h

/-- The rounds over other pods' evidence are refused exactly if none of it is admitted. -/
theorem World.refusesOthers_iff : w.RefusesOthers call ↔ w.Faithful call := by
  obtain ⟨op, env⟩ := call
  constructor
  · rintro h evidence rfl hadmits
    by_contra hother
    exact absurd ((h evidence rfl hother).1.symm.trans (apply_ok_iff.2 hadmits)) (by decide)
  · rintro h evidence rfl hother
    have hfails : (w.answer ⟨.apply evidence, env⟩).ok = false :=
      Bool.eq_false_iff.2 fun hok => hother (h evidence rfl (apply_ok_iff.1 hok))
    exact ⟨hfails, apply_failed hfails⟩

end Worlds

/-- **Pod identity.** The controller, its record and its tokens name the pod it was opened for in
every state of a run, and every round over evidence of another pod is refused and changes nothing,
exactly if no round of the run is given evidence of another pod that composes and can be
committed. -/
theorem identity_iff {options : ControllerOptions} {disk : DurableState} {calls : List Call} :
    (∀ x ∈ (World.start options disk).trace calls,
      Identifies (x.1.next x.2) ∧ x.1.RefusesOthers x.2) ↔
    ∀ x ∈ (World.start options disk).trace calls, x.1.Faithful x.2 := by
  constructor
  · exact fun h x hx => World.refusesOthers_iff.1 (h x hx).2
  · intro h
    have hstart : Minds (World.start options disk) := by
      refine ⟨.inl rfl, fun token htoken => ?_, fun hlast => ?_, fun hopen => ?_⟩
      · simp [World.start, PodController.new] at htoken
      · cases hlast
      · cases hopen
    have hminds := (Run.trace_invariant hstart fun x hx hm => hm.next (h x hx)).1
    exact fun x hx => ⟨((hminds x hx).next (h x hx)).identifies, World.refusesOthers_iff.2 (h x hx)⟩

namespace Sample

/-- The sample evidence under the name of another pod. -/
def foreign : PodSnapshot := { snapshot with pod := idOf "elsewhere" }

end Sample

/-- The round over the evidence of another pod succeeds, and that pod is published. -/
theorem foreign_pod_published : ¬ ∀ (options : ControllerOptions) (disk : DurableState)
    (calls : List Call), ∀ x ∈ (World.start options disk).trace calls,
      Identifies (x.1.next x.2) ∧ x.1.RefusesOthers x.2 := by
  intro hclaim
  have h := (hclaim (Sample.options false) {} [⟨.«open», Sample.env⟩,
    ⟨.apply Sample.foreign, Sample.env⟩] _ (List.mem_cons_of_mem _ List.mem_cons_self)).1.published
  have hforeign : ((World.start (Sample.options false) {}).run [⟨.«open», Sample.env⟩,
      ⟨.apply Sample.foreign, Sample.env⟩]).controller.isOpen = true ∧
    ((World.start (Sample.options false) {}).run [⟨.«open», Sample.env⟩,
      ⟨.apply Sample.foreign, Sample.env⟩]).controller.state.pod ≠ Sample.snapshot.pod := by
    decide +kernel
  exact hforeign.2 (h hforeign.1)

end PodFabric
