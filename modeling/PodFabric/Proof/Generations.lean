import PodFabric.Proof.Epochs

/-!
# What a controller remembers of generations

The expectation of a rack survives every round, and every restart over the directory of its store,
until the rack departs (`Remembers`). A departure is taken at its word whatever its generation; one
that is at least at the generation on record is in order (`OrderlyDeparture`).
-/

namespace PodFabric

/-! ## Departures -/

/-- Every departure that the round takes at its word is at least at the generation the pod has on
record. -/
def DeparturesCurrent (request : CompositionRequest) : Prop :=
  ∀ rack record, recordsOf request.snapshot rack = [record] →
    Departs request.policy request.snapshot.observedAt record →
      ∀ e, recorded request.context.expectations rack = some e → e.generation ≤ record.generation

/-- The state publishes the rack as retiring, on the strength of a fresh record that is at least at
the generation on record. -/
def OrderlyDeparture (request : CompositionRequest) (st : PodState) (rack : RackId) : Prop :=
  (∃ m ∈ st.members, m.rack = rack ∧ m.status = .retiring) ∧
    ∃ record, recordsOf request.snapshot rack = [record] ∧
      Departs request.policy request.snapshot.observedAt record ∧
        ∀ e, recorded request.context.expectations rack = some e → e.generation ≤ record.generation

/-- Under current departures a rack that is published retiring departs in order. -/
theorem DeparturesCurrent.orderly {request : CompositionRequest} {st : PodState}
    {m : MemberVerdict} (h : DeparturesCurrent request) (hcompose : compose request = .ok st)
    (hm : m ∈ st.members) (hs : m.status = .retiring) : OrderlyDeparture request st m.rack := by
  obtain ⟨record, honly, hdeparts⟩ := compose_retiring hcompose hm hs
  exact ⟨⟨m, hm, rfl, hs⟩, record, honly, hdeparts, h m.rack record honly hdeparts⟩

/-! ## What a controller remembers -/

/-- The rack is expected at the generation or later. -/
def ExpectedFrom (expectations : List MemberExpectation) (rack : RackId)
    (generation : RackGeneration) : Prop :=
  ∃ e, recorded expectations rack = some e ∧ generation ≤ e.generation

/-- An open controller has an identity and, if it is durable, a store. -/
structure Consistent (w : World) : Prop where
  identity : w.controller.isOpen = true → w.controller.options.pod ≠ .nil
  store : w.controller.isOpen = true → w.controller.options.durable = true →
    w.controller.store.isSome = true

/-- The rack is expected from the generation on: by the controller while it is open or has no store,
and by what the directory of a durable controller recovers to. -/
structure Remembers (rack : RackId) (generation : RackGeneration) (w : World) : Prop where
  consistent : Consistent w
  memory : w.controller.isOpen = true ∨ w.controller.options.durable = false →
    ExpectedFrom w.controller.expectations rack generation
  disk : w.controller.options.durable = true → w.disk.pod ≠ .nil ∧
    ExpectedFrom w.disk.expectations rack generation

section Step
variable {rack : RackId} {generation : RackGeneration} {w : World} {call : Call}
  {request : CompositionRequest} {st : PodState} {m : MemberVerdict}

/-- A world stays consistent when it publishes a state. -/
theorem Consistent.publishes {w' : World} (h : Consistent w) (hpub : Publishes w st w') :
    Consistent w' :=
  ⟨fun ho => hpub.options ▸ h.identity (hpub.isOpen ▸ ho), fun ho hd =>
    hpub.store.trans (h.store (hpub.isOpen ▸ ho) (hpub.options ▸ hd))⟩

/-- A world stays consistent when its standing stays. -/
theorem Consistent.same {w' : World} (h : Consistent w)
    (same : SameStanding w.controller w'.controller) : Consistent w' :=
  ⟨fun ho => same.options ▸ h.identity (same.isOpen ▸ ho), fun ho hd =>
    same.store.trans (h.store (same.isOpen ▸ ho) (same.options ▸ hd))⟩

/-- Opening and closing keep a controller consistent, and so does any other call. -/
theorem Consistent.next (h : Consistent w) : Consistent (w.next call) := by
  by_cases hop : call.op.operates = true
  · cases w.stepped call hop with
    | published _ _ _ _ _ _ publishes => exact h.publishes publishes
    | unsaved _ _ _ _ same => exact h.same same
    | idle _ same => exact h.same same
  · obtain ⟨c, disk⟩ := w
    obtain ⟨op, env⟩ := call
    cases op with
    | «open» =>
      change Consistent ⟨(c.«open» disk env).controller, (c.«open» disk env).disk⟩
      cases open_opened c disk env with
      | refused refusal =>
        rw [refusal.controller, refusal.disk]
        exact h
      | failed _ _ closed =>
        exact ⟨fun ho => by simp [closed] at ho, fun ho => by simp [closed] at ho⟩
      | fresh _ identity reopened _ store =>
        exact ⟨fun _ => by simpa [reopened.options] using identity, fun _ hd =>
          (store (reopened.options ▸ hd)).2⟩
      | recovered _ _ reopened _ identity recovered =>
        refine ⟨fun _ => ?_, fun _ _ => recovered.store⟩
        simpa [reopened.options, ← recovered.pod] using identity
    | close =>
      have hclosed : (World.next ⟨c, disk⟩ ⟨.close, env⟩).controller.isOpen = false :=
        close_standing.2.2.2.1
      exact ⟨fun ho => by simp [hclosed] at ho, fun ho => by simp [hclosed] at ho⟩
    | restart => exact ⟨fun ho => (by cases ho), fun ho => (by cases ho)⟩
    | apply _ | setAdminState _ _ | clearAdminState _ | retire | mintAuthority _ _ _
    | revokeAuthority _ => exact absurd rfl hop

/-- A published round leaves the rack expected, unless it publishes it retiring. -/
theorem ExpectedFrom.derive {expectations : List MemberExpectation}
    (h : ExpectedFrom expectations rack generation)
    (hexp : request.context.expectations = expectations) (hcompose : compose request = .ok st)
    (hstays : ∀ m ∈ st.members, m.rack = rack → m.status ≠ .retiring) :
    ExpectedFrom (PodController.deriveExpectations st expectations) rack generation := by
  obtain ⟨e, he, hle⟩ := h
  obtain ⟨m, hm, rfl⟩ := compose_expected hcompose (hexp ▸ he)
  unfold ExpectedFrom
  rw [recorded_derive hcompose hm]
  by_cases hs : m.status = .established
  · obtain ⟨record, hby⟩ := compose_established hcompose hm hs
    exact ⟨_, derived_of_established hs, hle.trans (hby.not_behind (hexp ▸ he))⟩
  · exact ⟨e, (derived_of_other hs (hstays m hm rfl)).trans he, hle⟩

/-- A round that establishes a rack leaves it expected from its generation on. -/
theorem ExpectedFrom.establish {expectations : List MemberExpectation}
    (hcompose : compose request = .ok st) (hm : m ∈ st.members) (hs : m.status = .established) :
    ExpectedFrom (PodController.deriveExpectations st expectations) m.rack m.generation :=
  ⟨_, (recorded_derive hcompose hm).trans (derived_of_established hs), le_rfl⟩

/-- What a published round leaves of an expectation is both in memory and on disk. -/
theorem Remembers.of_publishes {w' : World} (hw : Consistent w) (hopen : w.controller.isOpen = true)
    (hpub : Publishes w st w')
    (h : ExpectedFrom (PodController.deriveExpectations st w.controller.expectations) rack
      generation) : Remembers rack generation w' := by
  refine ⟨hw.publishes hpub, fun _ => hpub.expectations ▸ h, fun hd => ?_⟩
  obtain ⟨hpod, hexp⟩ := hpub.durable (hw.store hopen (hpub.options ▸ hd))
  exact ⟨hpod ▸ hw.identity hopen, hexp ▸ h⟩

/-- A call keeps the expectation, if its round, should it compose one, is published and does not
publish the rack retiring. -/
theorem Remembers.next (h : Remembers rack generation w)
    (hrestart : call.op = .restart → w.controller.options.durable = true)
    (hround : (w.request call).isSome = true → (w.answer call).ok = true)
    (hstays : ∀ st, w.published call = some st → ∀ m ∈ st.members, m.rack = rack →
      m.status ≠ .retiring) : Remembers rack generation (w.next call) := by
  have hconsistent : Consistent (w.next call) := h.consistent.next
  by_cases hop : call.op.operates = true
  · cases w.stepped call hop with
    | published request st isOpen asks composed published publishes =>
      exact .of_publishes h.consistent isOpen publishes ((h.memory (.inl isOpen)).derive
        (World.asksFor asks).expectations composed (hstays st published))
    | unsaved request asks failed =>
      rw [hround (by rw [asks]; rfl)] at failed
      cases failed
    | idle _ same holds =>
      refine ⟨hconsistent, fun ho => ?_, fun hd => ?_⟩
      · rw [same.isOpen, same.options] at ho
        rw [same.expectations]
        exact h.memory ho
      · rw [same.options] at hd
        rcases holds with hsame | ⟨ho, -, hpod, hexp⟩
        · exact hsame ▸ h.disk hd
        · exact ⟨hpod ▸ h.consistent.identity ho, hexp ▸ h.memory (.inl ho)⟩
  · obtain ⟨c, disk⟩ := w
    obtain ⟨op, env⟩ := call
    cases op with
    | «open» =>
      change Remembers rack generation ⟨(c.«open» disk env).controller, (c.«open» disk env).disk⟩
      change Consistent ⟨(c.«open» disk env).controller, (c.«open» disk env).disk⟩ at hconsistent
      cases open_opened c disk env with
      | refused refusal =>
        rw [refusal.controller, refusal.disk]
        exact h
      | failed durable reopened closed _ same =>
        refine ⟨hconsistent, fun ho => ?_, fun _ => ?_⟩
        · simp [closed, reopened.options, durable] at ho
        · obtain ⟨hpod, hexp⟩ := h.disk durable
          exact ⟨same.pod ▸ hpod, same.expectations ▸ hexp⟩
      | fresh _ _ reopened _ store memory same =>
        have hmemory : c.options.durable = false := by
          cases hd : c.options.durable with
          | false => rfl
          | true => exact absurd (store hd).1 (h.disk hd).1
        refine ⟨hconsistent, fun _ => ?_, fun hd => ?_⟩
        · have hexp : (c.«open» disk env).controller.expectations = c.expectations :=
            congrArg Memory.expectations memory
          exact hexp ▸ h.memory (.inr hmemory)
        · simp [reopened.options, hmemory] at hd
      | recovered _ durable _ _ _ recovered same =>
        obtain ⟨hpod, hexp⟩ := h.disk durable
        exact ⟨hconsistent, fun _ => recovered.expectations ▸ hexp, fun _ =>
          ⟨same.pod ▸ hpod, same.expectations ▸ hexp⟩⟩
    | close =>
      obtain ⟨-, hexp, hoptions, hclosed, hdisk⟩ := @close_standing c disk env
      change Remembers rack generation ⟨(c.close disk env).controller, (c.close disk env).disk⟩
      refine ⟨hconsistent, fun ho => ?_, fun hd => ?_⟩
      · rw [hclosed, hoptions] at ho
        rw [hexp]
        exact h.memory (ho.imp_left (by simp))
      · rw [hoptions] at hd
        rw [hdisk]
        exact h.disk hd
    | restart =>
      have hdurable : c.options.durable = true := hrestart rfl
      refine ⟨hconsistent, fun ho => ?_, fun hd => h.disk hdurable⟩
      change false = true ∨ c.options.durable = false at ho
      simp [hdurable] at ho
    | apply _ | setAdminState _ _ | clearAdminState _ | retire | mintAuthority _ _ _
    | revokeAuthority _ => exact absurd rfl hop

end Step

/-! ## Whole runs -/

/-- Whether a controller is durable is decided when it is constructed. -/
theorem World.next_durable (w : World) (call : Call) :
    (w.next call).controller.options.durable = w.controller.options.durable := by
  by_cases hop : call.op.operates = true
  · cases w.stepped call hop with
    | published _ _ _ _ _ _ publishes => rw [publishes.options]
    | unsaved _ _ _ _ same => rw [same.options]
    | idle _ same => rw [same.options]
  · obtain ⟨c, disk⟩ := w
    obtain ⟨op, env⟩ := call
    cases op with
    | «open» =>
      change (c.«open» disk env).controller.options.durable = c.options.durable
      cases open_opened c disk env with
      | refused refusal => rw [refusal.controller]
      | failed _ reopened => rw [reopened.options]
      | fresh _ _ reopened => rw [reopened.options]
      | recovered _ _ reopened => rw [reopened.options]
    | close => exact congrArg ControllerOptions.durable close_standing.2.2.1
    | restart => rfl
    | apply _ | setAdminState _ _ | clearAdminState _ | retire | mintAuthority _ _ _
    | revokeAuthority _ => exact absurd rfl hop

/-- In every state of a run from the start the controller is consistent, and as durable as it was
constructed. -/
theorem trace_consistent {options : ControllerOptions} {disk : DurableState} {calls : List Call} :
    ∀ x ∈ (World.start options disk).trace calls,
      Consistent x.1 ∧ x.1.controller.options.durable = options.durable := by
  have hstart : Consistent (World.start options disk) :=
    ⟨fun ho => (by cases ho), fun ho => (by cases ho)⟩
  refine (Run.trace_invariant (P := fun w => Consistent w ∧
    w.controller.options.durable = options.durable) ⟨hstart, rfl⟩ fun x _ h => ?_).1
  exact ⟨h.1.next, (World.next_durable x.1 x.2).trans h.2⟩

end PodFabric
