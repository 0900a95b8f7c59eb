import PodFabric.Proof.Stored

/-!
# Generations do not regress

A departure that is behind the expectation makes the pod forget a generation it has published
(`stale_departure_regresses`). In runs whose departures are current the generations of a rack only
grow (`generations_grow`), as long as the round that established the higher one was committed to a
journal that is whole: a later commit that is lost leaves the directory with what it held.
-/

namespace PodFabric

/-- What a directory remembers of a rack depends on that side's state only. -/
theorem Remembers.perSide {rack : RackId} {generation : RackGeneration} :
    PerSide (Remembers rack generation) := by
  intro w w' h hsame hw
  refine ⟨h.consistent.of_controller rfl, h.memory, ?_⟩
  intro hdurable
  exact (hw hdurable).disk (hsame.trans hdurable)

/-- **Generations only grow.** In a run of a controller, restarts over its store included, whose
rounds are all published and whose departures are all current, a rack that is established in one
published state and again in a later one has not lost any generation, unless it was published in
between as retiring in order. The journal of a durable controller may be torn, but not where the
first of the two states is committed. -/
theorem generations_grow {options : ControllerOptions} {disk : DurableState} {torn : Bool}
    {calls : List StoredCall} {front middle back : List (StoredWorld × StoredCall)}
    {x y : StoredWorld × StoredCall} {st st' : PodState} {m m' : MemberVerdict}
    (hrestart : options.durable = true ∨ ∀ call ∈ calls, call.call.op ≠ .restart)
    (hrounds : ∀ z ∈ (StoredWorld.start options disk torn).trace calls,
      (z.1.world.request z.2.call).isSome = true → (z.1.answer z.2).ok = true)
    (hcurrent : ∀ z ∈ (StoredWorld.start options disk torn).trace calls, ∀ request,
      z.1.world.request z.2.call = some request → DeparturesCurrent request)
    (htrace : (StoredWorld.start options disk torn).trace calls =
      front ++ x :: middle ++ y :: back)
    (hkept : options.durable = true → x.1.keeps x.2 = true)
    (hx : x.1.world.published x.2.call = some st) (hy : y.1.world.published y.2.call = some st')
    (hm : m ∈ st.members) (hm' : m' ∈ st'.members) (hrack : m.rack = m'.rack)
    (hs : m.status = .established) (hs' : m'.status = .established) :
    m.generation ≤ m'.generation ∨ ∃ z ∈ middle, ∃ request between,
      z.1.world.request z.2.call = some request ∧ z.1.world.published z.2.call = some between ∧
        OrderlyDeparture request between m.rack := by
  by_cases hdeparts : ∃ z ∈ middle, ∃ between, z.1.world.published z.2.call = some between ∧
      ∃ n ∈ between.members, n.rack = m.rack ∧ n.status = .retiring
  · obtain ⟨z, hz, between, hpub, n, hn, hr, hretiring⟩ := hdeparts
    obtain ⟨-, request, hasks, hcompose, -⟩ := World.round_of_published hpub
    have hz' : z ∈ (StoredWorld.start options disk torn).trace calls := by simp [htrace, hz]
    exact .inr ⟨z, hz, request, between, hasks, hpub,
      hr ▸ (hcurrent z hz' request hasks).orderly hcompose hn hretiring⟩
  refine .inl ?_
  obtain ⟨hopen, request, -, hcompose, hpub⟩ := World.round_of_published hx
  obtain ⟨hopen', request', hasks', hcompose', -⟩ := World.round_of_published hy
  have hx' : x ∈ (StoredWorld.start options disk torn).trace calls := by simp [htrace]
  obtain ⟨hconsistent, hdurable⟩ := StoredWorld.trace_consistent x hx'
  have hbegun : Remembers m.rack m.generation (x.1.next x.2).world :=
    StoredWorld.next_begins Remembers.perSide
      (.of_publishes hconsistent hopen hpub (.establish hcompose hm hs))
      fun hd => hkept (hdurable.symm.trans hd)
  -- every call in between keeps the expectation
  have hremembers := Run.between (P := fun s : StoredWorld =>
    Remembers m.rack m.generation s.world) htrace hbegun fun z hz h => by
      have hz' : z ∈ (StoredWorld.start options disk torn).trace calls := by simp [htrace, hz]
      refine StoredWorld.next_stands Remembers.perSide h (h.next (fun hop => ?_) (hrounds z hz')
        fun between hbetween n hn hr hretiring =>
          hdeparts ⟨z, hz, between, hbetween, n, hn, hr, hretiring⟩)
      rcases hrestart with hdurable | hnone
      · exact (StoredWorld.trace_consistent z hz').2.trans hdurable
      · exact absurd hop (hnone z.2 (Run.call_of_trace hz'))
  obtain ⟨record, hby⟩ := compose_established hcompose' hm' hs'
  obtain ⟨e, he, hle⟩ := hremembers.memory (.inl hopen')
  rw [hrack] at he
  exact hle.trans (hby.not_behind ((World.asksFor hasks').expectations ▸ he))

/-! ## A stale departure -/

namespace Sample

/-- Evidence of one rack at a generation. -/
def evidence (generation : RackGeneration) (membership : MembershipState) : PodSnapshot :=
  { snapshot with
    members := [{ member rackA generation with membership }], links := [] }

/-- A round of the evidence of one rack. -/
def roundOf (generation : RackGeneration) (membership : MembershipState) : Call :=
  ⟨.apply (evidence generation membership), env⟩

/-- The rack is established in the state a call publishes, at the generation. -/
def establishes (w : World) (call : Call) (generation : RackGeneration) : Bool :=
  (w.published call).any fun st => st.members.any fun m =>
    m.rack = rackA ∧ m.status = .established ∧ m.generation = generation

/-- The test for an establishing call, as a statement. -/
theorem establishes_iff {w : World} {call : Call} {generation : RackGeneration}
    (h : establishes w call generation = true) : ∃ st m, w.published call = some st ∧
      m ∈ st.members ∧ m.rack = rackA ∧ m.status = .established ∧ m.generation = generation := by
  unfold establishes at h
  rw [Option.any_eq_true] at h
  obtain ⟨st, hst, h⟩ := h
  rw [List.any_eq_true] at h
  obtain ⟨m, hm, h⟩ := h
  exact ⟨st, m, hst, hm, by simpa using h⟩

end Sample

/-- Evidence in which every rack stays departs from nothing. -/
theorem departuresCurrent_of_established {c : PodController} {env : Env} {evidence : PodSnapshot}
    (h : ∀ member ∈ evidence.members, member.membership = .established) :
    DeparturesCurrent (c.request env evidence) := by
  intro rack record honly hdeparts
  have hmem : record ∈ recordsOf (c.request env evidence).snapshot rack := by simp [honly]
  obtain ⟨member, hmember, rfl⟩ := List.mem_map.1 (List.mem_filter.1 hmem).1
  have hleaves : member.membership = .retired ∨ member.membership = .leaving := hdeparts.membership
  simp [h member hmember] at hleaves

/-- A rack that is established at generation one, and at generation two after the journal was torn
and the pod restarted. -/
theorem restart_keeps_generation :
    let s := (StoredWorld.start (Sample.options true) {} false).run
      [{ call := ⟨.«open», Sample.env⟩ }]
    let s' := s.run [{ call := Sample.roundOf ⟨1⟩ .established }, Sample.tornMint,
      { call := ⟨.restart, Sample.env⟩ }, { call := ⟨.«open», Sample.env⟩ }]
    ∃ st m st' m', s.world.published (Sample.roundOf ⟨1⟩ .established) = some st ∧
      m ∈ st.members ∧ s'.world.published (Sample.roundOf ⟨2⟩ .established) = some st' ∧
      m' ∈ st'.members ∧ m.rack = m'.rack ∧ m.generation ≤ m'.generation := by
  intro s s'
  let opening : StoredCall := { call := ⟨.«open», Sample.env⟩ }
  let restart : StoredCall := { call := ⟨.restart, Sample.env⟩ }
  let first : StoredCall := { call := Sample.roundOf ⟨1⟩ .established }
  let second : StoredCall := { call := Sample.roundOf ⟨2⟩ .established }
  obtain ⟨st, m, hst, hm, hr, hs, -⟩ := Sample.establishes_iff
    (show Sample.establishes s.world first.call ⟨1⟩ = true by decide +kernel)
  obtain ⟨st', m', hst', hm', hr', hs', -⟩ := Sample.establishes_iff
    (show Sample.establishes s'.world second.call ⟨2⟩ = true by decide +kernel)
  refine ⟨st, m, st', m', hst, hm, hst', hm', hr.trans hr'.symm, ?_⟩
  let calls : List StoredCall := [opening, first, Sample.tornMint, restart, opening, second]
  let start := StoredWorld.start (Sample.options true) {} false
  have hok : ∀ z ∈ start.trace calls, (z.1.world.request z.2.call).isSome = true →
      (z.1.answer z.2).ok = true := by decide +kernel
  have htrace : start.trace calls = [(start, opening)] ++ (s, first) ::
      [(s.next first, Sample.tornMint), (s.run [first, Sample.tornMint], restart),
        (s.run [first, Sample.tornMint, restart], opening)] ++ (s', second) :: [] := rfl
  have hcurrent : ∀ z ∈ start.trace calls, ∀ request,
      z.1.world.request z.2.call = some request → DeparturesCurrent request := by
    intro z hz request hasks
    obtain ⟨z, call⟩ := z
    have hcall : call ∈ calls := Run.call_of_trace hz
    simp only [calls, List.mem_cons, List.not_mem_nil, or_false] at hcall
    rcases hcall with rfl | rfl | rfl | rfl | rfl | rfl
    · cases hasks
    · rw [← Option.some.inj hasks]
      exact departuresCurrent_of_established (by decide +kernel)
    · cases hasks
    · cases hasks
    · cases hasks
    · rw [← Option.some.inj hasks]
      exact departuresCurrent_of_established (by decide +kernel)
  rcases generations_grow (.inl rfl) hok hcurrent htrace (fun _ => rfl) hst hst' hm hm'
    (hr.trans hr'.symm) hs hs' with h | ⟨z, hz, request, between, hasks, -⟩
  · exact h
  · simp only [List.mem_cons, List.not_mem_nil, or_false] at hz
    rcases hz with rfl | rfl | rfl <;> cases hasks

/-- A departure that is replayed from before the generation on record is taken at its word, and the
generation that the rack then joins with is behind the one that was published. -/
theorem stale_departure_regresses : ¬ ∀ (options : ControllerOptions) (disk : DurableState)
    (torn : Bool) (calls : List StoredCall) (front middle back : List (StoredWorld × StoredCall))
    (x y : StoredWorld × StoredCall) (st st' : PodState) (m m' : MemberVerdict),
    (options.durable = true ∨ ∀ call ∈ calls, call.call.op ≠ .restart) →
    (∀ z ∈ (StoredWorld.start options disk torn).trace calls,
      (z.1.world.request z.2.call).isSome = true → (z.1.answer z.2).ok = true) →
    (StoredWorld.start options disk torn).trace calls = front ++ x :: middle ++ y :: back →
    x.1.world.published x.2.call = some st → y.1.world.published y.2.call = some st' →
    m ∈ st.members → m' ∈ st'.members → m.rack = m'.rack →
    m.status = .established → m'.status = .established →
    m.generation ≤ m'.generation ∨ ∃ z ∈ middle, ∃ request between,
      z.1.world.request z.2.call = some request ∧ z.1.world.published z.2.call = some between ∧
        OrderlyDeparture request between m.rack := by
  intro hclaim
  let start := StoredWorld.start (Sample.options false) {} false
  let opening : StoredCall := { call := ⟨.«open», Sample.env⟩ }
  let joins : StoredCall := { call := Sample.roundOf ⟨5⟩ .established }
  let leaves : StoredCall := { call := Sample.roundOf ⟨3⟩ .leaving }
  let rejoins : StoredCall := { call := Sample.roundOf ⟨4⟩ .established }
  let s := start.next opening
  let s₁ := s.next joins
  let s₂ := s₁.next leaves
  let calls : List StoredCall := [opening, joins, leaves, rejoins]
  obtain ⟨st, m, hst, hm, hr, hs, hg⟩ := Sample.establishes_iff
    (show Sample.establishes s.world joins.call ⟨5⟩ = true by decide +kernel)
  obtain ⟨st', m', hst', hm', hr', hs', hg'⟩ := Sample.establishes_iff
    (show Sample.establishes s₂.world rejoins.call ⟨4⟩ = true by decide +kernel)
  have hok : ∀ z ∈ start.trace calls, (z.1.answer z.2).ok = true := by decide +kernel
  rcases hclaim (Sample.options false) {} false calls [(start, opening)] [(s₁, leaves)] []
    (s, joins) (s₂, rejoins) st st' m m'
    (.inr (by simp [calls, opening, joins, leaves, rejoins, Sample.roundOf]))
    (fun z hz _ => hok z hz) rfl hst hst' hm hm' (hr.trans hr'.symm) hs hs' with
    h | ⟨z, hz, request, between, hasks, -, -, record, honly, -, hcurrent⟩
  · rw [hg, hg'] at h
    exact absurd h (by decide)
  · rw [List.mem_singleton.1 hz] at hasks
    have hstale : ∀ record, recordsOf request.snapshot Sample.rackA = [record] →
        ∃ e, recorded request.context.expectations Sample.rackA = some e ∧
          record.generation < e.generation := by
      have hbehind : (s₁.world.request leaves.call).map (fun request =>
          ((recordsOf request.snapshot Sample.rackA).map MemberRecord.generation,
            (recorded request.context.expectations Sample.rackA).map
              MemberExpectation.generation)) = some ([⟨3⟩], some ⟨5⟩) := by decide +kernel
      rw [hasks] at hbehind
      simp only [Option.map_some, Option.some.injEq, Prod.mk.injEq] at hbehind
      intro record honly
      obtain ⟨e, he, hgen⟩ := Option.map_eq_some_iff.1 hbehind.2
      refine ⟨e, he, ?_⟩
      have hrecord : record.generation = ⟨3⟩ := by simpa [honly] using hbehind.1
      rw [hrecord, hgen]
      decide
    rw [hr] at honly hcurrent
    obtain ⟨e, he, hlt⟩ := hstale record honly
    exact absurd (hcurrent e he) (not_le.2 hlt)

end PodFabric
