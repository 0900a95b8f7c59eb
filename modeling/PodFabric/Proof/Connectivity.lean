import PodFabric.Proof.Trust
import PodFabric.Proof.Validation

/-!
# When connectivity is decided

A pair that carries traffic takes its resource class from the links and routes with some capacity.
Validation admits links and routes of no capacity, so a pair may carry traffic and still have no
resource class to take: then, and only then, a composition runs into undefined behaviour
(`compose_defined_iff`).
-/

namespace PodFabric

/-! ## What carries capacity -/

section Capacity
variable {ev : Evidence}

/-- A link whose route does not hold carries nothing. -/
theorem citedRoute_some {link : LinkRecord} {status : LinkStatus} {reason : Reason}
    (h : citedRoute ev link = some (status, reason)) : status.carries = false := by
  unfold citedRoute at h
  split at h
  · cases h
  split at h
  · cases h
    rfl
  split at h
  · cases h
    rfl
  split at h <;> cases h
  rfl

/-- A link is never better than a domain that is not sound. -/
theorem domainFate_some {link : LinkRecord} {status : LinkStatus} {capacity : UInt64}
    {reason : Reason} (h : domainFate ev link = some (status, capacity, reason)) :
    status ≠ .usable ∧ capacity = if status.carries then link.capacity else 0 := by
  unfold domainFate at h
  split at h
  · cases h
  split at h
  · cases h
  split at h
  · cases h
    exact ⟨nofun, rfl⟩
  split at h <;> cases h
  exact ⟨nofun, rfl⟩

/-- A link has its capacity if it carries traffic, and none otherwise. -/
theorem classifyLink_capacity {link : LinkRecord} : (classifyLink ev link).capacity =
    if (classifyLink ev link).status.carries then link.capacity else 0 := by
  unfold classifyLink
  dsimp only
  split
  swap
  · rfl
  split
  · rfl
  split
  · rfl
  split
  · rfl
  split
  · rfl
  split
  · rfl
  split
  · rfl
  split
  · rfl
  split
  · next status reason hcited => simp [citedRoute_some hcited]
  split
  · next status capacity reason hfate => exact (domainFate_some hfate).2
  split <;> rfl

/-- A route offers its committed capacity when it carries, and nothing else. -/
theorem classifyRoute_capacity {route : RouteEvidence} : (classifyRoute ev route).capacity =
    if (classifyRoute ev route).status.carries then route.committedCapacity else 0 := by
  unfold classifyRoute
  dsimp only
  split
  · rfl
  split
  · rfl
  split
  · rfl
  split
  · next status reason hhops =>
    rcases classifyHops_some hhops with rfl | rfl <;> rfl
  · rfl

end Capacity

/-! ## What a fold gathers -/

namespace PairFold
variable {f : PairFold} {o : LinkOutcome} {os : List LinkOutcome}

/-- A status leaves the links' resources. -/
@[simp] theorem addStatus_directResources {status : LinkStatus} :
    (f.addStatus status).directResources = f.directResources := by cases status <;> rfl

/-- A status leaves the routes' resources. -/
@[simp] theorem addStatus_routedResources {status : LinkStatus} :
    (f.addStatus status).routedResources = f.routedResources := by cases status <;> rfl

/-- A status leaves the routed capacity. -/
@[simp] theorem addStatus_routed {status : LinkStatus} :
    (f.addStatus status).routed = f.routed := by cases status <;> rfl

/-- A link that offers capacity adds its resource. -/
theorem addLink_directResources : (f.addLink o).directResources =
    f.directResources ++ if 0 < o.capacity then [o.resource] else [] := by
  unfold addLink
  dsimp only
  split
  · split <;> simp
  · simp

/-- A link leaves what the routes gave. -/
theorem addLink_routed : (f.addLink o).routed = f.routed ∧
    (f.addLink o).routedResources = f.routedResources := by
  unfold addLink
  dsimp only
  split
  · split <;> simp
  · simp

/-- A route leaves the links' resources. -/
theorem addRoute_directResources : (f.addRoute o).directResources = f.directResources := by
  unfold addRoute
  dsimp only
  split <;> simp

/-- The links name no resource class just when none of them has any capacity. -/
theorem addLinks_directResources : ∀ {os : List LinkOutcome} {f : PairFold},
    (os.foldl addLink f).directResources = [] ↔
      f.directResources = [] ∧ ∀ o ∈ os, o.capacity = 0
  | [], f => by simp
  | o :: os, f => by
    rw [List.foldl_cons, addLinks_directResources, addLink_directResources, List.append_eq_nil_iff,
      List.forall_mem_cons, and_assoc]
    by_cases hpos : 0 < o.capacity
    · have hne : o.capacity ≠ 0 := fun h => by simp [h] at hpos
      simp [hpos, hne]
    · have hzero : o.capacity = 0 := by simpa [UInt64.pos_iff_ne_zero] using hpos
      simp [hzero]

/-- The links leave what the routes gave. Induction on the links. -/
theorem addLinks_routed : ∀ {os : List LinkOutcome} {f : PairFold},
    (os.foldl addLink f).routed = f.routed ∧
      (os.foldl addLink f).routedResources = f.routedResources
  | [], f => ⟨rfl, rfl⟩
  | o :: os, f => by
    obtain ⟨hrouted, hresources⟩ := @addLinks_routed os (f.addLink o)
    exact ⟨hrouted.trans addLink_routed.1, hresources.trans addLink_routed.2⟩

/-- The routes leave the links' resources. Induction on the routes. -/
theorem addRoutes_directResources : ∀ {os : List LinkOutcome} {f : PairFold},
    (os.foldl addRoute f).directResources = f.directResources
  | [], _ => rfl
  | _ :: os, _ => (@addRoutes_directResources os _).trans addRoute_directResources

/-- The routes name no resource class just when none of them has any capacity. -/
theorem addRoutes_routedResources : ∀ {os : List LinkOutcome} {f : PairFold},
    (f.routedResources = [] ↔ f.routed = 0) →
      ((os.foldl addRoute f).routedResources = [] ↔ f.routed = 0 ∧ ∀ o ∈ os, o.capacity = 0)
  | [], f, hf => by simpa using hf
  | o :: os, f, hf => by
    rw [List.foldl_cons, List.forall_mem_cons]
    by_cases hmore : f.routed < o.capacity
    · have hpos : o.capacity ≠ 0 := fun h => by simp [h] at hmore
      have hnew : (f.addRoute o).routed = o.capacity ∧
          (f.addRoute o).routedResources = [o.resource] := by
        unfold addRoute
        dsimp only
        rw [if_pos (by simpa using hmore)]
        exact ⟨rfl, rfl⟩
      rw [addRoutes_routedResources (by simp [hnew, hpos]), hnew.1]
      simp [hpos]
    · have hold : (f.addRoute o).routed = f.routed ∧
          (f.addRoute o).routedResources = f.routedResources := by
        unfold addRoute
        dsimp only
        rw [if_neg (by simpa using hmore)]
        simp
      rw [addRoutes_routedResources (by rw [hold.1, hold.2]; exact hf), hold.1]
      constructor
      · rintro ⟨hzero, hall⟩
        refine ⟨hzero, ?_, hall⟩
        rw [hzero] at hmore
        simpa [UInt64.pos_iff_ne_zero] using hmore
      · rintro ⟨hzero, -, hall⟩
        exact ⟨hzero, hall⟩

/-- A fold is concluded unless it has seen traffic and no resource class. -/
theorem conclude_undefined {verdict : ConnectivityVerdict} :
    f.conclude verdict = .error .undefined ↔ (f.anyUsable = true ∨ f.anyDegraded = true) ∧
      f.directResources = [] ∧ f.routedResources = [] := by
  unfold conclude
  split
  · next hmixed =>
    refine iff_of_false (by simp) ?_
    rintro ⟨-, hdirect, hrouted⟩
    simp [mixedResources, hdirect, hrouted] at hmixed
  split
  · next hseen =>
    split
    · next hnone =>
      rw [Option.orElse_eq_none, List.head?_eq_none_iff, List.head?_eq_none_iff,
        canonicalise_eq_nil, canonicalise_eq_nil] at hnone
      exact iff_of_true rfl ⟨hseen, hnone⟩
    · next resource hsome =>
      refine iff_of_false (by simp) ?_
      rintro ⟨-, hdirect, hrouted⟩
      simp [hdirect, hrouted] at hsome
  · next hunseen =>
    refine iff_of_false ?_ fun h => hunseen h.1
    split <;> simp

/-- Nothing else goes wrong. -/
theorem conclude_error {verdict : ConnectivityVerdict} {fault : Fault}
    (h : f.conclude verdict = .error fault) : fault = .undefined := by
  unfold conclude at h
  split at h
  · cases h
  split at h
  · split at h <;> cases h
    rfl
  split at h <;> cases h

/-- Traffic that one object carries is seen. -/
theorem Moved.seen {f f' : PairFold} {status : LinkStatus} (h : Moved f f' status) :
    (f'.anyUsable = true ∨ f'.anyDegraded = true) ↔
      (f.anyUsable = true ∨ f.anyDegraded = true) ∨ status.carries = true := by
  rw [h.anyUsable, h.anyDegraded]
  simp only [Bool.or_eq_true, decide_eq_true_eq, LinkStatus.carries]
  tauto

/-- The traffic that any of the objects of a loop carries is seen. -/
theorem foldl_seen {step : PairFold → LinkOutcome → PairFold}
    (hstep : ∀ f o, Moved f (step f o) o.status) : ∀ {os : List LinkOutcome} {f : PairFold},
      ((os.foldl step f).anyUsable = true ∨ (os.foldl step f).anyDegraded = true) ↔
        (f.anyUsable = true ∨ f.anyDegraded = true) ∨ ∃ o ∈ os, o.status.carries = true
  | [], f => by simp
  | o :: os, f => by
    rw [List.foldl_cons, foldl_seen hstep, (hstep f o).seen, or_assoc]
    simp only [List.mem_cons, exists_eq_or_imp]

end PairFold

/-! ## Pairs -/

/-- Some link or route of the pair carries traffic, and has some capacity for it. -/
def Fed (ev : Evidence) (work : PairWork) : Prop :=
  (∃ link ∈ work.links, (classifyLink ev link).status.carries = true ∧ 0 < link.capacity) ∨
    ∃ route ∈ work.routes,
      (classifyRoute ev route).status.carries = true ∧ 0 < route.committedCapacity

section Pairs
variable {ev : Evidence} {work : PairWork}

/-- A usable or degraded path was seen exactly when one carries. -/
theorem pairFold_seen : ((pairFold ev work).anyUsable = true ∨
    (pairFold ev work).anyDegraded = true) ↔ Carried ev work := by
  rw [pairFold, PairFold.foldl_seen PairFold.addRoute_moved,
    PairFold.foldl_seen PairFold.addLink_moved]
  simp [Carried]

/-- No resource is left exactly when nothing feeds the pair. -/
theorem pairFold_fed : ((pairFold ev work).directResources = [] ∧
    (pairFold ev work).routedResources = []) ↔ ¬ Fed ev work := by
  obtain ⟨hrouted, hresources⟩ :=
    @PairFold.addLinks_routed (work.links.map (classifyLink ev)) {}
  rw [pairFold, PairFold.addRoutes_directResources, PairFold.addLinks_directResources,
    PairFold.addRoutes_routedResources (by rw [hrouted, hresources]; simp), hrouted, Fed, not_or]
  simp only [List.forall_mem_map, classifyLink_capacity, classifyRoute_capacity, true_and,
    not_exists, not_and, UInt64.not_lt, UInt64.le_zero_iff, ite_eq_right_iff]

/-- A pair cannot be decided when it carries traffic but nothing feeds it. -/
theorem judgePair_undefined :
    judgePair ev work = .error .undefined ↔ Carried ev work ∧ ¬ Fed ev work := by
  rw [← pairFold_seen, ← pairFold_fed, ← @PairFold.conclude_undefined _ {
    source := (ofLex work.key).1, target := (ofLex work.key).2
    links := work.links.map LinkRecord.id, routes := work.routes.map RouteEvidence.ref }]
  unfold judgePair
  cases (pairFold ev work).conclude _ with
  | error fault => simp [bind, Except.bind]
  | ok verdict => simp [bind, Except.bind, pure, Except.pure]

/-- Judging a pair can only be undefined. -/
theorem judgePair_error {fault : Fault} (h : judgePair ev work = .error fault) :
    fault = .undefined := by
  unfold judgePair at h
  cases hconclude : (pairFold ev work).conclude {
      source := (ofLex work.key).1, target := (ofLex work.key).2
      links := work.links.map LinkRecord.id, routes := work.routes.map RouteEvidence.ref } with
  | error fault' =>
    rw [hconclude] at h
    cases h
    exact PairFold.conclude_error hconclude
  | ok verdict =>
    rw [hconclude] at h
    cases h

/-- The connectivity cannot be decided when one of the pairs cannot. -/
theorem evaluateConnectivity_undefined : evaluateConnectivity ev = .error .undefined ↔
    ∃ key ∈ collectedPairs ev,
      Carried ev (newPair ev.snapshot key) ∧ ¬ Fed ev (newPair ev.snapshot key) := by
  simp only [← judgePair_undefined]
  constructor
  · exact mapM_error
  · rintro ⟨key, hkey, hundefined⟩
    cases h : evaluateConnectivity ev with
    | error fault =>
      obtain ⟨key', -, hfault⟩ := mapM_error h
      rw [judgePair_error hfault]
    | ok pairs =>
      obtain ⟨work, -, hwork⟩ := mapM_covers h key hkey
      rw [hundefined] at hwork
      cases hwork

end Pairs

/-! ## Compositions -/

/-- A lifted result is not undefined by itself. -/
theorem lift_bind_undefined {α β : Type} {x : Result α} {f : α → Outcome β} :
    (Result.lift x >>= f) = .error .undefined ↔ ∃ a, x = .ok a ∧ f a = .error .undefined := by
  cases x <;> simp [Result.lift, bind, Except.bind]

/-- Mapping an outcome leaves it undefined or not. -/
theorem bind_pure_undefined {α β : Type} {x : Outcome α} {f : α → β} :
    (x >>= fun a => pure (f a)) = .error .undefined ↔ x = .error .undefined := by
  cases x <;> simp [bind, Except.bind, pure, Except.pure]

/-- What the passes before the connectivity have established, if none of them refuses. -/
def priorEvidence (request : CompositionRequest) : Result Evidence := do
  let members ← evaluateMembers request
  let _ ← adoptGenerationAdvances request.context.epoch members
  let (domains, members) ← evaluateDomains request members
  let _ ← evaluateCapacity request.policy members
  return { policy := request.policy, snapshot := request.snapshot, members, domains }

section Compositions
variable {request : CompositionRequest} {ev : Evidence}

/-- The passes run into undefined behaviour only where the connectivity is decided. -/
theorem runPasses_undefined : runPasses request = .error .undefined ↔
    ∃ ev, priorEvidence request = .ok ev ∧ evaluateConnectivity ev = .error .undefined := by
  unfold runPasses priorEvidence
  simp only [lift_bind_undefined, bind_pure_undefined, bind_eq_ok, pure_eq_ok]
  constructor
  · rintro ⟨members, hmembers, epoch, hepoch, found, hfound, ledger, hledger, hundefined⟩
    exact ⟨_, ⟨members, hmembers, epoch, hepoch, found, hfound, ledger, hledger, rfl⟩, hundefined⟩
  · rintro ⟨ev, ⟨members, hmembers, epoch, hepoch, found, hfound, ledger, hledger, rfl⟩, hundefined⟩
    exact ⟨members, hmembers, epoch, hepoch, found, hfound, ledger, hledger, hundefined⟩

/-- A valid request has its connectivity decided just when every pair that carries traffic has a
link or a route that carries it with some capacity. -/
theorem compose_defined_iff (hvalid : request.validate = .ok ()) :
    compose request ≠ .error .undefined ↔ ∀ ev, priorEvidence request = .ok ev →
      ∀ key ∈ collectedPairs ev,
        Carried ev (newPair ev.snapshot key) → Fed ev (newPair ev.snapshot key) := by
  have hcompose : compose request = .error .undefined ↔
      runPasses request = .error .undefined := by
    unfold compose
    rw [hvalid]
    cases runPasses request <;> simp [Result.lift, bind, Except.bind, pure, Except.pure]
  rw [Ne, hcompose, runPasses_undefined]
  simp only [evaluateConnectivity_undefined, not_exists, not_and, not_not]

end Compositions

/-- The sample pod with a link of no capacity. -/
def Sample.hollow : CompositionRequest where
  snapshot := { Sample.snapshot with links := [{ Sample.link with capacity := 0 }] }

/-- The pair of the sample pod has capacity if it carries traffic, and that of the other pod carries
traffic without any. -/
theorem sample_fed : (∀ ev, priorEvidence Sample.request = .ok ev → ∀ key ∈ collectedPairs ev,
      Carried ev (newPair ev.snapshot key) → Fed ev (newPair ev.snapshot key)) ∧
    ∃ ev, priorEvidence Sample.hollow = .ok ev ∧ ∃ key ∈ collectedPairs ev,
      Carried ev (newPair ev.snapshot key) ∧ ¬ Fed ev (newPair ev.snapshot key) := by
  refine ⟨(compose_defined_iff (by decide +kernel)).1 (by decide +kernel), ?_⟩
  have hundefined : ¬ compose Sample.hollow ≠ .error .undefined := by decide +kernel
  have hnot := mt (compose_defined_iff (by decide +kernel)).2 hundefined
  push Not at hnot
  exact hnot

/-- A link of no capacity is valid, and the resource class of its pair cannot be read. -/
theorem hollow_undefined : ¬ ∀ request : CompositionRequest, request.validate = .ok () →
    compose request ≠ .error .undefined := fun h =>
  h Sample.hollow (by decide +kernel) (by decide +kernel)

end PodFabric
