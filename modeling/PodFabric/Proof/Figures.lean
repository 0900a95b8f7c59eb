import Mathlib.Data.List.MinMax
import PodFabric.Proof.Connectivity

/-!
# One capacity figure

The capacity of a pair is that of its links together or that of the largest of its routes, and it is
a figure of one resource class. The class of the routes is read from the first of the largest only:
another class is overlooked if only smaller or later routes carry it (`one_figure_iff`).
-/

namespace PodFabric

section Feeds
variable {ev : Evidence}

/-- The link is usable or degraded, with some capacity. -/
def linkFeeds (ev : Evidence) (link : LinkRecord) : Bool :=
  (classifyLink ev link).status.carries && decide (0 < link.capacity)

/-- The route is usable or degraded, with some capacity. -/
def routeFeeds (ev : Evidence) (route : RouteEvidence) : Bool :=
  (classifyRoute ev route).status.carries && decide (0 < route.committedCapacity)

/-- Some link or route of the pair carries the class. -/
inductive PairWork.CarriesClass (ev : Evidence) (work : PairWork) (resource : ResourceClass) : Prop
  | link {link : LinkRecord} (mem : link ∈ work.links) (feeds : linkFeeds ev link = true)
    (same : link.resource = resource)
  | route {route : RouteEvidence} (mem : route ∈ work.routes) (feeds : routeFeeds ev route = true)
    (same : route.resource = resource)

/-- The capacity of the links together. -/
def directTotal (ev : Evidence) (links : List LinkRecord) : ℕ :=
  ((links.filter (linkFeeds ev)).map fun link => link.capacity.toNat).sum

/-- The first of the largest routes. -/
def leadingRoute (ev : Evidence) (routes : List RouteEvidence) : Option RouteEvidence :=
  (routes.filter (routeFeeds ev)).argmax fun route => route.committedCapacity.toNat

/-- The largest capacity of the routes. -/
def routedLargest (ev : Evidence) (routes : List RouteEvidence) : ℕ :=
  ((routes.filter (routeFeeds ev)).map fun route => route.committedCapacity.toNat).foldr max 0

/-- Classifying a link leaves its resource. -/
theorem classifyLink_resource {link : LinkRecord} :
    (classifyLink ev link).resource = link.resource := by
  unfold classifyLink
  dsimp only
  repeat' split
  all_goals rfl

/-- Classifying a route leaves its resource. -/
theorem classifyRoute_resource {route : RouteEvidence} :
    (classifyRoute ev route).resource = route.resource := by
  unfold classifyRoute
  dsimp only
  repeat' split
  all_goals rfl

/-- A link offers its capacity when it feeds the pair, and nothing else. -/
theorem classifyLink_feeds {link : LinkRecord} :
    (classifyLink ev link).capacity = if linkFeeds ev link then link.capacity else 0 := by
  rw [classifyLink_capacity, linkFeeds]
  by_cases hpos : 0 < link.capacity
  · simp [hpos]
  · have hzero : link.capacity = 0 := by simpa [UInt64.pos_iff_ne_zero] using hpos
    simp [hzero]

/-- A route offers its committed capacity when it feeds the pair, and nothing else. -/
theorem classifyRoute_feeds {route : RouteEvidence} : (classifyRoute ev route).capacity =
    if routeFeeds ev route then route.committedCapacity else 0 := by
  rw [classifyRoute_capacity, routeFeeds]
  by_cases hpos : 0 < route.committedCapacity
  · simp [hpos]
  · have hzero : route.committedCapacity = 0 := by simpa [UInt64.pos_iff_ne_zero] using hpos
    simp [hzero]

end Feeds

/-! ## What a fold gathers -/

section Folds
variable {ev : Evidence} {f : PairFold}

/-- The links leave their classes behind. -/
theorem addLinks_classes : ∀ {links : List LinkRecord} {f : PairFold},
    ((links.map (classifyLink ev)).foldl PairFold.addLink f).directResources =
      f.directResources ++ (links.filter (linkFeeds ev)).map LinkRecord.resource
  | [], f => by simp
  | link :: links, f => by
    rw [List.map_cons, List.foldl_cons, addLinks_classes, PairFold.addLink_directResources,
      classifyLink_feeds, classifyLink_resource, List.append_assoc]
    cases hfeeds : linkFeeds ev link with
    | false => simp [hfeeds]
    | true =>
      have hpos : 0 < link.capacity := by
        simp only [linkFeeds, Bool.and_eq_true, decide_eq_true_eq] at hfeeds
        exact hfeeds.2
      simp [hfeeds, hpos]

/-- A status leaves the links' sum. -/
theorem PairFold.addStatus_direct {status : LinkStatus} :
    (f.addStatus status).direct = f.direct := by
  cases status <;> rfl

/-- A link's capacity joins the sum when it fits. -/
theorem PairFold.addLink_direct {o : LinkOutcome}
    (hfits : f.direct.toNat + o.capacity.toNat < 2 ^ 64) :
    (f.addLink o).direct.toNat = f.direct.toNat + o.capacity.toNat := by
  unfold addLink
  dsimp only
  split
  · rw [checkedAdd_eq_ok.2 ⟨by rw [addStatus_direct]; exact hfits, rfl⟩]
    simp only [addStatus_direct, UInt64.toNat_add]
    omega
  · next hzero =>
    have hcapacity : o.capacity = 0 := by simpa [UInt64.pos_iff_ne_zero] using hzero
    simp [addStatus_direct, hcapacity]

/-- The exact sum of a link's capacity and the others'. -/
theorem directTotal_cons {link : LinkRecord} {links : List LinkRecord} :
    directTotal ev (link :: links) =
      (classifyLink ev link).capacity.toNat + directTotal ev links := by
  rw [classifyLink_feeds]
  cases hfeeds : linkFeeds ev link <;> simp [directTotal, hfeeds]

/-- The capacity of the links adds up while it fits. -/
theorem addLinks_direct : ∀ {links : List LinkRecord} {f : PairFold},
    f.direct.toNat + directTotal ev links < 2 ^ 64 →
      ((links.map (classifyLink ev)).foldl PairFold.addLink f).direct.toNat =
        f.direct.toNat + directTotal ev links
  | [], f, _ => by simp [directTotal]
  | link :: links, f, hfits => by
    rw [directTotal_cons] at hfits ⊢
    have hstep : (f.addLink (classifyLink ev link)).direct.toNat =
        f.direct.toNat + (classifyLink ev link).capacity.toNat :=
      PairFold.addLink_direct (by omega)
    rw [List.map_cons, List.foldl_cons, addLinks_direct (by omega), hstep]
    omega

/-- The routes leave the links' sum. Induction on the routes. -/
theorem addRoutes_direct : ∀ {os : List LinkOutcome} {f : PairFold},
    (os.foldl PairFold.addRoute f).direct = f.direct
  | [], _ => rfl
  | o :: os, f => by
    have hstep : (f.addRoute o).direct = f.direct := by
      unfold PairFold.addRoute
      dsimp only
      split <;> exact PairFold.addStatus_direct
    rw [List.foldl_cons, addRoutes_direct, hstep]

/-- A route that offers more than all before it takes their place. -/
theorem PairFold.addRoute_routed {o : LinkOutcome} :
    (f.addRoute o).routed = (if f.routed < o.capacity then o.capacity else f.routed) ∧
    (f.addRoute o).routedResources =
      if f.routed < o.capacity then [o.resource] else f.routedResources := by
  unfold addRoute
  simp only [addStatus_routed]
  split <;> simp

/-- A route that feeds the pair offers some capacity. -/
theorem routeFeeds_pos {route : RouteEvidence} (h : routeFeeds ev route = true) :
    0 < route.committedCapacity := by
  simp only [routeFeeds, Bool.and_eq_true, decide_eq_true_eq] at h
  exact h.2

/-- A later route takes the lead if it is larger. -/
theorem leadingRoute_concat {routes : List RouteEvidence} {route : RouteEvidence} :
    leadingRoute ev (routes ++ [route]) =
      if routeFeeds ev route = true ∧
        (leadingRoute ev routes).elim 0 RouteEvidence.committedCapacity < route.committedCapacity
      then some route else leadingRoute ev routes := by
  unfold leadingRoute
  rw [List.filter_append]
  cases hfeeds : routeFeeds ev route with
  | false => simp [hfeeds]
  | true =>
    rw [List.filter_singleton, hfeeds, cond_true, List.argmax_concat]
    cases List.argmax (fun route => route.committedCapacity.toNat)
        (routes.filter (routeFeeds ev)) with
    | none => simp [routeFeeds_pos hfeeds]
    | some lead => simp [UInt64.lt_iff_toNat_lt]

/-- The routes leave the capacity and the class of the first of the largest behind. -/
theorem addRoutes_leading (hrouted : f.routed = 0) (hresources : f.routedResources = [])
    {routes : List RouteEvidence} :
    ((routes.map (classifyRoute ev)).foldl PairFold.addRoute f).routed =
        (leadingRoute ev routes).elim 0 RouteEvidence.committedCapacity ∧
      ((routes.map (classifyRoute ev)).foldl PairFold.addRoute f).routedResources =
        ((leadingRoute ev routes).map RouteEvidence.resource).toList := by
  induction routes using List.reverseRecOn with
  | nil => exact ⟨hrouted, hresources⟩
  | append_singleton routes route ih =>
    rw [List.map_append, List.foldl_append, List.map_singleton, List.foldl_cons, List.foldl_nil,
      PairFold.addRoute_routed.1, PairFold.addRoute_routed.2, classifyRoute_feeds,
      classifyRoute_resource, ih.1, ih.2, leadingRoute_concat]
    cases routeFeeds ev route with
    | false => simp
    | true =>
      simp only [if_true, true_and]
      split <;> exact ⟨rfl, rfl⟩

/-- The first of the largest routes has the largest capacity. -/
theorem leadingRoute_largest {routes : List RouteEvidence} :
    ((leadingRoute ev routes).elim 0 RouteEvidence.committedCapacity).toNat =
      routedLargest ev routes := by
  unfold routedLargest
  cases hlead : leadingRoute ev routes with
  | none => simp [List.argmax_eq_none.1 hlead]
  | some lead =>
    refine le_antisymm ?_ ?_
    · exact List.le_max_of_le (List.mem_map_of_mem (List.argmax_mem hlead)) (le_refl _)
    · refine List.max_le_of_forall_le _ _ fun capacity hcapacity => ?_
      obtain ⟨route, hroute, rfl⟩ := List.mem_map.1 hcapacity
      exact @List.le_of_mem_argmax _ _ _ (fun route : RouteEvidence =>
        route.committedCapacity.toNat)
        _ _ _ hroute hlead

end Folds

/-! ## Verdicts -/

section Verdicts
variable {ev : Evidence} {f : PairFold} {verdict verdict' : ConnectivityVerdict}

/-- How a fold is concluded: in conflict, with a figure, or without traffic. -/
inductive Concluded (f : PairFold) (verdict verdict' : ConnectivityVerdict) : Prop
  | mixed (mixed : f.mixedResources = true) (status : verdict'.status = .conflicting)
    (capacity : verdict'.usableCapacity = 0)
  | figure (single : f.mixedResources = false) (status : verdict'.status.carries = true)
    (resource : ((canonicalise f.directResources).head? <|>
      (canonicalise f.routedResources).head?) = some verdict'.resource)
    (capacity : verdict'.usableCapacity = max f.direct f.routed)
  | unseen (unseen : ¬ (f.anyUsable = true ∨ f.anyDegraded = true))
    (status : (∀ s, f.worstBad = some s → s.carries = false) → verdict'.status.carries = false)

/-- What concluding a pair returns is what concluding means. -/
theorem conclude_concluded (h : f.conclude verdict = .ok verdict') :
    Concluded f verdict verdict' := by
  unfold PairFold.conclude at h
  split at h
  · next hmixed =>
    cases h
    exact .mixed hmixed rfl rfl
  next hsingle =>
  split at h
  · split at h
    · cases h
    next resource hresource =>
    cases h
    refine .figure (by simpa using hsingle) ?_ hresource rfl
    dsimp only
    split <;> rfl
  next hunseen =>
  split at h
  · next status hworst =>
    cases h
    exact .unseen hunseen fun hbad => hbad _ hworst
  · cases h
    exact .unseen hunseen fun _ => rfl

/-- More than one class is carried when two different ones are. -/
theorem one_lt_canonicalise {l : List ResourceClass} :
    1 < (canonicalise l).length ↔ ∃ a ∈ l, ∃ b ∈ l, a ≠ b := by
  rw [← List.toFinset_card_of_nodup (canonicalise_nodup l), Finset.one_lt_card]
  simp

/-- One figure for one class: a verdict that carries traffic gives the class of every link and route
that feeds the pair, and the larger of what its links carry together and of its largest route; where
two classes are carried it is in conflict and gives no capacity. -/
structure OneFigure (ev : Evidence) (work : PairWork) (verdict : ConnectivityVerdict) : Prop where
  one : verdict.status.carries = true →
    ∀ resource, work.CarriesClass ev resource → resource = verdict.resource
  figure : verdict.status.carries = true → directTotal ev work.links < 2 ^ 64 →
    verdict.usableCapacity.toNat = max (directTotal ev work.links) (routedLargest ev work.routes)
  many : ∀ a b, work.CarriesClass ev a → work.CarriesClass ev b → a ≠ b →
    verdict.status = .conflicting ∧ verdict.usableCapacity = 0

/-- Where no link disagrees with the first of the largest routes, no route does. -/
def Unmasked (ev : Evidence) (work : PairWork) : Prop :=
  ∀ lead ∈ leadingRoute ev work.routes,
    (∀ link ∈ work.links, linkFeeds ev link = true → link.resource = lead.resource) →
      ∀ route ∈ work.routes, routeFeeds ev route = true → route.resource = lead.resource

variable {work : PairWork}

/-- The links' resources are those of the links that feed the pair. -/
theorem pairFold_classes : (pairFold ev work).directResources =
    (work.links.filter (linkFeeds ev)).map LinkRecord.resource := by
  rw [pairFold, PairFold.addRoutes_directResources, addLinks_classes, List.nil_append]

/-- The routed capacity and resource are those of the leading route. -/
theorem pairFold_routed :
    (pairFold ev work).routed = (leadingRoute ev work.routes).elim 0
      RouteEvidence.committedCapacity ∧
      (pairFold ev work).routedResources =
        ((leadingRoute ev work.routes).map RouteEvidence.resource).toList :=
  addRoutes_leading PairFold.addLinks_routed.1 PairFold.addLinks_routed.2

/-- The links' sum is exact when it fits. -/
theorem pairFold_direct (hfits : directTotal ev work.links < 2 ^ 64) :
    (pairFold ev work).direct.toNat = directTotal ev work.links := by
  have hlinks := @addLinks_direct ev work.links {} (by simpa using hfits)
  rw [pairFold, addRoutes_direct, hlinks]
  exact Nat.zero_add _

/-- What the links of the pair carry. -/
theorem mem_directResources {resource : ResourceClass} :
    resource ∈ (pairFold ev work).directResources ↔
      ∃ link ∈ work.links, linkFeeds ev link = true ∧ link.resource = resource := by
  simp [pairFold_classes, and_assoc]

/-- The leading route is a route of the pair that feeds it. -/
theorem leadingRoute_feeds {routes : List RouteEvidence} {lead : RouteEvidence}
    (h : lead ∈ leadingRoute ev routes) : lead ∈ routes ∧ routeFeeds ev lead = true :=
  List.mem_filter.1 (List.argmax_mem h)

/-- A pair that any route feeds has a leading route. -/
theorem leadingRoute_exists {routes : List RouteEvidence} {route : RouteEvidence}
    (hroute : route ∈ routes) (hfeeds : routeFeeds ev route = true) :
    ∃ lead, lead ∈ leadingRoute ev routes := by
  cases hlead : leadingRoute ev routes with
  | some lead => exact ⟨lead, rfl⟩
  | none =>
    have hmem := List.mem_filter.2 ⟨hroute, hfeeds⟩
    rw [List.argmax_eq_none.1 hlead] at hmem
    cases hmem

/-- The fold of a pair is mixed when its links carry two classes, or when one of them is not that of
the leading route. -/
theorem pairFold_mixed : (pairFold ev work).mixedResources = true ↔
    (∃ a ∈ (pairFold ev work).directResources, ∃ b ∈ (pairFold ev work).directResources, a ≠ b) ∨
      ∃ lead ∈ leadingRoute ev work.routes, ∃ resource ∈ (pairFold ev work).directResources,
        resource ≠ lead.resource := by
  unfold PairFold.mixedResources
  rw [decide_eq_true_iff, one_lt_canonicalise, pairFold_routed.2]
  have hhead {c : ResourceClass} {l : List ResourceClass} (h : (canonicalise l).head? = some c) :
      c ∈ l := mem_canonicalise.1 (List.mem_of_head? h)
  cases leadingRoute ev work.routes with
  | none => simp
  | some lead =>
    have hsingle : canonicalise ((some lead).map RouteEvidence.resource).toList = [lead.resource] :=
      canonicalise_eq_self (List.pairwise_singleton _ _)
    rw [hsingle]
    constructor
    · rintro (htwo | hmany | ⟨hdirect, -, hdiffers⟩)
      · exact .inl htwo
      · simp at hmany
      · obtain ⟨c, hc⟩ := Option.isSome_iff_exists.1 (List.isSome_head?.2 hdirect)
        exact .inr ⟨lead, rfl, c, hhead hc, fun hsame => hdiffers (by rw [hc, hsame]; rfl)⟩
    · rintro (htwo | ⟨lead', hlead', resource, hresource, hdiffers⟩)
      · exact .inl htwo
      · obtain rfl := Option.some.inj hlead'
        have hdirect : canonicalise (pairFold ev work).directResources ≠ [] := by
          rw [Ne, canonicalise_eq_nil]
          exact List.ne_nil_of_mem hresource
        obtain ⟨c, hc⟩ := Option.isSome_iff_exists.1 (List.isSome_head?.2 hdirect)
        by_cases hsame : c = lead.resource
        · exact .inl ⟨c, hhead hc, resource, hresource, fun h => hdiffers (h.symm.trans hsame)⟩
        · refine .inr (.inr ⟨hdirect, by simp, fun h => hsame ?_⟩)
          exact Option.some.inj (hc.symm.trans h)

/-- What feeds a pair is carried. -/
theorem PairWork.CarriesClass.carried {resource : ResourceClass}
    (h : work.CarriesClass ev resource) : Carried ev work := by
  cases h with
  | link mem feeds =>
    simp only [linkFeeds, Bool.and_eq_true] at feeds
    exact .inl ⟨_, mem, feeds.1⟩
  | route mem feeds =>
    simp only [routeFeeds, Bool.and_eq_true] at feeds
    exact .inr ⟨_, mem, feeds.1⟩

/-- The class that is read is carried by a link, or by the leading route if no link feeds the
pair. -/
theorem read_class {resource : ResourceClass}
    (h : ((canonicalise (pairFold ev work).directResources).head? <|>
      (canonicalise (pairFold ev work).routedResources).head?) = some resource) :
    resource ∈ (pairFold ev work).directResources ∨
      (pairFold ev work).directResources = [] ∧
        ∃ lead ∈ leadingRoute ev work.routes, lead.resource = resource := by
  rw [Option.orElse_eq_some] at h
  rcases h with hdirect | ⟨hnone, hrouted⟩
  · exact .inl (mem_canonicalise.1 (List.mem_of_head? hdirect))
  · rw [List.head?_eq_none_iff, canonicalise_eq_nil] at hnone
    have hmem := mem_canonicalise.1 (List.mem_of_head? hrouted)
    rw [pairFold_routed.2, Option.mem_toList, Option.map_eq_some_iff] at hmem
    exact .inr ⟨hnone, hmem⟩

/-- Where nothing is mixed or masked, every class that is carried is the one that is read. -/
theorem carried_class (hsingle : (pairFold ev work).mixedResources = false)
    (hunmasked : Unmasked ev work) {resource c : ResourceClass}
    (hresource : ((canonicalise (pairFold ev work).directResources).head? <|>
      (canonicalise (pairFold ev work).routedResources).head?) = some resource)
    (hcarries : work.CarriesClass ev c) : c = resource := by
  rw [← Bool.not_eq_true, pairFold_mixed, not_or] at hsingle
  push Not at hsingle
  obtain ⟨halike, hled⟩ := hsingle
  have hread := read_class hresource
  cases hcarries with
  | @link link mem feeds same =>
    have hdirect := mem_directResources.2 ⟨link, mem, feeds, same⟩
    rcases hread with hread | ⟨hnone, -⟩
    · exact halike _ hdirect _ hread
    · rw [hnone] at hdirect
      cases hdirect
  | @route route mem feeds same =>
    obtain ⟨lead, hlead⟩ := leadingRoute_exists mem feeds
    have hlinks : ∀ link ∈ work.links, linkFeeds ev link = true →
        link.resource = lead.resource := fun link hlink hlinkFeeds =>
      hled lead hlead _ (mem_directResources.2 ⟨link, hlink, hlinkFeeds, rfl⟩)
    have hsame : c = lead.resource := same.symm.trans (hunmasked lead hlead hlinks _ mem feeds)
    rcases hread with hread | ⟨-, lead', hlead', hread⟩
    · exact hsame.trans (hled lead hlead _ hread).symm
    · obtain rfl : lead' = lead := Option.some.inj (hlead'.symm.trans hlead)
      exact hsame.trans hread

/-- The larger of two amounts is the larger number. -/
theorem toNat_max (a b : UInt64) : (max a b).toNat = max a.toNat b.toNat := by
  change (if a ≤ b then b else a).toNat = _
  split
  · next hle => exact (max_eq_right (UInt64.le_iff_toNat_le.1 hle)).symm
  · next hlt =>
    exact (max_eq_left (UInt64.le_iff_toNat_le.1 (UInt64.le_of_lt (UInt64.not_le.1 hlt)))).symm

variable {work' : PairWork}

/-- A pair gets one figure for one class just when its leading route does not mask another. -/
theorem judgePair_figure (h : judgePair ev work = .ok work') :
    OneFigure ev work work'.verdict ↔ Unmasked ev work := by
  unfold judgePair at h
  obtain ⟨verdict, hverdict, h⟩ := bind_eq_ok.1 h
  rw [pure_eq_ok] at h
  subst h
  cases conclude_concluded hverdict with
  | mixed mixed status capacity =>
    have hquiet : ¬ verdict.status.carries = true := by rw [status]; decide
    refine iff_of_true ⟨fun hcarries => absurd hcarries hquiet, fun hcarries =>
      absurd hcarries hquiet,
      fun _ _ _ _ _ => ⟨status, capacity⟩⟩ fun lead hlead hlinks => ?_
    have hled {resource : ResourceClass}
        (hresource : resource ∈ (pairFold ev work).directResources) :
        resource = lead.resource := by
      obtain ⟨link, hlink, hfeeds, rfl⟩ := mem_directResources.1 hresource
      exact hlinks link hlink hfeeds
    rcases pairFold_mixed.1 mixed with ⟨a, ha, b, hb, hdiffers⟩ | ⟨lead', hlead', a, ha, hdiffers⟩
    · exact absurd ((hled ha).trans (hled hb).symm) hdiffers
    · obtain rfl : lead' = lead := Option.some.inj (hlead'.symm.trans hlead)
      exact absurd (hled ha) hdiffers
  | figure single status resource capacity =>
    constructor
    · intro hone lead hlead _ route hroute hfeeds
      obtain ⟨hmem, hleads⟩ := leadingRoute_feeds hlead
      exact (hone.one status _ (.route hroute hfeeds rfl)).trans
        (hone.one status _ (.route hmem hleads rfl)).symm
    · intro hunmasked
      have hclass {c : ResourceClass} (hc : work.CarriesClass ev c) : c = verdict.resource :=
        carried_class single hunmasked resource hc
      refine ⟨fun _ _ => hclass, fun _ hfits => ?_, fun a b ha hb hdiffers => ?_⟩
      · rw [capacity, toNat_max, pairFold_direct hfits, pairFold_routed.1,
          leadingRoute_largest]
      · exact absurd ((hclass ha).trans (hclass hb).symm) hdiffers
  | unseen unseen status =>
    have hquiet : ¬ verdict.status.carries = true := by
      rw [status pairFold_witnessed.bad]
      decide
    have hnot {c : ResourceClass} (hc : work.CarriesClass ev c) : False :=
      unseen (pairFold_seen.2 hc.carried)
    refine iff_of_true ⟨fun hcarries => absurd hcarries hquiet, fun hcarries =>
      absurd hcarries hquiet,
      fun a _ ha _ _ => (hnot ha).elim⟩ fun lead hlead _ route hroute hfeeds => ?_
    exact (hnot (.route hroute hfeeds rfl)).elim

end Verdicts

/-! ## Compositions -/

section Compositions
variable {request : CompositionRequest} {p : Passes} {st : PodState} {v : ConnectivityVerdict}

/-- Concluding leaves the ends of the pair. -/
theorem conclude_ends {f : PairFold} {verdict verdict' : ConnectivityVerdict}
    (h : f.conclude verdict = .ok verdict') :
    verdict'.source = verdict.source ∧ verdict'.target = verdict.target := by
  unfold PairFold.conclude at h
  split at h
  · cases h
    exact ⟨rfl, rfl⟩
  split at h
  · split at h
    · cases h
    · cases h
      exact ⟨rfl, rfl⟩
  split at h <;> cases h
  · exact ⟨rfl, rfl⟩
  · exact ⟨rfl, rfl⟩

/-- The verdicts of the state are those on the pairs of the racks they name. -/
theorem PassesOf.judged (h : PassesOf request p) (hv : v ∈ p.draft.finalise.connectivity) :
    ∃ work, judgePair p.findings.toEvidence
        (newPair request.snapshot (toLex (v.source, v.target))) = .ok work ∧
      work.verdict.canonicalise = v := by
  obtain ⟨work, hwork, rfl⟩ := mem_finalise_connectivity.1 hv
  obtain ⟨key, -, hjudge⟩ := mapM_mem h.pairs work hwork
  refine ⟨work, ?_, rfl⟩
  have hkey : toLex (work.verdict.source, work.verdict.target) = key := by
    unfold judgePair at hjudge
    obtain ⟨verdict, hverdict, hjudge⟩ := bind_eq_ok.1 hjudge
    rw [pure_eq_ok] at hjudge
    subst hjudge
    obtain ⟨hsource, htarget⟩ := conclude_ends hverdict
    rw [hsource, htarget]
    rfl
  rw [h.snapshot] at hjudge
  exact hkey.symm ▸ hjudge

/-- **A verdict of a composition gives one figure for one class just when the leading route of its
pair does not mask another class.** -/
theorem one_figure_iff (h : compose request = .ok st) (hp : runPasses request = .ok p)
    (hv : v ∈ st.connectivity) :
    OneFigure p.findings.toEvidence (newPair request.snapshot (toLex (v.source, v.target))) v ↔
      Unmasked p.findings.toEvidence (newPair request.snapshot (toLex (v.source, v.target))) := by
  obtain ⟨p', hp', hpasses, rfl⟩ := compose_passesOf h
  obtain rfl : p' = p := Except.ok.inj (hp'.symm.trans hp)
  obtain ⟨work, hjudge, hverdict⟩ := hpasses.judged hv
  rw [← judgePair_figure hjudge]
  have hstatus : v.status = work.verdict.status := by rw [← hverdict]; rfl
  have hresource : v.resource = work.verdict.resource := by rw [← hverdict]; rfl
  have hcapacity : v.usableCapacity = work.verdict.usableCapacity := by rw [← hverdict]; rfl
  constructor
  · exact fun ⟨hone, hfigure, hmany⟩ => ⟨hstatus ▸ hresource ▸ hone,
      hstatus ▸ hcapacity ▸ hfigure, hstatus ▸ hcapacity ▸ hmany⟩
  · exact fun ⟨hone, hfigure, hmany⟩ => ⟨hstatus ▸ hresource ▸ hone,
      hstatus ▸ hcapacity ▸ hfigure, hstatus ▸ hcapacity ▸ hmany⟩

end Compositions

namespace Sample

/-- An installed route from one rack of the sample pod to the other. -/
def routeOf (ref : RouteRef) (resource : ResourceClass) (capacity : UInt64) : RouteEvidence where
  ref := ref
  path := [rackA, rackB]
  pathGenerations := [⟨1⟩, ⟨1⟩]
  resource := resource
  committedCapacity := capacity
  state := .installed

/-- The sample pod, with a large route for bandwidth and a small one for storage. -/
def masking : CompositionRequest where
  snapshot := { snapshot with
    links := []
    routes := [routeOf (idOf "large") bandwidth 10, routeOf (idOf "small") (idOf "storage") 5] }

/-- The sample pod, whose link stands beside two routes for bandwidth. -/
def braced : CompositionRequest where
  snapshot := { snapshot with
    routes := [routeOf (idOf "large") bandwidth 10, routeOf (idOf "small") bandwidth 5] }

end Sample

/-- The link and both routes of the pair carry bandwidth, and its figure is that of the larger
route. -/
theorem sample_figure : ∃ st p v, compose Sample.braced = .ok st ∧
    runPasses Sample.braced = .ok p ∧ v ∈ st.connectivity ∧ v.usableCapacity = 10 ∧
      OneFigure p.findings.toEvidence
        (newPair Sample.braced.snapshot (toLex (v.source, v.target))) v := by
  have hrun : (compose Sample.braced).toOption.map (fun st =>
      st.connectivity.map ConnectivityVerdict.usableCapacity) = some [10] := by decide +kernel
  obtain ⟨st, hst, hfigures⟩ := composed_of_map hrun
  obtain ⟨p, hp, -⟩ := compose_passesOf hst
  obtain ⟨v, hv, hfigure⟩ := List.mem_map.1 (hfigures ▸ List.mem_singleton_self (10 : UInt64))
  have hclass : ∀ route ∈ Sample.braced.snapshot.routes, route.resource = Sample.bandwidth := by
    decide
  refine ⟨st, p, v, hst, hp, hv, hfigure, (one_figure_iff hst hp hv).2 ?_⟩
  intro lead hlead _ route hroute _
  have hleads := (List.mem_filter.1 (leadingRoute_feeds hlead).1).1
  rw [hclass route (List.mem_filter.1 hroute).1, hclass lead hleads]

/-- A class that only a smaller route carries is not seen. -/
theorem masking_overlooks : ¬ ∀ request st p v, compose request = .ok st →
    runPasses request = .ok p → v ∈ st.connectivity →
      OneFigure p.findings.toEvidence
        (newPair request.snapshot (toLex (v.source, v.target))) v := by
  intro hclaim
  have hrun : (compose Sample.masking).toOption.map (fun st =>
      st.connectivity.map fun v => (v.status, v.source, v.target)) =
        some [(.usable, Sample.rackA, Sample.rackB)] := by decide +kernel
  have hfeeds : (runPasses Sample.masking).toOption.map (fun p =>
      Sample.masking.snapshot.routes.map (routeFeeds p.findings.toEvidence)) =
        some [true, true] := by decide +kernel
  obtain ⟨st, hst, hview⟩ := composed_of_map hrun
  obtain ⟨p, hp, -⟩ := compose_passesOf hst
  obtain ⟨v, hv, hends⟩ := List.mem_map.1 (hview ▸ List.mem_singleton_self _)
  obtain ⟨hstatus, hsource, htarget⟩ : v.status = .usable ∧ v.source = Sample.rackA ∧
      v.target = Sample.rackB := by simpa only [Prod.mk.injEq] using hends
  rw [hp] at hfeeds
  obtain ⟨hlarge, hrest⟩ := List.cons.inj (Option.some.inj hfeeds)
  obtain ⟨hsmall, -⟩ := List.cons.inj hrest
  have hone := (hclaim _ st p v hst hp hv).one (by rw [hstatus]; rfl)
  rw [hsource, htarget] at hone
  have hbandwidth := hone _ (.route (List.mem_cons_self ..) hlarge rfl)
  have hstorage := hone _ (.route (List.mem_cons_of_mem _ (List.mem_cons_self ..)) hsmall rfl)
  exact absurd (hbandwidth.trans hstorage.symm) (by decide)

end PodFabric
