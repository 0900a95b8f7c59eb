import PodFabric.Lib.Filling
import PodFabric.Proof.Arrival
import PodFabric.Proof.PathFences
import PodFabric.Proof.Reasons

/-!
# The order of links and routes

The links and routes of a pair are folded in the order of the snapshot. What they gather is the same
in any order, and so are the verdict and the fences of the pair, as long as nothing is left to the
order of arrival (`PairWork.Decided`): a sum that overflows keeps the links that come first, the
class of the routes is that of the first of the largest, and a fence gives the first of the reasons.
-/

namespace PodFabric

open List

/-! ## Evidence in another order -/

/-- The evidence with the faces of its racks. -/
def Evidence.faced (ev : Evidence) : Evidence :=
  { ev with members := ev.members.map MemberWork.face }

/-- The evidence is the same up to the order of its links and routes and the text of the member
records. -/
structure Evidence.Alike (ev ev' : Evidence) : Prop where
  policy : ev'.policy = ev.policy
  observedAt : ev'.snapshot.observedAt = ev.snapshot.observedAt
  members : ev'.members.map MemberWork.face = ev.members.map MemberWork.face
  domains : ev'.domains = ev.domains
  links : ev.snapshot.links ~ ev'.snapshot.links
  routes : ev.snapshot.routes ~ ev'.snapshot.routes
  refs : (ev.snapshot.routes.map RouteEvidence.ref).Nodup

section Classify
variable {ev ev' : Evidence} {link : LinkRecord} {route : RouteEvidence}

/-- A link is classified by the faces of the racks alone. -/
theorem classifyLink_faced : classifyLink ev.faced link = classifyLink ev link := by
  unfold classifyLink
  simp only [Evidence.faced, findMember_face]
  cases findMember ev.members link.a.rack with
  | none => rfl
  | some a =>
    cases findMember ev.members link.b.rack with
    | none => rfl
    | some b => rfl

/-- So are hops. -/
theorem classifyHops_faced : ∀ {hops : List (RackId × RackGeneration)},
    classifyHops ev.faced hops = classifyHops ev hops
  | [] => rfl
  | (rack, generation) :: rest => by
    rw [classifyHops, classifyHops, classifyHops_faced]
    simp only [Evidence.faced, findMember_face]
    cases findMember ev.members rack <;> rfl

/-- And so is a route. -/
theorem classifyRoute_faced : classifyRoute ev.faced route = classifyRoute ev route := by
  unfold classifyRoute
  rw [classifyHops_faced]
  rfl

namespace Evidence.Alike

/-- The faces of the racks are the same. -/
theorem faced_members (h : ev.Alike ev') : ev'.faced.members = ev.faced.members := h.members

/-- The route that a link cites is judged the same. -/
theorem citedRoute_eq (h : ev.Alike ev') :
    citedRoute ev'.faced link = citedRoute ev.faced link := by
  unfold citedRoute
  rw [show ev'.faced.snapshot.routes.find? (fun route => route.ref = link.route) =
    ev.faced.snapshot.routes.find? fun route => route.ref = link.route from
      (find?_perm h.routes h.refs link.route).symm]

/-- The fate a link shares with its domain is the same. -/
theorem domainFate_eq (h : ev.Alike ev') :
    domainFate ev'.faced link = domainFate ev.faced link := by
  unfold domainFate
  rw [show ev'.faced.domains = ev.faced.domains from h.domains]

/-- A link is classified the same. -/
theorem classifyLink_eq (h : ev.Alike ev') : classifyLink ev' link = classifyLink ev link := by
  rw [← classifyLink_faced, ← @classifyLink_faced ev]
  unfold classifyLink
  rw [h.faced_members, h.citedRoute_eq, h.domainFate_eq,
    show ev'.faced.policy = ev.faced.policy from h.policy,
    show ev'.faced.snapshot.observedAt = ev.faced.snapshot.observedAt from h.observedAt]

/-- Hops are classified the same. -/
theorem classifyHops_eq (h : ev.Alike ev') : ∀ {hops : List (RackId × RackGeneration)},
    classifyHops ev'.faced hops = classifyHops ev.faced hops
  | [] => rfl
  | (rack, generation) :: rest => by
    rw [classifyHops, classifyHops, classifyHops_eq h, h.faced_members]

/-- A route is classified the same. -/
theorem classifyRoute_eq (h : ev.Alike ev') : classifyRoute ev' route = classifyRoute ev route := by
  rw [← classifyRoute_faced, ← @classifyRoute_faced ev]
  unfold classifyRoute
  rw [h.classifyHops_eq, show ev'.faced.policy = ev.faced.policy from h.policy,
    show ev'.faced.snapshot.observedAt = ev.faced.snapshot.observedAt from h.observedAt]

/-- The same pairs of racks get a verdict. -/
theorem collectedPairs_eq (h : ev.Alike ev') : collectedPairs ev' = collectedPairs ev := by
  have hcoverage (ev : Evidence) : coveragePairs ev.policy ev.members =
      coveragePairs ev.faced.policy ev.faced.members := by
    unfold coveragePairs Evidence.faced
    simp only [List.filter_map, List.map_map]
    rfl
  unfold collectedPairs
  rw [hcoverage ev', hcoverage ev, h.faced_members,
    show ev'.faced.policy = ev.faced.policy from h.policy]
  exact canonicalise_perm ((((h.links.map _).append (h.routes.flatMap_right _)).append_right
    _).filter _).symm

end Evidence.Alike

end Classify

/-! ## What a fold gathers -/

open Filling

/-- The complaint about a link whose capacity the sum has no room for. -/
def linkOverflowReason : Reason := ⟨.policyBoundExceeded, "link capacity sum overflowed"⟩

/-- What a link adds to the sum of its pair. -/
def linkWeight (ev : Evidence) (link : LinkRecord) : ℕ := (classifyLink ev link).capacity.toNat

/-- What the links that give no reason add to the sum. -/
def quietWeight (ev : Evidence) (links : List LinkRecord) : ℕ :=
  weigh (linkWeight ev) (links.filter fun link => (classifyLink ev link).reasons = [])

namespace PairFold
variable {f f' : PairFold} {o : LinkOutcome}

/-- The statuses a fold has seen, and nothing else. -/
def standing (f : PairFold) : PairFold :=
  { anyUsable := f.anyUsable, anyDegraded := f.anyDegraded, worstBad := f.worstBad }

/-- An object joins the statuses a fold has seen. -/
theorem Moved.standing {status : LinkStatus} (h : Moved f f' status) :
    f'.standing = f.standing.addStatus status := by
  unfold PairFold.standing
  rw [h.anyUsable, h.anyDegraded, h.worstBad]
  cases status <;> simp [addStatus, LinkStatus.carries]

/-- The statuses a loop has seen. Induction on the outcomes. -/
theorem foldl_standing {step : PairFold → LinkOutcome → PairFold}
    (hstep : ∀ f o, Moved f (step f o) o.status) :
    ∀ {os : List LinkOutcome} {f : PairFold}, (os.foldl step f).standing =
      (os.map LinkOutcome.status).foldl addStatus f.standing
  | [], _ => rfl
  | o :: os, f => by
    rw [List.foldl_cons, foldl_standing hstep, (hstep f o).standing, List.map_cons,
      List.foldl_cons]

/-- The worst of three statuses does not depend on the order of two. -/
theorem worst_right_comm (a b c : LinkStatus) :
    (a.worst b).worst c = (a.worst c).worst b := by
  cases a <;> cases b <;> cases c <;> rfl

/-- Two statuses may join in either order. -/
theorem addStatus_comm (f : PairFold) (a b : LinkStatus) :
    (f.addStatus a).addStatus b = (f.addStatus b).addStatus a := by
  have hworst (a b : LinkStatus) : a.worst b = b.worst a := by cases a <;> cases b <;> rfl
  obtain ⟨anyUsable, anyDegraded, worstBad, direct, routed, directs, routeds, reasons⟩ := f
  cases worstBad with
  | none => cases a <;> cases b <;> simp [addStatus, hworst]
  | some w => cases a <;> cases b <;> simp [addStatus, worst_right_comm w]

/-- A link adds its capacity if there is room for it, and complains if there is none. -/
theorem addLink_added :
    (f.addLink o).direct.toNat = (if f.direct.toNat + o.capacity.toNat < 2 ^ 64 then
      f.direct.toNat + o.capacity.toNat else f.direct.toNat) ∧
    (f.addLink o).reasons = f.reasons ++ o.reasons ++
      if f.direct.toNat + o.capacity.toNat < 2 ^ 64 then [] else [linkOverflowReason] := by
  unfold addLink
  dsimp only
  split
  · by_cases hfits : f.direct.toNat + o.capacity.toNat < 2 ^ 64
    · rw [checkedAdd_eq_ok.2 ⟨by rw [addStatus_direct]; exact hfits, rfl⟩, if_pos hfits,
        if_pos hfits]
      refine ⟨?_, by simp [addStatus_reasons]⟩
      simp only [addStatus_direct, UInt64.toNat_add]
      omega
    · rw [if_neg hfits, if_neg hfits]
      split
      · next sum hsum =>
        rw [checkedAdd_eq_ok, addStatus_direct] at hsum
        exact absurd hsum.1 hfits
      · exact ⟨by rw [addStatus_direct], by simp [addStatus_reasons, linkOverflowReason]⟩
  · next hzero =>
    have hcapacity : o.capacity = 0 := by simpa [UInt64.pos_iff_ne_zero] using hzero
    have hfits : f.direct.toNat + o.capacity.toNat < 2 ^ 64 := by
      rw [hcapacity]
      exact f.direct.toNat_lt
    rw [if_pos hfits, if_pos hfits]
    exact ⟨by simp [addStatus_direct, hcapacity], by simp [addStatus_reasons]⟩

section Links
variable {ev : Evidence} {links : List LinkRecord} {reason : Reason}

/-- The sum of the links is that of the ones there is room for. -/
theorem addLinks_fill : ((links.map (classifyLink ev)).foldl addLink f).direct.toNat =
    fill (linkWeight ev) (2 ^ 64) f.direct.toNat links := by
  induction links generalizing f with
  | nil => rfl
  | cons link links ih => rw [List.map_cons, List.foldl_cons, ih, addLink_added.1, fill, linkWeight]

/-- Reasons are added behind those that are there. -/
theorem addLinks_extends {os : List LinkOutcome} :
    f.reasons <+: (os.foldl addLink f).reasons := by
  induction os generalizing f with
  | nil => exact List.prefix_rfl
  | cons o os ih =>
    refine .trans ?_ ih
    rw [addLink_added.2, List.append_assoc]
    exact List.prefix_append _ _

/-- The reasons of the links, and the complaint about a sum there is no room for. -/
theorem mem_addLinks : reason ∈ ((links.map (classifyLink ev)).foldl addLink f).reasons ↔
    reason ∈ f.reasons ∨ (∃ link ∈ links, reason ∈ (classifyLink ev link).reasons) ∨
      reason = linkOverflowReason ∧ 2 ^ 64 ≤ f.direct.toNat + weigh (linkWeight ev) links := by
  induction links generalizing f with
  | nil =>
    have := f.direct.toNat_lt
    simp only [List.map_nil, List.foldl_nil, List.not_mem_nil, false_and, exists_false, false_or,
      weigh_nil, iff_self_or]
    omega
  | cons link links ih =>
    rw [List.map_cons, List.foldl_cons, ih, addLink_added.1, addLink_added.2, weigh_cons]
    simp only [List.mem_append, List.exists_mem_cons_iff]
    unfold linkWeight
    split
    · next hfits =>
      rw [← Nat.add_assoc]
      simp only [List.not_mem_nil, or_false, or_assoc]
    · next hover =>
      have hall : 2 ^ 64 ≤ f.direct.toNat + ((classifyLink ev link).capacity.toNat +
          weigh (fun link => (classifyLink ev link).capacity.toNat) links) := by omega
      simp only [List.mem_singleton, hall, and_true]
      constructor
      · rintro (((hold | hlink) | hreason) | hlinks | ⟨hreason, -⟩)
        · exact .inl hold
        · exact .inr (.inl (.inl hlink))
        · exact .inr (.inr hreason)
        · exact .inr (.inl (.inr hlinks))
        · exact .inr (.inr hreason)
      · rintro (hold | (hlink | hlinks) | hreason)
        · exact .inl (.inl (.inl hold))
        · exact .inl (.inl (.inr hlink))
        · exact .inr (.inl hlinks)
        · exact .inl (.inr hreason)

/-- The first reason is that of a link, or the complaint about links that give none. -/
theorem addLinks_head (hf : f.reasons = [])
    (h : reason ∈ ((links.map (classifyLink ev)).foldl addLink f).reasons.head?) :
    (∃ link ∈ links, reason ∈ (classifyLink ev link).reasons) ∨
      reason = linkOverflowReason ∧ 2 ^ 64 ≤ f.direct.toNat + quietWeight ev links := by
  induction links generalizing f with
  | nil =>
    rw [List.map_nil, List.foldl_nil, hf] at h
    cases h
  | cons link links ih =>
    rw [List.map_cons, List.foldl_cons] at h
    have hstep := (@addLink_added f (classifyLink ev link)).2
    rw [hf, List.nil_append] at hstep
    by_cases hquiet : (classifyLink ev link).reasons = []
    · have hweight : quietWeight ev (link :: links) =
          (classifyLink ev link).capacity.toNat + quietWeight ev links := by
        unfold quietWeight
        rw [List.filter_cons_of_pos (by simpa using hquiet), weigh_cons, linkWeight]
      rw [hweight, ← Nat.add_assoc]
      rw [hquiet, List.nil_append] at hstep
      split at hstep
      · next hfits =>
        rcases ih hstep h with ⟨link', hlink', hreason⟩ | hover
        · exact .inl ⟨link', List.mem_cons_of_mem _ hlink', hreason⟩
        · rw [addLink_added.1, if_pos hfits] at hover
          exact .inr hover
      · next hover =>
        obtain ⟨more, hmore⟩ := @addLinks_extends (f.addLink (classifyLink ev link))
          (links.map (classifyLink ev))
        rw [← hmore, hstep, List.singleton_append, List.head?_cons, Option.mem_some_iff] at h
        exact .inr ⟨h.symm, by omega⟩
    · obtain ⟨first, rest, hfirst⟩ := List.exists_cons_of_ne_nil hquiet
      obtain ⟨more, hmore⟩ := @addLinks_extends (f.addLink (classifyLink ev link))
        (links.map (classifyLink ev))
      rw [← hmore, hstep, hfirst, List.cons_append, List.cons_append, List.head?_cons,
        Option.mem_some_iff] at h
      refine .inl ⟨link, List.mem_cons_self, ?_⟩
      rw [hfirst, h]
      exact List.mem_cons_self

end Links

/-- The routes append their reasons. Induction on the routes. -/
theorem addRoutes_reasons : ∀ {os : List LinkOutcome} {f : PairFold},
    (os.foldl addRoute f).reasons = f.reasons ++ os.flatMap LinkOutcome.reasons
  | [], f => by simp
  | o :: os, f => by
    have hstep : (f.addRoute o).reasons = f.reasons ++ o.reasons := by
      unfold addRoute
      dsimp only
      split <;> exact addStatus_reasons
    rw [List.foldl_cons, addRoutes_reasons, hstep, List.flatMap_cons, List.append_assoc]

end PairFold

/-! ## Pairs that leave nothing open -/

section Decided
variable (ev : Evidence) (work : PairWork)

/-- The route is one of the largest that feed the pair. -/
def PairWork.Leads (route : RouteEvidence) : Prop :=
  route ∈ work.routes ∧ routeFeeds ev route = true ∧
    route.committedCapacity.toNat = routedLargest ev work.routes

/-- A link that feeds the pair carries another class than the route. -/
def PairWork.Contradicts (route : RouteEvidence) : Prop :=
  ∃ link ∈ work.links, linkFeeds ev link = true ∧ link.resource ≠ route.resource

instance {ev : Evidence} {work : PairWork} {route : RouteEvidence} :
    Decidable (work.Contradicts ev route) :=
  inferInstanceAs (Decidable (∃ link ∈ work.links, _ ∧ _))

/-- The reasons that may come first among those of the links: each that a link gives, and the
complaint about the sum if the links that give no reason overflow it. -/
inductive PairWork.LinkLead : Reason → Prop
  | link {reason : Reason} {link : LinkRecord} (mem : link ∈ work.links)
      (gives : reason ∈ (classifyLink ev link).reasons) : LinkLead reason
  | overflow (quiet : 2 ^ 64 ≤ quietWeight ev work.links) : LinkLead linkOverflowReason

/-- The reasons that may come first among those of the pair: those of the links, or those of the
routes if no link gives any. -/
inductive PairWork.Lead : Reason → Prop
  | link {reason : Reason} (lead : work.LinkLead ev reason) : Lead reason
  | route (silent : ∀ reason, ¬ work.LinkLead ev reason) {reason : Reason} {route : RouteEvidence}
      (mem : route ∈ work.routes) (gives : reason ∈ (classifyRoute ev route).reasons) : Lead reason

/-- The largest routes carry one class, or the links contradict all of them. -/
def PairWork.ClassDecided : Prop :=
  ∀ route route', work.Leads ev route → work.Leads ev route' →
    route.resource = route'.resource ∨ work.Contradicts ev route ∧ work.Contradicts ev route'

/-- The pair comes to one class and one figure. The links that the sum has room for come to the same
figure, whichever they are, or to less than the largest route; a pair that mixes classes has no
figure. -/
structure PairWork.Agreed : Prop where
  classes : work.ClassDecided ev
  figure : ¬ work.Mixes ev → ∀ kept dropped kept' dropped',
    work.links ~ kept ++ dropped → Full (linkWeight ev) (2 ^ 64) kept dropped →
      work.links ~ kept' ++ dropped' → Full (linkWeight ev) (2 ^ 64) kept' dropped' →
        max (weigh (linkWeight ev) kept) (routedLargest ev work.routes) =
          max (weigh (linkWeight ev) kept') (routedLargest ev work.routes)

/-- The links and routes of a pair leave nothing open that the order of their arrival decides: the
pair comes to one class and one figure, and a pair that is shut has one reason to begin with. -/
structure PairWork.Decided : Prop extends work.Agreed ev where
  reason : work.Shut ev → ∀ reason reason', work.Lead ev reason → work.Lead ev reason' →
    reason = reason'

end Decided

section Gathered
variable {ev : Evidence} {work work' : PairWork} {reason : Reason} {route : RouteEvidence}

/-- The reasons the routes of a pair give. -/
def PairWork.routeReasons (ev : Evidence) (work : PairWork) : List Reason :=
  work.routes.flatMap fun route => (classifyRoute ev route).reasons

/-- The fold over the links of a pair. -/
def linkFold (ev : Evidence) (work : PairWork) : PairFold :=
  (work.links.map (classifyLink ev)).foldl PairFold.addLink {}

/-- The statuses a pair has seen are those of its links and routes. -/
theorem pairFold_standing : (pairFold ev work).standing =
    (work.statuses ev).foldl PairFold.addStatus {} := by
  unfold pairFold PairWork.statuses
  rw [PairFold.foldl_standing PairFold.addRoute_moved,
    PairFold.foldl_standing PairFold.addLink_moved, List.foldl_append, List.map_map, List.map_map]
  rfl

/-- The reasons of a pair: those its links leave, then those of its routes. -/
theorem pairFold_reasons : (pairFold ev work).reasons =
    (linkFold ev work).reasons ++ work.routeReasons ev := by
  unfold pairFold linkFold PairWork.routeReasons
  rw [PairFold.addRoutes_reasons, List.flatMap_map]

/-- The first reason of the links is one that may come first. -/
theorem linkFold_head (h : reason ∈ (linkFold ev work).reasons.head?) :
    work.LinkLead ev reason := by
  rcases PairFold.addLinks_head rfl h with ⟨link, hlink, hreason⟩ | ⟨rfl, hquiet⟩
  · exact .link hlink hreason
  · exact .overflow (by simpa using hquiet)

/-- The links that give no reason are not heavier than all. -/
theorem quietWeight_le {links : List LinkRecord} :
    quietWeight ev links ≤ weigh (linkWeight ev) links :=
  (List.filter_sublist.map _).sum_le_sum fun _ _ => Nat.zero_le _

/-- What may come first is among the reasons. -/
theorem PairWork.LinkLead.mem (h : work.LinkLead ev reason) :
    reason ∈ (linkFold ev work).reasons := by
  refine PairFold.mem_addLinks.2 (.inr ?_)
  cases h with
  | link mem gives => exact .inl ⟨_, mem, gives⟩
  | overflow quiet => exact .inr ⟨rfl, by simpa using quiet.trans quietWeight_le⟩

/-- The links leave no reason when none may come first. -/
theorem linkFold_silent :
    (linkFold ev work).reasons = [] ↔ ∀ reason, ¬ work.LinkLead ev reason := by
  refine ⟨fun hnil reason hlead => ?_, fun hsilent => ?_⟩
  · have hmem := hlead.mem
    rw [hnil] at hmem
    cases hmem
  · by_contra hsome
    obtain ⟨reason, hreason⟩ := Option.ne_none_iff_exists'.1 (mt List.head?_eq_none_iff.1 hsome)
    exact hsilent reason (linkFold_head hreason)

/-- The first reason of a pair is one that may come first. -/
theorem pairFold_head (h : reason ∈ (pairFold ev work).reasons.head?) : work.Lead ev reason := by
  rw [pairFold_reasons] at h
  by_cases hsilent : (linkFold ev work).reasons = []
  · rw [hsilent, List.nil_append] at h
    obtain ⟨route, hroute, hreason⟩ := List.mem_flatMap.1 (List.mem_of_mem_head? h)
    exact .route (linkFold_silent.1 hsilent) hroute hreason
  · obtain ⟨first, rest, hfirst⟩ := List.exists_cons_of_ne_nil hsilent
    refine .link (linkFold_head ?_)
    rw [hfirst] at h ⊢
    exact h

/-- A pair with a reason that may come first has a first reason. -/
theorem PairWork.Lead.head (h : work.Lead ev reason) :
    ∃ first, (pairFold ev work).reasons.head? = some first := by
  refine Option.ne_none_iff_exists'.1 fun hnone => ?_
  rw [List.head?_eq_none_iff, pairFold_reasons, List.append_eq_nil_iff] at hnone
  cases h with
  | link lead => exact linkFold_silent.1 hnone.1 reason lead
  | route silent mem gives =>
    have hmem : reason ∈ work.routeReasons ev := List.mem_flatMap.2 ⟨_, mem, gives⟩
    rw [hnone.2] at hmem
    cases hmem

end Gathered

/-! ### In another order -/

section Perm
variable {ev : Evidence} {work work' : PairWork} {reason : Reason} {route : RouteEvidence}

/-- The largest capacity of the routes does not depend on their order. -/
theorem routedLargest_perm (hroutes : work.routes ~ work'.routes) :
    routedLargest ev work'.routes = routedLargest ev work.routes := by
  have : LeftCommutative fun a b : ℕ => max a b := ⟨fun _ _ _ => max_left_comm _ _ _⟩
  exact (((hroutes.filter _).map _).foldr_eq 0).symm

/-- The same reasons of links may come first. -/
theorem linkLead_perm (hlinks : work.links ~ work'.links) :
    work'.LinkLead ev reason ↔ work.LinkLead ev reason := by
  have hquiet : quietWeight ev work'.links = quietWeight ev work.links :=
    (weigh_perm (hlinks.filter _)).symm
  constructor
  · rintro (⟨mem, gives⟩ | quiet)
    · exact .link (hlinks.mem_iff.2 mem) gives
    · exact .overflow (hquiet ▸ quiet)
  · rintro (⟨mem, gives⟩ | quiet)
    · exact .link (hlinks.mem_iff.1 mem) gives
    · exact .overflow (hquiet ▸ quiet)

/-- The same reasons may come first. -/
theorem lead_perm (hlinks : work.links ~ work'.links) (hroutes : work.routes ~ work'.routes) :
    work'.Lead ev reason ↔ work.Lead ev reason := by
  have hlead (reason : Reason) : work'.LinkLead ev reason ↔ work.LinkLead ev reason :=
    linkLead_perm hlinks
  constructor
  · rintro (lead | ⟨silent, mem, gives⟩)
    · exact .link ((hlead _).1 lead)
    · exact .route (fun reason h => silent reason ((hlead reason).2 h))
        (hroutes.mem_iff.2 mem) gives
  · rintro (lead | ⟨silent, mem, gives⟩)
    · exact .link ((hlead _).2 lead)
    · exact .route (fun reason h => silent reason ((hlead reason).1 h))
        (hroutes.mem_iff.1 mem) gives

/-- The same routes lead. -/
theorem leads_perm (hroutes : work.routes ~ work'.routes) :
    work'.Leads ev route ↔ work.Leads ev route := by
  unfold PairWork.Leads
  rw [routedLargest_perm hroutes, hroutes.mem_iff]

/-- The leading route is one of the largest. -/
theorem leads_of_leading (h : route ∈ leadingRoute ev work.routes) : work.Leads ev route := by
  obtain ⟨hmem, hfeeds⟩ := leadingRoute_feeds h
  refine ⟨hmem, hfeeds, ?_⟩
  rw [← leadingRoute_largest, h]
  rfl

/-- A pair mixes classes when its links do, or when they contradict the leading route. -/
theorem mixes_iff : work.Mixes ev ↔
    (∃ link ∈ work.links, linkFeeds ev link = true ∧
      ∃ link' ∈ work.links, linkFeeds ev link' = true ∧ link.resource ≠ link'.resource) ∨
    ∃ lead ∈ leadingRoute ev work.routes, work.Contradicts ev lead := by
  constructor
  · rintro ⟨link, hlink, hfeeds, htwo | ⟨lead, hlead, hne⟩⟩
    · exact .inl ⟨link, hlink, hfeeds, htwo⟩
    · exact .inr ⟨lead, hlead, link, hlink, hfeeds, hne⟩
  · rintro (⟨link, hlink, hfeeds, htwo⟩ | ⟨lead, hlead, link, hlink, hfeeds, hne⟩)
    · exact ⟨link, hlink, hfeeds, .inl htwo⟩
    · exact ⟨link, hlink, hfeeds, .inr ⟨lead, hlead, hne⟩⟩

/-- Where one of the largest routes is contradicted, the others are. -/
theorem PairWork.ClassDecided.contradicts (hd : work.ClassDecided ev) {route' : RouteEvidence}
    (h : work.Leads ev route) (h' : work.Leads ev route') (hc : work.Contradicts ev route) :
    work.Contradicts ev route' := by
  rcases hd route route' h h' with hsame | ⟨-, hc'⟩
  · obtain ⟨link, hlink, hfeeds, hne⟩ := hc
    exact ⟨link, hlink, hfeeds, hsame ▸ hne⟩
  · exact hc'

/-- A pair whose class is decided mixes classes in every order or in none. -/
theorem mixes_perm (hlinks : work.links ~ work'.links) (hroutes : work.routes ~ work'.routes)
    (hd : work.ClassDecided ev) : work'.Mixes ev ↔ work.Mixes ev := by
  have hcontradicts {route : RouteEvidence} :
      work'.Contradicts ev route ↔ work.Contradicts ev route := by
    simp only [PairWork.Contradicts, hlinks.mem_iff]
  rw [mixes_iff, mixes_iff]
  simp only [hcontradicts, hlinks.mem_iff]
  refine or_congr_right ⟨?_, ?_⟩
  · rintro ⟨lead', hlead', hc⟩
    have hleads' := (leads_perm hroutes).1 (leads_of_leading hlead')
    obtain ⟨lead, hlead⟩ := leadingRoute_exists hleads'.1 hleads'.2.1
    exact ⟨lead, hlead, hd.contradicts hleads' (leads_of_leading hlead) hc⟩
  · rintro ⟨lead, hlead, hc⟩
    have hleads := leads_of_leading hlead
    obtain ⟨lead', hlead'⟩ := leadingRoute_exists (hroutes.mem_iff.1 hleads.1) hleads.2.1
    exact ⟨lead', hlead', hd.contradicts hleads ((leads_perm hroutes).1 (leads_of_leading hlead'))
      hc⟩

/-- The classes of the leading routes agree, as far as one is read. -/
theorem leadingRoute_perm (hroutes : work.routes ~ work'.routes) (hd : work.ClassDecided ev)
    (hsingle : ¬ work.Mixes ev) :
    (leadingRoute ev work'.routes).map RouteEvidence.resource =
      (leadingRoute ev work.routes).map RouteEvidence.resource := by
  cases hlead : leadingRoute ev work.routes with
  | none =>
    cases hlead' : leadingRoute ev work'.routes with
    | none => rfl
    | some lead' =>
      have hleads' := (leads_perm hroutes).1 (leads_of_leading hlead')
      obtain ⟨lead, hsome⟩ := leadingRoute_exists hleads'.1 hleads'.2.1
      rw [hlead] at hsome
      cases hsome
  | some lead =>
    have hleads := leads_of_leading hlead
    obtain ⟨lead', hlead'⟩ := leadingRoute_exists (hroutes.mem_iff.1 hleads.1) hleads.2.1
    have hleads' := (leads_perm hroutes).1 (leads_of_leading hlead')
    rw [hlead', Option.map_some, Option.map_some, Option.some.injEq]
    rcases hd lead lead' hleads hleads' with hsame | ⟨hc, -⟩
    · exact hsame.symm
    · exact absurd (mixes_iff.2 (.inr ⟨lead, hlead, hc⟩)) hsingle

end Perm

/-! ## Verdicts on a pair -/

/-- Verdicts that differ at most in the order of what they list. -/
structure ConnectivityVerdict.Alike (v v' : ConnectivityVerdict) : Prop where
  ends : v'.source = v.source ∧ v'.target = v.target
  status : v'.status = v.status
  resource : v'.resource = v.resource
  capacity : v'.usableCapacity = v.usableCapacity
  links : v.links ~ v'.links
  routes : v.routes ~ v'.routes
  reasons : ∀ reason, reason ∈ v'.reasons ↔ reason ∈ v.reasons

/-- Folds that are concluded alike. -/
structure PairFold.Alike (f f' : PairFold) : Prop where
  standing : f'.standing = f.standing
  mixed : f'.mixedResources = f.mixedResources
  figure : f.mixedResources = false → max f'.direct f'.routed = max f.direct f.routed
  resource : f.mixedResources = false →
    ((canonicalise f'.directResources).head? <|> (canonicalise f'.routedResources).head?) =
      ((canonicalise f.directResources).head? <|> (canonicalise f.routedResources).head?)
  reasons : ∀ reason, reason ∈ f'.reasons ↔ reason ∈ f.reasons

/-- Folds that are alike are concluded alike, and the reasons still begin with the same one. -/
theorem PairFold.Alike.conclude {f f' : PairFold} {verdict verdict' v : ConnectivityVerdict}
    (h : f.Alike f') (hverdict : verdict.Alike verdict')
    (hok : f.conclude verdict = .ok v) : ∃ v', f'.conclude verdict' = .ok v' ∧ v.Alike v' ∧
      (f.reasons.head? = f'.reasons.head? → v.reasons.head? = v'.reasons.head?) := by
  have husable : f'.anyUsable = f.anyUsable :=
    (congrArg PairFold.anyUsable h.standing :)
  have hdegraded : f'.anyDegraded = f.anyDegraded :=
    (congrArg PairFold.anyDegraded h.standing :)
  have hworst : f'.worstBad = f.worstBad :=
    (congrArg PairFold.worstBad h.standing :)
  have hmore (reason : Reason) : (∀ r, r ∈ f'.reasons ++ [reason] ↔ r ∈ f.reasons ++ [reason]) ∧
      (f.reasons.head? = f'.reasons.head? →
        (f.reasons ++ [reason]).head? = (f'.reasons ++ [reason]).head?) := by
    refine ⟨fun r => by rw [List.mem_append, List.mem_append, h.reasons], fun hhead => ?_⟩
    rw [List.head?_append, List.head?_append, hhead]
  obtain ⟨hends, hstatus, hresource, hcapacity, hlinks, hroutes, -⟩ := hverdict
  unfold PairFold.conclude at hok ⊢
  rw [h.mixed, husable, hdegraded, hworst]
  split at hok
  · next hmix =>
    cases hok
    rw [if_pos hmix]
    exact ⟨_, rfl, ⟨hends, rfl, hresource, rfl, hlinks, hroutes, (hmore _).1⟩, (hmore _).2⟩
  next hsingle =>
  rw [Bool.not_eq_true] at hsingle
  rw [hsingle, if_neg (by decide), h.resource hsingle, h.figure hsingle]
  split at hok
  · next hseen =>
    rw [if_pos hseen]
    cases hfirst : ((canonicalise f.directResources).head? <|>
        (canonicalise f.routedResources).head?) with
    | none =>
      rw [hfirst] at hok
      cases hok
    | some resource =>
      rw [hfirst] at hok
      cases hok
      exact ⟨_, rfl, ⟨hends, rfl, rfl, rfl, hlinks, hroutes, h.reasons⟩, fun hhead => hhead⟩
  next hunseen =>
  rw [if_neg hunseen]
  cases hbad : f.worstBad with
  | some status =>
    rw [hbad] at hok
    cases hok
    exact ⟨_, rfl, ⟨hends, rfl, hresource, hcapacity, hlinks, hroutes, h.reasons⟩,
      fun hhead => hhead⟩
  | none =>
    rw [hbad] at hok
    cases hok
    exact ⟨_, rfl, ⟨hends, rfl, hresource, hcapacity, hlinks, hroutes, (hmore _).1⟩, (hmore _).2⟩

section Folds
variable {ev : Evidence} {work work' : PairWork} {reason : Reason}

/-- The sum of the links of a pair. -/
theorem pairFold_fill : (pairFold ev work).direct.toNat =
    fill (linkWeight ev) (2 ^ 64) 0 work.links := by
  unfold pairFold
  rw [addRoutes_direct, PairFold.addLinks_fill]
  rfl

/-- The routed capacity is that of the largest routes. -/
theorem pairFold_largest : (pairFold ev work).routed.toNat = routedLargest ev work.routes := by
  rw [pairFold_routed.1, leadingRoute_largest]

/-- The reasons of a pair are the same in any order. -/
theorem mem_pairFold_perm (hlinks : work.links ~ work'.links)
    (hroutes : work.routes ~ work'.routes) :
    reason ∈ (pairFold ev work').reasons ↔ reason ∈ (pairFold ev work).reasons := by
  have hmem {work : PairWork} : reason ∈ (linkFold ev work).reasons ↔
      reason ∈ ({} : PairFold).reasons ∨
        (∃ link ∈ work.links, reason ∈ (classifyLink ev link).reasons) ∨
          reason = linkOverflowReason ∧
            2 ^ 64 ≤ ({} : PairFold).direct.toNat + weigh (linkWeight ev) work.links :=
    PairFold.mem_addLinks
  rw [pairFold_reasons, pairFold_reasons, List.mem_append, List.mem_append, hmem, hmem,
    weigh_perm hlinks]
  unfold PairWork.routeReasons
  simp only [List.mem_flatMap, hlinks.mem_iff, hroutes.mem_iff]

/-- The order of the links and routes of a pair leaves no trace in what they come to, if that is one
class and one figure. -/
theorem pairFold_alike (hlinks : work.links ~ work'.links) (hroutes : work.routes ~ work'.routes)
    (hd : work.Agreed ev) : (pairFold ev work).Alike (pairFold ev work') := by
  have : RightCommutative PairFold.addStatus := ⟨PairFold.addStatus_comm⟩
  have hstatuses : work.statuses ev ~ work'.statuses ev :=
    (hlinks.map _).append (hroutes.map _)
  have hdirect : canonicalise (pairFold ev work').directResources =
      canonicalise (pairFold ev work).directResources := by
    rw [pairFold_classes, pairFold_classes]
    exact (canonicalise_perm ((hlinks.filter _).map _)).symm
  have hsingle {work : PairWork} (h : (pairFold ev work).mixedResources = false) :
      ¬ work.Mixes ev := fun hmixes => by
    rw [pairFold_mixes.2 hmixes] at h
    cases h
  refine ⟨?_, ?_, fun hmixed => ?_, fun hmixed => ?_, fun _ => mem_pairFold_perm hlinks hroutes⟩
  · rw [pairFold_standing, pairFold_standing, hstatuses.foldl_eq]
  · rw [Bool.eq_iff_iff, pairFold_mixes, pairFold_mixes, mixes_perm hlinks hroutes hd.classes]
  · refine UInt64.toNat_inj.1 ?_
    obtain ⟨kept, dropped, hp, hfull, htotal⟩ :=
      @fill_full _ (linkWeight ev) (2 ^ 64) work.links (by decide)
    obtain ⟨kept', dropped', hp', hfull', htotal'⟩ :=
      @fill_full _ (linkWeight ev) (2 ^ 64) work'.links (by decide)
    rw [toNat_max, toNat_max, pairFold_fill, pairFold_fill, pairFold_largest, pairFold_largest,
      routedLargest_perm hroutes, htotal, htotal']
    exact hd.figure (hsingle hmixed) kept' dropped' kept dropped (hlinks.trans hp') hfull' hp hfull
  · rw [hdirect, pairFold_routed.2, pairFold_routed.2,
      leadingRoute_perm hroutes hd.classes (hsingle hmixed)]

/-- The reasons of a pair that is shut begin with the same one. -/
theorem pairFold_head_perm (hlinks : work.links ~ work'.links)
    (hroutes : work.routes ~ work'.routes) (hd : work.Decided ev) (hshut : work.Shut ev) :
    (pairFold ev work).reasons.head? = (pairFold ev work').reasons.head? := by
  cases hhead : (pairFold ev work).reasons.head? with
  | some reason =>
    have hlead := pairFold_head hhead
    obtain ⟨first, hfirst⟩ := ((lead_perm hlinks hroutes).2 hlead).head
    rw [hfirst, hd.reason hshut reason first hlead
      ((lead_perm hlinks hroutes).1 (pairFold_head hfirst))]
  | none =>
    cases hhead' : (pairFold ev work').reasons.head? with
    | none => rfl
    | some reason =>
      obtain ⟨first, hfirst⟩ := ((lead_perm hlinks hroutes).1 (pairFold_head hhead')).head
      rw [hhead] at hfirst
      cases hfirst

end Folds

/-! ## The pass over all pairs -/

/-- Judged pairs that differ at most in the order of what they list. -/
structure PairWork.Alike (work work' : PairWork) : Prop where
  key : work'.key = work.key
  links : work.links ~ work'.links
  routes : work.routes ~ work'.routes
  verdict : work.verdict.Alike work'.verdict
  head : work.verdict.status.fenced = true →
    work.verdict.reasons.head? = work'.verdict.reasons.head?

section Judge
variable {ev ev' : Evidence} {work work' done : PairWork}

/-- A pair is folded the same. -/
theorem Evidence.Alike.pairFold_eq (h : ev.Alike ev') : pairFold ev' work = pairFold ev work := by
  have hlink : classifyLink ev' = classifyLink ev := funext fun _ => h.classifyLink_eq
  have hroute : classifyRoute ev' = classifyRoute ev := funext fun _ => h.classifyRoute_eq
  unfold pairFold
  rw [hlink, hroute]

/-- A pair of one class and one figure is judged alike in both orders, and its reasons begin with
the same one if those of the fold do. -/
theorem Evidence.Alike.judge_alike (h : ev.Alike ev') (hkey : work'.key = work.key)
    (hlinks : work.links ~ work'.links) (hroutes : work.routes ~ work'.routes)
    (hd : work.Agreed ev) (hok : judgePair ev work = .ok done) :
    ∃ done', judgePair ev' work' = .ok done' ∧ done'.key = done.key ∧ done.links ~ done'.links ∧
      done.routes ~ done'.routes ∧ done.verdict.Alike done'.verdict ∧
      ((pairFold ev work).reasons.head? = (pairFold ev work').reasons.head? →
        done.verdict.reasons.head? = done'.verdict.reasons.head?) := by
  unfold judgePair at hok ⊢
  obtain ⟨verdict, hverdict, hdone⟩ := bind_eq_ok.1 hok
  rw [pure_eq_ok] at hdone
  subst hdone
  have hblank : ConnectivityVerdict.Alike
      { source := (ofLex work.key).1, target := (ofLex work.key).2
        links := work.links.map LinkRecord.id, routes := work.routes.map RouteEvidence.ref }
      { source := (ofLex work'.key).1, target := (ofLex work'.key).2
        links := work'.links.map LinkRecord.id, routes := work'.routes.map RouteEvidence.ref } :=
    ⟨by rw [hkey]; exact ⟨rfl, rfl⟩, rfl, rfl, rfl, hlinks.map _, hroutes.map _, fun _ => .rfl⟩
  obtain ⟨verdict', hverdict', halike, hhead⟩ :=
    (pairFold_alike hlinks hroutes hd).conclude hblank hverdict
  rw [h.pairFold_eq, hverdict']
  exact ⟨_, rfl, hkey, hlinks, hroutes, halike, hhead⟩

/-- A decided pair is judged alike in both orders. -/
theorem Evidence.Alike.judge (h : ev.Alike ev') (hkey : work'.key = work.key)
    (hlinks : work.links ~ work'.links) (hroutes : work.routes ~ work'.routes)
    (hd : work.Decided ev) (hok : judgePair ev work = .ok done) :
    ∃ done', judgePair ev' work' = .ok done' ∧ done.Alike done' := by
  obtain ⟨done', hdone', hkey', hlinks', hroutes', halike, hhead⟩ :=
    h.judge_alike hkey hlinks hroutes hd.toAgreed hok
  refine ⟨done', hdone', hkey', hlinks', hroutes', halike, fun hshut => ?_⟩
  exact hhead (pairFold_head_perm hlinks hroutes hd ((judgePair_fenced hok).1 hshut))

/-- Every pair of the evidence is decided. -/
def Evidence.Decided (ev : Evidence) : Prop :=
  ∀ key ∈ collectedPairs ev, (newPair ev.snapshot key).Decided ev

/-- The pairs are judged alike, one by one. -/
theorem Evidence.Alike.evaluate (h : ev.Alike ev') (hd : ev.Decided)
    {pairs : List PairWork} (hok : evaluateConnectivity ev = .ok pairs) :
    ∃ pairs', evaluateConnectivity ev' = .ok pairs' ∧
      List.Forall₂ PairWork.Alike pairs pairs' := by
  unfold evaluateConnectivity at hok ⊢
  rw [h.collectedPairs_eq]
  refine mapM_related (fun key hkey done hdone => ?_) hok
  have hlinks : (newPair ev.snapshot key).links ~ (newPair ev'.snapshot key).links :=
    h.links.filter _
  have hroutes : (newPair ev.snapshot key).routes ~ (newPair ev'.snapshot key).routes :=
    h.routes.filter _
  have hsame : (newPair ev'.snapshot key).key = (newPair ev.snapshot key).key := rfl
  exact h.judge hsame hlinks hroutes (hd key hkey) hdone

end Judge

/-! ## What later passes read of the pairs -/

section Read
variable {pairs pairs' : List PairWork}

/-- What is the same for pairs that are alike is the same all along. -/
theorem map_alike {β : Type} {g : PairWork → β}
    (hg : ∀ {work work' : PairWork}, work.Alike work' → g work' = g work)
    (h : List.Forall₂ PairWork.Alike pairs pairs') : pairs'.map g = pairs.map g := by
  induction h with
  | nil => rfl
  | cons hwork _ ih => rw [List.map_cons, List.map_cons, hg hwork, ih]

/-- The pair of two racks is found with the same status. -/
theorem findPair_alike (h : List.Forall₂ PairWork.Alike pairs pairs') {a b : RackId} :
    (findPair pairs' a b).map ConnectivityVerdict.status =
      (findPair pairs a b).map ConnectivityVerdict.status := by
  unfold findPair
  induction h with
  | nil => rfl
  | @cons work work' pairs pairs' hwork _ ih =>
    rw [List.find?_cons, List.find?_cons, hwork.key]
    split
    · exact congrArg some hwork.verdict.status
    · exact ih

/-- Pairs that are alike are fenced alike. -/
theorem PairWork.Alike.fences {work work' : PairWork} (h : work.Alike work') :
    pairFences work ~ pairFences work' := by
  have hgone := (h.routes.filter fun route =>
    decide (route.state = .withdrawn ∨ route.state = .failed)).map fun route =>
      FenceAction.mk .route route.ref.token
        ⟨.routeWithdrawn, "the routing decision is no longer installed"⟩
  unfold pairFences
  rw [h.verdict.status, h.verdict.ends.1, h.verdict.ends.2]
  refine List.Perm.append ?_ hgone
  split
  · next hfenced =>
    rw [h.head (by simpa [LinkStatus.fenced] using hfenced)]
  · exact .refl _

/-- So are all pairs. -/
theorem fences_alike (h : List.Forall₂ PairWork.Alike pairs pairs') :
    pairs.flatMap pairFences ~ pairs'.flatMap pairFences := by
  induction h with
  | nil => exact .refl _
  | cons hwork _ ih =>
    rw [List.flatMap_cons, List.flatMap_cons]
    exact hwork.fences.append ih

end Read

end PodFabric
