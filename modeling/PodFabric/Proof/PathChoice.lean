import PodFabric.Proof.PathOrder

/-!
# What the order of links and routes can choose

If the pass over the pairs comes to the same statuses, classes, figures and fences in every order of
the links and routes (`Evidence.Steady`), nothing is left to the order of their arrival
(`Evidence.Steady.decided`). Any of the largest routes can be put first, any selection of links that
the sum has room for can be kept, and a reason that may come first can be brought to the front of
every pair at once.
-/

namespace PodFabric

open List Filling

/-! ## Putting elements first -/

section Favour
variable {α : Type} {l : List α} {p q : α → Bool}

/-- The elements that are favoured, then the others. -/
def favour (p : α → Bool) (l : List α) : List α := l.filter p ++ l.filter fun a => !p a

/-- Favouring elements rearranges them. -/
theorem favour_perm : l ~ favour p l := (List.filter_append_perm p l).symm

/-- Favouring elements of a part of the list. -/
theorem filter_favour : (favour p l).filter q = favour p (l.filter q) := by
  unfold favour
  rw [List.filter_append]
  simp only [List.filter_filter, Bool.and_comm]

/-- A favoured element comes first. -/
theorem favour_cons {a : α} (ha : a ∈ l) (hp : p a = true) :
    ∃ first rest, favour p l = first :: rest ∧ p first = true := by
  obtain ⟨first, rest, hfirst⟩ :=
    List.exists_cons_of_ne_nil (List.ne_nil_of_mem (List.mem_filter.2 ⟨ha, hp⟩))
  refine ⟨first, rest ++ l.filter fun a => !p a, by rw [favour, hfirst, List.cons_append], ?_⟩
  exact (List.mem_filter.1 (hfirst ▸ List.mem_cons_self : first ∈ l.filter p)).2

/-- A list that begins with the elements of a part keeps them in front of that part. -/
theorem filter_pick {part : List α} (hp : l.filter p ~ part) :
    l ~ part ++ l.filter (fun a => !p a) ∧
      (part ++ l.filter fun a => !p a).filter p = part := by
  refine ⟨(List.filter_append_perm p l).symm.trans (hp.append_right _), ?_⟩
  have hrest : (l.filter fun a => !p a).filter p = [] := by
    rw [List.filter_filter, List.filter_eq_nil_iff]
    intro a _
    cases p a <;> decide
  rw [List.filter_append, hrest, List.append_nil, List.filter_eq_self]
  exact fun a ha => (List.mem_filter.1 (hp.mem_iff.2 ha)).2

/-- An element that one condition has beyond another counts. -/
theorem countP_lt {a : α} (h : ∀ a ∈ l, p a = true → q a = true) (ha : a ∈ l) (hp : p a = false)
    (hq : q a = true) : l.countP p < l.countP q := by
  obtain ⟨before, after, rfl⟩ := List.append_of_mem ha
  have hbefore : before.countP p ≤ before.countP q :=
    List.countP_mono_left fun b hb => h b (List.mem_append_left _ hb)
  have hafter : after.countP p ≤ after.countP q :=
    List.countP_mono_left fun b hb => h b (List.mem_append_right _ (List.mem_cons_of_mem _ hb))
  rw [List.countP_append, List.countP_append, List.countP_cons, List.countP_cons, hp, hq]
  simp only [Bool.false_eq_true, if_false, if_true]
  omega

end Favour

/-! ## Arrangements -/

/-- The evidence with its links and routes in another order. -/
def Evidence.arranged (ev : Evidence) (links : List LinkRecord) (routes : List RouteEvidence) :
    Evidence :=
  { ev with snapshot := { ev.snapshot with links, routes } }

/-- What a verdict on a pair shows of the choices made: its status, its class and its figure. -/
def PairWork.shown (work : PairWork) : LinkStatus × ResourceClass × UInt64 :=
  (work.verdict.status, work.verdict.resource, work.verdict.usableCapacity)

/-- The reason the fence of a pair gives. -/
def PairWork.blame (work : PairWork) : Reason :=
  work.verdict.reasons.head?.getD ⟨.noUsablePath, "the rack pair is not usable"⟩

/-- The pair is fenced for the reason. -/
def PairWork.fencedFor (reason : Reason) (work : PairWork) : Bool :=
  work.verdict.status.fenced && decide (work.blame = reason)

/-- The pass over the pairs shows the same verdicts, and fences as many of them for each reason,
whatever order the links and routes come in. -/
def Evidence.Steady (ev : Evidence) (pairs : List PairWork) : Prop :=
  ∀ links routes, ev.snapshot.links ~ links → ev.snapshot.routes ~ routes →
    ∃ pairs', evaluateConnectivity (ev.arranged links routes) = .ok pairs' ∧
      pairs'.map PairWork.shown = pairs.map PairWork.shown ∧
      ∀ reason, pairs'.countP (PairWork.fencedFor reason) =
        pairs.countP (PairWork.fencedFor reason)

section Arranged
variable {ev ev' : Evidence} {work done : PairWork} {pairs : List PairWork}
  {links : List LinkRecord} {routes : List RouteEvidence} {key : PairKey}

/-- Evidence in another order is alike. -/
theorem Evidence.arranged_alike (hlinks : ev.snapshot.links ~ links)
    (hroutes : ev.snapshot.routes ~ routes)
    (hrefs : (ev.snapshot.routes.map RouteEvidence.ref).Nodup) :
    ev.Alike (ev.arranged links routes) :=
  ⟨rfl, rfl, rfl, rfl, hlinks, hroutes, hrefs⟩

/-- A pair is judged the same by evidence in another order. -/
theorem Evidence.Alike.judgePair_eq (h : ev.Alike ev') :
    judgePair ev' work = judgePair ev work := by
  unfold judgePair
  rw [h.pairFold_eq]

/-- A pair has the links and routes of the evidence in their order. -/
theorem newPair_arranged : newPair (ev.arranged links routes).snapshot key =
    { newPair ev.snapshot key with
      links := links.filter fun link => linkPair link = key
      routes := routes.filter fun route => key ∈ routePairs route } := rfl

/-- The verdict on a pair shows the same, whatever order its links and routes come in. -/
def PairWork.Unmoved (ev : Evidence) (work : PairWork)
    (view : LinkStatus × ResourceClass × UInt64) : Prop :=
  ∀ links routes, work.links ~ links → work.routes ~ routes →
    ∃ done, judgePair ev { work with links, routes } = .ok done ∧ done.shown = view

/-- The pairs of a steady pass are not moved by the order of their links and routes. -/
theorem Evidence.Steady.unmoved (h : ev.Steady pairs)
    (hrefs : (ev.snapshot.routes.map RouteEvidence.ref).Nodup)
    (hok : evaluateConnectivity ev = .ok pairs) (hkey : key ∈ collectedPairs ev) :
    ∃ view, (newPair ev.snapshot key).Unmoved ev view := by
  obtain ⟨done, -, hdone⟩ := mapM_covers hok key hkey
  refine ⟨done.shown, fun links routes hlinks hroutes => ?_⟩
  obtain ⟨hlinks', hkept⟩ := filter_pick hlinks
  obtain ⟨hroutes', hkept'⟩ := filter_pick hroutes
  have halike := ev.arranged_alike hlinks' hroutes' hrefs
  obtain ⟨pairs', hok', hshown, -⟩ := h _ _ hlinks' hroutes'
  have hview {ev : Evidence} {pairs : List PairWork} (hok : evaluateConnectivity ev = .ok pairs) :
      (pairs.map PairWork.shown).map some = (collectedPairs ev).map fun key =>
        (judgePair ev (newPair ev.snapshot key)).toOption.map PairWork.shown := by
    have hall := mapM_toOption hok
    have hmap := congrArg (List.map (Option.map PairWork.shown)) hall
    rw [List.map_map, List.map_map] at hmap
    rw [List.map_map]
    exact hmap
  have hsame := (hview hok').symm.trans ((congrArg _ hshown).trans (hview hok))
  rw [halike.collectedPairs_eq, List.map_inj_left] at hsame
  have hpair := hsame key hkey
  rw [halike.judgePair_eq, newPair_arranged, hkept, hkept', hdone] at hpair
  cases hjudge : judgePair ev { newPair ev.snapshot key with links, routes } with
  | error fault =>
    rw [hjudge] at hpair
    cases hpair
  | ok done' =>
    rw [hjudge] at hpair
    exact ⟨done', rfl, Option.some.inj hpair⟩

end Arranged

/-! ## Class and figure -/

section Choose
variable {ev : Evidence} {work done : PairWork} {route lead : RouteEvidence}
  {view : LinkStatus × ResourceClass × UInt64}

/-- A pair with a leading route mixes classes when its links contradict it. -/
theorem mixes_iff_contradicts (hlead : lead ∈ leadingRoute ev work.routes) :
    work.Mixes ev ↔ work.Contradicts ev lead := by
  rw [mixes_iff]
  constructor
  · rintro (⟨link, hlink, hfeeds, link', hlink', hfeeds', hne⟩ | ⟨lead', hlead', hc⟩)
    · by_cases hsame : link.resource = lead.resource
      · exact ⟨link', hlink', hfeeds', fun hsame' => hne (hsame.trans hsame'.symm)⟩
      · exact ⟨link, hlink, hfeeds, hsame⟩
    · rwa [Option.some.inj (hlead.symm.trans hlead')]
  · exact fun hc => .inr ⟨lead, hlead, hc⟩

/-- What a verdict says is what the fold of the pair is concluded to. -/
theorem judgePair_concluded (h : judgePair ev work = .ok done) :
    ∃ verdict, Concluded (pairFold ev work) verdict done.verdict := by
  unfold judgePair at h
  obtain ⟨verdict, hverdict, h⟩ := bind_eq_ok.1 h
  rw [pure_eq_ok] at h
  subst h
  exact ⟨_, conclude_concluded hverdict⟩

/-- A pair with a leading route is in conflict if its links contradict that route, and carries its
class if they do not. -/
theorem judgePair_lead (hlead : lead ∈ leadingRoute ev work.routes)
    (h : judgePair ev work = .ok done) :
    (work.Contradicts ev lead → done.verdict.status = .conflicting) ∧
      (¬ work.Contradicts ev lead →
        done.verdict.status.carries = true ∧ done.verdict.resource = lead.resource) := by
  obtain ⟨hmem, hfeeds⟩ := leadingRoute_feeds hlead
  obtain ⟨verdict, hconcluded⟩ := judgePair_concluded h
  cases hconcluded with
  | mixed mixed status capacity =>
    refine ⟨fun _ => status, fun hnot => absurd ?_ hnot⟩
    exact (mixes_iff_contradicts hlead).1 (pairFold_mixes.1 mixed)
  | figure single status resource capacity =>
    refine ⟨fun hc => ?_, fun hnot => ⟨status, ?_⟩⟩
    · rw [pairFold_mixes.2 ((mixes_iff_contradicts hlead).2 hc)] at single
      cases single
    · rcases read_class resource with hdirect | ⟨-, lead', hlead', hsame⟩
      · obtain ⟨link, hlink, hfeeds', hsame⟩ := mem_directResources.1 hdirect
        rw [← hsame]
        by_contra hne
        exact hnot ⟨link, hlink, hfeeds', hne⟩
      · rw [← hsame, Option.some.inj (hlead'.symm.trans hlead)]
  | unseen unseen status =>
    have hcarried : Carried ev work := (PairWork.CarriesClass.route hmem hfeeds rfl).carried
    exact absurd (pairFold_seen.2 hcarried) unseen

/-- One of the largest routes leads when it comes first. -/
theorem leadingRoute_first (h : work.Leads ev route) {rest : List RouteEvidence}
    (hp : work.routes ~ route :: rest) : route ∈ leadingRoute ev (route :: rest) := by
  obtain ⟨-, hfeeds, hlargest⟩ := h
  have hmost : ∀ other ∈ rest, routeFeeds ev other = true →
      other.committedCapacity.toNat ≤ route.committedCapacity.toNat := by
    intro other hother hfeeds'
    rw [hlargest, ← @routedLargest_perm ev work { work with routes := route :: rest } hp]
    refine List.le_max_of_le (List.mem_map_of_mem (List.mem_filter.2 ⟨?_, hfeeds'⟩)) (le_refl _)
    exact List.mem_cons_of_mem _ hother
  unfold leadingRoute
  rw [List.filter_cons_of_pos hfeeds, List.argmax_cons]
  cases hlater : List.argmax (fun route : RouteEvidence => route.committedCapacity.toNat)
      (rest.filter (routeFeeds ev)) with
  | none => rfl
  | some later =>
    obtain ⟨hin, hfeeds'⟩ := List.mem_filter.1 (List.argmax_mem hlater)
    exact if_neg (Nat.not_lt.2 (hmost later hin hfeeds'))

/-- A pair that is not moved comes to one class: each of the largest routes may come first. -/
theorem PairWork.Unmoved.classDecided (h : work.Unmoved ev view) : work.ClassDecided ev := by
  have hfirst {route : RouteEvidence} (hleads : work.Leads ev route) :
      (work.Contradicts ev route → view.1 = .conflicting) ∧
        (¬ work.Contradicts ev route → view.1.carries = true ∧ view.2.1 = route.resource) := by
    have hp := List.perm_cons_erase hleads.1
    obtain ⟨done, hdone, rfl⟩ := h work.links _ (.refl _) hp
    exact @judgePair_lead ev { work with routes := route :: work.routes.erase route } done route
      (leadingRoute_first hleads hp) hdone
  intro route route' hleads hleads'
  by_cases hc : work.Contradicts ev route
  · refine .inr ⟨hc, ?_⟩
    by_contra hnot
    have hcarries := ((hfirst hleads').2 hnot).1
    rw [(hfirst hleads).1 hc] at hcarries
    cases hcarries
  · obtain ⟨hcarries, hclass⟩ := (hfirst hleads).2 hc
    by_cases hc' : work.Contradicts ev route'
    · rw [(hfirst hleads').1 hc'] at hcarries
      cases hcarries
    · exact .inl (hclass.symm.trans ((hfirst hleads').2 hc').2)

/-- A link that adds to the sum carries traffic. -/
theorem carried_of_weight {link : LinkRecord} (hlink : link ∈ work.links)
    (h : linkWeight ev link ≠ 0) : Carried ev work := by
  refine .inl ⟨link, hlink, ?_⟩
  by_contra hidle
  unfold linkWeight at h
  rw [classifyLink_capacity, if_neg hidle] at h
  exact h rfl

/-- A pair that mixes no classes shows the larger of the sum of its links and of its largest
route. -/
theorem judgePair_sum (hsingle : ¬ work.Mixes ev) (h : judgePair ev work = .ok done)
    (hcarried : Carried ev work) : done.verdict.usableCapacity.toNat =
      max (fill (linkWeight ev) (2 ^ 64) 0 work.links) (routedLargest ev work.routes) := by
  obtain ⟨verdict, hconcluded⟩ := judgePair_concluded h
  cases hconcluded with
  | mixed mixed status capacity => exact absurd (pairFold_mixes.1 mixed) hsingle
  | figure single status resource capacity =>
    rw [capacity, toNat_max, pairFold_fill, pairFold_largest]
  | unseen unseen status => exact absurd (pairFold_seen.2 hcarried) unseen

/-- A pair that is not moved comes to one class and one figure: each selection of links that the sum
has room for may come first. -/
theorem PairWork.Unmoved.agreed (h : work.Unmoved ev view) : work.Agreed ev := by
  refine ⟨h.classDecided, fun hsingle => ?_⟩
  have hkept {kept dropped : List LinkRecord} (hp : work.links ~ kept ++ dropped)
      (hfull : Full (linkWeight ev) (2 ^ 64) kept dropped) (hcarried : Carried ev work) :
      view.2.2.toNat = max (weigh (linkWeight ev) kept) (routedLargest ev work.routes) := by
    obtain ⟨done, hdone, rfl⟩ := h _ work.routes hp (.refl _)
    have hmixes := @mixes_perm ev work { work with links := kept ++ dropped } hp (.refl _)
      h.classDecided
    have hsum := @judgePair_sum ev { work with links := kept ++ dropped } done
      (mt hmixes.1 hsingle) hdone (by simpa only [Carried, hp.mem_iff] using hcarried)
    rw [fill_of_full hfull] at hsum
    exact hsum
  have hidle {kept dropped : List LinkRecord} (hp : work.links ~ kept ++ dropped)
      (hidle : ¬ Carried ev work) : weigh (linkWeight ev) kept = 0 := by
    refine List.sum_eq_zero fun weight hweight => ?_
    obtain ⟨link, hlink, rfl⟩ := List.mem_map.1 hweight
    by_contra hne
    exact hidle (carried_of_weight (hp.mem_iff.2 (List.mem_append_left _ hlink)) hne)
  intro kept dropped kept' dropped' hp hfull hp' hfull'
  by_cases hcarried : Carried ev work
  · rw [← hkept hp hfull hcarried, ← hkept hp' hfull' hcarried]
  · rw [hidle hp hcarried, hidle hp' hcarried]

end Choose

/-! ## The first reason -/

section First
variable {ev : Evidence} {work done : PairWork} {reason : Reason}

/-- What is in a list of one element at most is all of it. -/
theorem eq_singleton {α : Type} {l : List α} {a : α} (hlength : l.length ≤ 1) (ha : a ∈ l) :
    l = [a] := by
  obtain ⟨b, rfl⟩ := List.length_eq_one_iff.1 (le_antisymm hlength (List.length_pos_of_mem ha))
  rw [List.mem_singleton.1 ha]

/-- A link gives one reason at most. -/
theorem classifyLink_one {link : LinkRecord} (h : reason ∈ (classifyLink ev link).reasons) :
    (classifyLink ev link).reasons = [reason] := by
  have hlength : (classifyLink ev link).reasons.length ≤ 1 := by
    unfold classifyLink
    dsimp only
    repeat' split
    all_goals simp
  exact eq_singleton hlength h

/-- A route gives one reason at most. -/
theorem classifyRoute_one {route : RouteEvidence} (h : reason ∈ (classifyRoute ev route).reasons) :
    (classifyRoute ev route).reasons = [reason] := by
  have hlength : (classifyRoute ev route).reasons.length ≤ 1 := by
    unfold classifyRoute
    dsimp only
    repeat' split
    all_goals simp
  exact eq_singleton hlength h

/-- The first reason of a fold stays first. -/
theorem PairFold.addLinks_first {f : PairFold} {os : List LinkOutcome}
    (h : f.reasons.head? = some reason) : (os.foldl addLink f).reasons.head? = some reason := by
  obtain ⟨more, hmore⟩ := @addLinks_extends f os
  rw [← hmore, List.head?_append, h, Option.some_or]

/-- The first reason of the links is the first of the pair. -/
theorem pairFold_first (h : (linkFold ev work).reasons.head? = some reason) :
    (pairFold ev work).reasons.head? = some reason := by
  rw [pairFold_reasons, List.head?_append, h, Option.some_or]

/-- A link that comes first gives the first reason. -/
theorem pairFold_first_link {link : LinkRecord} {rest : List LinkRecord}
    (hlinks : work.links = link :: rest) (hgives : reason ∈ (classifyLink ev link).reasons) :
    (pairFold ev work).reasons.head? = some reason := by
  refine pairFold_first ?_
  unfold linkFold
  rw [hlinks, List.map_cons, List.foldl_cons]
  refine PairFold.addLinks_first ?_
  rw [PairFold.addLink_added.2, classifyLink_one hgives]
  rfl

/-- Where the links give no reason, a route that comes first does. -/
theorem pairFold_first_route (silent : ∀ reason, ¬ work.LinkLead ev reason) {route : RouteEvidence}
    {rest : List RouteEvidence} (hroutes : work.routes = route :: rest)
    (hgives : reason ∈ (classifyRoute ev route).reasons) :
    (pairFold ev work).reasons.head? = some reason := by
  rw [pairFold_reasons, linkFold_silent.2 silent, List.nil_append, PairWork.routeReasons, hroutes,
    List.flatMap_cons, classifyRoute_one hgives]
  rfl

/-- Where links that give no reason come first and overflow the sum, the complaint comes first. -/
theorem pairFold_first_overflow {quiet rest : List LinkRecord} (hlinks : work.links = quiet ++ rest)
    (hquiet : ∀ link ∈ quiet, (classifyLink ev link).reasons = [])
    (hover : 2 ^ 64 ≤ weigh (linkWeight ev) quiet) :
    (pairFold ev work).reasons.head? = some linkOverflowReason := by
  have hmem {reason : Reason} :
      reason ∈ ((quiet.map (classifyLink ev)).foldl PairFold.addLink {}).reasons ↔
        reason = linkOverflowReason := by
    refine PairFold.mem_addLinks.trans ⟨?_, fun h => .inr (.inr ⟨h, by simpa using hover⟩)⟩
    rintro (hnone | ⟨link, hlink, hgives⟩ | ⟨h, -⟩)
    · cases hnone
    · rw [hquiet link hlink] at hgives
      cases hgives
    · exact h
  refine pairFold_first ?_
  unfold linkFold
  rw [hlinks, List.map_append, List.foldl_append]
  refine PairFold.addLinks_first ?_
  obtain ⟨first, rest, hfirst⟩ := List.exists_cons_of_ne_nil (List.ne_nil_of_mem (hmem.2 rfl))
  have hin : first = linkOverflowReason := hmem.1 (hfirst ▸ List.mem_cons_self)
  rw [hfirst, List.head?_cons, hin]

/-- The first reason of a fold is the first of the verdict. -/
theorem judgePair_first (h : judgePair ev work = .ok done)
    (hfirst : (pairFold ev work).reasons.head? = some reason) :
    done.verdict.reasons.head? = some reason := by
  unfold judgePair at h
  obtain ⟨verdict, hverdict, h⟩ := bind_eq_ok.1 h
  rw [pure_eq_ok] at h
  subst h
  have hmore (more : List Reason) : ((pairFold ev work).reasons ++ more).head? = some reason := by
    rw [List.head?_append, hfirst, Option.some_or]
  unfold PairFold.conclude at hverdict
  split at hverdict
  · cases hverdict
    exact hmore _
  split at hverdict
  · split at hverdict
    · cases hverdict
    · cases hverdict
      exact hfirst
  split at hverdict
  · cases hverdict
    exact hfirst
  · cases hverdict
    exact hmore _

end First

/-! ### Reasons brought to the front -/

section Front
variable {ev : Evidence} {work done : PairWork} {reason : Reason} {p : LinkRecord → Bool}
  {q : RouteEvidence → Bool}

/-- The link gives the reason. -/
def linkGives (ev : Evidence) (reason : Reason) (link : LinkRecord) : Bool :=
  reason ∈ (classifyLink ev link).reasons

/-- The route gives the reason. -/
def routeGives (ev : Evidence) (reason : Reason) (route : RouteEvidence) : Bool :=
  reason ∈ (classifyRoute ev route).reasons

/-- The pair with some links and some routes first. -/
def PairWork.favoured (p : LinkRecord → Bool) (q : RouteEvidence → Bool) (work : PairWork) :
    PairWork :=
  { work with links := favour p work.links, routes := favour q work.routes }

/-- The same reasons may come first. -/
theorem lead_favoured : (work.favoured p q).Lead ev reason ↔ work.Lead ev reason :=
  lead_perm favour_perm favour_perm

/-- A reason that a link gives comes first when the links that give it do. -/
theorem favoured_link {link : LinkRecord} (hlink : link ∈ work.links)
    (hgives : reason ∈ (classifyLink ev link).reasons) :
    (pairFold ev (work.favoured (linkGives ev reason) q)).reasons.head? = some reason := by
  obtain ⟨first, rest, hfirst, hgives'⟩ := favour_cons hlink
    (show linkGives ev reason link = true from decide_eq_true hgives)
  exact pairFold_first_link hfirst (of_decide_eq_true hgives')

/-- A reason that a route gives comes first when the routes that give it do, if the links give
none. -/
theorem favoured_route (silent : ∀ reason, ¬ work.LinkLead ev reason) {route : RouteEvidence}
    (hroute : route ∈ work.routes) (hgives : reason ∈ (classifyRoute ev route).reasons) :
    (pairFold ev (work.favoured p (routeGives ev reason))).reasons.head? = some reason := by
  obtain ⟨first, rest, hfirst, hgives'⟩ := favour_cons hroute
    (show routeGives ev reason route = true from decide_eq_true hgives)
  refine pairFold_first_route (fun reason hlead => silent reason ?_) hfirst
    (of_decide_eq_true hgives')
  exact (linkLead_perm favour_perm).1 hlead

/-- A reason that may come first does when what gives it comes first. -/
theorem PairWork.Lead.favoured_for (h : work.Lead ev reason) (hne : reason ≠ linkOverflowReason) :
    (pairFold ev (work.favoured (linkGives ev reason) (routeGives ev reason))).reasons.head? =
      some reason := by
  rcases h with ⟨⟨mem, gives⟩ | quiet⟩ | ⟨silent, mem, gives⟩
  · exact favoured_link mem gives
  · exact absurd rfl hne
  · exact favoured_route silent mem gives

/-- Each reason that may come first does in some order. -/
theorem PairWork.Lead.favoured (h : work.Lead ev reason) :
    ∃ p q, (pairFold ev (work.favoured p q)).reasons.head? = some reason := by
  rcases h with ⟨⟨mem, gives⟩ | quiet⟩ | ⟨silent, mem, gives⟩
  · exact ⟨_, fun _ => true, favoured_link mem gives⟩
  · refine ⟨fun link => decide ((classifyLink ev link).reasons = []), fun _ => true, ?_⟩
    refine pairFold_first_overflow rfl (fun link hlink => ?_) quiet
    exact of_decide_eq_true (List.mem_filter.1 hlink).2
  · exact ⟨fun _ => true, _, favoured_route silent mem gives⟩

/-- What a pair is fenced for in some order it is fenced for when what gives that reason comes
first. -/
theorem fencedFor_favoured (hrefs : (ev.snapshot.routes.map RouteEvidence.ref).Nodup)
    (hagreed : work.Agreed ev) (hok : judgePair ev work = .ok done)
    (hne : reason ≠ linkOverflowReason)
    (h : (judgePair ev (work.favoured p q)).toOption.any (PairWork.fencedFor reason) = true) :
    (judgePair ev (work.favoured (linkGives ev reason) (routeGives ev reason))).toOption.any
      (PairWork.fencedFor reason) = true := by
  have hself : ev.Alike ev := ⟨rfl, rfl, rfl, rfl, .refl _, .refl _, hrefs⟩
  have hjudge (p : LinkRecord → Bool) (q : RouteEvidence → Bool) :=
    @Evidence.Alike.judge_alike _ _ work (work.favoured p q) _ hself rfl favour_perm favour_perm
      hagreed hok
  obtain ⟨other, hother, -, -, -, halike, hsame⟩ := hjudge p q
  obtain ⟨first, hfirst, -, -, -, halike', hsame'⟩ :=
    hjudge (linkGives ev reason) (routeGives ev reason)
  rw [hother] at h
  rw [hfirst]
  simp only [Except.toOption, Option.any_some, PairWork.fencedFor, Bool.and_eq_true,
    decide_eq_true_eq] at h ⊢
  obtain ⟨hfenced, hblame⟩ := h
  refine ⟨by rw [halike'.status, ← halike.status, hfenced], ?_⟩
  cases hhead : (pairFold ev (work.favoured p q)).reasons.head? with
  | some lead =>
    have hlead : lead = reason := by
      rw [← hblame, PairWork.blame, judgePair_first hother hhead, Option.getD_some]
    have hmay : work.Lead ev reason := lead_favoured.1 (pairFold_head (hlead ▸ hhead))
    rw [PairWork.blame, judgePair_first hfirst (hmay.favoured_for hne), Option.getD_some]
  | none =>
    have hnone {work' : PairWork} (hlead : ∀ reason, work'.Lead ev reason ↔ work.Lead ev reason) :
        (pairFold ev work').reasons.head? = none := by
      rw [Option.eq_none_iff_forall_ne_some]
      intro lead hsome
      obtain ⟨_, habsurd⟩ := (lead_favoured.2 ((hlead lead).1 (pairFold_head hsome))).head
      rw [hhead] at habsurd
      cases habsurd
    have hwork : (pairFold ev work).reasons.head? = none := hnone fun _ => .rfl
    rw [PairWork.blame, ← hsame' (by rw [hwork, hnone fun _ => lead_favoured]),
      hsame (by rw [hwork, hhead])]
    exact hblame

end Front

/-! ## Steady passes -/

/-- With some links and some routes first, the pair of a key is fenced for the reason. -/
def fencedIn (ev : Evidence) (reason : Reason) (p : LinkRecord → Bool) (q : RouteEvidence → Bool)
    (key : PairKey) : Bool :=
  (judgePair ev ((newPair ev.snapshot key).favoured p q)).toOption.any (PairWork.fencedFor reason)

section Steady
variable {ev : Evidence} {pairs : List PairWork} {key : PairKey} {p : LinkRecord → Bool}
  {q : RouteEvidence → Bool} {a b : Reason}

namespace Evidence.Steady

/-- Whichever links and routes come first, as many pairs are fenced for a reason. -/
theorem counted (h : ev.Steady pairs) (hrefs : (ev.snapshot.routes.map RouteEvidence.ref).Nodup) :
    (collectedPairs ev).countP (fencedIn ev a p q) = pairs.countP (PairWork.fencedFor a) := by
  have halike : ev.Alike (ev.arranged (favour p _) (favour q _)) :=
    ev.arranged_alike favour_perm favour_perm hrefs
  obtain ⟨pairs', hok, -, hcount⟩ := h _ _ favour_perm favour_perm
  have hall := congrArg (List.countP (Option.any (PairWork.fencedFor a))) (mapM_toOption hok)
  rw [List.countP_map, List.countP_map, halike.collectedPairs_eq] at hall
  refine Eq.trans (List.countP_congr fun key _ => ?_) (hall.symm.trans (hcount a))
  rw [Function.comp_apply, halike.judgePair_eq, newPair_arranged, filter_favour, filter_favour]
  rfl

/-- A pair that is shut has one reason to begin with, if there is one that is not about the sum: as
many pairs as can be are fenced for it when what gives it comes first, and one fewer when another
reason comes first. -/
theorem reason_eq (h : ev.Steady pairs)
    (hrefs : (ev.snapshot.routes.map RouteEvidence.ref).Nodup)
    (hok : evaluateConnectivity ev = .ok pairs)
    (hagreed : ∀ key ∈ collectedPairs ev, (newPair ev.snapshot key).Agreed ev)
    (hkey : key ∈ collectedPairs ev) (hshut : (newPair ev.snapshot key).Shut ev)
    (ha : (newPair ev.snapshot key).Lead ev a) (hb : (newPair ev.snapshot key).Lead ev b)
    (hover : a ≠ linkOverflowReason) : a = b := by
  by_contra hne
  have hself : ev.Alike ev := ⟨rfl, rfl, rfl, rfl, .refl _, .refl _, hrefs⟩
  obtain ⟨p, q, hfirst⟩ := hb.favoured
  obtain ⟨done, -, hdone⟩ := mapM_covers hok key hkey
  have hfenced : done.verdict.status.fenced = true := (judgePair_fenced hdone).2 hshut
  have hjudge {p : LinkRecord → Bool} {q : RouteEvidence → Bool} {lead : Reason}
      (hfirst : (pairFold ev ((newPair ev.snapshot key).favoured p q)).reasons.head? = some lead) :
      fencedIn ev a p q key = decide (lead = a) := by
    obtain ⟨other, hother, -, -, -, halike, -⟩ :=
      @Evidence.Alike.judge_alike _ _ (newPair ev.snapshot key)
        ((newPair ev.snapshot key).favoured p q) _ hself rfl favour_perm favour_perm
        (hagreed key hkey) hdone
    rw [fencedIn, hother]
    simp only [Except.toOption, Option.any_some, PairWork.fencedFor, PairWork.blame,
      judgePair_first hother hfirst, Option.getD_some, halike.status, hfenced, Bool.true_and]
  have hmost (key' : PairKey) (hkey' : key' ∈ collectedPairs ev)
      (hin : fencedIn ev a p q key' = true) :
      fencedIn ev a (linkGives ev a) (routeGives ev a) key' = true := by
    obtain ⟨base, -, hbase⟩ := mapM_covers hok key' hkey'
    exact fencedFor_favoured hrefs (hagreed key' hkey') hbase hover hin
  have hfewer := countP_lt hmost hkey
    ((hjudge hfirst).trans (decide_eq_false fun hsame => hne hsame.symm))
    ((hjudge (ha.favoured_for hover)).trans (decide_eq_true rfl))
  rw [h.counted hrefs, h.counted hrefs] at hfewer
  exact lt_irrefl _ hfewer

/-- A pass that shows the same in every order leaves nothing open that the order decides. -/
theorem decided (h : ev.Steady pairs) (hrefs : (ev.snapshot.routes.map RouteEvidence.ref).Nodup)
    (hok : evaluateConnectivity ev = .ok pairs) : ev.Decided := by
  have hagreed (key : PairKey) (hkey : key ∈ collectedPairs ev) :
      (newPair ev.snapshot key).Agreed ev := by
    obtain ⟨view, hview⟩ := h.unmoved hrefs hok hkey
    exact hview.agreed
  refine fun key hkey => ⟨hagreed key hkey, fun hshut a b ha hb => ?_⟩
  by_cases hover : a = linkOverflowReason
  · by_cases hover' : b = linkOverflowReason
    · rw [hover, hover']
    · exact (h.reason_eq hrefs hok hagreed hkey hshut hb ha hover').symm
  · exact h.reason_eq hrefs hok hagreed hkey hshut ha hb hover

end Evidence.Steady

end Steady

end PodFabric
