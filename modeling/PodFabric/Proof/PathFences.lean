import PodFabric.Proof.Figures
import PodFabric.Proof.MemberFences

/-!
# Path fences

A pair of racks is fenced for its merged status, and a route besides for its own state. A bad link
or route that shares its pair with one that carries traffic, or with one whose state is unknown, is
fenced only if the pair mixes resource classes (`bad_paths_fenced_iff`).
-/

namespace PodFabric

/-! ## The worst status of a pair -/

namespace LinkStatus

/-- The worst of two statuses is as severe as the more severe one. -/
theorem severity_worst (a b : LinkStatus) : (worst a b).severity = max a.severity b.severity := by
  unfold worst
  split
  · next hle => exact (max_eq_left hle).symm
  · next hlt => exact (max_eq_right (Nat.le_of_lt (Nat.lt_of_not_le hlt))).symm

/-- The option holds the worst of the statuses that carry nothing. -/
def WorstOf (statuses : List LinkStatus) : Option LinkStatus → Prop
  | none => ∀ s ∈ statuses, s.carries = true
  | some w => w ∈ statuses ∧ w.carries = false ∧
      ∀ s ∈ statuses, s.carries = false → s.severity ≤ w.severity

end LinkStatus

open LinkStatus (WorstOf)

namespace PairFold
variable {f f' : PairFold} {statuses : List LinkStatus} {status : LinkStatus}

/-- One object joins the statuses the fold has seen. -/
theorem Moved.worstOf (h : Moved f f' status) (hf : WorstOf statuses f.worstBad) :
    WorstOf (statuses ++ [status]) f'.worstBad := by
  rw [h.worstBad]
  cases hcarries : status.carries with
  | true =>
    rw [if_pos rfl]
    cases hworst : f.worstBad with
    | none =>
      rw [hworst] at hf
      intro s hs
      rcases List.mem_append.1 hs with hs | hs
      · exact hf s hs
      · rwa [List.mem_singleton.1 hs]
    | some w =>
      rw [hworst] at hf
      obtain ⟨hmem, hbad, hmax⟩ := hf
      refine ⟨List.mem_append_left _ hmem, hbad, fun s hs hsbad => ?_⟩
      rcases List.mem_append.1 hs with hs | hs
      · exact hmax s hs hsbad
      · rw [List.mem_singleton.1 hs, hcarries] at hsbad
        cases hsbad
  | false =>
    rw [if_neg (by decide)]
    cases hworst : f.worstBad with
    | none =>
      rw [hworst] at hf
      refine ⟨by simp, hcarries, fun s hs hsbad => ?_⟩
      rcases List.mem_append.1 hs with hs | hs
      · rw [hf s hs] at hsbad
        cases hsbad
      · exact le_of_eq (congrArg LinkStatus.severity (List.mem_singleton.1 hs))
    | some w =>
      rw [hworst] at hf
      obtain ⟨hmem, hbad, hmax⟩ := hf
      rw [Option.elim_some]
      refine ⟨?_, ?_, fun s hs hsbad => ?_⟩
      · unfold LinkStatus.worst
        split
        · exact List.mem_append_left _ hmem
        · exact List.mem_append_right _ (List.mem_singleton_self _)
      · unfold LinkStatus.worst
        split
        · exact hbad
        · exact hcarries
      · rw [LinkStatus.severity_worst]
        rcases List.mem_append.1 hs with hs | hs
        · exact le_max_of_le_left (hmax s hs hsbad)
        · exact le_max_of_le_right (le_of_eq (congrArg LinkStatus.severity
            (List.mem_singleton.1 hs)))

/-- A loop keeps the worst of what it has seen. -/
theorem foldl_worstOf {step : PairFold → LinkOutcome → PairFold}
    (hstep : ∀ f o, Moved f (step f o) o.status) : ∀ {os : List LinkOutcome} {f : PairFold}
      {statuses : List LinkStatus}, WorstOf statuses f.worstBad →
        WorstOf (statuses ++ os.map LinkOutcome.status) (os.foldl step f).worstBad
  | [], f, statuses, hf => by simpa using hf
  | o :: os, f, statuses, hf => by
    have hrest := @foldl_worstOf _ hstep os _ _ ((hstep f o).worstOf hf)
    rwa [List.append_assoc, List.singleton_append] at hrest

end PairFold

section Pairs
variable {ev : Evidence} {work work' : PairWork}

/-- What the links and routes of a pair are classified as. -/
def PairWork.statuses (ev : Evidence) (work : PairWork) : List LinkStatus :=
  work.links.map (fun link => (classifyLink ev link).status) ++
    work.routes.map fun route => (classifyRoute ev route).status

/-- The worst of the bad paths, read off the statuses. -/
theorem pairFold_worstOf : WorstOf (work.statuses ev) (pairFold ev work).worstBad := by
  have hlinks : WorstOf ([] ++ (work.links.map (classifyLink ev)).map LinkOutcome.status)
      ((work.links.map (classifyLink ev)).foldl PairFold.addLink {}).worstBad :=
    PairFold.foldl_worstOf PairFold.addLink_moved nofun
  have hroutes := @PairFold.foldl_worstOf _ PairFold.addRoute_moved
    (work.routes.map (classifyRoute ev)) _ _ hlinks
  rwa [List.nil_append, List.map_map, List.map_map] at hroutes

/-- Nothing is ever judged unsupported. -/
theorem citedRoute_supported {link : LinkRecord} {status : LinkStatus} {reason : Reason}
    (h : citedRoute ev link = some (status, reason)) : status ≠ .unsupported := by
  unfold citedRoute at h
  split at h
  · cases h
  split at h
  · cases h
    nofun
  split at h
  · cases h
    nofun
  split at h <;> cases h
  nofun

/-- A domain's fate is not `unsupported`. -/
theorem domainFate_supported {link : LinkRecord} {status : LinkStatus} {capacity : UInt64}
    {reason : Reason} (h : domainFate ev link = some (status, capacity, reason)) :
    status ≠ .unsupported := by
  unfold domainFate at h
  split at h
  · cases h
  split at h
  · cases h
  split at h
  · cases h
    nofun
  split at h <;> cases h
  nofun

/-- No link is `unsupported`. -/
theorem classifyLink_supported {link : LinkRecord} :
    (classifyLink ev link).status ≠ .unsupported := by
  unfold classifyLink
  dsimp only
  split
  swap
  · nofun
  iterate 6
    split
    · nofun
  split
  · nofun
  split
  · next status reason hcited => exact citedRoute_supported hcited
  split
  · next status capacity reason hfate => exact domainFate_supported hfate
  split <;> nofun

/-- No route is `unsupported`. -/
theorem classifyRoute_supported {route : RouteEvidence} :
    (classifyRoute ev route).status ≠ .unsupported := by
  unfold classifyRoute
  dsimp only
  split
  · nofun
  split
  · nofun
  split
  · nofun
  split
  · next status reason hhops =>
    rcases classifyHops_some hhops with rfl | rfl <;> nofun
  · nofun

/-- No path of a pair is `unsupported`. -/
theorem supported_of_mem {status : LinkStatus} (h : status ∈ work.statuses ev) :
    status ≠ .unsupported := by
  rcases List.mem_append.1 h with h | h
  · obtain ⟨link, -, rfl⟩ := List.mem_map.1 h
    exact classifyLink_supported
  · obtain ⟨route, -, rfl⟩ := List.mem_map.1 h
    exact classifyRoute_supported

/-- A pair is carried when one of its paths carries. -/
theorem carried_iff : Carried ev work ↔ ∃ s ∈ work.statuses ev, s.carries = true := by
  simp only [Carried, PairWork.statuses, List.mem_append, List.mem_map]
  constructor
  · rintro (⟨link, hlink, hcarries⟩ | ⟨route, hroute, hcarries⟩)
    · exact ⟨_, .inl ⟨link, hlink, rfl⟩, hcarries⟩
    · exact ⟨_, .inr ⟨route, hroute, rfl⟩, hcarries⟩
  · rintro ⟨s, ⟨link, hlink, rfl⟩ | ⟨route, hroute, rfl⟩, hcarries⟩
    · exact .inl ⟨link, hlink, hcarries⟩
    · exact .inr ⟨route, hroute, hcarries⟩

/-- The pair mixes resource classes: two links that feed it do, or one does with the leading
route. -/
def PairWork.Mixes (ev : Evidence) (work : PairWork) : Prop :=
  ∃ link ∈ work.links, linkFeeds ev link = true ∧
    ((∃ link' ∈ work.links, linkFeeds ev link' = true ∧ link.resource ≠ link'.resource) ∨
      ∃ lead ∈ leadingRoute ev work.routes, link.resource ≠ lead.resource)

/-- Resources are mixed when the feeding links disagree, or a route disagrees with them. -/
theorem pairFold_mixes : (pairFold ev work).mixedResources = true ↔ work.Mixes ev := by
  rw [pairFold_mixed]
  simp only [mem_directResources]
  constructor
  · rintro (⟨_, ⟨link, hlink, hfeeds, rfl⟩, _, ⟨link', hlink', hfeeds', rfl⟩, hne⟩ |
      ⟨lead, hlead, _, ⟨link, hlink, hfeeds, rfl⟩, hne⟩)
    · exact ⟨link, hlink, hfeeds, .inl ⟨link', hlink', hfeeds', hne⟩⟩
    · exact ⟨link, hlink, hfeeds, .inr ⟨lead, hlead, hne⟩⟩
  · rintro ⟨link, hlink, hfeeds, ⟨link', hlink', hfeeds', hne⟩ | ⟨lead, hlead, hne⟩⟩
    · exact .inl ⟨_, ⟨link, hlink, hfeeds, rfl⟩, _, ⟨link', hlink', hfeeds', rfl⟩, hne⟩
    · exact .inr ⟨lead, hlead, _, ⟨link, hlink, hfeeds, rfl⟩, hne⟩

/-- The pair is shut: it mixes resource classes, or nothing carries its traffic and something is
blocked or in conflict, or stale with nothing unknown beside it. -/
inductive PairWork.Shut (ev : Evidence) (work : PairWork) : Prop
  | mixed (mixes : work.Mixes ev)
  | blocked (idle : ¬ Carried ev work) {s : LinkStatus} (mem : s ∈ work.statuses ev)
    (bad : s = .blocked ∨ s = .conflicting)
  | stale (idle : ¬ Carried ev work) (mem : .stale ∈ work.statuses ev)
    (settled : .indeterminate ∉ work.statuses ev)

/-- The worst status of a pair that carries nothing is one that fences just when the pair is
shut. -/
theorem worst_fenced {w : LinkStatus} (hidle : ¬ Carried ev work)
    (hworst : WorstOf (work.statuses ev) (some w)) : w.fenced = true ↔
      (∃ s ∈ work.statuses ev, s = .blocked ∨ s = .conflicting) ∨
        .stale ∈ work.statuses ev ∧ .indeterminate ∉ work.statuses ev := by
  obtain ⟨hmem, hbad, hmax⟩ := hworst
  have hsupported := supported_of_mem hmem
  have hunknown : ∀ s ∈ work.statuses ev, s.severity ≤ w.severity := fun s hs =>
    hmax s hs (Bool.not_eq_true _ ▸ fun hcarries => hidle (carried_iff.2 ⟨s, hs, hcarries⟩))
  cases w with
  | usable => cases hbad
  | degraded => cases hbad
  | unsupported => exact absurd rfl hsupported
  | stale =>
    refine iff_of_true rfl (.inr ⟨hmem, fun hmem' => ?_⟩)
    exact absurd (hunknown _ hmem') (by decide)
  | blocked => exact iff_of_true rfl (.inl ⟨_, hmem, .inl rfl⟩)
  | conflicting => exact iff_of_true rfl (.inl ⟨_, hmem, .inr rfl⟩)
  | indeterminate =>
    refine iff_of_false nofun ?_
    rintro (⟨s, hs, rfl | rfl⟩ | ⟨-, hsettled⟩)
    · exact absurd (hunknown _ hs) (by decide)
    · exact absurd (hunknown _ hs) (by decide)
    · exact hsettled hmem

/-- The verdict on a pair is one that fences it just when the pair is shut. -/
theorem judgePair_fenced (h : judgePair ev work = .ok work') :
    work'.verdict.status.fenced = true ↔ work.Shut ev := by
  unfold judgePair at h
  obtain ⟨verdict, hverdict, h⟩ := bind_eq_ok.1 h
  rw [pure_eq_ok] at h
  subst h
  unfold PairFold.conclude at hverdict
  split at hverdict
  · next hmixed =>
    cases hverdict
    exact iff_of_true rfl (.mixed (pairFold_mixes.1 hmixed))
  next hmixed =>
  have hsingle : ¬ work.Mixes ev := mt pairFold_mixes.2 hmixed
  split at hverdict
  · next hseen =>
    have hcarried := pairFold_seen.1 hseen
    split at hverdict
    · cases hverdict
    · cases hverdict
      refine iff_of_false ?_ ?_
      · dsimp only
        split <;> nofun
      · rintro (hmixes | ⟨hidle, -, -⟩ | ⟨hidle, -, -⟩)
        · exact hsingle hmixes
        · exact hidle hcarried
        · exact hidle hcarried
  next hunseen =>
  have hidle : ¬ Carried ev work := mt pairFold_seen.2 hunseen
  have hworst := @pairFold_worstOf ev work
  split at hverdict
  · next status hsome =>
    cases hverdict
    rw [hsome] at hworst
    refine (worst_fenced hidle hworst).trans ⟨?_, ?_⟩
    · rintro (⟨s, hs, hbad⟩ | ⟨hstale, hsettled⟩)
      · exact .blocked hidle hs hbad
      · exact .stale hidle hstale hsettled
    · rintro (hmixes | ⟨-, hs, hbad⟩ | ⟨-, hstale, hsettled⟩)
      · exact absurd hmixes hsingle
      · exact .inl ⟨_, hs, hbad⟩
      · exact .inr ⟨hstale, hsettled⟩
  · next hnone =>
    cases hverdict
    rw [hnone] at hworst
    have hnothing {s : LinkStatus} (hs : s ∈ work.statuses ev) : False :=
      hidle (carried_iff.2 ⟨s, hs, hworst s hs⟩)
    refine iff_of_false nofun ?_
    rintro (hmixes | ⟨-, hs, -⟩ | ⟨-, hs, -⟩)
    · exact hsingle hmixes
    · exact hnothing hs
    · exact hnothing hs

end Pairs

/-! ## Fences of pairs -/

/-- The name under which a pair is fenced. -/
def PairKey.name (key : PairKey) : Text := (ofLex key).1.token ++ [46] ++ (ofLex key).2.token

/-- The decision of the route is gone. -/
def RouteEvidence.gone (route : RouteEvidence) : Prop :=
  route.state = .withdrawn ∨ route.state = .failed

/-- A pair of that name is shut. -/
def ShutAs (ev : Evidence) (subject : Text) : Prop :=
  ∃ key ∈ collectedPairs ev, key.name = subject ∧ (newPair ev.snapshot key).Shut ev

section Fences
variable {request : CompositionRequest} {p : Passes} {subject : Text}

/-- The judgement on a pair names the racks and keeps the routes of the pair. -/
theorem judgePair_keeps {ev : Evidence} {work work' : PairWork}
    (h : judgePair ev work = .ok work') :
    work'.verdict.source = (ofLex work.key).1 ∧ work'.verdict.target = (ofLex work.key).2 ∧
      work'.routes = work.routes := by
  unfold judgePair at h
  obtain ⟨verdict, hverdict, h⟩ := bind_eq_ok.1 h
  rw [pure_eq_ok] at h
  subst h
  obtain ⟨hsource, htarget⟩ := conclude_ends hverdict
  exact ⟨hsource, htarget, rfl⟩

/-- A fence of a link or of a route is one of a pair. -/
theorem mem_path_fences {fence : FenceAction} (hkind : fence.kind = .link ∨ fence.kind = .route) :
    fence ∈ p.draft.finalise.fences ↔ ∃ work ∈ p.findings.pairs, fence ∈ pairFences work := by
  rw [mem_finalise_fences]
  refine ⟨?_, fun h => .inr (.inr (.inl h))⟩
  have hother {kind : FenceKind} (hfence : fence.kind = kind) (hne : kind ≠ .link ∧ kind ≠ .route) :
      False := by
    rcases hkind with h | h
    · exact hne.1 (hfence.symm.trans h)
    · exact hne.2 (hfence.symm.trans h)
  rintro (hmember | hdomain | hpair | htoken | hpod)
  · exact (hother (mem_memberFences hmember).1 (by decide)).elim
  · exact (hother (mem_domainFences hdomain).1 (by decide)).elim
  · exact hpair
  · exact (hother (tokenFences_kind htoken) (by decide)).elim
  · exact (hother (podFences_kind hpod) (by decide)).elim

/-- A fence of a link is one of a pair that is shut. -/
theorem PassesOf.fences_link (h : PassesOf request p) :
    p.draft.finalise.Fences .link subject ↔ ShutAs p.findings.toEvidence subject := by
  constructor
  · rintro ⟨fence, hfence, hkind, rfl⟩
    obtain ⟨work, hwork, hpair⟩ := (mem_path_fences (.inl hkind)).1 hfence
    rcases mem_pairFences hpair with ⟨-, hstatus, hsubject⟩ | ⟨hroute, -⟩
    · obtain ⟨key, hkey, hjudge⟩ := mapM_mem h.pairs work hwork
      obtain ⟨hsource, htarget, -⟩ := judgePair_keeps hjudge
      refine ⟨key, hkey, ?_, (judgePair_fenced hjudge).1 hstatus⟩
      rw [hsubject, hsource, htarget]
      rfl
    · cases hkind.symm.trans hroute
  · rintro ⟨key, hkey, rfl, hshut⟩
    obtain ⟨work, hwork, hjudge⟩ := mapM_covers h.pairs key hkey
    obtain ⟨hsource, htarget, -⟩ := judgePair_keeps hjudge
    have hstatus : work.verdict.status = .stale ∨ work.verdict.status = .blocked ∨
        work.verdict.status = .conflicting := by
      simpa [LinkStatus.fenced] using (judgePair_fenced hjudge).2 hshut
    have hfence : ⟨.link, key.name, work.verdict.reasons.head?.getD
        ⟨.noUsablePath, "the rack pair is not usable"⟩⟩ ∈ pairFences work := by
      refine List.mem_append_left _ ?_
      rw [if_pos hstatus, hsource, htarget]
      exact List.mem_singleton_self _
    exact ⟨_, (mem_path_fences (.inl rfl)).2 ⟨work, hwork, hfence⟩, rfl, rfl⟩

/-- A fence of a route that serves a pair tells that the route is gone. -/
theorem PassesOf.fences_route (h : PassesOf request p)
    (hrefs : (request.snapshot.routes.map RouteEvidence.ref).Nodup) {route : RouteEvidence}
    (hroute : route ∈ request.snapshot.routes) {key : PairKey}
    (hkey : key ∈ collectedPairs p.findings.toEvidence) (hserves : key ∈ routePairs route) :
    p.draft.finalise.Fences .route route.ref.token ↔ route.gone := by
  constructor
  · rintro ⟨fence, hfence, hkind, hsubject⟩
    obtain ⟨work, hwork, hpair⟩ := (mem_path_fences (.inr hkind)).1 hfence
    rcases mem_pairFences hpair with ⟨hlink, -⟩ | ⟨-, route', hroute', hgone, hnamed⟩
    · cases hkind.symm.trans hlink
    · obtain ⟨key', -, hjudge⟩ := mapM_mem h.pairs work hwork
      rw [(judgePair_keeps hjudge).2.2, newPair, h.snapshot] at hroute'
      have href : route'.ref = route.ref := BasicId.token_injective (hnamed.symm.trans hsubject)
      obtain rfl : route' = route :=
        List.inj_on_of_nodup_map hrefs (List.mem_filter.1 hroute').1 hroute href
      exact hgone
  · intro hgone
    obtain ⟨work, hwork, hjudge⟩ := mapM_covers h.pairs key hkey
    have hmem : route ∈ work.routes := by
      rw [(judgePair_keeps hjudge).2.2, newPair, h.snapshot]
      exact List.mem_filter.2 ⟨hroute, decide_eq_true hserves⟩
    have hfence : ⟨.route, route.ref.token,
        ⟨.routeWithdrawn, "the routing decision is no longer installed"⟩⟩ ∈ pairFences work :=
      List.mem_append_right _ (List.mem_map_of_mem (List.mem_filter.2 ⟨hmem, decide_eq_true hgone⟩))
    exact ⟨_, (mem_path_fences (.inr rfl)).2 ⟨work, hwork, hfence⟩, rfl, rfl⟩

/-- The pair of two racks that a route serves gets a verdict. -/
theorem PassesOf.route_collected (h : PassesOf request p) {route : RouteEvidence}
    (hroute : route ∈ request.snapshot.routes) {key : PairKey} (hserves : key ∈ routePairs route)
    (hproper : key.proper = true) : key ∈ collectedPairs p.findings.toEvidence := by
  unfold collectedPairs
  rw [mem_canonicalise, List.mem_filter, h.snapshot]
  refine ⟨List.mem_append_left _ (List.mem_append_right _ ?_), hproper⟩
  exact List.mem_flatMap.2 ⟨route, hroute, hserves⟩

end Fences

/-! ## The result -/

/-- Every link and route that is judged bad is fenced, as its pair or, if it is a route, by
itself. -/
structure PodState.FencesBadPaths (st : PodState) (ev : Evidence) : Prop where
  links : ∀ link ∈ ev.snapshot.links,
    (classifyLink ev link).status ∈ [.stale, .conflicting, .blocked] →
      st.Fences .link (linkPair link).name
  routes : ∀ route ∈ ev.snapshot.routes, (classifyRoute ev route).status ∈ [.stale, .blocked] →
    ∀ key ∈ routePairs route, key.proper = true →
      st.Fences .link key.name ∨ st.Fences .route route.ref.token

/-- **Bad links and routes are fenced just when the pair of each, or one of its name, is shut or the
route is gone.** -/
theorem bad_paths_fenced_iff {request : CompositionRequest} {st : PodState} {p : Passes}
    (h : compose request = .ok st) (hp : runPasses request = .ok p) :
    st.FencesBadPaths p.findings.toEvidence ↔
      (∀ link ∈ request.snapshot.links,
        (classifyLink p.findings.toEvidence link).status ∈ [.stale, .conflicting, .blocked] →
          ShutAs p.findings.toEvidence (linkPair link).name) ∧
      ∀ route ∈ request.snapshot.routes,
        (classifyRoute p.findings.toEvidence route).status ∈ [.stale, .blocked] →
          ∀ key ∈ routePairs route, key.proper = true →
            ShutAs p.findings.toEvidence key.name ∨ route.gone := by
  have hrefs := (validate_request_iff.1 (compose_eq_ok.1 h).1).1.routeRefs
  obtain ⟨p', hp', hpasses, rfl⟩ := compose_passesOf h
  obtain rfl : p' = p := Except.ok.inj (hp'.symm.trans hp)
  have hroute {route : RouteEvidence} (hin : route ∈ request.snapshot.routes) {key : PairKey}
      (hserves : key ∈ routePairs route) (hproper : key.proper = true) :
      (p'.draft.finalise.Fences .link key.name ∨ p'.draft.finalise.Fences .route route.ref.token) ↔
        ShutAs p'.findings.toEvidence key.name ∨ route.gone := by
    rw [hpasses.fences_link,
      hpasses.fences_route hrefs hin (hpasses.route_collected hin hserves hproper) hserves]
  constructor
  · rintro ⟨hlinks, hroutes⟩
    rw [hpasses.snapshot] at hlinks hroutes
    refine ⟨fun link hin hbad => hpasses.fences_link.1 (hlinks link hin hbad), ?_⟩
    exact fun route hin hbad key hserves hproper =>
      (hroute hin hserves hproper).1 (hroutes route hin hbad key hserves hproper)
  · rintro ⟨hlinks, hroutes⟩
    rw [← hpasses.snapshot] at hlinks
    refine ⟨fun link hin hbad => hpasses.fences_link.2 (hlinks link hin hbad), ?_⟩
    rw [hpasses.snapshot]
    exact fun route hin hbad key hserves hproper =>
      (hroute hin hserves hproper).2 (hroutes route hin hbad key hserves hproper)

namespace Sample

/-- A second link between the racks of the sample pod, which is down. -/
def downLink : LinkRecord := { link with id := idOf "down", oper := .down }

/-- The sample pod with the link that is down beside the one that is up. -/
def paralleled : CompositionRequest where
  snapshot := { snapshot with links := [link, downLink] }

/-- The sample pod with the link that is down as its only one. -/
def severed : CompositionRequest where
  snapshot := { snapshot with links := [downLink] }

end Sample

/-- The link that is down is judged bad, and its pair is fenced. -/
theorem sample_bad_paths : ∃ st p, compose Sample.severed = .ok st ∧
    runPasses Sample.severed = .ok p ∧ st.FencesBadPaths p.findings.toEvidence ∧
      (classifyLink p.findings.toEvidence Sample.downLink).status = .blocked := by
  have hrun : (runPasses Sample.severed).toOption.map (fun p =>
      ((newPair p.findings.snapshot (linkPair Sample.downLink)).statuses p.findings.toEvidence,
        collectedPairs p.findings.toEvidence,
        (classifyLink p.findings.toEvidence Sample.downLink).status)) =
      some ([.blocked], [linkPair Sample.downLink], .blocked) := by decide +kernel
  have hcomposed : (compose Sample.severed).toOption.map (fun st => st.fences.length) = some 1 := by
    decide +kernel
  obtain ⟨st, hst, -⟩ := composed_of_map hcomposed
  obtain ⟨p, hp, -⟩ := compose_passesOf hst
  rw [hp] at hrun
  obtain ⟨hstatuses, hrest⟩ := Prod.mk.inj (Option.some.inj hrun)
  obtain ⟨hcollected, hdown⟩ := Prod.mk.inj hrest
  refine ⟨st, p, hst, hp, (bad_paths_fenced_iff hst hp).2 ⟨?_, ?_⟩, hdown⟩
  · intro link hlink _
    obtain rfl := List.mem_singleton.1 hlink
    refine ⟨linkPair Sample.downLink, ?_, rfl, .blocked ?_ (s := .blocked) ?_ (.inl rfl)⟩
    · rw [hcollected]
      exact List.mem_singleton_self _
    · intro hcarried
      obtain ⟨s, hs, hcarries⟩ := carried_iff.1 hcarried
      rw [hstatuses, List.mem_singleton] at hs
      subst hs
      cases hcarries
    · rw [hstatuses]
      exact List.mem_singleton_self _
  · intro route hroute
    cases hroute

/-- A link that is down is not fenced beside one that is up. -/
theorem paralleled_unfenced : ¬ ∀ request st p, compose request = .ok st →
    runPasses request = .ok p → st.FencesBadPaths p.findings.toEvidence := by
  intro hclaim
  have hrun : (compose Sample.paralleled).toOption.map (fun st => st.fences) = some [] := by
    decide +kernel
  have hjudged : (runPasses Sample.paralleled).toOption.map (fun p =>
      (classifyLink p.findings.toEvidence Sample.downLink).status) = some .blocked := by
    decide +kernel
  obtain ⟨st, hst, hview⟩ := composed_of_map hrun
  obtain ⟨p, hp, hpasses, -⟩ := compose_passesOf hst
  rw [hp] at hjudged
  have hin : Sample.downLink ∈ p.findings.snapshot.links := by
    rw [hpasses.snapshot]
    exact List.mem_cons_of_mem _ (List.mem_singleton_self _)
  have hbad : (classifyLink p.findings.toEvidence Sample.downLink).status ∈
      [LinkStatus.stale, .conflicting, .blocked] := by
    have hblocked : (classifyLink p.findings.toEvidence Sample.downLink).status = .blocked :=
      Option.some.inj hjudged
    rw [hblocked]
    decide
  obtain ⟨fence, hfence, -⟩ := (hclaim _ st p hst hp).links _ hin hbad
  rw [hview] at hfence
  cases hfence

end PodFabric
