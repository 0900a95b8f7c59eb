import PodFabric.Engine.Timing
import PodFabric.Proof.Connectivity

/-!
# Differences of times

The age of a piece of evidence and the beginning of a lease are differences of times that come from
outside. They are formed without the check that the repository has for them, and any times are
admitted. A composition over exact times follows the composition itself as long as no difference
that it forms overflows (`Timely`), and which times a composition forms differences of is read off
its inputs: those of `Tests` and `Begins`, which have to be close enough (`exact_times_iff`).
-/

namespace PodFabric

/-! ## Subtraction -/

/-- Subtraction of times that reports an overflow (`checked_sub`). -/
def checkedSubNanos (a b : Nanos) : Result Nanos :=
  if b < 0 ∧ Int64.maxValue + b < a then fail .invalid "checked_sub: signed overflow"
  else if 0 < b ∧ a < Int64.minValue + b then fail .invalid "checked_sub: signed underflow"
  else .ok (a - b)

section Subtraction
variable {a b : Nanos}

/-- A difference that is representable is computed exactly. -/
theorem toInt_sub_of_representable (h : Representable (a.toInt - b.toInt)) :
    (a - b).toInt = a.toInt - b.toInt := by
  rw [Int64.toInt_sub]
  exact Int.bmod_eq_of_le h.1 h.2

/-- A sum that is representable is computed exactly. -/
theorem toInt_add_of_representable (h : Representable (a.toInt + b.toInt)) :
    (a + b).toInt = a.toInt + b.toInt := by
  rw [Int64.toInt_add]
  exact Int.bmod_eq_of_le h.1 h.2

/-- The test for a difference above the range. -/
theorem sub_over : (b < 0 ∧ Int64.maxValue + b < a) ↔ 2 ^ 63 ≤ a.toInt - b.toInt := by
  have hmax : Int64.maxValue.toInt = 2 ^ 63 - 1 := by decide
  have hb := b.le_toInt
  have ha := a.toInt_lt
  simp only [Int64.lt_iff_toInt_lt, Int64.toInt_zero]
  constructor
  · rintro ⟨hneg, hover⟩
    rw [toInt_add_of_representable ⟨by omega, by omega⟩, hmax] at hover
    omega
  · intro hover
    rw [toInt_add_of_representable ⟨by omega, by omega⟩, hmax]
    omega

/-- The test for a difference below the range. -/
theorem sub_under : (0 < b ∧ a < Int64.minValue + b) ↔ a.toInt - b.toInt < -2 ^ 63 := by
  have hmin : Int64.minValue.toInt = -2 ^ 63 := by decide
  have hb := b.toInt_lt
  have ha := a.le_toInt
  simp only [Int64.lt_iff_toInt_lt, Int64.toInt_zero]
  constructor
  · rintro ⟨hpos, hunder⟩
    rw [toInt_add_of_representable ⟨by omega, by omega⟩, hmin] at hunder
    omega
  · intro hunder
    rw [toInt_add_of_representable ⟨by omega, by omega⟩, hmin]
    omega

end Subtraction

/-! ## Computations over exact times -/

section Following
variable {α β : Type} {x : Timed α} {y : Outcome α} {c d : Prop}

/-- The computation over exact times is the plain one as long as the condition holds, and stops at a
difference that overflows otherwise. -/
structure Timely (c : Prop) (x : Timed α) (y : Outcome α) : Prop where
  same : c → x = y.timed
  stops : ¬ c → x = .error .overflow

/-- An outcome that leaves no range stays within it. -/
theorem Outcome.timed_ne_overflow : y.timed ≠ .error .overflow := by
  cases y <;> simp [Outcome.timed]

/-- A timed computation follows exactly under its condition. -/
theorem Timely.iff (h : Timely c x y) : x = y.timed ↔ c := by
  refine ⟨fun heq => ?_, h.same⟩
  by_contra hc
  exact Outcome.timed_ne_overflow (heq.symm.trans (h.stops hc))

/-- The condition may be replaced by an equivalent one. -/
theorem Timely.congr (h : Timely c x y) (hiff : c ↔ d) : Timely d x y :=
  ⟨fun hd => h.same (hiff.2 hd), fun hd => h.stops fun hc => hd (hiff.1 hc)⟩

/-- What forms no difference goes on as it is. -/
theorem Timely.timed : Timely True y.timed y := ⟨fun _ => rfl, fun h => absurd trivial h⟩

/-- Returning a value needs no condition. -/
theorem Timely.ok {a : α} : Timely True (.ok a : Timed α) (.ok a) := .timed (y := .ok a)

/-- Timed computations in turn: the second's condition is asked of what the first returns. -/
theorem Timely.bind {f : α → Timed β} {g : α → Outcome β} {e : α → Prop} (h : Timely c x y)
    (hf : ∀ a, y = .ok a → Timely (e a) (f a) (g a)) :
    Timely (c ∧ ∀ a, y = .ok a → e a) (x >>= f) (y >>= g) := by
  refine ⟨fun ⟨hc, he⟩ => ?_, fun hnot => ?_⟩
  · rw [h.same hc]
    cases y with
    | error fault => rfl
    | ok a => exact (hf a rfl).same (he a rfl)
  · by_cases hc : c
    · rw [h.same hc]
      cases y with
      | error fault => exact absurd ⟨hc, fun a ha => by cases ha⟩ hnot
      | ok a =>
        refine (hf a rfl).stops fun he => hnot ⟨hc, fun a' ha' => ?_⟩
        cases ha'
        exact he
    · rw [h.stops hc]
      rfl

/-- A loop meets the condition of every element it comes to. -/
theorem Timely.mapM {f : α → Timed β} {g : α → Outcome β} {e : α → Prop} {l : List α}
    (hf : ∀ a ∈ l, Timely (e a) (f a) (g a)) :
    Timely (∀ front a back, l = front ++ a :: back → (∀ b ∈ front, (g b).isOk = true) → e a)
      (l.mapM f) (l.mapM g) := by
  induction l with
  | nil => exact Timely.ok.congr ⟨fun _ front a back h => by simp at h, fun _ => trivial⟩
  | cons a l ih =>
    rw [List.forall_mem_cons] at hf
    rw [List.mapM_cons, List.mapM_cons]
    refine (hf.1.bind fun b hb => (ih hf.2).bind fun bs hbs => .ok).congr ?_
    constructor
    · rintro ⟨ha, hl⟩ front a' back heq hok
      cases front with
      | nil =>
        rw [List.nil_append, List.cons.injEq] at heq
        exact heq.1 ▸ ha
      | cons b front =>
        rw [List.cons_append, List.cons.injEq] at heq
        rw [List.forall_mem_cons, ← heq.1] at hok
        cases hga : g a with
        | error fault =>
          rw [hga] at hok
          cases hok.1
        | ok b' => exact (hl b' hga).1 front a' back heq.2 hok.2
    · intro h
      refine ⟨h [] a l rfl (by simp), fun b hb =>
        ⟨fun front a' back heq hok => ?_, fun _ _ => trivial⟩⟩
      refine h (a :: front) a' back (by rw [heq, List.cons_append]) ?_
      rw [List.forall_mem_cons, hb]
      exact ⟨rfl, hok⟩

end Following

/-- A timed computation over a list follows when it does for each element. -/
theorem Timely.map {α β : Type} {f : α → Timed β} {g : α → β} {e : α → Prop} {l : List α}
    (hf : ∀ a ∈ l, Timely (e a) (f a) (.ok (g a))) :
    Timely (∀ a ∈ l, e a) (l.mapM f) (.ok (l.map g)) := by
  induction l with
  | nil => exact Timely.ok.congr ⟨fun _ a h => by simp at h, fun _ => trivial⟩
  | cons a l ih =>
    rw [List.forall_mem_cons] at hf
    have hbind := hf.1.bind (f := fun b => l.mapM f >>= fun bs => pure (b :: bs))
      (g := fun b => .ok (b :: l.map g)) fun b _ => (ih hf.2).bind
        (f := fun bs => pure (b :: bs)) (g := fun bs => .ok (b :: bs)) fun bs _ => Timely.ok
    rw [List.mapM_cons, List.map_cons]
    refine hbind.congr ?_
    rw [List.forall_mem_cons]
    refine and_congr_right fun _ => ⟨fun h => (h _ rfl).1, fun h b _ => ⟨h, fun _ _ => trivial⟩⟩

/-! ## The tests -/

/-- An age that is formed of the times is a value of 64 bits. -/
def Datable (policy : Policy) (evaluatedAt observed : Nanos) : Prop :=
  observed ≠ 0 → 0 < policy.evidenceTtl → Representable (evaluatedAt.toInt - observed.toInt)

/-- A link whose freshness is tested: between established racks with usable health, enabled, of
known state and not down, and observed at the generations of its racks. -/
structure LinkTimed (ev : Evidence) (link : LinkRecord) : Prop where
  a : ∃ work, findMember ev.members link.a.rack = some work ∧ work.established = true ∧
    work.connectivityUsable = true ∧ link.aGeneration = work.verdict.generation
  b : ∃ work, findMember ev.members link.b.rack = some work ∧ work.established = true ∧
    work.connectivityUsable = true ∧ link.bGeneration = work.verdict.generation
  enabled : link.admin = .enabled
  notDown : link.oper ≠ .down
  known : link.oper ≠ .unknown

/-- A token whose beginning is tested: of the pod, with a window, not revoked, and of the
incarnation and the epoch it is checked against. -/
structure TokenTimed (token : AuthorityToken) (check : AuthorityCheck) : Prop where
  lease : token.lease ≠ .nil
  pod : token.pod ≠ .nil
  window : token.issuedAt < token.expiresAt
  samePod : token.pod = check.pod
  unrevoked : token.lease ∉ check.revoked
  sameIncarnation : token.incarnation = check.incarnation
  sameEpoch : token.epoch = check.epoch

section Tests
variable {policy : Policy} {evaluatedAt observed : Nanos} {ev : Evidence} {link : LinkRecord}
  {route : RouteEvidence} {token : AuthorityToken} {check : AuthorityCheck} {a b c : Nanos}

/-- A representable difference is compared as a number. -/
theorem Representable.lt_sub (h : Representable (a.toInt - b.toInt)) :
    c < a - b ↔ c.toInt < a.toInt - b.toInt := by
  rw [Int64.lt_iff_toInt_lt, toInt_sub_of_representable h]

/-- A representable difference is compared as a number. -/
theorem Representable.sub_lt (h : Representable (a.toInt - b.toInt)) :
    a - b < c ↔ a.toInt - b.toInt < c.toInt := by
  rw [Int64.lt_iff_toInt_lt, toInt_sub_of_representable h]

/-- A clock skew that is not negative has a negative. -/
theorem toInt_neg_skew (hskew : 0 ≤ policy.clockSkew) :
    (-policy.clockSkew).toInt = -policy.clockSkew.toInt := by
  rw [Int64.le_iff_toInt_le, Int64.toInt_zero] at hskew
  have hbound := policy.clockSkew.toInt_lt
  rw [Int64.toInt_neg]
  exact Int.bmod_eq_of_le (by omega) (by omega)

/-- What is done with a difference follows when the difference is representable. -/
theorem difference_follows {α : Type} {f : ℤ → Timed α} {y : Outcome α}
    (hf : Representable (a.toInt - b.toInt) → f (a.toInt - b.toInt) = y.timed) :
    Timely (Representable (a.toInt - b.toInt)) (difference a b >>= f) y := by
  refine ⟨fun h => ?_, fun h => ?_⟩
  · rw [difference, if_pos h]
    exact hf h
  · rw [difference, if_neg h]
    rfl

/-- The freshness of a time is decided as over the integers, unless its age overflows. -/
theorem freshnessTimed_follows (hskew : 0 ≤ policy.clockSkew) :
    Timely (Datable policy evaluatedAt observed) (freshnessTimed policy evaluatedAt observed)
      (.ok (freshness policy evaluatedAt observed)) := by
  unfold freshnessTimed freshness Datable
  split
  · next hnone =>
    refine Timely.ok.congr ⟨fun _ hstamped hlimited => ?_, fun _ => trivial⟩
    rcases hnone with hzero | hlimit
    · exact absurd hzero hstamped
    · exact absurd hlimited (Int64.not_lt.2 hlimit)
  next hsome =>
  push Not at hsome
  refine (difference_follows fun h => ?_).congr
    ⟨fun h _ _ => h, fun h => h hsome.1 hsome.2⟩
  simp only [h.lt_sub, h.sub_lt, toInt_neg_skew hskew]
  split
  · rfl
  split
  · rfl
  · rfl

/-- Judging a record follows when the record is datable. -/
theorem judgeRecordTimed_follows {record : MemberRecord} {work : MemberWork}
    (hskew : 0 ≤ policy.clockSkew) :
    Timely (Datable policy evaluatedAt record.observedAt)
      (judgeRecordTimed policy evaluatedAt record work)
      (.ok (judgeRecord policy evaluatedAt record work)) := by
  have hfresh := @freshnessTimed_follows policy evaluatedAt record.observedAt hskew
  refine ⟨fun h => ?_, fun h => ?_⟩
  · unfold judgeRecordTimed judgeRecord
    rw [hfresh.same h]
    cases freshness policy evaluatedAt record.observedAt with
    | some reason => rfl
    | none =>
      dsimp only [Outcome.timed, bind, Except.bind]
      split
      · rfl
      split
      · rfl
      split
      · rfl
      cases checkGeneration record work.expectation with
      | error rejection => rfl
      | ok adopted =>
        dsimp only
        split
        · rfl
        split
        · rfl
        · rfl
  · unfold judgeRecordTimed
    rw [hfresh.stops h]
    rfl

/-- Only a single record of a rack is tested. -/
theorem evaluateMemberTimed_follows {rack : RackId} {records : List MemberRecord}
    {expectation : Option MemberExpectation} (hskew : 0 ≤ policy.clockSkew) :
    Timely (∀ record, records = [record] → Datable policy evaluatedAt record.observedAt)
      (evaluateMemberTimed policy evaluatedAt rack records expectation)
      (.ok (evaluateMember policy evaluatedAt rack records expectation)) := by
  unfold evaluateMemberTimed evaluateMember
  match records with
  | [] => exact Timely.ok.congr ⟨fun _ record h => (by cases h), fun _ => trivial⟩
  | [record] =>
    exact (judgeRecordTimed_follows hskew).congr
      ⟨fun h record' heq => by cases heq; exact h, fun h => h record rfl⟩
  | _ :: _ :: _ => exact Timely.ok.congr ⟨fun _ record h => (by cases h), fun _ => trivial⟩

/-- A link is judged as over the integers, unless it is tested and its age overflows. -/
theorem classifyLinkTimed_follows (hskew : 0 ≤ ev.policy.clockSkew) :
    Timely (LinkTimed ev link → Datable ev.policy ev.snapshot.observedAt link.observedAt)
      (classifyLinkTimed ev link) (.ok (classifyLink ev link)) := by
  have untested {outcome : LinkOutcome} (h : ¬ LinkTimed ev link) :
      Timely (LinkTimed ev link → Datable ev.policy ev.snapshot.observedAt link.observedAt)
        (.ok outcome) (.ok outcome) :=
    Timely.ok.congr ⟨fun _ ht => absurd ht h, fun _ => trivial⟩
  unfold classifyLinkTimed classifyLink
  dsimp only
  cases ha : findMember ev.members link.a.rack with
  | none =>
    refine untested fun h => ?_
    obtain ⟨work, hwork, -⟩ := h.a
    cases ha.symm.trans hwork
  | some a =>
  cases hb : findMember ev.members link.b.rack with
  | none =>
    refine untested fun h => ?_
    obtain ⟨work, hwork, -⟩ := h.b
    cases hb.symm.trans hwork
  | some b =>
  -- what a link that is tested has of its two racks
  have hends (h : LinkTimed ev link) :
      (a.established = true ∧ a.connectivityUsable = true ∧
        link.aGeneration = a.verdict.generation) ∧
      (b.established = true ∧ b.connectivityUsable = true ∧
        link.bGeneration = b.verdict.generation) := by
    obtain ⟨work, hwork, hheld⟩ := h.a
    obtain ⟨work', hwork', hheld'⟩ := h.b
    rw [ha, Option.some.injEq] at hwork
    rw [hb, Option.some.injEq] at hwork'
    exact ⟨hwork ▸ hheld, hwork' ▸ hheld'⟩
  dsimp only
  split
  · next hnot => exact untested fun h => hnot.elim (· (hends h).1.1) (· (hends h).2.1)
  split
  · next hnot => exact untested fun h => hnot.elim (· (hends h).1.2.1) (· (hends h).2.2.1)
  split
  · next hnot => exact untested fun h => hnot h.enabled
  split
  · next hdown => exact untested fun h => h.notDown hdown
  split
  · next hunknown => exact untested fun h => h.known hunknown
  split
  · next hnot => exact untested fun h => hnot.elim (· (hends h).1.2.2) (· (hends h).2.2.2)
  next hestablished husable henabled hdown hknown hgeneration =>
  push Not at hestablished husable henabled hgeneration
  have htimed : LinkTimed ev link := ⟨⟨a, ha, hestablished.1, husable.1, hgeneration.1⟩,
    ⟨b, hb, hestablished.2, husable.2, hgeneration.2⟩, henabled, hdown, hknown⟩
  have hfresh := @freshnessTimed_follows ev.policy ev.snapshot.observedAt link.observedAt hskew
  refine ⟨fun h => ?_, fun h => ?_⟩
  · rw [hfresh.same (h htimed)]
    cases freshness ev.policy ev.snapshot.observedAt link.observedAt with
    | some reason => rfl
    | none =>
      dsimp only [Outcome.timed, bind, Except.bind]
      cases citedRoute ev link with
      | some cited => rfl
      | none =>
        cases domainFate ev link with
        | some fate => rfl
        | none =>
          dsimp only
          split
          · rfl
          · rfl
  · rw [hfresh.stops fun hd => h fun _ => hd]
    rfl

/-- So is a route. -/
theorem classifyRouteTimed_follows (hskew : 0 ≤ ev.policy.clockSkew) :
    Timely (route.state = .installed →
        Datable ev.policy ev.snapshot.observedAt route.observedAt)
      (classifyRouteTimed ev route) (.ok (classifyRoute ev route)) := by
  unfold classifyRouteTimed classifyRoute
  dsimp only
  split
  · next hgone =>
    refine Timely.ok.congr ⟨fun _ hinstalled => ?_, fun _ => trivial⟩
    rw [hinstalled] at hgone
    simp at hgone
  split
  · next hnot =>
    exact Timely.ok.congr ⟨fun _ hinstalled => absurd hinstalled hnot, fun _ => trivial⟩
  next hinstalled =>
  have hinstalled : route.state = .installed := not_not.1 hinstalled
  have hfresh := @freshnessTimed_follows ev.policy ev.snapshot.observedAt route.observedAt hskew
  refine ⟨fun h => ?_, fun h => ?_⟩
  · rw [hfresh.same (h hinstalled)]
    cases freshness ev.policy ev.snapshot.observedAt route.observedAt with
    | some reason => rfl
    | none =>
      dsimp only [Outcome.timed, bind, Except.bind]
      cases classifyHops ev (route.path.zip route.pathGenerations) with
      | some judged => rfl
      | none => rfl
  · rw [hfresh.stops fun hd => h fun _ => hd]
    rfl

/-- A token is judged as over the integers, unless it is tested and the beginning of its lease
overflows. -/
theorem validateTokenTimed_follows :
    Timely (TokenTimed token check → Representable (token.issuedAt.toInt - check.clockSkew.toInt))
      (validateTokenTimed token check) (.ok (validateToken token check)) := by
  have untested {verdict : AuthorityVerdict} (h : ¬ TokenTimed token check) :
      Timely (TokenTimed token check →
          Representable (token.issuedAt.toInt - check.clockSkew.toInt))
        (.ok verdict) (.ok verdict) :=
    Timely.ok.congr ⟨fun _ ht => absurd ht h, fun _ => trivial⟩
  unfold validateTokenTimed validateToken
  split
  · next hnil => exact untested fun h => hnil.elim h.lease h.pod
  split
  · next hwindow => exact untested fun h => (Int64.not_le.2 h.window) hwindow
  split
  · next hpod => exact untested fun h => hpod h.samePod
  split
  · next hrevoked => exact untested fun h => h.unrevoked hrevoked
  split
  · next hincarnation => exact untested fun h => hincarnation h.sameIncarnation
  split
  · next hepoch => exact untested fun h => hepoch h.sameEpoch
  next hid hwindow hpod hrevoked hincarnation hepoch =>
  push Not at hid hpod hincarnation hepoch
  have htimed : TokenTimed token check :=
    ⟨hid.1, hid.2, Int64.not_le.1 hwindow, hpod, hrevoked, hincarnation, hepoch⟩
  refine (difference_follows fun h => ?_).congr ⟨fun h _ => h, fun h => h htimed⟩
  simp only [h.lt_sub]
  split
  · rfl
  split
  · rfl
  split
  · rfl
  · rfl

end Tests

/-! ## The passes -/

/-- The pairs before this one are all decided. -/
def Inspected (ev : Evidence) (key : PairKey) : Prop :=
  ∀ earlier ∈ collectedPairs ev, earlier < key →
    (judgePair ev (newPair ev.snapshot earlier)).isOk = true

/-- The ages that are formed for a pair are values of 64 bits. -/
structure PairDatable (ev : Evidence) (work : PairWork) : Prop where
  links : ∀ link ∈ work.links, LinkTimed ev link →
    Datable ev.policy ev.snapshot.observedAt link.observedAt
  routes : ∀ route ∈ work.routes, route.state = .installed →
    Datable ev.policy ev.snapshot.observedAt route.observedAt

section Passes
variable {ev : Evidence} {request : CompositionRequest}

/-- Judging a pair follows when the pair is datable. -/
theorem judgePairTimed_follows {work : PairWork} (hskew : 0 ≤ ev.policy.clockSkew) :
    Timely (PairDatable ev work) (judgePairTimed ev work) (judgePair ev work) := by
  have hlinks := Timely.map (l := work.links) fun link _ =>
    @classifyLinkTimed_follows ev link hskew
  have hroutes := Timely.map (l := work.routes) fun route _ =>
    @classifyRouteTimed_follows ev route hskew
  refine (hlinks.bind fun links _ => hroutes.bind fun routes _ =>
    Timely.timed.bind fun verdict _ => Timely.ok).congr ?_
  constructor
  · rintro ⟨hl, hr⟩
    exact ⟨hl, (hr _ rfl).1⟩
  · rintro ⟨hl, hr⟩
    exact ⟨hl, fun _ _ => ⟨hr, fun _ _ => ⟨trivial, fun _ _ => trivial⟩⟩⟩

/-- The connectivity follows when every pair that is looked at is datable. -/
theorem evaluateConnectivityTimed_follows (hskew : 0 ≤ ev.policy.clockSkew) :
    Timely (∀ key ∈ collectedPairs ev, Inspected ev key →
        PairDatable ev (newPair ev.snapshot key))
      (evaluateConnectivityTimed ev) (evaluateConnectivity ev) := by
  have hsorted : (collectedPairs ev).Pairwise (· < ·) := canonicalise_pairwise _
  refine (Timely.mapM fun key _ => judgePairTimed_follows hskew).congr ?_
  constructor
  · intro h key hkey hinspected
    obtain ⟨front, back, heq⟩ := List.append_of_mem hkey
    refine h front key back heq fun earlier hearlier => hinspected earlier ?_ ?_
    · rw [heq]
      exact List.mem_append_left _ hearlier
    · rw [heq, List.pairwise_append] at hsorted
      exact hsorted.2.2 earlier hearlier key List.mem_cons_self
  · intro h front key back heq hdecided
    have hkey : key ∈ collectedPairs ev := by
      rw [heq]
      exact List.mem_append_right _ List.mem_cons_self
    refine h key hkey fun earlier hearlier hlt => hdecided earlier ?_
    rw [heq] at hearlier hsorted
    rcases List.mem_append.1 hearlier with hfront | hback
    · exact hfront
    rcases List.mem_cons.1 hback with rfl | hback
    · exact absurd hlt (lt_irrefl _)
    · have hafter := (List.pairwise_cons.1 (List.pairwise_append.1 hsorted).2.1).1 earlier hback
      exact absurd (hlt.trans hafter) (lt_irrefl _)

/-- The only record of a rack that the round covers is tested. -/
theorem evaluateMembersTimed_follows (hskew : 0 ≤ request.policy.clockSkew) :
    Timely ((coveredRacks request).length ≤ request.policy.maxMembers.toNat →
        ∀ rack ∈ coveredRacks request, ∀ record,
          (request.snapshot.members.filter fun member => member.rack = rack) = [record] →
            Datable request.policy request.snapshot.observedAt record.observedAt)
      (evaluateMembersTimed request) (Result.lift (evaluateMembers request)) := by
  unfold evaluateMembersTimed evaluateMembers
  by_cases hcovered : (coveredRacks request).length ≤ request.policy.maxMembers.toNat
  · simp only [ensure, if_pos hcovered]
    refine (Timely.map (l := coveredRacks request) fun rack _ =>
      evaluateMemberTimed_follows hskew).congr ⟨fun h _ => h, fun h => h hcovered⟩
  · simp only [ensure, if_neg hcovered]
    exact ⟨fun _ => rfl, fun hnot => absurd (fun hc => absurd hc hcovered) hnot⟩

/-- What the passes before the connectivity establish keeps the policy and the snapshot. -/
theorem priorEvidence_inputs (h : priorEvidence request = .ok ev) :
    ev.policy = request.policy ∧ ev.snapshot = request.snapshot := by
  unfold priorEvidence at h
  simp only [bind_eq_ok, pure_eq_ok] at h
  obtain ⟨members, -, epoch, -, found, -, ledger, -, rfl⟩ := h
  exact ⟨rfl, rfl⟩

/-- The passes follow when every record they look at is datable. -/
theorem runPassesTimed_follows (hskew : 0 ≤ request.policy.clockSkew) :
    Timely (((coveredRacks request).length ≤ request.policy.maxMembers.toNat →
        ∀ rack ∈ coveredRacks request, ∀ record,
          (request.snapshot.members.filter fun member => member.rack = rack) = [record] →
            Datable request.policy request.snapshot.observedAt record.observedAt) ∧
        ∀ ev, priorEvidence request = .ok ev → ∀ key ∈ collectedPairs ev, Inspected ev key →
          PairDatable ev (newPair ev.snapshot key))
      (runPassesTimed request) (runPasses request) := by
  refine ((evaluateMembersTimed_follows hskew).bind fun members _ =>
    Timely.timed.bind fun epoch _ => Timely.timed.bind fun found _ =>
      Timely.timed.bind fun ledger _ =>
        (evaluateConnectivityTimed_follows hskew).bind fun pairs _ => Timely.ok).congr ?_
  refine and_congr_right fun _ => ?_
  constructor
  · intro h ev hprior
    unfold priorEvidence at hprior
    simp only [bind_eq_ok, pure_eq_ok] at hprior
    obtain ⟨members, hmembers, epoch, hepoch, found, hfound, ledger, hledger, rfl⟩ := hprior
    obtain ⟨-, h⟩ := h members (Result.lift_eq_ok.2 hmembers)
    obtain ⟨-, h⟩ := h epoch (Result.lift_eq_ok.2 hepoch)
    obtain ⟨-, h⟩ := h found (Result.lift_eq_ok.2 hfound)
    exact (h ledger (Result.lift_eq_ok.2 hledger)).1
  · intro h members hmembers
    refine ⟨trivial, fun epoch hepoch => ⟨trivial, fun found hfound => ⟨trivial,
      fun ledger hledger => ⟨h _ ?_, fun _ _ => trivial⟩⟩⟩⟩
    unfold priorEvidence
    simp only [bind_eq_ok, pure_eq_ok]
    exact ⟨members, Result.lift_eq_ok.1 hmembers, epoch, Result.lift_eq_ok.1 hepoch, found,
      Result.lift_eq_ok.1 hfound, ledger, Result.lift_eq_ok.1 hledger, rfl⟩

/-- A whole round follows when every record it looks at is datable. -/
theorem judgeRequestTimed_follows (hskew : 0 ≤ request.policy.clockSkew) :
    Timely ((((coveredRacks request).length ≤ request.policy.maxMembers.toNat →
        ∀ rack ∈ coveredRacks request, ∀ record,
          (request.snapshot.members.filter fun member => member.rack = rack) = [record] →
            Datable request.policy request.snapshot.observedAt record.observedAt) ∧
        ∀ ev, priorEvidence request = .ok ev → ∀ key ∈ collectedPairs ev, Inspected ev key →
          PairDatable ev (newPair ev.snapshot key)) ∧
        ∀ p, runPasses request = .ok p → ∀ token ∈ p.findings.context.grantedTokens,
          TokenTimed token (tokenCheck p.findings) →
            Representable (token.issuedAt.toInt - (tokenCheck p.findings).clockSkew.toInt))
      (judgeRequestTimed request) (judgeRequest request) := by
  refine ((runPassesTimed_follows hskew).bind fun p _ =>
    (Timely.map fun token _ => validateTokenTimed_follows).bind fun verdicts _ =>
      Timely.ok).congr ?_
  exact and_congr_right fun _ => forall₂_congr fun p hp =>
    ⟨And.left, fun h => ⟨h, fun _ _ => trivial⟩⟩

end Passes

/-! ## The result -/

/-- The observation times that a composition tests: of the only record of a rack, and of the links
and routes of the pairs it comes to. -/
inductive CompositionRequest.Tests (request : CompositionRequest) : Nanos → Prop
  | member {record : MemberRecord} (mem : record ∈ request.snapshot.members)
    (covered : (coveredRacks request).length ≤ request.policy.maxMembers.toNat)
    (sole : (request.snapshot.members.filter fun member => member.rack = record.rack) = [record]) :
    Tests request record.observedAt
  | link {ev : Evidence} {link : LinkRecord} (prior : priorEvidence request = .ok ev)
    (mem : link ∈ request.snapshot.links) (proper : (linkPair link).proper = true)
    (timed : LinkTimed ev link) (inspected : Inspected ev (linkPair link)) :
    Tests request link.observedAt
  | route {ev : Evidence} {route : RouteEvidence} {key : PairKey}
    (prior : priorEvidence request = .ok ev) (mem : route ∈ request.snapshot.routes)
    (installed : route.state = .installed) (serves : key ∈ routePairs route)
    (proper : key.proper = true) (inspected : Inspected ev key) : Tests request route.observedAt

/-- The beginning of the lease of a granted token is tested. -/
def CompositionRequest.Begins (request : CompositionRequest) (token : AuthorityToken) : Prop :=
  token ∈ request.context.grantedTokens ∧ ∃ p, runPasses request = .ok p ∧
    TokenTimed token (tokenCheck p.findings)

section Result
variable {request : CompositionRequest}

/-- The ages that a composition forms are those of the times it tests. -/
theorem tests_iff {P : Nanos → Prop} :
    ((((coveredRacks request).length ≤ request.policy.maxMembers.toNat →
        ∀ rack ∈ coveredRacks request, ∀ record,
          (request.snapshot.members.filter fun member => member.rack = rack) = [record] →
            P record.observedAt) ∧
        ∀ ev, priorEvidence request = .ok ev → ∀ key ∈ collectedPairs ev, Inspected ev key →
          (∀ link ∈ (newPair ev.snapshot key).links, LinkTimed ev link → P link.observedAt) ∧
          ∀ route ∈ (newPair ev.snapshot key).routes, route.state = .installed →
            P route.observedAt)) ↔
      ∀ observed, request.Tests observed → P observed := by
  constructor
  · rintro ⟨hmembers, hpairs⟩ observed htests
    cases htests with
    | @member record mem covered sole =>
      refine hmembers covered record.rack ?_ record sole
      exact mem_canonicalise.2 (List.mem_append_left _ (List.mem_map_of_mem mem))
    | @link ev link prior mem proper timed inspected =>
      obtain ⟨-, hsnapshot⟩ := priorEvidence_inputs prior
      have hmem : link ∈ ev.snapshot.links := hsnapshot ▸ mem
      refine (hpairs ev prior (linkPair link) ?_ inspected).1 link ?_ timed
      · refine mem_canonicalise.2 (List.mem_filter.2 ⟨?_, proper⟩)
        exact List.mem_append_left _ (List.mem_append_left _ (List.mem_map_of_mem hmem))
      · exact List.mem_filter.2 ⟨hmem, by simp⟩
    | @route ev route key prior mem installed serves proper inspected =>
      obtain ⟨-, hsnapshot⟩ := priorEvidence_inputs prior
      have hmem : route ∈ ev.snapshot.routes := hsnapshot ▸ mem
      refine (hpairs ev prior key ?_ inspected).2 route ?_ installed
      · refine mem_canonicalise.2 (List.mem_filter.2 ⟨?_, proper⟩)
        exact List.mem_append_left _
          (List.mem_append_right _ (List.mem_flatMap.2 ⟨route, hmem, serves⟩))
      · exact List.mem_filter.2 ⟨hmem, by simpa using serves⟩
  · intro h
    refine ⟨fun covered rack _ record sole => ?_, fun ev prior key hkey inspected => ⟨?_, ?_⟩⟩
    · have hmem : record ∈ request.snapshot.members.filter fun member => member.rack = rack :=
        sole ▸ List.mem_singleton_self record
      obtain ⟨hrecord, hrack⟩ := List.mem_filter.1 hmem
      obtain rfl : record.rack = rack := by simpa using hrack
      exact h _ (.member hrecord covered sole)
    · intro link hlink timed
      obtain ⟨hmem, hpair⟩ := List.mem_filter.1 hlink
      obtain rfl : linkPair link = key := by simpa using hpair
      have hproper := (List.mem_filter.1 (mem_canonicalise.1 hkey)).2
      exact h _ (.link prior ((priorEvidence_inputs prior).2 ▸ hmem) hproper timed inspected)
    · intro route hroute installed
      obtain ⟨hmem, hserves⟩ := List.mem_filter.1 hroute
      have hproper := (List.mem_filter.1 (mem_canonicalise.1 hkey)).2
      exact h _ (.route prior ((priorEvidence_inputs prior).2 ▸ hmem) installed
        (by simpa using hserves) hproper inspected)

/-- The clock skew of an admitted policy is not negative. -/
theorem skew_nonneg {policy : Policy} (hvalid : policy.validate = .ok ()) :
    0 ≤ policy.clockSkew := by
  unfold Policy.validate at hvalid
  simp only [check_eq_ok, ensure_eq_ok] at hvalid
  exact hvalid.2.2.2.2.1

/-- **No difference of times overflows, and the verdicts are those of the exact differences, just
when the times are close enough.** An age must be formed of a time that is within the range of 64
bits of the time of the snapshot, on either side; and the lease of a token that is tested must not
begin within the clock skew of the least time. -/
theorem exact_times_iff (hvalid : request.validate = .ok ()) :
    judgeRequestTimed request = (judgeRequest request).timed ↔
      (∀ observed, request.Tests observed → observed ≠ 0 → 0 < request.policy.evidenceTtl →
        request.snapshot.observedAt.toInt < observed.toInt + 2 ^ 63 ∧
          observed.toInt ≤ request.snapshot.observedAt.toInt + 2 ^ 63) ∧
      ∀ token, request.Begins token →
        request.policy.clockSkew.toInt ≤ token.issuedAt.toInt + 2 ^ 63 := by
  have hskew := skew_nonneg (validate_request_iff.1 hvalid).1.policyValid
  rw [(judgeRequestTimed_follows hskew).iff]
  refine and_congr ?_ ?_
  · have hages := @tests_iff request (Datable request.policy request.snapshot.observedAt)
    refine Iff.trans (Iff.trans (and_congr_right fun _ => ?_) hages) ?_
    · refine forall₂_congr fun ev hprior => ?_
      obtain ⟨hpolicy, hsnapshot⟩ := priorEvidence_inputs hprior
      rw [← hpolicy, ← hsnapshot]
      exact forall₃_congr fun key _ _ => ⟨fun h => ⟨h.links, h.routes⟩, fun h => ⟨h.1, h.2⟩⟩
    · refine forall₂_congr fun observed _ => ?_
      unfold Datable Representable
      refine forall₂_congr fun _ _ => ?_
      constructor
      · rintro ⟨hlow, hhigh⟩
        exact ⟨by omega, by omega⟩
      · rintro ⟨hhigh, hlow⟩
        exact ⟨by omega, by omega⟩
  · have hcontext {p : Passes} (hp : runPasses request = .ok p) :
        p.findings.context = request.context ∧ p.findings.policy = request.policy :=
      ⟨(runPasses_passesOf hp).context, (runPasses_passesOf hp).policy⟩
    have hbegins {p : Passes} {token : AuthorityToken} (hp : runPasses request = .ok p) :
        Representable (token.issuedAt.toInt - (tokenCheck p.findings).clockSkew.toInt) ↔
          request.policy.clockSkew.toInt ≤ token.issuedAt.toInt + 2 ^ 63 := by
      have hsame : (tokenCheck p.findings).clockSkew = request.policy.clockSkew :=
        congrArg Policy.clockSkew (hcontext hp).2
      have hbound := token.issuedAt.toInt_lt
      rw [Int64.le_iff_toInt_le, Int64.toInt_zero] at hskew
      rw [hsame, Representable]
      exact ⟨fun h => by omega, fun h => ⟨by omega, by omega⟩⟩
    constructor
    · rintro h token ⟨hgranted, p, hp, htimed⟩
      exact (hbegins hp).1 (h p hp token ((hcontext hp).1 ▸ hgranted) htimed)
    · intro h p hp token hgranted htimed
      exact (hbegins hp).2 (h token ⟨(hcontext hp).1 ▸ hgranted, p, hp, htimed⟩)

end Result

namespace Sample

/-- The sample pod at a time, with its members observed at another. -/
def datedAt (evaluatedAt observedAt : Nanos) : CompositionRequest where
  snapshot := { snapshot with
    observedAt := evaluatedAt
    members := snapshot.members.map fun record => { record with observedAt } }

end Sample

/-- Evidence from before the epoch of the clock has an exact age a hundred nanoseconds after it, and
none at the end of time. -/
theorem sample_times :
    judgeRequestTimed (Sample.datedAt 100 (-1)) = (judgeRequest (Sample.datedAt 100 (-1))).timed ∧
      judgeRequestTimed (Sample.datedAt Int64.maxValue (-1)) ≠
        (judgeRequest (Sample.datedAt Int64.maxValue (-1))).timed := by
  constructor
  · refine (exact_times_iff (by decide +kernel)).2 ⟨fun observed htests hstamped _ => ?_, ?_⟩
    · cases htests with
      | member hmem =>
        obtain ⟨record, -, rfl⟩ := List.mem_map.1 hmem
        change (100 : Nanos).toInt < (-1 : Nanos).toInt + 2 ^ 63 ∧
          (-1 : Nanos).toInt ≤ (100 : Nanos).toInt + 2 ^ 63
        decide
      | link _ hmem =>
        rw [List.mem_singleton.1 hmem] at hstamped
        exact absurd rfl hstamped
      | route _ hmem => cases hmem
    · rintro token ⟨hgranted, -⟩
      cases hgranted
  · intro hexact
    have htests : (Sample.datedAt Int64.maxValue (-1)).Tests (-1) :=
      @CompositionRequest.Tests.member _ { Sample.member Sample.rackA ⟨1⟩ with observedAt := -1 }
        (by decide +kernel) (by decide +kernel) (by decide +kernel)
    have hnear := ((exact_times_iff (by decide +kernel)).1 hexact).1 (-1) htests (by decide)
      (by decide)
    exact absurd hnear.1 (by decide)

/-- Evidence from before the epoch of the clock overflows at the end of time. -/
theorem observed_overflows : ¬ ∀ request : CompositionRequest, request.validate = .ok () →
    judgeRequestTimed request = (judgeRequest request).timed := by
  intro hclaim
  have hexact := hclaim (Sample.datedAt Int64.maxValue (-1)) (by decide +kernel)
  have hstops : (judgeRequestTimed (Sample.datedAt Int64.maxValue (-1))).isOk = false := by
    decide +kernel
  have hgoes : (judgeRequest (Sample.datedAt Int64.maxValue (-1))).timed.isOk = true := by
    decide +kernel
  rw [hexact, hgoes] at hstops
  cases hstops

end PodFabric
