import PodFabric.Engine.Composer

/-!
# What validation guarantees

The checks of a snapshot and of a context, read as properties of the documents: each accepted
document satisfies them, and each document that satisfies them is accepted
(`validate_snapshot_iff`, `validateContext_iff`). Only the first record of each rack is checked.
-/

namespace PodFabric

/-- A bound is met when the count is within it. -/
theorem bounded_eq_ok {count : ℕ} {limit : UInt32} {what : Text} {u : Unit} :
    bounded count limit what = .ok u ↔ count ≤ limit.toNat := by
  rw [bounded, ensure_eq_ok]

/-- A loop of checks passes when every check does. -/
theorem forM_eq_ok {ε α : Type} {f : α → Except ε Unit} : ∀ {l : List α},
    l.forM f = .ok () ↔ ∀ x ∈ l, f x = .ok ()
  | [] => by simp [pure, Except.pure]
  | x :: l => by
    rw [List.forM_eq_forM, List.forM_cons, check_eq_ok, List.forall_mem_cons, ← forM_eq_ok]
    rfl

section Distinct
variable {α ι : Type} [DecidableEq ι] {id : α → ι} {isNil : ι → Bool}
  {missing duplicated : Text} {check : α → Result Unit}

/-- The loop over records with identities: each identity is there and new, each record passes. -/
theorem validateDistinct_eq_ok : ∀ {seen : List ι} {l : List α},
    validateDistinct id isNil missing duplicated check seen l = .ok () ↔
      (∀ x ∈ l, isNil (id x) = false ∧ check x = .ok ()) ∧ (l.map id).Nodup ∧
        ∀ x ∈ l, id x ∉ seen
  | seen, [] => by simp [validateDistinct]
  | seen, x :: l => by
    rw [validateDistinct, check_eq_ok, ensure_eq_ok, check_eq_ok, ensure_eq_ok, check_eq_ok,
      validateDistinct_eq_ok, List.forall_mem_cons, List.forall_mem_cons, List.map_cons,
      List.nodup_cons, Bool.not_eq_true]
    simp only [List.mem_map, not_exists, not_and, List.mem_cons, not_or]
    constructor
    · rintro ⟨hnil, hnew, hcheck, hall, hnodup, hdisjoint⟩
      exact ⟨⟨⟨hnil, hcheck⟩, hall⟩, ⟨fun y hy => (hdisjoint y hy).1, hnodup⟩, hnew,
        fun y hy => (hdisjoint y hy).2⟩
    · rintro ⟨⟨⟨hnil, hcheck⟩, hall⟩, ⟨hfresh, hnodup⟩, hnew, hdisjoint⟩
      exact ⟨hnil, hnew, hcheck, hall, hnodup, fun y hy => ⟨hfresh y hy, hdisjoint y hy⟩⟩

end Distinct

/-! ## Members -/

/-- The first record of each rack that is not among `racks`. -/
def firstRecords : List RackId → List MemberRecord → List MemberRecord
  | _, [] => []
  | racks, member :: rest =>
    if member.rack ∈ racks then firstRecords racks rest
    else member :: firstRecords (member.rack :: racks) rest

/-- The number of claims of some records. -/
def claimCount (members : List MemberRecord) : ℕ :=
  (members.map fun member => member.capacity.length).sum

/-- The first records are among the records, of racks not seen before. -/
theorem firstRecords_sub : ∀ {racks : List RackId} {members : List MemberRecord},
    ∀ member ∈ firstRecords racks members, member ∈ members ∧ member.rack ∉ racks
  | racks, [], member, h => by cases h
  | racks, first :: rest, member, h => by
    unfold firstRecords at h
    split at h
    · obtain ⟨hin, hnew⟩ := firstRecords_sub member h
      exact ⟨List.mem_cons_of_mem _ hin, hnew⟩
    · next hfirst =>
      rcases List.mem_cons.1 h with rfl | h
      · exact ⟨List.mem_cons_self, hfirst⟩
      · obtain ⟨hin, hnew⟩ := firstRecords_sub member h
        exact ⟨List.mem_cons_of_mem _ hin, fun hrack => hnew (List.mem_cons_of_mem _ hrack)⟩

/-- No rack has two first records. -/
theorem firstRecords_nodup : ∀ {racks : List RackId} {members : List MemberRecord},
    ((firstRecords racks members).map MemberRecord.rack).Nodup
  | racks, [] => List.nodup_nil
  | racks, first :: rest => by
    unfold firstRecords
    split
    · exact firstRecords_nodup
    · rw [List.map_cons, List.nodup_cons]
      refine ⟨fun hin => ?_, firstRecords_nodup⟩
      obtain ⟨member, hmember, hrack⟩ := List.mem_map.1 hin
      exact (firstRecords_sub member hmember).2 (hrack ▸ List.mem_cons_self)

/-- Each rack has a first record. -/
theorem firstRecords_covers : ∀ {racks : List RackId} {members : List MemberRecord},
    ∀ member ∈ members, member.rack ∉ racks →
      ∃ first ∈ firstRecords racks members, first.rack = member.rack
  | racks, [], member, h, _ => by cases h
  | racks, head :: rest, member, h, hnew => by
    unfold firstRecords
    split
    · next hseen =>
      rcases List.mem_cons.1 h with rfl | h
      · exact absurd hseen hnew
      · exact firstRecords_covers member h hnew
    · by_cases hrack : member.rack = head.rack
      · exact ⟨head, List.mem_cons_self, hrack.symm⟩
      · have hrest : member ∈ rest := (List.mem_cons.1 h).resolve_left fun heq =>
          hrack (congrArg MemberRecord.rack heq)
        obtain ⟨first, hfirst, hsame⟩ := @firstRecords_covers (head.rack :: racks) _ member
          hrest (by simp [hrack, hnew])
        exact ⟨first, List.mem_cons_of_mem _ hfirst, hsame⟩

/-- The loop over the racks succeeds when every first record is valid. Induction on the records.
-/
theorem validateMembers_eq_ok {policy : Policy} : ∀ {racks : List RackId}
    {members : List MemberRecord} {n : ℕ}, validateMembers policy racks members = .ok n ↔
      (∀ member ∈ members, member.rack ≠ .nil) ∧
        (∀ member ∈ firstRecords racks members, member.validate policy = .ok ()) ∧
          claimCount (firstRecords racks members) = n
  | racks, [], n => by simp [validateMembers, firstRecords, claimCount]
  | racks, member :: rest, n => by
    rw [validateMembers, firstRecords, List.forall_mem_cons]
    rw [check_eq_ok, ensure_eq_ok]
    split
    · rw [validateMembers_eq_ok, and_assoc]
    · rw [check_eq_ok, bind_eq_ok, List.forall_mem_cons]
      simp only [validateMembers_eq_ok, pure_eq_ok]
      constructor
      · rintro ⟨h, hm, m, ⟨hnil, hval, rfl⟩, rfl⟩
        exact ⟨⟨h, hnil⟩, ⟨hm, hval⟩, by simp [claimCount]⟩
      · rintro ⟨⟨h, hnil⟩, ⟨hm, hval⟩, rfl⟩
        exact ⟨h, hm, _, ⟨hnil, hval, rfl⟩, by simp [claimCount]⟩

/-! ## Snapshots -/

/-- What an accepted snapshot satisfies. -/
structure SnapshotValid (snapshot : PodSnapshot) (policy : Policy) : Prop where
  policyValid : policy.validate = .ok ()
  schema : snapshot.schema = snapshotSchema
  pod : snapshot.pod ≠ .nil
  observedAt : snapshot.observedAt ≠ 0
  detail : isValidUtf8 snapshot.provenance.detail = true
  memberBound : snapshot.members.length ≤ policy.maxMembers.toNat
  linkBound : snapshot.links.length ≤ policy.maxLinks.toNat
  routeBound : snapshot.routes.length ≤ policy.maxRoutes.toNat
  domainBound : snapshot.domains.length ≤ policy.maxDomains.toNat
  obligationBound : snapshot.obligations.length ≤ policy.maxObligations.toNat
  memberRacks : ∀ member ∈ snapshot.members, member.rack ≠ .nil
  members : ∀ member ∈ firstRecords [] snapshot.members, member.validate policy = .ok ()
  claims : claimCount (firstRecords [] snapshot.members) ≤ policy.maxCapacityClaims.toNat
  links : ∀ link ∈ snapshot.links, link.id.isNil = false ∧ link.validate policy = .ok ()
  linkIds : (snapshot.links.map LinkRecord.id).Nodup
  routes : ∀ route ∈ snapshot.routes, route.ref.isNil = false ∧ route.validate policy = .ok ()
  routeRefs : (snapshot.routes.map RouteEvidence.ref).Nodup
  domains : ∀ domain ∈ snapshot.domains,
    domain.id.isNil = false ∧ domain.validate policy = .ok ()
  domainIds : (snapshot.domains.map FailureDomainRecord.id).Nodup
  obligations : ∀ obligation ∈ snapshot.obligations,
    obligation.id.isNil = false ∧ obligation.validate policy = .ok ()
  obligationIds : (snapshot.obligations.map Obligation.id).Nodup

/-- A snapshot is accepted exactly when it is valid. -/
theorem validate_snapshot_iff {snapshot : PodSnapshot} {policy : Policy} :
    snapshot.validate policy = .ok () ↔ SnapshotValid snapshot policy := by
  unfold PodSnapshot.validate
  simp only [check_eq_ok, ensure_eq_ok, bounded_eq_ok]
  rw [bind_eq_ok]
  simp only [check_eq_ok, bounded_eq_ok, validateMembers_eq_ok, validateDistinct_eq_ok,
    List.not_mem_nil, not_false_eq_true, implies_true, and_true]
  constructor
  · rintro ⟨hp, hs, hpod, ho, hd, hm, hl, hr, hdo, hob, n, ⟨hmr, hmv, rfl⟩, hc, ⟨hlv, hli⟩,
      ⟨hrv, hri⟩, ⟨hdv, hdi⟩, hov, hoi⟩
    exact ⟨hp, hs, hpod, ho, hd, hm, hl, hr, hdo, hob, hmr, hmv, hc, hlv, hli, hrv, hri, hdv, hdi,
      hov, hoi⟩
  · intro h
    exact ⟨h.policyValid, h.schema, h.pod, h.observedAt, h.detail, h.memberBound, h.linkBound,
      h.routeBound, h.domainBound, h.obligationBound, _, ⟨h.memberRacks, h.members, rfl⟩, h.claims,
      ⟨h.links, h.linkIds⟩, ⟨h.routes, h.routeRefs⟩, ⟨h.domains, h.domainIds⟩, h.obligations,
      h.obligationIds⟩

/-- What an accepted route satisfies. -/
structure RouteValid (route : RouteEvidence) (policy : Policy) : Prop where
  bound : route.path.length ≤ policy.maxMembers.toNat
  path : route.path ≠ []
  generations : route.pathGenerations.length = route.path.length
  hops : validateHops [] route.path = .ok ()
  resource : route.resource ≠ .nil
  capacity : route.committedCapacity ≤ policy.maxCapacityAmount

/-- A route is accepted exactly when it is valid. -/
theorem validate_route_iff {route : RouteEvidence} {policy : Policy} :
    route.validate policy = .ok () ↔ RouteValid route policy := by
  unfold RouteEvidence.validate
  simp only [check_eq_ok, ensure_eq_ok, bounded_eq_ok]
  constructor
  · rintro ⟨hb, hp, hg, hh, hr, hc⟩
    exact ⟨hb, hp, hg, hh, hr, hc⟩
  · rintro ⟨hb, hp, hg, hh, hr, hc⟩
    exact ⟨hb, hp, hg, hh, hr, hc⟩

/-- An accepted link joins two different racks. -/
theorem validate_link_racks {link : LinkRecord} {policy : Policy}
    (h : link.validate policy = .ok ()) :
    (link.a.rack ≠ .nil ∧ link.b.rack ≠ .nil) ∧ link.a.rack ≠ link.b.rack := by
  unfold LinkRecord.validate at h
  rw [check_eq_ok, ensure_eq_ok, check_eq_ok, ensure_eq_ok] at h
  exact ⟨h.1, h.2.1⟩

/-! ## Contexts and requests -/

/-- What an accepted context satisfies. -/
structure ContextValid (context : CompositionContext) (policy : Policy) : Prop where
  expectationBound : context.expectations.length ≤ policy.maxMembers.toNat
  tokenBound : context.grantedTokens.length ≤ (policy.maxMembers * 4).toNat
  racks : ∀ expectation ∈ context.expectations, expectation.rack.isNil = false
  unique : (context.expectations.map MemberExpectation.rack).Nodup

/-- A context is accepted exactly when it is valid. -/
theorem validateContext_iff {context : CompositionContext} {policy : Policy} :
    validateContext policy context = .ok () ↔ ContextValid context policy := by
  unfold validateContext
  simp only [check_eq_ok, ensure_eq_ok, validateDistinct_eq_ok, List.not_mem_nil,
    not_false_eq_true, implies_true, and_true]
  constructor
  · rintro ⟨h1, h2, h3, h4⟩
    exact ⟨h1, h2, h3, h4⟩
  · rintro ⟨h1, h2, h3, h4⟩
    exact ⟨h1, h2, h3, h4⟩

/-- A request passes its checks when its snapshot and its context do. -/
theorem validate_request_iff {request : CompositionRequest} :
    request.validate = .ok () ↔
      SnapshotValid request.snapshot request.policy ∧
        ContextValid request.context request.policy := by
  unfold CompositionRequest.validate
  simp only [check_eq_ok, validate_snapshot_iff, validateContext_iff]
  exact ⟨fun ⟨_, hs, hc⟩ => ⟨hs, hc⟩, fun ⟨hs, hc⟩ => ⟨hs.policyValid, hs, hc⟩⟩

end PodFabric
