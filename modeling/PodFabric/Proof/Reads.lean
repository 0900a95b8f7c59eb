import PodFabric.Lib.Keyed
import PodFabric.Proof.Conflicts
import PodFabric.Proof.Rerun
import PodFabric.Proof.Decisions

/-!
# What decisions read

The evidence that the decision on a subject reads, as keys of the records it is taken from
(`Reads`): more than the keys it is published under. Between two rounds of which the second goes on
from what the first has left, a key is calm if the record under it is the same and as fresh as
before (`Calm`). A rack under a calm key is judged alike (`Succeeds.findMember_settled`), and so is a
failure domain of which all that it reads is calm (`Succeeds.findDomain_eq`).
-/

namespace PodFabric

/-! ## Keys and what is read under them -/

/-- The dependency on a link. -/
def linkKey (id : LinkId) : DepKey := ⟨.link, id.token⟩

/-- The dependency on a route. -/
def routeKey (ref : RouteRef) : DepKey := ⟨.route, ref.token⟩

/-- The dependency on a domain. -/
def domainKey (id : DomainId) : DepKey := ⟨.domain, id.token⟩

/-- The dependency on an obligation. -/
def obligationKey (id : ObligationId) : DepKey := ⟨.obligation, id.token⟩

section Reads
variable (snapshot : PodSnapshot)

/-- What the verdict on a failure domain reads: its record, the racks that it lists or that declare
it, and the domains that these racks declare besides. -/
inductive DomainReads (id : DomainId) : DepKey → Prop
  | own : DomainReads id (domainKey id)
  | listed {rack : RackId} (lists : snapshot.Lists id rack) : DomainReads id (memberKey rack)
  | declaring {rack : RackId} (declares : id ∈ snapshot.domainsOf rack) :
      DomainReads id (memberKey rack)
  | sibling {rack : RackId} {other : DomainId} (declares : id ∈ snapshot.domainsOf rack)
      (also : other ∈ snapshot.domainsOf rack) : DomainReads id (domainKey other)

/-- What an aggregate of a resource reads: the racks that claim the resource. -/
inductive ClaimReads (resource : ResourceClass) : DepKey → Prop
  | claiming {member : MemberRecord} {claim : CapacityClaim} (hmember : member ∈ snapshot.members)
      (hclaim : claim ∈ member.capacity) (same : claim.resource = resource) :
      ClaimReads resource (memberKey member.rack)

/-- What the verdict on a pair of racks reads: the racks, the links between them with the routes
they cite and the domains whose fate they share, and the routes that serve the pair with their
hops. -/
inductive PairReads (pair : PairKey) : DepKey → Prop
  | left : PairReads pair (memberKey (ofLex pair).1)
  | right : PairReads pair (memberKey (ofLex pair).2)
  | link {link : LinkRecord} (hlink : link ∈ snapshot.links) (joins : linkPair link = pair) :
      PairReads pair (linkKey link.id)
  | cited {link : LinkRecord} (hlink : link ∈ snapshot.links) (joins : linkPair link = pair) :
      PairReads pair (routeKey link.route)
  | fate {link : LinkRecord} {key : DepKey} (hlink : link ∈ snapshot.links)
      (joins : linkPair link = pair) (reads : DomainReads snapshot link.domain key) :
      PairReads pair key
  | route {route : RouteEvidence} (hroute : route ∈ snapshot.routes)
      (serves : pair ∈ routePairs route) : PairReads pair (routeKey route.ref)
  | hop {route : RouteEvidence} {rack : RackId} (hroute : route ∈ snapshot.routes)
      (serves : pair ∈ routePairs route) (hop : rack ∈ route.path) : PairReads pair (memberKey rack)

/-- The snapshot declares the domain, or a rack of it does. -/
def PodSnapshot.Names (id : DomainId) : Prop :=
  snapshot.Declares id ∨ ∃ rack, id ∈ snapshot.domainsOf rack

/-- What the verdict on an obligation reads: its record, the aggregates of the resources it
requires, the racks it protects with their pairs, and the domains of the kind it asks for. -/
inductive ObligationReads (id : ObligationId) : DepKey → Prop
  | own : ObligationReads id (obligationKey id)
  | claims {o : Obligation} {requirement : CapacityRequirement} {key : DepKey}
      (ho : o ∈ snapshot.obligations) (same : o.id = id) (requires : requirement ∈ o.requirements)
      (reads : ClaimReads snapshot requirement.resource key) : ObligationReads id key
  | rack {o : Obligation} {rack : RackId} (ho : o ∈ snapshot.obligations) (same : o.id = id)
      (protects : rack ∈ o.protectedRacks) : ObligationReads id (memberKey rack)
  | pair {o : Obligation} {a b : RackId} {key : DepKey} (ho : o ∈ snapshot.obligations)
      (same : o.id = id) (protects : (a, b) ∈ pairsOf o.protectedRacks)
      (reads : PairReads snapshot (pairKey a b) key) : ObligationReads id key
  | domain {o : Obligation} {d : DomainId} {key : DepKey} (ho : o ∈ snapshot.obligations)
      (same : o.id = id) (names : snapshot.Names d) (kind : snapshot.kindOf d = o.diversityKind)
      (reads : DomainReads snapshot d key) : ObligationReads id key

/-- What the decision on a subject reads. The decisions on the pod as a whole read everything. -/
inductive Reads : DecisionSubject → DepKey → Prop
  | member {rack : RackId} : Reads (.member rack) (memberKey rack)
  | kin {rack : RackId} {id : DomainId} (declares : id ∈ snapshot.domainsOf rack) :
      Reads (.member rack) (domainKey id)
  | domain {id : DomainId} {key : DepKey} (reads : DomainReads snapshot id key) :
      Reads (.domain id) key
  | resource {ofClass : ResourceClass} {key : DepKey} (reads : ClaimReads snapshot ofClass key) :
      Reads (.resource ofClass) key
  | slot {ofClass : ResourceClass} {inDomain : DomainId} {key : DepKey}
      (reads : ClaimReads snapshot ofClass key) : Reads (.slot ofClass inDomain) key
  | pair {pair : PairKey} {key : DepKey} (reads : PairReads snapshot pair key) :
      Reads (.pair pair) key
  | obligation {id : ObligationId} {key : DepKey} (reads : ObligationReads snapshot id key) :
      Reads (.obligation id) key
  | lifecycle {key : DepKey} : Reads .lifecycle key
  | authority {key : DepKey} : Reads .authority key

end Reads

/-! ## Two rounds -/

/-- The records of a snapshot ascend by identity, as in its canonical form. -/
structure PodSnapshot.Ascends (snapshot : PodSnapshot) : Prop where
  members : Ascending MemberRecord.rack snapshot.members
  links : Ascending LinkRecord.id snapshot.links
  routes : Ascending RouteEvidence.ref snapshot.routes
  domains : Ascending FailureDomainRecord.id snapshot.domains
  obligations : Ascending Obligation.id snapshot.obligations

/-- Whether a record is fresh in a round, and if not, why. -/
def CompositionRequest.freshness (request : CompositionRequest) (observed : Nanos) :
    Option Reason :=
  PodFabric.freshness request.policy request.snapshot.observedAt observed

/-- Under the keys that are calm, two rounds have the same records, and these are as fresh in the
second round as in the first. -/
structure Calm (request request' : CompositionRequest) (calm : DepKey → Prop) : Prop where
  member {rack : RackId} (h : calm (memberKey rack)) :
    (request'.snapshot.members.find? fun m => m.rack = rack) =
      request.snapshot.members.find? fun m => m.rack = rack
  link {id : LinkId} (h : calm (linkKey id)) :
    (request'.snapshot.links.find? fun l => l.id = id) =
      request.snapshot.links.find? fun l => l.id = id
  route {ref : RouteRef} (h : calm (routeKey ref)) :
    (request'.snapshot.routes.find? fun r => r.ref = ref) =
      request.snapshot.routes.find? fun r => r.ref = ref
  domain {id : DomainId} (h : calm (domainKey id)) :
    (request'.snapshot.domains.find? fun d => d.id = id) =
      request.snapshot.domains.find? fun d => d.id = id
  obligation {id : ObligationId} (h : calm (obligationKey id)) :
    (request'.snapshot.obligations.find? fun o => o.id = id) =
      request.snapshot.obligations.find? fun o => o.id = id
  memberTime : ∀ m ∈ request'.snapshot.members, calm (memberKey m.rack) →
    request'.freshness m.observedAt = request.freshness m.observedAt
  linkTime : ∀ l ∈ request'.snapshot.links, calm (linkKey l.id) →
    request'.freshness l.observedAt = request.freshness l.observedAt
  routeTime : ∀ r ∈ request'.snapshot.routes, calm (routeKey r.ref) →
    request'.freshness r.observedAt = request.freshness r.observedAt

/-- A round over the evidence of `request'` that goes on from what the round over that of `request`
has left. -/
structure Succeeds (request : CompositionRequest) (p : Passes) (request' : CompositionRequest)
    (p' : Passes) (calm : DepKey → Prop) : Prop where
  composed : compose request = .ok p.draft.finalise
  passes : PassesOf request p
  valid : SnapshotValid request.snapshot request.policy
  passes' : PassesOf request' p'
  valid' : SnapshotValid request'.snapshot request'.policy
  policy : request'.policy = request.policy
  expectations : request'.context.expectations =
    PodController.deriveExpectations p.draft.finalise request.context.expectations
  ascends : request.snapshot.Ascends
  ascends' : request'.snapshot.Ascends
  calm : Calm request request' calm

/-! ## Racks -/

section Racks
variable {policy : Policy} {rack : RackId} {records : List MemberRecord}
  {expectation : Option MemberExpectation}

/-- The time of a round matters by the freshness of the records. -/
theorem evaluateMember_time {t t' : Nanos}
    (h : ∀ m ∈ records, freshness policy t' m.observedAt = freshness policy t m.observedAt) :
    evaluateMember policy t' rack records expectation =
      evaluateMember policy t rack records expectation := by
  match records with
  | [] => rfl
  | _ :: _ :: _ => rfl
  | [record] =>
    have hfresh := h record List.mem_cons_self
    rw [evaluateMember, evaluateMember, judgeRecord, judgeRecord, hfresh]

/-- A rack that is expected and not described stays expected. -/
theorem expected_again {request : CompositionRequest} {st : PodState}
    (h : compose request = .ok st) (hmissing : rack ∉ request.snapshot.members.map MemberRecord.rack)
    (hin : rack ∈ request.context.expectations.map MemberExpectation.rack) :
    rack ∈ (PodController.deriveExpectations st request.context.expectations).map
      MemberExpectation.rack := by
  obtain ⟨m, hm, rfl⟩ := compose_covers h (mem_canonicalise.2 (List.mem_append_right _ hin))
  have hstatus : m.status = .missing := (compose_member h hm).2.1.trans (memberWork_missing hmissing)
  obtain ⟨e, he, hrack⟩ := List.mem_map.1 hin
  have hrecorded : recorded request.context.expectations m.rack ≠ none := fun hnone =>
    recorded_eq_none.1 hnone e he hrack
  obtain ⟨e', he'⟩ := Option.ne_none_iff_exists'.1 hrecorded
  have hderived : PodController.derivedExpectation request.context.expectations m = some e' := by
    rw [derived_of_other (by simp [hstatus]) (by simp [hstatus]), he']
  exact List.mem_map.2 ⟨e', mem_deriveExpectations.2 ⟨m, hm, hderived⟩,
    derivedExpectation_rack hderived⟩

end Racks

namespace Succeeds
variable {request request' : CompositionRequest} {p p' : Passes} {calm : DepKey → Prop}
  {rack : RackId} {id : DomainId}

/-- The records of a calm rack are the same. -/
theorem records_eq (h : Succeeds request p request' p' calm) (hcalm : calm (memberKey rack)) :
    (request'.snapshot.members.filter fun m => m.rack = rack) =
      request.snapshot.members.filter fun m => m.rack = rack := by
  refine h.ascends'.members.filter_eq h.ascends.members fun k => ?_
  by_cases hk : k = rack
  · rw [hk, h.calm.member hcalm]
  · have hnone (members : List MemberRecord) :
        (members.find? fun m => m.rack = k).filter (fun m => decide (m.rack = rack)) = none := by
      cases hfind : members.find? fun m => m.rack = k with
      | none => rfl
      | some m =>
        have hm : m.rack = k := by simpa using List.find?_some hfind
        rw [Option.filter_some, if_neg (by simp [hm, hk])]
    rw [hnone, hnone]

/-- The domains of a calm rack are the same. -/
theorem domainsOf_eq (h : Succeeds request p request' p' calm) (hcalm : calm (memberKey rack)) :
    request'.snapshot.domainsOf rack = request.snapshot.domainsOf rack := by
  rw [PodSnapshot.domainsOf, PodSnapshot.domainsOf, h.records_eq hcalm]

/-- A calm rack is described by both snapshots or by neither. -/
theorem describes_iff (h : Succeeds request p request' p' calm) (hcalm : calm (memberKey rack)) :
    rack ∈ request'.snapshot.members.map MemberRecord.rack ↔
      rack ∈ request.snapshot.members.map MemberRecord.rack := by
  have hfilter (members : List MemberRecord) : rack ∈ members.map MemberRecord.rack ↔
      (members.filter fun m => m.rack = rack) ≠ [] := by
    simp [List.filter_eq_nil_iff]
  rw [hfilter, hfilter, h.records_eq hcalm]

/-- The same racks are covered. -/
theorem covered_iff (h : Succeeds request p request' p' calm) (hcalm : calm (memberKey rack)) :
    rack ∈ coveredRacks request' ↔ rack ∈ coveredRacks request := by
  rw [coveredRacks, coveredRacks, mem_canonicalise, mem_canonicalise, List.mem_append,
    List.mem_append, h.describes_iff hcalm, h.expectations]
  constructor
  · rintro (hin | hin)
    · exact .inl hin
    · obtain ⟨e, he, rfl⟩ := List.mem_map.1 hin
      obtain ⟨m, hm, hderived⟩ := mem_deriveExpectations.1 he
      rw [derivedExpectation_rack hderived]
      exact List.mem_append.1 (mem_canonicalise.1 (compose_member h.composed hm).1)
  · rintro (hin | hin)
    · exact .inl hin
    · by_cases hdescribed : rack ∈ request.snapshot.members.map MemberRecord.rack
      · exact .inl hdescribed
      · exact .inr (expected_again h.composed hdescribed hin)

/-- A rack is judged as before. -/
theorem memberWork_settled (h : Succeeds request p request' p' calm)
    (hcalm : calm (memberKey rack)) (hcovered : rack ∈ coveredRacks request) :
    (memberWork request' rack).settled = (memberWork request rack).settled := by
  obtain ⟨m, hm, rfl⟩ := compose_covers h.composed hcovered
  have hfollows := derived_follows h.composed hm
  rw [← recorded_derive h.composed hm, ← h.expectations] at hfollows
  have hagain := (evaluateMember_again hfollows).1
  have htime : ∀ record ∈ request.snapshot.members.filter (fun r => r.rack = m.rack),
      freshness request.policy request'.snapshot.observedAt record.observedAt =
        freshness request.policy request.snapshot.observedAt record.observedAt := by
    intro record hrecord
    rw [← h.records_eq hcalm] at hrecord
    obtain ⟨hin, hrack⟩ := List.mem_filter.1 hrecord
    have hrecord := h.calm.memberTime record hin (by rwa [of_decide_eq_true hrack])
    rwa [CompositionRequest.freshness, CompositionRequest.freshness, h.policy] at hrecord
  rw [memberWork, h.policy, h.records_eq hcalm, evaluateMember_time htime]
  exact hagain

/-- The work on a calm rack is the same, as far as it is settled. -/
theorem findMember_initial (h : Succeeds request p request' p' calm)
    (hcalm : calm (memberKey rack)) :
    (findMember (initialMembers request') rack).map MemberWork.settled =
      (findMember (initialMembers request) rack).map MemberWork.settled := by
  have hfind (request : CompositionRequest) : findMember (initialMembers request) rack =
      if rack ∈ coveredRacks request then some (memberWork request rack) else none :=
    Ascending.find?_keys (fun _ => memberWork_rack) (coveredRacks request) rack
  rw [hfind, hfind]
  by_cases hcovered : rack ∈ coveredRacks request
  · rw [if_pos ((h.covered_iff hcalm).2 hcovered), if_pos hcovered, Option.map_some,
      Option.map_some, h.memberWork_settled hcalm hcovered]
  · rw [if_neg fun hin => hcovered ((h.covered_iff hcalm).1 hin), if_neg hcovered]

end Succeeds

/-! ## Failure domains -/

/-- The working record without what only the decision on its rack reads. -/
def MemberWork.bare (work : MemberWork) : MemberWork :=
  { work.settled with verdict := { work.verdict with reasons := [] } }

/-- The rack has the same bare record among both lists. -/
def SameMember (members members' : List MemberWork) (rack : RackId) : Prop :=
  (findMember members' rack).map MemberWork.bare = (findMember members rack).map MemberWork.bare

section Checks
variable {members members' : List MemberWork} {domains domains' : List DomainWork}
  {rack : RackId} {id : DomainId} {member member' : MemberWork}

/-- A rack with the same record is in neither list or in both. -/
theorem SameMember.cases (h : SameMember members members' rack) :
    (findMember members rack = none ∧ findMember members' rack = none) ∨
      ∃ member member', findMember members rack = some member ∧
        findMember members' rack = some member' ∧ member'.bare = member.bare := by
  unfold SameMember at h
  cases hfind : findMember members rack with
  | none =>
    rw [hfind, Option.map_none, Option.map_eq_none_iff] at h
    exact .inl ⟨rfl, h⟩
  | some member =>
    rw [hfind, Option.map_some, Option.map_eq_some_iff] at h
    obtain ⟨member', hfind', hbare⟩ := h
    exact .inr ⟨member, member', rfl, hfind', hbare⟩

/-- The record is part of the bare work. -/
theorem bare_record (h : member'.bare = member.bare) : member'.record = member.record :=
  show member'.bare.record = member.bare.record from congrArg _ h

/-- The rack is part of the bare work. -/
theorem bare_rack (h : member'.bare = member.bare) : member'.rack = member.rack :=
  show member'.bare.rack = member.bare.rack from congrArg _ h

/-- Whether a rack is established is part of the bare work. -/
theorem bare_established (h : member'.bare = member.bare) :
    member'.established = member.established :=
  show member'.bare.established = member.bare.established from congrArg _ h

/-- Whether its capacity is usable is part of the bare work. -/
theorem bare_capacityUsable (h : member'.bare = member.bare) :
    member'.capacityUsable = member.capacityUsable :=
  show member'.bare.capacityUsable = member.bare.capacityUsable from congrArg _ h

/-- Whether its links are usable is part of the bare work. -/
theorem bare_connectivityUsable (h : member'.bare = member.bare) :
    member'.connectivityUsable = member.connectivityUsable :=
  show member'.bare.connectivityUsable = member.bare.connectivityUsable from congrArg _ h

/-- The generation is part of the bare work. -/
theorem bare_generation (h : member'.bare = member.bare) :
    member'.verdict.generation = member.verdict.generation :=
  show member'.bare.verdict.generation = member.bare.verdict.generation from
    congrArg (fun work => work.verdict.generation) h

/-- The health is part of the bare work. -/
theorem bare_health (h : member'.bare = member.bare) :
    member'.verdict.health = member.verdict.health :=
  show member'.bare.verdict.health = member.bare.verdict.health from
    congrArg (fun work => work.verdict.health) h

/-- The administrative state is part of the bare work. -/
theorem bare_admin (h : member'.bare = member.bare) :
    member'.verdict.admin = member.verdict.admin :=
  show member'.bare.verdict.admin = member.bare.verdict.admin from
    congrArg (fun work => work.verdict.admin) h

/-- The domains are part of the bare work. -/
theorem bare_domains (h : member'.bare = member.bare) :
    member'.verdict.domains = member.verdict.domains :=
  show member'.bare.verdict.domains = member.bare.verdict.domains from
    congrArg (fun work => work.verdict.domains) h

/-- The same member has the same reason as a listed one. -/
theorem SameMember.listedReason (h : SameMember members members' rack) :
    listedReason members' id rack = listedReason members id rack := by
  rw [PodFabric.listedReason, PodFabric.listedReason]
  rcases h.cases with ⟨hnone, hnone'⟩ | ⟨member, member', hfind, hfind', hbare⟩
  · rw [hnone, hnone']
  · rw [hfind, hfind']
    dsimp only
    rw [bare_record hbare, bare_domains hbare]

/-- The same member is serviceable in both. -/
theorem SameMember.serviceable (h : SameMember members members' rack) :
    serviceable members' rack = serviceable members rack := by
  rw [PodFabric.serviceable, PodFabric.serviceable]
  rcases h.cases with ⟨hnone, hnone'⟩ | ⟨member, member', hfind, hfind', hbare⟩
  · rw [hnone, hnone']
  · rw [hfind, hfind']
    dsimp only
    rw [bare_established hbare, bare_connectivityUsable hbare]

/-- The check of a domain reads the racks that it lists, and those that declare it. -/
theorem checkDomain_congr {work : DomainWork}
    (hlisted : ∀ rack ∈ work.declared, SameMember members members' rack)
    (hdeclaring : members'.filterMap (declaringReason work.declared work.id) =
      members.filterMap (declaringReason work.declared work.id)) :
    checkDomain members' work = checkDomain members work := by
  have hreasons : work.declared.filterMap (listedReason members' work.id) =
      work.declared.filterMap (listedReason members work.id) :=
    List.filterMap_congr fun rack hrack => (hlisted rack hrack).listedReason
  have heffective : work.declared.filter (serviceable members') =
      work.declared.filter (serviceable members) :=
    List.filter_congr fun rack hrack => (hlisted rack hrack).serviceable
  unfold checkDomain
  rw [hreasons, hdeclaring, heffective]

/-- The overlaps of a rack read the kinds of the domains that it declares. -/
theorem overlapGroups_congr (hdomains : member'.verdict.domains = member.verdict.domains)
    (hkinds : ∀ id ∈ member.verdict.domains, kindIn domains' id = kindIn domains id) :
    overlapGroups domains' member' = overlapGroups domains member := by
  unfold overlapGroups
  refine congrArg (List.filter _) (List.map_congr_left fun kind _ => ?_)
  have hids : (member'.verdict.domains.filter fun id => kindIn domains' id = kind) =
      member.verdict.domains.filter fun id => kindIn domains id = kind := by
    rw [hdomains]
    exact List.filter_congr fun id hid => by rw [hkinds id hid]
  exact congrArg (fun ids => if 2 ≤ ids.length then ids else []) hids

/-- The groups of a rack hold domains that it declares. -/
theorem overlapGroups_sub {ids : List DomainId} (hids : ids ∈ overlapGroups domains member)
    (hid : id ∈ ids) : id ∈ member.verdict.domains := by
  obtain ⟨hids, -⟩ := List.mem_filter.1 hids
  obtain ⟨kind, -, rfl⟩ := List.mem_map.1 hids
  rw [overlapping] at hid
  split at hid
  · exact (List.mem_filter.1 hid).1
  · exact absurd hid List.not_mem_nil

end Checks

namespace Succeeds
variable {request request' : CompositionRequest} {p p' : Passes} {calm : DepKey → Prop}
  {rack : RackId} {id : DomainId}

/-- The covered racks are judged in order. -/
theorem initial_ascending (request : CompositionRequest) :
    Ascending MemberWork.rack (initialMembers request) :=
  Ascending.of_keys (fun _ => memberWork_rack) (canonicalise_pairwise _)

/-- A rack that is found declares what its record does. -/
theorem found_domains {member : MemberWork}
    (hfind : findMember (initialMembers request) rack = some member) :
    id ∈ member.verdict.domains ↔ id ∈ request.snapshot.domainsOf rack := by
  obtain ⟨-, rfl⟩ := PodFabric.findMember_initial.1 hfind
  exact mem_memberWork_domains

/-- A calm rack is the same member in both rounds. -/
theorem sameMember_initial (h : Succeeds request p request' p' calm)
    (hcalm : calm (memberKey rack)) :
    SameMember (initialMembers request) (initialMembers request') rack := by
  have hbare (found : Option MemberWork) : found.map MemberWork.bare =
      (found.map MemberWork.settled).map MemberWork.bare := by
    rw [Option.map_map]
    rfl
  rw [SameMember, hbare, h.findMember_initial hcalm, ← hbare]

/-- A calm domain is read alike. -/
theorem newDomain_eq (h : Succeeds request p request' p' calm) (hcalm : calm (domainKey id)) :
    newDomain request'.snapshot id = newDomain request.snapshot id := by
  rw [newDomain, newDomain, findRev?_eq_find? h.ascends'.domains.nodup,
    findRev?_eq_find? h.ascends.domains.nodup, h.calm.domain hcalm]

/-- A calm domain has the same kind. -/
theorem kindOf_eq (h : Succeeds request p request' p' calm) (hcalm : calm (domainKey id)) :
    request'.snapshot.kindOf id = request.snapshot.kindOf id := by
  rw [PodSnapshot.kindOf, PodSnapshot.kindOf, h.calm.domain hcalm]

/-- A calm domain is declared by both snapshots or by neither. -/
theorem declares_iff (h : Succeeds request p request' p' calm) (hcalm : calm (domainKey id)) :
    request'.snapshot.Declares id ↔ request.snapshot.Declares id := by
  have hsome (snapshot : PodSnapshot) : snapshot.Declares id ↔
      (snapshot.domains.find? fun d => d.id = id).isSome = true := by
    simp [PodSnapshot.Declares]
  rw [hsome, hsome, h.calm.domain hcalm]

/-- The overlaps of a rack are as before if it and the domains that it declares are calm. -/
theorem overlapGroups_eq (h : Succeeds request p request' p' calm) {member member' : MemberWork}
    (hfind : findMember (initialMembers request) rack = some member)
    (hbare : member'.bare = member.bare)
    (hkin : ∀ id ∈ request.snapshot.domainsOf rack, calm (domainKey id)) :
    overlapGroups (checkedDomains request'.snapshot (initialMembers request')) member' =
      overlapGroups (checkedDomains request.snapshot (initialMembers request)) member := by
  refine overlapGroups_congr (bare_domains hbare) fun id hid => ?_
  rw [kindIn_checked h.ascends'.domains.nodup, kindIn_checked h.ascends.domains.nodup]
  exact h.kindOf_eq (hkin id ((found_domains hfind).1 hid))

/-- What is kept of the racks that declare a domain is as before, if these are calm. -/
theorem gathered_eq {α : Type} (h : Succeeds request p request' p' calm)
    {f f' : MemberWork → List α}
    (hdeclaring : ∀ rack, id ∈ request.snapshot.domainsOf rack ∨
      id ∈ request'.snapshot.domainsOf rack → calm (memberKey rack))
    (hsame : ∀ rack member member', findMember (initialMembers request) rack = some member →
      member'.bare = member.bare → id ∈ request.snapshot.domainsOf rack → f' member' = f member)
    (hnone : ∀ member : MemberWork, id ∉ member.verdict.domains → f member = [] ∧ f' member = []) :
    (initialMembers request').flatMap f' = (initialMembers request).flatMap f := by
  have silent {request : CompositionRequest} {f : MemberWork → List α} (k : RackId)
      (hk : id ∉ request.snapshot.domainsOf k)
      (hnone : ∀ member : MemberWork, id ∉ member.verdict.domains → f member = []) :
      ((initialMembers request).find? fun m => m.rack = k).elim [] f = [] := by
    cases hfind : (initialMembers request).find? fun m => m.rack = k with
    | none => rfl
    | some member => exact hnone member fun hid => hk ((found_domains hfind).1 hid)
  refine (initial_ascending request').flatMap_eq (initial_ascending request) fun k => ?_
  by_cases hk : id ∈ request.snapshot.domainsOf k
  · have hcalm := hdeclaring k (.inl hk)
    rcases (h.sameMember_initial hcalm).cases with ⟨hfind, hfind'⟩ |
      ⟨member, member', hfind, hfind', hbare⟩
    · rw [findMember] at hfind hfind'
      rw [hfind, hfind']
      rfl
    · have hf := hsame k member member' hfind hbare hk
      rw [findMember] at hfind hfind'
      rw [hfind, hfind']
      exact hf
  · by_cases hk' : id ∈ request'.snapshot.domainsOf k
    · rw [h.domainsOf_eq (hdeclaring k (.inr hk'))] at hk'
      exact absurd hk' hk
    · rw [silent k hk' fun member hid => (hnone member hid).2,
        silent k hk fun member hid => (hnone member hid).1]

/-- Everything that the verdict on the domain reads is calm, in both rounds. -/
def DomainCalm (request request' : CompositionRequest) (calm : DepKey → Prop) (id : DomainId) :
    Prop :=
  ∀ key, DomainReads request.snapshot id key ∨ DomainReads request'.snapshot id key → calm key

/-- The racks that name a calm domain are calm. -/
theorem declaring_calm (hcalm : DomainCalm request request' calm id) :
    ∀ rack, id ∈ request.snapshot.domainsOf rack ∨ id ∈ request'.snapshot.domainsOf rack →
      calm (memberKey rack) := by
  rintro rack (hid | hid)
  · exact hcalm _ (.inl (.declaring hid))
  · exact hcalm _ (.inr (.declaring hid))

/-- A calm domain is named by both snapshots or by neither. -/
theorem names_iff (h : Succeeds request p request' p' calm)
    (hcalm : DomainCalm request request' calm id) :
    request'.snapshot.Names id ↔ request.snapshot.Names id := by
  rw [PodSnapshot.Names, PodSnapshot.Names, h.declares_iff (hcalm _ (.inl .own))]
  refine or_congr Iff.rfl (exists_congr fun rack => ?_)
  constructor
  · intro hid
    rwa [h.domainsOf_eq (hcalm _ (.inr (.declaring hid)))] at hid
  · intro hid
    rwa [h.domainsOf_eq (hcalm _ (.inl (.declaring hid)))]

/-- The covered domains are those the snapshot names. -/
theorem mem_coveredDomains (request : CompositionRequest) :
    id ∈ coveredDomains request.snapshot (initialMembers request) ↔ request.snapshot.Names id := by
  rw [coveredDomains, mem_canonicalise, List.mem_append, PodSnapshot.Names, PodSnapshot.Declares,
    List.mem_map, List.mem_flatMap]
  refine or_congr Iff.rfl ⟨?_, ?_⟩
  · rintro ⟨work, hwork, hid⟩
    obtain ⟨rack, -, rfl⟩ := List.mem_map.1 hwork
    exact ⟨rack, mem_memberWork_domains.1 hid⟩
  · rintro ⟨rack, hid⟩
    have hcovered := (PodSnapshot.describes_of_domain hid).covered
    exact ⟨_, List.mem_map_of_mem hcovered, mem_memberWork_domains.2 hid⟩

/-- A calm domain is checked alike. -/
theorem checkDomain_eq (h : Succeeds request p request' p' calm)
    (hcalm : DomainCalm request request' calm id) :
    checkDomain (initialMembers request') (newDomain request'.snapshot id) =
      checkDomain (initialMembers request) (newDomain request.snapshot id) := by
  rw [h.newDomain_eq (hcalm _ (.inl .own))]
  refine checkDomain_congr (fun rack hrack => h.sameMember_initial (hcalm _ (.inl (.listed ?_)))) ?_
  · exact (newDomain_declared h.ascends.domains.nodup).1 hrack
  · rw [newDomain_id, List.filterMap_eq_flatMap_toList, List.filterMap_eq_flatMap_toList]
    refine h.gathered_eq (declaring_calm hcalm) (fun rack member member' _ hbare _ => ?_)
      fun member hid => ?_
    · rw [declaringReason, declaringReason, bare_domains hbare, bare_rack hbare]
    · rw [declaringReason, if_neg fun hboth => hid hboth.1]
      exact ⟨rfl, rfl⟩

/-- A domain of which all that it reads is calm gets the same verdict. -/
theorem findDomain_eq (h : Succeeds request p request' p' calm)
    (hcalm : DomainCalm request request' calm id) :
    findDomain p'.findings.domains id = findDomain p.findings.domains id := by
  have hfind {request : CompositionRequest} {p : Passes} (hp : PassesOf request p) :
      findDomain p.findings.domains id =
        if id ∈ coveredDomains request.snapshot (initialMembers request) then
          some (markOverlap (checkedDomains request.snapshot (initialMembers request))
            (initialMembers request)
            (checkDomain (initialMembers request) (newDomain request.snapshot id)))
        else none := by
    rw [hp.domains, checkedDomains, List.map_map, ← checkedDomains]
    exact Ascending.find?_keys
      (fun _ => markOverlap_id.trans (checkDomain_id.trans newDomain_id)) _ id
  have hgroups : ((initialMembers request').flatMap
        (overlapGroups (checkedDomains request'.snapshot (initialMembers request')))).filter
          (fun ids => id ∈ ids) =
      ((initialMembers request).flatMap
        (overlapGroups (checkedDomains request.snapshot (initialMembers request)))).filter
          fun ids => id ∈ ids := by
    rw [List.filter_flatMap, List.filter_flatMap]
    refine h.gathered_eq (declaring_calm hcalm) (fun rack member member' hfind hbare hid => ?_)
      fun member hid => ⟨?_, ?_⟩
    · rw [h.overlapGroups_eq hfind hbare fun other hother =>
        hcalm _ (.inl (.sibling hid hother))]
    · exact List.filter_eq_nil_iff.2 fun ids hids hmem =>
        hid (overlapGroups_sub hids (of_decide_eq_true hmem))
    · exact List.filter_eq_nil_iff.2 fun ids hids hmem =>
        hid (overlapGroups_sub hids (of_decide_eq_true hmem))
  have hcovered : id ∈ coveredDomains request'.snapshot (initialMembers request') ↔
      id ∈ coveredDomains request.snapshot (initialMembers request) := by
    rw [mem_coveredDomains, mem_coveredDomains, h.names_iff hcalm]
  rw [hfind h.passes', hfind h.passes, h.checkDomain_eq hcalm]
  refine if_congr hcovered (congrArg some ?_) rfl
  rw [markOverlap, markOverlap, checkDomain_id, newDomain_id, hgroups]

/-- A rack that is calm is found with the same bare record among the members. -/
theorem sameMember (h : Succeeds request p request' p' calm) (hcalm : calm (memberKey rack)) :
    SameMember p.findings.members p'.findings.members rack := by
  have hbare {request : CompositionRequest} {p : Passes} (hp : PassesOf request p) :
      (findMember p.findings.members rack).map MemberWork.bare =
        (findMember (initialMembers request) rack).map MemberWork.bare := by
    rw [hp.members, findMember, findMember, List.find?_map, Option.map_map]
    rfl
  rw [SameMember, hbare h.passes', hbare h.passes]
  exact h.sameMember_initial hcalm

/-- A rack that is calm with the domains that it declares gets the same verdict. -/
theorem findMember_settled (h : Succeeds request p request' p' calm)
    (hcalm : ∀ key, Reads request.snapshot (.member rack) key → calm key) :
    (findMember p'.findings.members rack).map MemberWork.settled =
      (findMember p.findings.members rack).map MemberWork.settled := by
  have hfind {request : CompositionRequest} {p : Passes} (hp : PassesOf request p) :
      (findMember p.findings.members rack).map MemberWork.settled =
        (findMember (initialMembers request) rack).map fun member =>
          (noteOverlap (checkedDomains request.snapshot (initialMembers request))
            member).settled := by
    rw [hp.members, findMember, findMember, List.find?_map, Option.map_map]
    rfl
  rw [hfind h.passes', hfind h.passes]
  have hsettled := h.findMember_initial (hcalm _ .member)
  rcases (h.sameMember_initial (hcalm _ .member)).cases with ⟨hnone, hnone'⟩ |
    ⟨member, member', hmember, hmember', hbare⟩
  · rw [hnone, hnone', Option.map_none, Option.map_none]
  · rw [hmember, hmember', Option.map_some, Option.map_some, Option.some.injEq] at hsettled
    have hgroups := h.overlapGroups_eq hmember hbare fun id hid => hcalm _ (.kin hid)
    rw [hmember, hmember', Option.map_some, Option.map_some]
    have hnote (domains : List DomainWork) (member : MemberWork) :
        (noteOverlap domains member).settled = { member.settled with
          verdict := { member.settled.verdict with
            reasons := member.settled.verdict.reasons ++
              (overlapGroups domains member).map fun _ => ⟨.domainOverlap,
                "the rack belongs to more than one failure domain of the same kind"⟩ } } := rfl
    rw [hnote, hnote, hgroups, hsettled]

end Succeeds

end PodFabric
