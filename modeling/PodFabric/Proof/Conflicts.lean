import PodFabric.Proof.Fate

/-!
# Domains in conflict

When a round puts a failure domain in conflict, told from the evidence alone (`Inconsistent`): a
rack that it lists does not declare it, a rack that it does not list declares it, or a rack declares
it together with another domain of its kind.
-/

namespace PodFabric

/-! ## What the evidence says of a domain -/

namespace PodSnapshot

/-- The failure domains that a rack declares. A rack without a single record of its own declares
none. -/
def domainsOf (snapshot : PodSnapshot) (rack : RackId) : List DomainId :=
  match snapshot.members.filter fun member => member.rack = rack with
  | [record] => record.failureDomains
  | _ => []

/-- The domain lists the rack. -/
def Lists (snapshot : PodSnapshot) (id : DomainId) (rack : RackId) : Prop :=
  ∃ record ∈ snapshot.domains, record.id = id ∧ rack ∈ record.members

/-- The snapshot has a record of the rack. -/
def Describes (snapshot : PodSnapshot) (rack : RackId) : Prop :=
  ∃ record ∈ snapshot.members, record.rack = rack

/-- The kind that a domain is declared with. -/
def kindOf (snapshot : PodSnapshot) (id : DomainId) : DomainKind :=
  ((snapshot.domains.find? fun record => record.id = id).map FailureDomainRecord.kind).getD .unknown

/-- The evidence contradicts itself on the domain. -/
inductive Inconsistent (snapshot : PodSnapshot) (id : DomainId) : Prop
  | denied {rack : RackId} (lists : snapshot.Lists id rack) (describes : snapshot.Describes rack)
      (silent : id ∉ snapshot.domainsOf rack)
  | unlisted {rack : RackId} (declares : id ∈ snapshot.domainsOf rack)
      (unlisted : ¬ snapshot.Lists id rack)
  | overlapping {rack : RackId} {other : DomainId} (distinct : other ≠ id)
      (declares : id ∈ snapshot.domainsOf rack) (also : other ∈ snapshot.domainsOf rack)
      (kind : snapshot.kindOf other = snapshot.kindOf id)

end PodSnapshot

/-! ## The checks of a domain -/

section Lists
variable {α : Type} {l : List α} {a b : α}

/-- A list with two different elements has at least two. -/
theorem two_le_length_of_mem (hne : a ≠ b) (ha : a ∈ l) (hb : b ∈ l) : 2 ≤ l.length := by
  match l with
  | [c] => exact absurd ((List.mem_singleton.1 ha).trans (List.mem_singleton.1 hb).symm) hne
  | _ :: _ :: _ => simp

/-- A list of distinct elements, two or more, has one that differs from `a`. -/
theorem exists_mem_ne_of_one_lt (hnodup : l.Nodup) (h : 2 ≤ l.length) (a : α) :
    ∃ b ∈ l, b ≠ a := by
  match l with
  | c :: d :: rest =>
    by_cases hc : c = a
    · refine ⟨d, List.mem_cons_of_mem _ List.mem_cons_self, fun hd => ?_⟩
      exact (List.nodup_cons.1 hnodup).1 (hc.trans hd.symm ▸ List.mem_cons_self)
    · exact ⟨c, List.mem_cons_self, hc⟩

end Lists

section Checks
variable {members : List MemberWork} {domains : List DomainWork} {work : DomainWork}
  {member : MemberWork} {id : DomainId}

/-- A listed rack is in conflict when its own evidence does not name the domain. -/
theorem listedReason_conflict {rack : RackId} :
    (∃ reason, listedReason members id rack = some reason ∧
      reason.code = .domainMembershipConflict) ↔
    ∃ member, findMember members rack = some member ∧ member.record.isSome = true ∧
      id ∉ member.verdict.domains := by
  unfold listedReason
  cases findMember members rack with
  | none => simp
  | some member =>
    cases hrecord : member.record with
    | none => simp [hrecord]
    | some record =>
      by_cases hdomain : id ∈ member.verdict.domains
      · simp [hrecord, hdomain]
      · simp [hrecord, hdomain]

/-- A rack that names a domain is in conflict when the domain does not list it. -/
theorem declaringReason_conflict {declared : List RackId} :
    (∃ reason, declaringReason declared id member = some reason ∧
      reason.code = .domainMembershipConflict) ↔
    id ∈ member.verdict.domains ∧ member.rack ∉ declared := by
  unfold declaringReason
  split
  · next h => exact iff_of_true ⟨_, rfl, rfl⟩ h
  · next h => exact iff_of_false (by rintro ⟨reason, hnone, -⟩; cases hnone) h

/-- A domain is in conflict when a rack that it lists does not declare it, or the other way
round. -/
theorem checkDomain_conflicting : (checkDomain members work).verdict.status = .conflicting ↔
    (∃ rack ∈ work.declared, ∃ member, findMember members rack = some member ∧
      member.record.isSome = true ∧ work.id ∉ member.verdict.domains) ∨
    ∃ member ∈ members, work.id ∈ member.verdict.domains ∧ member.rack ∉ work.declared := by
  have hreasons : ((work.declared.filterMap (listedReason members work.id) ++
      members.filterMap (declaringReason work.declared work.id)).any
        fun reason => reason.code = .domainMembershipConflict) = true ↔
      (∃ rack ∈ work.declared, ∃ member, findMember members rack = some member ∧
        member.record.isSome = true ∧ work.id ∉ member.verdict.domains) ∨
      ∃ member ∈ members, work.id ∈ member.verdict.domains ∧ member.rack ∉ work.declared := by
    simp only [List.any_append, Bool.or_eq_true, List.any_eq_true, List.mem_filterMap,
      decide_eq_true_eq, ← listedReason_conflict, ← declaringReason_conflict]
    constructor
    · rintro (⟨reason, ⟨rack, hrack, hreason⟩, hcode⟩ | ⟨reason, ⟨member, hmember, hreason⟩, hcode⟩)
      · exact .inl ⟨rack, hrack, reason, hreason, hcode⟩
      · exact .inr ⟨member, hmember, reason, hreason, hcode⟩
    · rintro (⟨rack, hrack, reason, hreason, hcode⟩ | ⟨member, hmember, reason, hreason, hcode⟩)
      · exact .inl ⟨reason, ⟨rack, hrack, hreason⟩, hcode⟩
      · exact .inr ⟨reason, ⟨member, hmember, hreason⟩, hcode⟩
  rw [← hreasons]
  unfold checkDomain
  dsimp only
  split
  · next hany => exact iff_of_true rfl hany
  next hnone =>
  refine iff_of_false ?_ hnone
  split
  · exact nofun
  split
  · exact nofun
  split <;> exact nofun

/-- The kind of a domain among the working records. -/
def kindIn (domains : List DomainWork) (id : DomainId) : DomainKind :=
  ((findDomain domains id).map DomainWork.kind).getD .unknown

/-- A group of a rack holds a domain that the rack declares together with another one of its
kind. -/
theorem mem_overlapGroups (hnodup : member.verdict.domains.Nodup) :
    (∃ ids ∈ overlapGroups domains member, id ∈ ids) ↔ id ∈ member.verdict.domains ∧
      ∃ other ∈ member.verdict.domains, other ≠ id ∧ kindIn domains other = kindIn domains id := by
  have hall : ∀ kind, kind ∈ DomainKind.all := fun kind => by cases kind <;> decide
  unfold overlapGroups overlapping
  simp only [List.mem_filter, List.mem_map, decide_eq_true_eq]
  constructor
  · rintro ⟨ids, ⟨⟨kind, -, rfl⟩, -⟩, hid⟩
    split at hid
    · next hmany =>
      obtain ⟨hdomain, hkind⟩ := List.mem_filter.1 hid
      obtain ⟨other, hother, hne⟩ := exists_mem_ne_of_one_lt (hnodup.filter _) hmany id
      obtain ⟨hin, hsame⟩ := List.mem_filter.1 hother
      simp only [decide_eq_true_eq] at hkind hsame
      exact ⟨hdomain, other, hin, hne, hsame.trans hkind.symm⟩
    · cases hid
  · rintro ⟨hdomain, other, hin, hne, hsame⟩
    have hmem : ∀ {d}, d ∈ member.verdict.domains →
        kindIn domains d = kindIn domains id →
        d ∈ member.verdict.domains.filter fun d => kindIn domains d = kindIn domains id :=
      fun hd hkind => List.mem_filter.2 ⟨hd, by simpa using hkind⟩
    have hmany := two_le_length_of_mem hne (hmem hin hsame) (hmem hdomain rfl)
    refine ⟨_, ⟨⟨kindIn domains id, hall _, if_pos hmany⟩, ?_⟩, hmem hdomain rfl⟩
    exact List.ne_nil_of_mem (hmem hdomain rfl)

/-- A domain is marked when it was in conflict before, or when a rack is in several of a kind. -/
theorem markOverlap_conflicting :
    (markOverlap domains members work).verdict.status = .conflicting ↔
      work.verdict.status = .conflicting ∨
        ∃ member ∈ members, ∃ ids ∈ overlapGroups domains member, work.id ∈ ids := by
  unfold markOverlap
  dsimp only
  split
  · next hnone =>
    refine (or_iff_left ?_).symm
    rintro ⟨member, hmember, ids, hids, hid⟩
    have hin : ids ∈ (members.flatMap (overlapGroups domains)).filter fun ids => work.id ∈ ids :=
      List.mem_filter.2 ⟨List.mem_flatMap.2 ⟨member, hmember, hids⟩, by simpa using hid⟩
    rw [hnone] at hin
    cases hin
  · next hsome =>
    refine iff_of_true rfl (.inr ?_)
    obtain ⟨ids, hids⟩ := List.exists_mem_of_ne_nil _ hsome
    obtain ⟨hin, hid⟩ := List.mem_filter.1 hids
    obtain ⟨member, hmember, hgroup⟩ := List.mem_flatMap.1 hin
    exact ⟨member, hmember, ids, hgroup, by simpa using hid⟩

end Checks

/-! ## The domains of the passes -/

section Passes
variable {request : CompositionRequest} {p : Passes} {snapshot : PodSnapshot} {id : DomainId}
  {rack : RackId} {work : DomainWork}

/-- The verdict on a rack carries the domains that its single record declares. -/
theorem mem_memberWork_domains : id ∈ (memberWork request rack).verdict.domains ↔
    id ∈ request.snapshot.domainsOf rack := by
  unfold PodSnapshot.domainsOf
  rcases @evaluateMember_cases request.policy request.snapshot.observedAt rack
    (request.snapshot.members.filter fun member => member.rack = rack)
    (request.context.expectations.findRev? fun expectation => expectation.rack = rack) with
    ⟨record, hrecord, hjudged⟩ | ⟨hnot, -, -, hnone⟩
  · have hreports : Reports (memberWork request rack).verdict record := by
      cases hjudged with
      | withheld _ reports => exact reports
      | established _ reports => exact reports
    rw [hreports.domains, hrecord]
    exact mem_canonicalise
  · rw [show (memberWork request rack).verdict.domains = [] from hnone]
    split
    · next record hrecord => exact absurd hrecord (hnot record)
    · exact Iff.rfl

/-- A rack's domains are listed once each. -/
theorem memberWork_domains_nodup : (memberWork request rack).verdict.domains.Nodup := by
  rcases @evaluateMember_cases request.policy request.snapshot.observedAt rack
    (request.snapshot.members.filter fun member => member.rack = rack)
    (request.context.expectations.findRev? fun expectation => expectation.rack = rack) with
    ⟨record, hrecord, hjudged⟩ | ⟨hnot, -, -, hnone⟩
  · have hreports : Reports (memberWork request rack).verdict record := by
      cases hjudged with
      | withheld _ reports => exact reports
      | established _ reports => exact reports
    rw [hreports.domains]
    exact canonicalise_nodup _
  · rw [show (memberWork request rack).verdict.domains = [] from hnone]
    exact List.nodup_nil

/-- The working record of a rack has a member record just when the snapshot describes the rack. -/
theorem memberWork_record : (memberWork request rack).record.isSome = true ↔
    request.snapshot.Describes rack := by
  rw [memberWork_head, Option.isSome_iff_ne_none, ne_eq, List.head?_eq_none_iff,
    List.filter_eq_nil_iff, PodSnapshot.Describes]
  simp

/-- The racks there is work on are the covered ones. -/
theorem findMember_initial {member : MemberWork} :
    findMember (initialMembers request) rack = some member ↔
      rack ∈ coveredRacks request ∧ memberWork request rack = member := by
  constructor
  · intro hfind
    obtain ⟨rack', hcovered, rfl⟩ := List.mem_map.1 (mem_of_findMember hfind)
    obtain rfl : rack' = rack := memberWork_rack.symm.trans (findMember_rack hfind)
    exact ⟨hcovered, rfl⟩
  · rintro ⟨hcovered, rfl⟩
    have hsome : (findMember (initialMembers request) rack).isSome = true :=
      List.find?_isSome.2 ⟨_, List.mem_map_of_mem hcovered, by simp⟩
    obtain ⟨member, hfind⟩ := Option.isSome_iff_exists.1 hsome
    obtain ⟨rack', -, rfl⟩ := List.mem_map.1 (mem_of_findMember hfind)
    obtain rfl : rack' = rack := memberWork_rack.symm.trans (findMember_rack hfind)
    exact hfind

/-- A rack that the snapshot describes is covered. -/
theorem PodSnapshot.Describes.covered (h : request.snapshot.Describes rack) :
    rack ∈ coveredRacks request := by
  obtain ⟨record, hrecord, rfl⟩ := h
  exact mem_canonicalise.2 (List.mem_append_left _ (List.mem_map_of_mem hrecord))

/-- A rack that declares a domain is described. -/
theorem PodSnapshot.describes_of_domain (h : id ∈ snapshot.domainsOf rack) :
    snapshot.Describes rack := by
  unfold domainsOf at h
  split at h
  · next record hrecord =>
    have hmem : record ∈ snapshot.members.filter fun member => member.rack = rack :=
      hrecord ▸ List.mem_singleton_self record
    obtain ⟨hin, hrack⟩ := List.mem_filter.1 hmem
    exact ⟨record, hin, by simpa using hrack⟩
  · cases h

/-! ### Declared domains -/

/-- The racks of a domain are those its record lists. -/
theorem newDomain_declared (hids : (snapshot.domains.map FailureDomainRecord.id).Nodup) :
    rack ∈ (newDomain snapshot id).declared ↔ snapshot.Lists id rack := by
  unfold newDomain PodSnapshot.Lists
  rw [findRev?_eq_find? hids]
  cases hfind : snapshot.domains.find? fun record => record.id = id with
  | none =>
    refine iff_of_false List.not_mem_nil ?_
    rintro ⟨record, hrecord, hid, -⟩
    exact List.find?_eq_none.1 hfind record hrecord (by simpa using hid)
  | some record =>
    have hin := List.mem_of_find?_eq_some hfind
    have hid : record.id = id := by simpa using List.find?_some hfind
    refine mem_canonicalise.trans ⟨fun hrack => ⟨record, hin, hid, hrack⟩, ?_⟩
    rintro ⟨record', hin', hid', hrack⟩
    rwa [← List.inj_on_of_nodup_map hids hin' hin (hid'.trans hid.symm)]

/-- The kind of a domain is the one its record declares. -/
theorem newDomain_kind (hids : (snapshot.domains.map FailureDomainRecord.id).Nodup) :
    (newDomain snapshot id).kind = snapshot.kindOf id := by
  unfold newDomain PodSnapshot.kindOf
  rw [findRev?_eq_find? hids]
  cases snapshot.domains.find? fun record => record.id = id <;> rfl

/-- Checking a domain leaves its kind. -/
theorem checkDomain_kind {members : List MemberWork} :
    (checkDomain members work).kind = work.kind := by
  unfold checkDomain
  dsimp only
  repeat' split
  all_goals rfl

/-- The kind of a checked domain is the one its record declares. -/
theorem kindIn_checked (hids : (snapshot.domains.map FailureDomainRecord.id).Nodup)
    {members : List MemberWork} :
    kindIn (checkedDomains snapshot members) id = snapshot.kindOf id := by
  unfold kindIn
  cases hfind : findDomain (checkedDomains snapshot members) id with
  | some work =>
    obtain ⟨hwork, rfl⟩ := findDomain_id hfind
    obtain ⟨id, -, rfl⟩ := List.mem_map.1 hwork
    rw [checkDomain_id, newDomain_id, ← newDomain_kind hids]
    exact checkDomain_kind
  | none =>
    -- a domain that is not covered is not declared
    have hnone : snapshot.domains.find? (fun record => record.id = id) = none := by
      rw [List.find?_eq_none]
      intro record hrecord hid
      have hcovered : id ∈ coveredDomains snapshot members := mem_canonicalise.2
        (List.mem_append_left _ (List.mem_map.2 ⟨record, hrecord, by simpa using hid⟩))
      refine List.find?_eq_none.1 hfind _ (List.mem_map_of_mem hcovered) ?_
      simp [checkDomain_id, newDomain_id]
    rw [PodSnapshot.kindOf, hnone]
    rfl

/-- A domain is in conflict just when the evidence contradicts itself on it. -/
theorem PassesOf.conflicting_iff (h : PassesOf request p)
    (hids : (request.snapshot.domains.map FailureDomainRecord.id).Nodup)
    (hw : work ∈ p.findings.domains) :
    work.verdict.status = .conflicting ↔ request.snapshot.Inconsistent work.id := by
  rw [h.domains] at hw
  obtain ⟨checked, hchecked, rfl⟩ := List.mem_map.1 hw
  obtain ⟨id, -, rfl⟩ := List.mem_map.1 hchecked
  rw [markOverlap_conflicting, markOverlap_id, checkDomain_conflicting]
  simp only [checkDomain_id, newDomain_id, newDomain_declared hids, findMember_initial]
  constructor
  · rintro ((⟨rack, hlists, member, ⟨hcovered, rfl⟩, hrecord, hsilent⟩ |
      ⟨member, hmember, hdeclares, hunlisted⟩) | ⟨member, hmember, hgroup⟩)
    · exact .denied hlists (memberWork_record.1 hrecord) (mt mem_memberWork_domains.2 hsilent)
    · obtain ⟨rack, -, rfl⟩ := List.mem_map.1 hmember
      rw [memberWork_rack] at hunlisted
      exact .unlisted (mem_memberWork_domains.1 hdeclares) hunlisted
    · obtain ⟨rack, -, rfl⟩ := List.mem_map.1 hmember
      obtain ⟨hdeclares, other, halso, hne, hkind⟩ :=
        (mem_overlapGroups memberWork_domains_nodup).1 hgroup
      rw [kindIn_checked hids, kindIn_checked hids] at hkind
      exact .overlapping hne (mem_memberWork_domains.1 hdeclares) (mem_memberWork_domains.1 halso)
        hkind
  · intro hinconsistent
    cases hinconsistent with
    | @denied rack lists describes silent =>
      exact .inl (.inl ⟨rack, lists, _, ⟨describes.covered, rfl⟩, memberWork_record.2 describes,
        mt mem_memberWork_domains.1 silent⟩)
    | @unlisted rack declares unlisted =>
      have hcovered := (PodSnapshot.describes_of_domain declares).covered
      refine .inl (.inr ⟨_, List.mem_map_of_mem hcovered, mem_memberWork_domains.2 declares, ?_⟩)
      rwa [memberWork_rack]
    | @overlapping rack other distinct declares also kind =>
      have hcovered := (PodSnapshot.describes_of_domain declares).covered
      refine .inr ⟨_, List.mem_map_of_mem hcovered, (mem_overlapGroups memberWork_domains_nodup).2
        ⟨mem_memberWork_domains.2 declares, other, mem_memberWork_domains.2 also, distinct, ?_⟩⟩
      rwa [kindIn_checked hids, kindIn_checked hids]

end Passes

end PodFabric
