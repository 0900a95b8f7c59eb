import PodFabric.Proof.Arrival
import PodFabric.Proof.Coverage

/-!
# What the order of member records can choose

Any record of a rack can come first, and only the first is checked (`firstRecords_head`). Where
several records claim one rack, the capacity of the pod shows the claims of the first, each with the
reason why it is not counted (`PassesOf.shows_first`).
-/

namespace PodFabric

open List

/-! ## Rearranging a request -/

/-- The request with the records of its snapshot in another order. -/
def CompositionRequest.arranged (request : CompositionRequest) (members : List MemberRecord)
    (links : List LinkRecord) (routes : List RouteEvidence) (obligations : List Obligation) :
    CompositionRequest :=
  { request with
    snapshot := { request.snapshot with members, links, routes, obligations } }

/-- Records may come in any order. -/
theorem arranged_rearranged {request : CompositionRequest} {members : List MemberRecord}
    {links : List LinkRecord} {routes : List RouteEvidence} {obligations : List Obligation}
    (hmembers : request.snapshot.members ~ members) (hlinks : request.snapshot.links ~ links)
    (hroutes : request.snapshot.routes ~ routes)
    (hobligations : request.snapshot.obligations ~ obligations) :
    Rearranged request (request.arranged members links routes obligations) where
  policy := rfl
  snapshot := rfl
  context := rfl
  members := hmembers
  links := hlinks
  routes := hroutes
  domains := .refl _
  obligations := hobligations
  expectations := .refl _
  granted := .refl _
  revoked := .refl _

/-! ## Contested racks -/

/-- What is shown of a claim to a rack that is not established. -/
def CapacityClaim.withheld (claim : CapacityClaim) (rack : RackId) : CapacityContribution where
  owner := rack
  exclusivity := claim.exclusivity
  amount := claim.amount
  reserved := claim.reserved
  domain := claim.domain
  provenance := claim.provenance
  counted := false
  notCountedReason :=
    ⟨.memberFenced, "capacity from a rack that is not established is not counted"⟩

/-- What is settled is counted, or not counted because of another claim. -/
theorem settle_reasons {usable : List LedgerClaim} {s : Settlement} (h : settle usable = some s)
    {c : CapacityContribution} (hc : c ∈ s.winner :: s.dropped) :
    c.counted = true ∨ c.notCountedReason = settlementReason s.conflict := by
  unfold settle at h
  split at h
  · cases h
  · cases h
    rcases List.mem_cons.1 hc with rfl | hdropped
    · exact .inl rfl
    · obtain ⟨other, -, rfl⟩ := List.mem_map.1 hdropped
      exact .inr rfl

/-- A contribution that no other claim stands for is one of a suppressed entry. -/
theorem mem_suppressed {ledger : CapacityLedger} {resource : ResourceClass}
    {c : CapacityContribution} (hout : c.counted = false)
    (hreason : ∀ conflict, c.notCountedReason ≠ settlementReason conflict) :
    c ∈ (ledger.freezeResource resource).contributions ↔ ∃ e ∈ ledger.entries,
      e.claim.resource = resource ∧ e.suppressed.map (e.claim.contribution false) = some c := by
  rw [freezeResource_tallied.contributions, slots_eq, List.flatMap_map]
  simp only [List.mem_flatMap]
  constructor
  · rintro ⟨key, -, hshown⟩
    rcases List.mem_append.1 hshown with huncounted | hsettled
    · obtain ⟨e, he, hsome⟩ := List.mem_filterMap.1 huncounted
      have hin := (List.mem_filter.1 he).1
      obtain ⟨hin, hresource⟩ := List.mem_filter.1 hin
      exact ⟨e, hin, of_decide_eq_true hresource, hsome⟩
    · split at hsettled
      · cases hsettled
      next s hs =>
      rcases settle_reasons hs hsettled with hcounted | hother
      · rw [hout] at hcounted
        cases hcounted
      · exact absurd hother (hreason _)
  · rintro ⟨e, he, hresource, hsome⟩
    have hin : e ∈ entriesOf ledger.entries resource :=
      List.mem_filter.2 ⟨he, decide_eq_true hresource⟩
    refine ⟨e.claim.exclusivity, mem_slotKeys hin, List.mem_append_left _ ?_⟩
    exact List.mem_filterMap.2 ⟨e, List.mem_filter.2 ⟨hin, decide_eq_true rfl⟩, hsome⟩

section Contested
variable {request : CompositionRequest} {p : Passes} {rack : RackId} {first : MemberRecord}
  {work : MemberWork} {claim : CapacityClaim}

/-- The work on a rack keeps a record that comes first. -/
theorem memberWork_first {rest : List MemberRecord}
    (hmembers : request.snapshot.members = first :: rest) (hrack : first.rack = rack) :
    (memberWork request rack).record = some first := by
  rw [memberWork_head, hmembers, List.filter_cons, if_pos (decide_eq_true hrack), List.head?_cons]

/-- A rack with two different records is not established. -/
theorem memberWork_contested {member member' : MemberRecord}
    (hmember : member ∈ request.snapshot.members) (hmember' : member' ∈ request.snapshot.members)
    (hrack : member.rack = rack) (hrack' : member'.rack = rack) (hne : member ≠ member') :
    (memberWork request rack).established = false := by
  rcases @evaluateMember_cases request.policy request.snapshot.observedAt rack
    (request.snapshot.members.filter fun member => member.rack = rack)
    (request.context.expectations.findRev? fun expectation => expectation.rack = rack) with
    ⟨record, hone, -⟩ | ⟨-, hwithheld, -, -⟩
  · have hin {m : MemberRecord} (hm : m ∈ request.snapshot.members) (hr : m.rack = rack) :
        m = record := by
      have hmem : m ∈ request.snapshot.members.filter fun member => member.rack = rack :=
        List.mem_filter.2 ⟨hm, decide_eq_true hr⟩
      rw [hone] at hmem
      exact List.mem_singleton.1 hmem
    exact absurd ((hin hmember hrack).trans (hin hmember' hrack').symm) hne
  · exact hwithheld.established

/-- The entries of a rack are its own. -/
theorem memberEntries_owner {e : LedgerEntry} (he : e ∈ memberEntries work) :
    e.claim.owner = work.rack := by
  unfold memberEntries at he
  split at he
  · cases he
  · obtain ⟨claim, -, rfl⟩ := List.mem_map.1 he
    rfl

/-- A claim to a rack that is not established is suppressed. -/
theorem ledgerEntry_withheld (hout : work.established = false) :
    (ledgerEntry work claim).suppressed.map ((ledgerEntry work claim).claim.contribution false) =
      some (claim.withheld work.rack) := by
  simp [ledgerEntry, hout, LedgerClaim.contribution, CapacityClaim.withheld]

/-- The claims of a rack that is not established are those shown of its first record. -/
theorem PassesOf.shows_first (h : PassesOf request p) (hrack : rack ∈ coveredRacks request)
    (hout : (memberWork request rack).established = false)
    (hfirst : (memberWork request rack).record = some first) :
    claim ∈ first.capacity ↔ ∃ aggregate ∈ p.findings.capacity,
      aggregate.resource = claim.resource ∧ claim.withheld rack ∈ aggregate.contributions := by
  obtain ⟨ledger, hledger, hcapacity, -⟩ := h.ledger
  obtain ⟨-, rfl⟩ := recordAll_iff.1 hledger
  rw [hcapacity]
  obtain ⟨work, hwork, hname, hwithheld, hrecord, hunique⟩ : ∃ work ∈ p.findings.members,
      work.rack = rack ∧ work.established = false ∧ work.record = some first ∧
        ∀ other ∈ p.findings.members, other.rack = rack → other = work := by
    refine ⟨_, h.mem_members.2 ⟨rack, hrack, rfl⟩, memberWork_rack, hout, hfirst, ?_⟩
    intro other hother hsame
    obtain ⟨rack', -, rfl⟩ := h.mem_members.1 hother
    rw [show rack' = rack from memberWork_rack.symm.trans hsame]
  have hentries : memberEntries work = first.capacity.map (ledgerEntry work) :=
    memberEntries_of_record hrecord
  have hreason (conflict : Bool) : (claim.withheld rack).notCountedReason ≠
      settlementReason conflict := by
    cases conflict <;> nofun
  constructor
  · intro hclaim
    have he : ledgerEntry work claim ∈ p.findings.members.flatMap memberEntries :=
      List.mem_flatMap.2 ⟨work, hwork, hentries ▸ List.mem_map_of_mem hclaim⟩
    refine ⟨_, List.mem_map_of_mem (mem_canonicalise.2 (List.mem_map_of_mem he)), rfl, ?_⟩
    refine mem_sortOn.2 ((mem_suppressed rfl hreason).2 ⟨_, he, rfl, ?_⟩)
    rw [ledgerEntry_withheld hwithheld, hname]
  · rintro ⟨_, haggregate, hresource, hshown⟩
    obtain ⟨resource, -, rfl⟩ := List.mem_map.1 haggregate
    obtain ⟨e, he, hsame, hsome⟩ := (mem_suppressed rfl hreason).1 (mem_sortOn.1 hshown)
    obtain ⟨other, hother, hin⟩ := List.mem_flatMap.1 he
    obtain ⟨reason, -, hcontribution⟩ := Option.map_eq_some_iff.1 hsome
    simp only [LedgerClaim.contribution, CapacityClaim.withheld, CapacityContribution.mk.injEq]
      at hcontribution
    obtain ⟨howner, -, hexclusivity, hamount, hreserved, hdomain, hprovenance, -⟩ := hcontribution
    obtain rfl := hunique other hother ((memberEntries_owner hin).symm.trans howner)
    rw [hentries] at hin
    obtain ⟨claim', hclaim', rfl⟩ := List.mem_map.1 hin
    have hclaim : claim' = claim := CapacityClaim.ext (hsame.trans hresource) hexclusivity hamount
      hreserved hdomain hprovenance
    exact hclaim ▸ hclaim'

end Contested

/-! ## Steady requests -/

/-- The request is composed into the state in every order of its records. -/
def CompositionRequest.Steady (request : CompositionRequest) (st : PodState) : Prop :=
  ∀ request', Rearranged request request' → compose request' = .ok st

namespace CompositionRequest.Steady
variable {request : CompositionRequest} {st : PodState} {member other : MemberRecord}

/-- A record that comes first is checked. -/
theorem checked (h : request.Steady st) : ∀ member ∈ request.snapshot.members,
    member.validate request.policy = .ok () := by
  intro member hmember
  have hcomposed := h _ (arranged_rearranged (List.perm_cons_erase hmember) (.refl _) (.refl _)
    (.refl _))
  obtain ⟨hvalid, -⟩ := compose_eq_ok.1 hcomposed
  obtain ⟨hs, -⟩ := validate_request_iff.1 hvalid
  refine hs.members member ?_
  unfold CompositionRequest.arranged firstRecords
  rw [if_neg List.not_mem_nil]
  exact List.mem_cons_self

/-- The state shows the claims of any record of a contested rack: it may come first. -/
theorem shows (h : request.Steady st) (hmember : member ∈ request.snapshot.members)
    (hother : other ∈ request.snapshot.members) (hrack : other.rack = member.rack)
    (hne : member ≠ other) {claim : CapacityClaim} :
    claim ∈ member.capacity ↔ ∃ aggregate ∈ st.capacity, aggregate.resource = claim.resource ∧
      claim.withheld member.rack ∈ aggregate.contributions := by
  have hp := List.perm_cons_erase hmember
  obtain ⟨p, -, hof, rfl⟩ := compose_passesOf
    (h _ (arranged_rearranged hp (.refl _) (.refl _) (.refl _)))
  have hcovered : member.rack ∈ coveredRacks (request.arranged
      (member :: request.snapshot.members.erase member) request.snapshot.links
      request.snapshot.routes request.snapshot.obligations) :=
    mem_canonicalise.2 (List.mem_append_left _ (List.mem_map_of_mem List.mem_cons_self))
  rw [hof.shows_first hcovered
    (memberWork_contested List.mem_cons_self (hp.mem_iff.1 hother) rfl hrack hne)
    (memberWork_first rfl rfl)]
  constructor
  · rintro ⟨aggregate, haggregate, hresource, hshown⟩
    exact ⟨aggregate.canonicalise, mem_finalise_capacity.2 ⟨aggregate, haggregate, rfl⟩, hresource,
      mem_sortOn.2 hshown⟩
  · rintro ⟨_, hin, hresource, hshown⟩
    obtain ⟨aggregate, haggregate, rfl⟩ := mem_finalise_capacity.1 hin
    exact ⟨aggregate, haggregate, hresource, mem_sortOn.1 hshown⟩

/-- The records that claim one rack offer the same capacity. -/
theorem sameCapacity (h : request.Steady st) : request.snapshot.SameCapacity := by
  intro member hmember member' hmember' hrack
  by_cases hsame : member = member'
  · rw [hsame]
  have hdistinct {member : MemberRecord} (hmember : member ∈ request.snapshot.members) :
      member.capacity.Nodup := (validate_sound (h.checked member hmember)).claims.of_map
  refine (List.perm_ext_iff_of_nodup (hdistinct hmember) (hdistinct hmember')).2 fun claim => ?_
  rw [h.shows hmember hmember' hrack.symm hsame, h.shows hmember' hmember hrack (Ne.symm hsame),
    hrack]

end CompositionRequest.Steady

end PodFabric
