import PodFabric.Proof.Conflicts
import PodFabric.Proof.Ties
import PodFabric.Proof.Validation

/-!
# The order of arrival

Two requests are rearranged when they differ at most in the order in which records, expectations
and tokens come. The passes over racks, domains and capacity look records up by identity and keep
what they find in the order of identities, so they find the same in both requests, as long as the
records that claim one rack offer the same capacity: the capacity pass shows the claims of the first
of them (`Rearranged.noted_face`, `Rearranged.capacity`).
-/

namespace PodFabric

open List

/-- The requests differ at most in the order of their collections. -/
structure Rearranged (request request' : CompositionRequest) : Prop where
  policy : request'.policy = request.policy
  snapshot : request'.snapshot = { request.snapshot with
    members := request'.snapshot.members, links := request'.snapshot.links
    routes := request'.snapshot.routes, domains := request'.snapshot.domains
    obligations := request'.snapshot.obligations }
  context : request'.context = { request.context with
    expectations := request'.context.expectations
    grantedTokens := request'.context.grantedTokens
    revokedTokens := request'.context.revokedTokens }
  members : request.snapshot.members ~ request'.snapshot.members
  links : request.snapshot.links ~ request'.snapshot.links
  routes : request.snapshot.routes ~ request'.snapshot.routes
  domains : request.snapshot.domains ~ request'.snapshot.domains
  obligations : request.snapshot.obligations ~ request'.snapshot.obligations
  expectations : request.context.expectations ~ request'.context.expectations
  granted : request.context.grantedTokens ~ request'.context.grantedTokens
  revoked : request.context.revokedTokens ~ request'.context.revokedTokens

/-! ## Faces -/

/-- The working record without the text of its member record, which only the capacity pass reads. -/
def MemberWork.face (work : MemberWork) : MemberWork :=
  { work with record := work.record.map fun _ => {} }

section Faces
variable {members : List MemberWork} {domains : List DomainWork} {rack : RackId} {id : DomainId}

/-- Looking a rack up commutes with forgetting its evidence. -/
theorem findMember_face : findMember (members.map MemberWork.face) rack =
    (findMember members rack).map MemberWork.face := by
  rw [findMember, findMember, List.find?_map]
  rfl

/-- A listed rack's reason does not depend on the evidence kept. -/
theorem listedReason_face : listedReason (members.map MemberWork.face) id rack =
    listedReason members id rack := by
  unfold listedReason
  rw [findMember_face]
  cases findMember members rack with
  | none => rfl
  | some member => simp only [Option.map_some, MemberWork.face, Option.isNone_map]

/-- Whether a domain is serviceable does not depend on the evidence kept. -/
theorem serviceable_face : serviceable (members.map MemberWork.face) rack =
    serviceable members rack := by
  unfold serviceable
  rw [findMember_face]
  cases findMember members rack <;> rfl

/-- The check of a domain does not depend on the evidence kept. -/
theorem checkDomain_face {work : DomainWork} :
    checkDomain (members.map MemberWork.face) work = checkDomain members work := by
  have hlisted : listedReason (members.map MemberWork.face) work.id =
      listedReason members work.id := funext fun _ => listedReason_face
  have hserviceable : serviceable (members.map MemberWork.face) = serviceable members :=
    funext fun _ => serviceable_face
  have hdeclaring : (members.map MemberWork.face).filterMap
      (declaringReason work.declared work.id) =
        members.filterMap (declaringReason work.declared work.id) := by
    rw [List.filterMap_map]
    rfl
  unfold checkDomain
  rw [hlisted, hserviceable, hdeclaring]

/-- The domains covered do not depend on the evidence kept. -/
theorem coveredDomains_face {snapshot : PodSnapshot} :
    coveredDomains snapshot (members.map MemberWork.face) = coveredDomains snapshot members := by
  unfold coveredDomains
  rw [List.flatMap_map]
  rfl

/-- The mark of an overlap does not depend on the evidence kept. -/
theorem markOverlap_face {work : DomainWork} :
    markOverlap domains (members.map MemberWork.face) work = markOverlap domains members work := by
  unfold markOverlap
  rw [List.flatMap_map]
  rfl

/-- Noting the overlaps commutes with forgetting the evidence. -/
theorem map_noteOverlap_face : (members.map (noteOverlap domains)).map MemberWork.face =
    (members.map MemberWork.face).map (noteOverlap domains) := by
  rw [List.map_map, List.map_map]
  rfl

/-- The fences of the members do not depend on the evidence kept. -/
theorem memberFences_face : memberFences (members.map MemberWork.face) = memberFences members := by
  unfold memberFences
  rw [List.filter_map, List.map_map]
  rfl

/-- The adopted epoch does not depend on the evidence kept. -/
theorem adoptGenerationAdvances_face {epoch : PodEpoch} :
    adoptGenerationAdvances epoch (members.map MemberWork.face) =
      adoptGenerationAdvances epoch members := by
  unfold adoptGenerationAdvances
  rw [List.any_map]
  rfl

end Faces

/-! ## Racks and domains -/

section Members
variable {request request' : CompositionRequest} {rack : RackId}
  {records records' : List MemberRecord}

/-- The records of a rack are told apart only by their capacity, if there are several. -/
theorem evaluateMember_face {policy : Policy} {evaluatedAt : Nanos}
    {expectation : Option MemberExpectation} (hp : records ~ records') :
    (evaluateMember policy evaluatedAt rack records expectation).face =
      (evaluateMember policy evaluatedAt rack records' expectation).face := by
  match records, records', hp with
  | [], records', hp => rw [hp.nil_eq]
  | [record], records', hp => rw [List.perm_singleton.1 hp.symm]
  | a :: b :: rest, [], hp => exact absurd hp.symm.nil_eq nofun
  | a :: b :: rest, [c], hp => exact absurd hp.length_eq (by simp)
  | a :: b :: rest, c :: d :: rest', hp =>
    have hlength : rest.length = rest'.length := by simpa using hp.length_eq
    simp [evaluateMember, MemberWork.face, MemberWork.reject, MemberWork.start, hlength]

/-- A rearranged request is made at the same time. -/
theorem Rearranged.observedAt (h : Rearranged request request') :
    request'.snapshot.observedAt = request.snapshot.observedAt := by rw [h.snapshot]

/-- A rearranged request has the same header. -/
theorem Rearranged.header (h : Rearranged request request') :
    request'.snapshot.pod = request.snapshot.pod ∧
      request'.snapshot.provenance = request.snapshot.provenance := by
  rw [h.snapshot]
  exact ⟨rfl, rfl⟩

/-- A rearranged request covers the same racks. -/
theorem Rearranged.covered (h : Rearranged request request') :
    coveredRacks request' = coveredRacks request :=
  (canonicalise_perm ((h.members.map _).append (h.expectations.map _))).symm

/-- The verdict on a rack is the same in any arrangement. -/
theorem Rearranged.memberWork_face (h : Rearranged request request')
    (hc : ContextValid request.context request.policy) :
    (memberWork request' rack).face = (memberWork request rack).face := by
  unfold memberWork
  rw [h.policy, h.observedAt, findRev?_eq_find? hc.unique,
    findRev?_eq_find? ((h.expectations.map _).nodup_iff.1 hc.unique),
    ← find?_perm h.expectations hc.unique rack]
  exact (evaluateMember_face (h.members.filter _)).symm

/-- The working records of the racks show the same faces. -/
theorem Rearranged.initial_face (h : Rearranged request request')
    (hc : ContextValid request.context request.policy) :
    (initialMembers request').map MemberWork.face =
      (initialMembers request).map MemberWork.face := by
  unfold initialMembers
  rw [h.covered, List.map_map, List.map_map]
  exact List.map_congr_left fun _ _ => h.memberWork_face hc

/-- A declared domain is read the same in any arrangement. -/
theorem Rearranged.newDomain_eq (h : Rearranged request request')
    (hids : (request.snapshot.domains.map FailureDomainRecord.id).Nodup) {id : DomainId} :
    newDomain request'.snapshot id = newDomain request.snapshot id := by
  unfold newDomain
  rw [findRev?_eq_find? hids, findRev?_eq_find? ((h.domains.map _).nodup_iff.1 hids),
    find?_perm h.domains hids id]

/-- The domains covered are the same in any arrangement. -/
theorem Rearranged.coveredDomains_eq (h : Rearranged request request')
    (hc : ContextValid request.context request.policy) :
    coveredDomains request'.snapshot (initialMembers request') =
      coveredDomains request.snapshot (initialMembers request) := by
  rw [← coveredDomains_face, h.initial_face hc, coveredDomains_face]
  exact (canonicalise_perm ((h.domains.map _).append_right _)).symm

/-- The checked domains are the same in any arrangement. -/
theorem Rearranged.checkedDomains_eq (h : Rearranged request request')
    (hc : ContextValid request.context request.policy)
    (hids : (request.snapshot.domains.map FailureDomainRecord.id).Nodup) :
    checkedDomains request'.snapshot (initialMembers request') =
      checkedDomains request.snapshot (initialMembers request) := by
  unfold checkedDomains
  rw [h.coveredDomains_eq hc]
  refine List.map_congr_left fun id _ => ?_
  rw [h.newDomain_eq hids, ← checkDomain_face, h.initial_face hc, checkDomain_face]

/-- The domains get the same verdicts. -/
theorem Rearranged.markOverlap_eq (h : Rearranged request request')
    (hc : ContextValid request.context request.policy) {domains : List DomainWork} :
    markOverlap domains (initialMembers request') =
      markOverlap domains (initialMembers request) := by
  funext work
  rw [← markOverlap_face, h.initial_face hc, markOverlap_face]

/-- The racks show the same faces once overlaps are noted. -/
theorem Rearranged.noted_face (h : Rearranged request request')
    (hc : ContextValid request.context request.policy) {domains : List DomainWork} :
    ((initialMembers request').map (noteOverlap domains)).map MemberWork.face =
      ((initialMembers request).map (noteOverlap domains)).map MemberWork.face := by
  rw [map_noteOverlap_face, map_noteOverlap_face, h.initial_face hc]

/-- The adopted epoch is the same in any arrangement. -/
theorem Rearranged.epoch_eq (h : Rearranged request request')
    (hc : ContextValid request.context request.policy) :
    adoptGenerationAdvances request'.context.epoch (initialMembers request') =
      adoptGenerationAdvances request.context.epoch (initialMembers request) := by
  rw [← adoptGenerationAdvances_face, h.initial_face hc, adoptGenerationAdvances_face,
    h.context]

end Members

/-! ## Claims -/

/-- The same entries in some order, those that are usable in the same order. -/
structure Reordered (entries entries' : List LedgerEntry) : Prop where
  perm : entries ~ entries'
  usable : (entries.filter fun e => e.suppressed.isNone) =
    entries'.filter fun e => e.suppressed.isNone

namespace Reordered
variable {entries entries' : List LedgerEntry}

/-- Entries are reordered when those of each element are. -/
theorem flatMap {α : Type} {f g : α → List LedgerEntry} : ∀ {l : List α},
    (∀ a ∈ l, Reordered (f a) (g a)) → Reordered (l.flatMap f) (l.flatMap g)
  | [], _ => ⟨.refl _, rfl⟩
  | a :: l, h => by
    obtain ⟨hp, hu⟩ := h a List.mem_cons_self
    obtain ⟨hps, hus⟩ := Reordered.flatMap fun b hb => h b (List.mem_cons_of_mem _ hb)
    rw [List.flatMap_cons, List.flatMap_cons]
    exact ⟨hp.append hps, by rw [List.filter_append, List.filter_append, hu, hus]⟩

/-- Entries that are all suppressed may come in any order. -/
theorem of_suppressed (hp : entries ~ entries')
    (hall : ∀ e ∈ entries, e.suppressed.isNone = false) : Reordered entries entries' := by
  refine ⟨hp, ?_⟩
  rw [List.filter_eq_nil_iff.2 fun e he => by simp [hall e he],
    List.filter_eq_nil_iff.2 fun e he => by simp [hall e (hp.mem_iff.2 he)]]

/-- Reordered entries have the same usable claims of a key. -/
theorem claimsOf_eq (h : Reordered entries entries') {resource : ResourceClass}
    {key : ExclusivityKey} : claimsOf entries resource key = claimsOf entries' resource key := by
  have hcomm (l : List LedgerEntry) : claimsOf l resource key =
      (((l.filter fun e => e.suppressed.isNone).filter fun e =>
        e.claim.resource = resource).filter fun e =>
          e.claim.exclusivity = key).map LedgerEntry.claim := by
    unfold claimsOf usableClaims entriesOf
    simp only [List.filter_filter]
    refine congrArg _ (List.filter_congr fun e _ => ?_)
    cases e.suppressed.isNone <;> simp
  rw [hcomm, hcomm, h.usable]

/-- Ledgers of the same entries are frozen alike. -/
theorem frozen_eq {ledger ledger' : CapacityLedger} (hpolicy : ledger.policy = ledger'.policy)
    (h : Reordered ledger.entries ledger'.entries) :
    ledger.byResource = ledger'.byResource ∧ ledger.byDomain = ledger'.byDomain := by
  refine frozen_alike hpolicy (resources_perm h.perm) fun resource =>
    slots_alike h.perm fun key => ?_
  rw [h.claimsOf_eq]
  exact settle_refl

end Reordered


section Capacity
variable {request request' : CompositionRequest} {rack : RackId} {domains : List DomainWork}

/-- The records that claim one rack offer the same capacity. -/
def PodSnapshot.SameCapacity (snapshot : PodSnapshot) : Prop :=
  ∀ member ∈ snapshot.members, ∀ member' ∈ snapshot.members, member.rack = member'.rack →
    member.capacity ~ member'.capacity

/-- The entries of a rack are those of its claims. -/
theorem memberEntries_of_record {work : MemberWork} {record : MemberRecord}
    (hrecord : work.record = some record) :
    memberEntries work = record.capacity.map (ledgerEntry work) := by
  unfold memberEntries
  rw [hrecord]

/-- The entry of a claim does not depend on the evidence kept. -/
theorem ledgerEntry_face {work : MemberWork} : ledgerEntry work.face = ledgerEntry work := rfl

/-- Noting an overlap commutes with forgetting the evidence. -/
theorem noteOverlap_face {work : MemberWork} :
    (noteOverlap domains work).face = noteOverlap domains work.face := rfl

/-- A rack claimed by several records is not established, so its claims are suppressed. -/
theorem ledgerEntry_suppressed {work : MemberWork} (hout : work.established = false)
    {claim : CapacityClaim} : (ledgerEntry work claim).suppressed.isNone = false := by
  simp [ledgerEntry, hout]

/-- Noting an overlap leaves the evidence. -/
theorem noteOverlap_record {work : MemberWork} :
    (noteOverlap domains work).record = work.record := rfl

/-- The claims of a rack are the same, and in the same order if they are usable. -/
theorem Rearranged.reordered (h : Rearranged request request')
    (hc : ContextValid request.context request.policy)
    (hsame : request.snapshot.SameCapacity) :
    Reordered (memberEntries (noteOverlap domains (memberWork request rack)))
      (memberEntries (noteOverlap domains (memberWork request' rack))) := by
  have hentry : ledgerEntry (noteOverlap domains (memberWork request' rack)) =
      ledgerEntry (noteOverlap domains (memberWork request rack)) := by
    rw [← ledgerEntry_face, ← @ledgerEntry_face (noteOverlap domains (memberWork request rack)),
      noteOverlap_face, noteOverlap_face, h.memberWork_face hc]
  have hrecords := h.members.filter fun member => member.rack = rack
  have hhead := @memberWork_head request rack
  have hhead' := @memberWork_head request' rack
  generalize hl : (request.snapshot.members.filter fun member => member.rack = rack) = records
    at hrecords hhead
  generalize hl' : (request'.snapshot.members.filter fun member => member.rack = rack) = records'
    at hrecords hhead'
  cases records with
  | nil =>
    rw [hrecords.nil_eq.symm] at hhead'
    have hnil {work : MemberWork} (hnone : work.record = none) : memberEntries work = [] := by
      unfold memberEntries
      rw [hnone]
    rw [hnil (noteOverlap_record.trans hhead), hnil (noteOverlap_record.trans hhead')]
    exact ⟨.refl _, rfl⟩
  | cons a rest =>
    cases records' with
    | nil => exact absurd hrecords.symm.nil_eq nofun
    | cons a' rest' =>
      rw [memberEntries_of_record (noteOverlap_record.trans hhead),
        memberEntries_of_record (noteOverlap_record.trans hhead'), hentry]
      cases rest with
      | nil =>
        have hone := List.perm_singleton.1 hrecords.symm
        rw [List.cons.injEq] at hone
        rw [hone.1]
        exact ⟨.refl _, rfl⟩
      | cons b rest =>
        have hout : (memberWork request rack).established = false := by
          rcases @evaluateMember_cases request.policy request.snapshot.observedAt rack
            (request.snapshot.members.filter fun member => member.rack = rack)
            (request.context.expectations.findRev? fun expectation =>
              expectation.rack = rack) with ⟨record, hone, -⟩ | ⟨-, hwithheld, -, -⟩
          · rw [hl] at hone
            exact absurd hone (by simp)
          · exact hwithheld.established
        have ha : a ∈ request.snapshot.members.filter fun member => member.rack = rack :=
          hl ▸ List.mem_cons_self
        have ha' : a' ∈ request'.snapshot.members.filter fun member => member.rack = rack :=
          hl' ▸ List.mem_cons_self
        simp only [List.mem_filter, decide_eq_true_eq] at ha ha'
        refine .of_suppressed ((hsame a ha.1 a' (h.members.mem_iff.2 ha'.1)
          (ha.2.trans ha'.2.symm)).map _) fun e he => ?_
        obtain ⟨claim, -, rfl⟩ := List.mem_map.1 he
        exact ledgerEntry_suppressed hout

/-- The members offer the same claims in both requests. -/
theorem Rearranged.capacity (h : Rearranged request request')
    (hc : ContextValid request.context request.policy)
    (hsame : request.snapshot.SameCapacity) {ledger : CapacityLedger}
    (hledger : evaluateCapacity request.policy
      ((initialMembers request).map (noteOverlap domains)) = .ok ledger) :
    ∃ ledger', evaluateCapacity request'.policy
        ((initialMembers request').map (noteOverlap domains)) = .ok ledger' ∧
      ledger'.byResource = ledger.byResource ∧ ledger'.byDomain = ledger.byDomain := by
  have hreordered : Reordered
      (((initialMembers request).map (noteOverlap domains)).flatMap memberEntries)
      (((initialMembers request').map (noteOverlap domains)).flatMap memberEntries) := by
    unfold initialMembers
    rw [h.covered, List.flatMap_map, List.flatMap_map, List.flatMap_map, List.flatMap_map]
    exact .flatMap fun rack _ => h.reordered hc hsame
  unfold evaluateCapacity at hledger ⊢
  obtain ⟨hall, hentries⟩ := recordAll_iff.1 hledger
  rw [List.nil_append] at hentries
  have hfrozen (ledger' : CapacityLedger) (hpolicy : ledger.policy = ledger'.policy)
      (hentries' : ledger'.entries =
        ((initialMembers request').map (noteOverlap domains)).flatMap memberEntries) :
      ledger'.byResource = ledger.byResource ∧ ledger'.byDomain = ledger.byDomain := by
    obtain ⟨hresource, hdomain⟩ := Reordered.frozen_eq hpolicy
      (by rw [hentries', hentries]; exact hreordered)
    exact ⟨hresource.symm, hdomain.symm⟩
  refine ⟨_, recordAll_iff.2 ⟨fun e he => ?_, rfl⟩,
    hfrozen _ (by rw [hentries, h.policy]) rfl⟩
  rw [h.policy]
  exact hall e (hreordered.perm.mem_iff.2 he)

end Capacity

/-! ## Checks -/

/-- The claims of the first records are as many in any order. -/
theorem claimCount_perm (hp : members ~ members')
    (hsame : ∀ member ∈ members, ∀ member' ∈ members, member.rack = member'.rack →
      member.capacity ~ member'.capacity) :
    claimCount (firstRecords [] members') = claimCount (firstRecords [] members) := by
  have hcount (members : List MemberRecord) : claimCount members =
      ((members.map fun member => (member.rack, member.capacity.length)).map Prod.snd).sum := by
    rw [List.map_map]
    rfl
  have hnodup (members : List MemberRecord) :
      ((firstRecords [] members).map fun member => (member.rack, member.capacity.length)).Nodup :=
    List.Nodup.of_map Prod.fst (by rw [List.map_map]; exact firstRecords_nodup)
  have hfind {members members' : List MemberRecord} (hp : members ~ members')
      (hsame : ∀ member ∈ members, ∀ member' ∈ members, member.rack = member'.rack →
        member.capacity ~ member'.capacity) {x : RackId × ℕ}
      (hx : x ∈ (firstRecords [] members).map fun member =>
        (member.rack, member.capacity.length)) :
      x ∈ (firstRecords [] members').map fun member => (member.rack, member.capacity.length) := by
    obtain ⟨member, hmember, rfl⟩ := List.mem_map.1 hx
    have hin := (firstRecords_sub member hmember).1
    obtain ⟨first, hfirst, hrack⟩ :=
      firstRecords_covers member (hp.mem_iff.1 hin) List.not_mem_nil
    have hin' := hp.mem_iff.2 (firstRecords_sub first hfirst).1
    refine List.mem_map.2 ⟨first, hfirst, ?_⟩
    rw [hrack, (hsame first hin' member hin hrack).length_eq]
  rw [hcount, hcount]
  refine (List.Perm.map _ ?_).sum_eq
  refine (List.perm_ext_iff_of_nodup (hnodup _) (hnodup _)).2 fun x => ⟨?_, hfind hp hsame⟩
  exact hfind hp.symm fun member hmember member' hmember' =>
    hsame member (hp.mem_iff.2 hmember) member' (hp.mem_iff.2 hmember')

/-- The checks of a request pass in any order, if every record passes those of its own. -/
theorem Rearranged.validate {request request' : CompositionRequest}
    (h : Rearranged request request') (hvalid : request.validate = .ok ())
    (hchecked : ∀ member ∈ request.snapshot.members,
      member.validate request.policy = .ok ())
    (hsame : request.snapshot.SameCapacity) : request'.validate = .ok () := by
  obtain ⟨hs, hc⟩ := validate_request_iff.1 hvalid
  refine validate_request_iff.2 ⟨?_, ?_⟩
  · rw [h.policy]
    exact {
      policyValid := hs.policyValid
      schema := by rw [h.snapshot]; exact hs.schema
      pod := by rw [h.snapshot]; exact hs.pod
      observedAt := by rw [h.snapshot]; exact hs.observedAt
      detail := by rw [h.snapshot]; exact hs.detail
      memberBound := h.members.length_eq ▸ hs.memberBound
      linkBound := h.links.length_eq ▸ hs.linkBound
      routeBound := h.routes.length_eq ▸ hs.routeBound
      domainBound := h.domains.length_eq ▸ hs.domainBound
      obligationBound := h.obligations.length_eq ▸ hs.obligationBound
      memberRacks := fun member hmember => hs.memberRacks member (h.members.mem_iff.2 hmember)
      members := fun member hmember =>
        hchecked member (h.members.mem_iff.2 (firstRecords_sub member hmember).1)
      claims := by rw [claimCount_perm h.members hsame]; exact hs.claims
      links := fun link hlink => hs.links link (h.links.mem_iff.2 hlink)
      linkIds := (h.links.map _).nodup_iff.1 hs.linkIds
      routes := fun route hroute => hs.routes route (h.routes.mem_iff.2 hroute)
      routeRefs := (h.routes.map _).nodup_iff.1 hs.routeRefs
      domains := fun domain hdomain => hs.domains domain (h.domains.mem_iff.2 hdomain)
      domainIds := (h.domains.map _).nodup_iff.1 hs.domainIds
      obligations := fun obligation hobligation =>
        hs.obligations obligation (h.obligations.mem_iff.2 hobligation)
      obligationIds := (h.obligations.map _).nodup_iff.1 hs.obligationIds }
  · rw [h.policy]
    exact {
      expectationBound := h.expectations.length_eq ▸ hc.expectationBound
      tokenBound := h.granted.length_eq ▸ hc.tokenBound
      racks := fun expectation hexpectation =>
        hc.racks expectation (h.expectations.mem_iff.2 hexpectation)
      unique := (h.expectations.map _).nodup_iff.1 hc.unique }

end PodFabric
