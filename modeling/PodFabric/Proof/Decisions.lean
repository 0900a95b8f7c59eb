import PodFabric.Proof.Composition
import PodFabric.Proof.Validation
import PodFabric.Proof.Accounting

/-!
# The identities of decisions

The identity of a decision is the name of its kind and of its subject, joined by dots, where that is
a canonical identifier, and one fixed identity otherwise. Two subjects get one identity when their
names coincide, although the subjects differ, or when both have no canonical name
(`DecisionSubject.id_eq_iff`). A composed state has no two decisions of one identity, and every
dependency on a decision leads to the decision it means, exactly if no such subjects meet
(`decisions_identified_iff`).
-/

namespace PodFabric

/-! ## Subjects and their names -/

/-- What a decision is about. -/
inductive DecisionSubject
  | member (rack : RackId)
  | domain (id : DomainId)
  | resource (ofClass : ResourceClass)
  | slot (ofClass : ResourceClass) (inDomain : DomainId)
  | pair (key : PairKey)
  | obligation (id : ObligationId)
  | lifecycle
  | authority
  deriving DecidableEq

namespace DecisionSubject

/-- The kind of decision a subject has. -/
def kind : DecisionSubject → DecisionKind
  | member _ => .memberState
  | domain _ => .domainState
  | resource _ => .capacityAggregate
  | slot _ _ => .domainCapacity
  | pair _ => .connectivity
  | obligation _ => .obligationState
  | lifecycle => .podLifecycle
  | authority => .podAuthority

/-- The subject as the decision names it. -/
def text : DecisionSubject → Text
  | member rack => rack.token
  | domain id => id.token
  | resource ofClass => ofClass.token
  | slot ofClass inDomain => ofClass.token ++ [46] ++ inDomain.token
  | pair key => (ofLex key).1.token ++ [46] ++ (ofLex key).2.token
  | obligation id => id.token
  | lifecycle => podSubject
  | authority => podSubject

/-- The identity of the decision on a subject. -/
def id (s : DecisionSubject) : DecisionId := makeDecisionId s.kind s.text

/-- Kind and subject, as they are joined. -/
def name (s : DecisionSubject) : Text := s.kind.toText ++ [46] ++ s.text

/-- The name is a canonical identifier: it is short enough and does not end in a separator. -/
def Printable (s : DecisionSubject) : Prop := isCanonicalId s.name = true

instance (s : DecisionSubject) : Decidable s.Printable := inferInstanceAs (Decidable (_ = true))

/-- A byte of the alphabet of identifiers. -/
def isIdByte (c : UInt8) : Bool := isLowerAlnum c || isSeparator c

/-- The bytes of an identifier are those an identifier may have. -/
theorem idBytes {tag : IdTag} (id : BasicId tag) : id.token.all isIdByte = true := by
  rcases id.canonical with hnil | hcanonical
  · rw [hnil]
    rfl
  · unfold isCanonicalId at hcanonical
    split at hcanonical
    · simp only [Bool.and_eq_true] at hcanonical
      exact hcanonical.2
    · cases hcanonical

/-- Two identifiers joined by a dot have bytes an identifier may have. -/
theorem joined_idBytes {a b : Text} (ha : a.all isIdByte = true) (hb : b.all isIdByte = true) :
    (a ++ [46] ++ b).all isIdByte = true := by
  rw [List.all_append, List.all_append, ha, hb]
  rfl

/-- A name is spelled in the alphabet of identifiers. -/
theorem name_idBytes (s : DecisionSubject) : s.name.all isIdByte = true := by
  refine joined_idBytes ?_ ?_
  · cases s.kind <;> decide +kernel
  · cases s with
    | member rack => exact idBytes rack
    | domain id => exact idBytes id
    | resource ofClass => exact idBytes ofClass
    | slot ofClass inDomain => exact joined_idBytes (idBytes ofClass) (idBytes inDomain)
    | pair key => exact joined_idBytes (idBytes (ofLex key).1) (idBytes (ofLex key).2)
    | obligation id => exact idBytes id
    | lifecycle | authority => decide +kernel

/-- The identity is the name, if that is canonical. -/
theorem id_token (s : DecisionSubject) :
    s.id.token = if s.Printable then s.name else DecisionId.invalid.token := by
  have hfold : s.name.map foldIdByte = s.name := by
    conv_rhs => rw [← List.map_id s.name]
    exact List.map_congr_left fun c hc => if_pos (List.all_eq_true.1 (name_idBytes s) c hc)
  change (makeDecisionId s.kind s.text).token = _
  by_cases hprintable : s.Printable
  · have hparse : (BasicId.parse (s.name.map foldIdByte) : Result DecisionId) =
        .ok ⟨s.name, .inr hprintable⟩ := by
      rw [hfold]
      exact dif_pos hprintable
    rw [if_pos hprintable, makeDecisionId]
    change BasicId.parse ((s.kind.toText ++ [46] ++ s.text).map foldIdByte) = _ at hparse
    rw [hparse]
  · have hparse : ∃ status, (BasicId.parse (s.name.map foldIdByte) : Result DecisionId) =
        .error status := by
      rw [hfold]
      exact ⟨_, dif_neg hprintable⟩
    obtain ⟨status, hparse⟩ := hparse
    rw [if_neg hprintable, makeDecisionId]
    change BasicId.parse ((s.kind.toText ++ [46] ++ s.text).map foldIdByte) = _ at hparse
    rw [hparse]

/-- No kind's name holds a dot. -/
theorem kind_undotted (kind : DecisionKind) : kind.toText.all (· ≠ 46) = true := by
  cases kind <;> decide +kernel

/-- Kinds of decisions have different names. -/
theorem kind_injective : Function.Injective DecisionKind.toText := by
  intro a b h
  cases a <;> cases b <;> first | rfl | (revert h; decide +kernel)

/-- A name begins with its kind, up to the first dot. -/
theorem name_split (s : DecisionSubject) :
    s.name.takeWhile (· ≠ 46) = s.kind.toText ∧ s.name.dropWhile (· ≠ 46) = 46 :: s.text := by
  have hkind := List.all_eq_true.1 (kind_undotted s.kind)
  rw [name, List.append_assoc]
  exact ⟨by rw [List.takeWhile_append_of_pos hkind]; simp,
    by rw [List.dropWhile_append_of_pos hkind]; simp⟩

/-- Two subjects have the same name when they have the same kind and the same text. -/
theorem name_inj {s t : DecisionSubject} : s.name = t.name ↔ s.kind = t.kind ∧ s.text = t.text := by
  constructor
  · intro h
    obtain ⟨hkind, htext⟩ := s.name_split
    rw [h] at hkind htext
    exact ⟨kind_injective (hkind.symm.trans t.name_split.1),
      (List.cons.inj (htext.symm.trans t.name_split.2)).2⟩
  · rintro ⟨hkind, htext⟩
    rw [name, name, hkind, htext]

/-- No name is the identity of the subjects without a canonical one. -/
theorem name_ne_invalid (s : DecisionSubject) : s.name ≠ DecisionId.invalid.token := by
  intro h
  have hkind := s.name_split.1
  rw [h] at hkind
  cases hs : s.kind <;> rw [hs] at hkind <;> revert hkind <;> decide +kernel

/-- Two subjects get one identity if they are named alike, or if neither has a canonical name. -/
theorem id_eq_iff {s t : DecisionSubject} :
    s.id = t.id ↔ s.kind = t.kind ∧ s.text = t.text ∨ ¬ s.Printable ∧ ¬ t.Printable := by
  rw [BasicId.ext_iff, id_token, id_token, ← name_inj]
  have hsame : s.name = t.name → (s.Printable ↔ t.Printable) := fun h => by
    unfold Printable
    rw [h]
  by_cases hs : s.Printable <;> by_cases ht : t.Printable
  · simp [hs, ht]
  · have hne : s.name ≠ t.name := fun h => ht ((hsame h).1 hs)
    simp [hs, ht, hne, s.name_ne_invalid]
  · have hne : s.name ≠ t.name := fun h => hs ((hsame h).2 ht)
    simp [hs, ht, hne, t.name_ne_invalid.symm]
  · simp [hs, ht]

end DecisionSubject

/-! ## What is emitted -/

/-- A decision as it is emitted: its subject, the subjects of the decisions it depends on, and the
record. -/
structure Emission where
  subject : DecisionSubject
  uses : List DecisionSubject
  record : DecisionRecord

/-- The decisions that an obligation depends on. -/
def Obligation.uses (obligation : Obligation) : List DecisionSubject :=
  obligation.requirements.map (fun requirement => .resource requirement.resource) ++
    (pairsOf obligation.protectedRacks).map fun p => .pair (pairKey p.1 p.2)

/-- The decisions on the parts of the pod, as they are emitted. -/
def partEmissions (fd : Findings) (domainCapacity : List CapacityAggregate) : List Emission :=
  fd.members.map (fun work => ⟨.member work.rack, [], memberDecision work⟩) ++
    fd.domains.map (fun work => ⟨.domain work.id, [], domainDecision work⟩) ++
    fd.capacity.map (fun a => ⟨.resource a.resource, [], capacityDecision a⟩) ++
    domainCapacity.map (fun a => ⟨.slot a.resource a.domain, [], domainCapacityDecision a⟩) ++
    fd.pairs.map (fun work => ⟨.pair work.key, [], pairDecision work⟩) ++
    fd.snapshot.obligations.map fun o =>
      ⟨.obligation o.id, o.uses, obligationDecision fd.obligations o⟩

/-- All decisions of a round, as they are emitted. -/
def Passes.emissions (p : Passes) : List Emission :=
  let parts := partEmissions p.findings p.domainCapacity
  parts ++ [
    ⟨.lifecycle, parts.map Emission.subject,
      lifecycleDecision p.findings (partDecisions p.findings p.domainCapacity)⟩,
    ⟨.authority, [.lifecycle], authorityDecision p.findings⟩]

section Emissions
variable {p : Passes} {fd : Findings} {domainCapacity : List CapacityAggregate} {e : Emission}

/-- The records emitted for the parts. -/
theorem partEmissions_record :
    (partEmissions fd domainCapacity).map Emission.record = partDecisions fd domainCapacity := by
  simp [partEmissions, partDecisions, Function.comp_def]

/-- The records that are emitted are the decisions of the draft. -/
theorem emissions_record : p.emissions.map Emission.record = p.draft.decisions := by
  change _ = emitDecisions p.findings p.domainCapacity
  simp [Passes.emissions, emitDecisions, partEmissions_record]

/-- An emitted record has its subject's identity. -/
theorem partEmissions_id (he : e ∈ partEmissions fd domainCapacity) :
    e.record.id = e.subject.id := by
  simp only [partEmissions, List.mem_append, List.mem_map] at he
  rcases he with ((((⟨_, -, rfl⟩ | ⟨_, -, rfl⟩) | ⟨_, -, rfl⟩) | ⟨_, -, rfl⟩) | ⟨_, -, rfl⟩) |
    ⟨_, -, rfl⟩ <;> rfl

/-- A record carries the identity of its subject. -/
theorem emissions_id (he : e ∈ p.emissions) : e.record.id = e.subject.id := by
  rcases List.mem_append.1 he with he | he
  · exact partEmissions_id he
  · simp only [List.mem_cons, List.not_mem_nil, or_false] at he
    rcases he with rfl | rfl <;> rfl

/-- The dependency on the decision about a subject. -/
def DecisionSubject.key (s : DecisionSubject) : DepKey := ⟨.decision, s.id.token⟩

/-- The dependencies on decisions, of all the dependencies of a record. -/
def decisionDeps (deps : List DepKey) : List DepKey := deps.filter fun dep => dep.kind = .decision

/-- The dependencies of a record on decisions are those on the decisions it uses. -/
theorem emissions_deps (he : e ∈ p.emissions) :
    decisionDeps e.record.deps = e.uses.map DecisionSubject.key := by
  have hmembers (racks : List RackId) : decisionDeps (racks.map memberKey) = [] := by
    simp [decisionDeps, List.filter_map, memberKey, Function.comp_def]
  have hcontributions (a : CapacityAggregate) : decisionDeps (contributionKeys a) = [] := by
    simp [decisionDeps, contributionKeys, List.filter_map, memberKey, Function.comp_def]
  rcases List.mem_append.1 he with he | he
  · simp only [partEmissions, List.mem_append, List.mem_map] at he
    rcases he with ((((⟨_, -, rfl⟩ | ⟨work, -, rfl⟩) | ⟨a, -, rfl⟩) | ⟨a, -, rfl⟩) |
      ⟨work, -, rfl⟩) | ⟨o, -, rfl⟩
    · rfl
    · exact hmembers work.verdict.declaredMembers
    · exact hcontributions a
    · exact hcontributions a
    · simp [decisionDeps, pairDecision, memberKey, List.filter_map, Function.comp_def]
    · simp [decisionDeps, obligationDecision, memberKey, List.filter_map, Function.comp_def,
        Obligation.uses, DecisionSubject.key, DecisionSubject.id, DecisionSubject.kind,
        DecisionSubject.text, pairDecisionId]
  · simp only [List.mem_cons, List.not_mem_nil, or_false] at he
    rcases he with rfl | rfl
    · have hparts : (partDecisions p.findings p.domainCapacity).map (fun record =>
          (⟨.decision, record.id.token⟩ : DepKey)) =
          ((partEmissions p.findings p.domainCapacity).map Emission.subject).map
            DecisionSubject.key := by
        rw [← partEmissions_record, List.map_map, List.map_map]
        refine List.map_congr_left fun e he => ?_
        simp [DecisionSubject.key, partEmissions_id he]
      simp [decisionDeps, lifecycleDecision, List.filter_map, Function.comp_def, ← hparts]
    · simp [decisionDeps, authorityDecision, List.filter_map, memberKey, Function.comp_def]
      rfl

end Emissions

/-! ## Distinct subjects -/

section Distinct
variable {policy : Policy} {ofClass : ResourceClass} {f : ResourceFold} {slot : Slot}
  {ledger : CapacityLedger} {request : CompositionRequest} {p : Passes}

/-- The breakdowns are labelled with the resource and with the domain they are entered under. -/
def Labelled (ofClass : ResourceClass) (f : ResourceFold) : Prop :=
  ∀ e ∈ f.domains.entries, e.2.resource = ofClass ∧ e.2.domain = e.1

/-- A slot keeps the aggregates labelled with the resource. -/
theorem Labelled.addSlot (h : Labelled ofClass f) :
    Labelled ofClass (f.addSlot policy ofClass slot) := by
  intro e he
  unfold ResourceFold.addSlot at he
  dsimp only at he
  split at he
  · exact h e he
  · next s _ =>
    have hfind := OrderedMap.find?_eq_some.2 he
    simp only [ResourceFold.addDomain, checkTotal_domains, addCommitted_domains, addTotal_domains,
      ResourceFold.addSettled, ResourceFold.addUncounted, OrderedMap.find?_insert] at hfind
    split at hfind
    · next hsame =>
      rw [← Option.some.inj hfind]
      exact ⟨rfl, hsame.symm⟩
    · exact h e (OrderedMap.find?_eq_some.1 hfind)

/-- The loop over the slots labels all aggregates with its resource. -/
theorem freezeResource_labelled : Labelled ofClass (ledger.freezeResource ofClass) := by
  have hfold : ∀ (slots : List Slot) {f : ResourceFold}, Labelled ofClass f →
      Labelled ofClass (slots.foldl (ResourceFold.addSlot ledger.policy ofClass) f) := by
    intro slots
    induction slots with
    | nil => exact fun h => h
    | cons slot slots ih => exact fun h => ih h.addSlot
  exact hfold _ fun e he => by cases he

/-- The frozen aggregates, resource by resource. -/
theorem byResource_resources : ledger.byResource.map CapacityAggregate.resource =
    ledger.resources := by
  rw [CapacityLedger.byResource, List.map_map]
  conv_rhs => rw [← List.map_id ledger.resources]
  exact List.map_congr_left fun _ _ => rfl

/-- There is one breakdown for each resource and domain. -/
theorem byDomain_nodup :
    (ledger.byDomain.map fun a => (a.resource, a.domain)).Nodup := by
  unfold CapacityLedger.byDomain
  rw [List.map_flatMap]
  have hslots : ∀ ofClass : ResourceClass,
      (((ledger.freezeResource ofClass).domains.entries.map fun e => finishDomain e.2).map
        fun a => (a.resource, a.domain)) =
      (ledger.freezeResource ofClass).domains.keys.map fun domain => (ofClass, domain) := by
    intro ofClass
    rw [List.map_map, OrderedMap.keys, List.map_map]
    refine List.map_congr_left fun e he => ?_
    obtain ⟨hclass, hdomain⟩ := freezeResource_labelled e he
    exact Prod.ext hclass hdomain
  simp only [hslots]
  refine List.nodup_flatMap.2 ⟨fun ofClass _ => ?_, ?_⟩
  · exact (OrderedMap.nodup_keys _).map fun _ _ h => (Prod.mk.inj h).2
  · refine (canonicalise_nodup _).imp fun hne x hx hx' => ?_
    obtain ⟨_, -, rfl⟩ := List.mem_map.1 hx
    obtain ⟨_, -, h⟩ := List.mem_map.1 hx'
    exact hne (Prod.mk.inj h).1.symm

/-- A domain read has its identifier. -/
theorem newDomain_id {snapshot : PodSnapshot} {id : DomainId} :
    (newDomain snapshot id).id = id := by
  unfold newDomain
  split <;> rfl

/-- Checking a domain leaves its identifier. -/
theorem checkDomain_id {members : List MemberWork} {work : DomainWork} :
    (checkDomain members work).id = work.id := by
  unfold checkDomain
  dsimp only
  repeat' split
  all_goals rfl

/-- Marking an overlap leaves the identifier. -/
theorem markOverlap_id {domains : List DomainWork} {members : List MemberWork} {work : DomainWork} :
    (markOverlap domains members work).id = work.id := by
  unfold markOverlap
  dsimp only
  split <;> rfl

/-- No domain is judged twice. -/
theorem PassesOf.domain_ids (h : PassesOf request p) :
    (p.findings.domains.map DomainWork.id).Nodup := by
  have hids : p.findings.domains.map DomainWork.id =
      coveredDomains request.snapshot (initialMembers request) := by
    rw [h.domains, checkedDomains, List.map_map, List.map_map]
    conv_rhs => rw [← List.map_id (coveredDomains request.snapshot (initialMembers request))]
    exact List.map_congr_left fun id _ => markOverlap_id.trans (checkDomain_id.trans newDomain_id)
  rw [hids]
  exact canonicalise_nodup _

/-- The pairs are those that were collected, in their order. -/
theorem PassesOf.pair_keys_eq (h : PassesOf request p) :
    p.findings.pairs.map PairWork.key = collectedPairs p.findings.toEvidence := by
  have hkeys : ∀ {keys : List PairKey} {pairs : List PairWork},
      List.Forall₂ (fun key work => judgePair p.findings.toEvidence
        (newPair p.findings.snapshot key) = .ok work) keys pairs →
        pairs.map PairWork.key = keys := by
    intro keys pairs hall
    induction hall with
    | nil => rfl
    | cons hjudge _ ih =>
      unfold judgePair at hjudge
      obtain ⟨verdict, -, hjudge⟩ := bind_eq_ok.1 hjudge
      rw [pure_eq_ok] at hjudge
      rw [List.map_cons, ih, ← hjudge]
      rfl
  exact hkeys (mapM_eq_ok.1 h.pairs)

/-- No pair of racks is judged twice. -/
theorem PassesOf.pair_keys (h : PassesOf request p) :
    (p.findings.pairs.map PairWork.key).Nodup := by
  rw [h.pair_keys_eq]
  exact canonicalise_nodup _

/-- The subjects that are decided on. -/
def Passes.subjects (p : Passes) : List DecisionSubject := p.emissions.map Emission.subject

/-- The subjects of a composition, kind by kind. -/
theorem subjects_eq : p.subjects =
    (p.findings.members.map MemberWork.rack).map DecisionSubject.member ++
      (p.findings.domains.map DomainWork.id).map DecisionSubject.domain ++
      (p.findings.capacity.map CapacityAggregate.resource).map DecisionSubject.resource ++
      (p.domainCapacity.map fun a => (a.resource, a.domain)).map
        (fun x => DecisionSubject.slot x.1 x.2) ++
      (p.findings.pairs.map PairWork.key).map DecisionSubject.pair ++
      (p.findings.snapshot.obligations.map Obligation.id).map DecisionSubject.obligation ++
      [.lifecycle, .authority] := by
  simp [Passes.subjects, Passes.emissions, partEmissions, Function.comp_def]

/-- No subject is decided on twice. -/
theorem PassesOf.subjects_nodup (h : PassesOf request p)
    (hvalid : SnapshotValid request.snapshot request.policy) : p.subjects.Nodup := by
  obtain ⟨ledger, -, hcapacity, hdomain⟩ := h.ledger
  have hmembers : (p.findings.members.map MemberWork.rack).Nodup :=
    h.map_rack ▸ canonicalise_nodup _
  have hresources : (p.findings.capacity.map CapacityAggregate.resource).Nodup := by
    rw [hcapacity, byResource_resources]
    exact canonicalise_nodup _
  have hslots : (p.domainCapacity.map fun a => (a.resource, a.domain)).Nodup := by
    rw [hdomain]
    exact byDomain_nodup
  have hobligations : (p.findings.snapshot.obligations.map Obligation.id).Nodup :=
    h.snapshot.symm ▸ hvalid.obligationIds
  have hdomains := h.domain_ids
  have hpairs := h.pair_keys
  rw [subjects_eq]
  generalize p.findings.members.map MemberWork.rack = members at *
  generalize p.findings.domains.map DomainWork.id = domains at *
  generalize p.findings.capacity.map CapacityAggregate.resource = resources at *
  generalize p.domainCapacity.map (fun a => (a.resource, a.domain)) = slots at *
  generalize p.findings.pairs.map PairWork.key = pairs at *
  generalize p.findings.snapshot.obligations.map Obligation.id = obligations at *
  have hm := hmembers.map fun _ _ h => DecisionSubject.member.inj h
  have hd := hdomains.map fun _ _ h => DecisionSubject.domain.inj h
  have hr := hresources.map fun _ _ h => DecisionSubject.resource.inj h
  have hs : (slots.map fun x => DecisionSubject.slot x.1 x.2).Nodup :=
    hslots.map fun _ _ h => Prod.ext (DecisionSubject.slot.inj h).1 (DecisionSubject.slot.inj h).2
  have hp := hpairs.map fun _ _ h => DecisionSubject.pair.inj h
  have ho := hobligations.map fun _ _ h => DecisionSubject.obligation.inj h
  have hend : [DecisionSubject.lifecycle, .authority].Nodup := by decide
  -- subjects of different kinds are different
  have apart {l l' : List DecisionSubject} (hl : l.Nodup) (hl' : l'.Nodup)
      (hkinds : ∀ s ∈ l, ∀ t ∈ l', s.kind ≠ t.kind) : (l ++ l').Nodup :=
    List.nodup_append.2 ⟨hl, hl', fun s hs t ht hsame => hkinds s hs t ht (congrArg _ hsame)⟩
  refine apart (apart (apart (apart (apart (apart hm hd ?_) hr ?_) hs ?_) hp ?_) ho ?_) hend ?_
  all_goals
    simp only [List.forall_mem_append, List.forall_mem_map, List.forall_mem_cons,
      DecisionSubject.kind]
    simp

end Distinct

/-! ## Identified decisions -/

/-- No two decisions have one identity, and the identity in a dependency on a decision is that of
the decision that is meant and of no other. -/
structure Identified (p : Passes) (st : PodState) : Prop where
  unique : (st.decisions.map DecisionRecord.id).Nodup
  named : ∀ e ∈ p.emissions, ∀ used ∈ e.uses, ∀ e' ∈ p.emissions,
    e'.record.id = used.id → e'.subject = used

/-- The two subjects are not named alike, and one of them at least has a canonical name. -/
def DecisionSubject.Apart (s t : DecisionSubject) : Prop :=
  (s.kind ≠ t.kind ∨ s.text ≠ t.text) ∧ (s.Printable ∨ t.Printable)

instance (s t : DecisionSubject) : Decidable (s.Apart t) := inferInstanceAs (Decidable (_ ∧ _))

/-- The subjects that are decided on or depended on are apart from those that are decided on. -/
def Passes.Distinguished (p : Passes) : Prop :=
  ∀ s ∈ p.subjects ++ p.emissions.flatMap Emission.uses, ∀ t ∈ p.subjects, s ≠ t → s.Apart t

instance (p : Passes) : Decidable p.Distinguished :=
  inferInstanceAs (Decidable (∀ s ∈ _, ∀ t ∈ _, _ → _))

/-- Subjects are apart when their decisions' identities differ. -/
theorem DecisionSubject.apart_iff {s t : DecisionSubject} : s.Apart t ↔ s.id ≠ t.id := by
  rw [Ne, id_eq_iff, Apart]
  tauto

section Identified
variable {request : CompositionRequest} {st : PodState} {p : Passes}

/-- The decisions of the finished draft are those that are emitted, in their order. -/
theorem finalise_decisions : p.draft.finalise.decisions.Perm
    (p.emissions.map fun e => e.record.canonicalise.seal) := by
  have hrecords : (p.draft.decisions.map fun record => record.canonicalise.seal) =
      p.emissions.map fun e => e.record.canonicalise.seal := by
    rw [← emissions_record, List.map_map]
    rfl
  have hsort := (sortOn_perm DecisionRecord.id p.draft.decisions).map fun record =>
    record.canonicalise.seal
  rw [hrecords] at hsort
  change (((sortOn DecisionRecord.id p.draft.decisions).map DecisionRecord.canonicalise).map
    DecisionRecord.seal).Perm _
  rw [List.map_map]
  exact hsort

/-- The composed decisions are named after the subjects. -/
theorem finalise_ids :
    (p.draft.finalise.decisions.map DecisionRecord.id).Perm
      (p.subjects.map DecisionSubject.id) := by
  have hids := (@finalise_decisions p).map DecisionRecord.id
  have hsubjects : (p.emissions.map fun e => e.record.canonicalise.seal).map DecisionRecord.id =
      p.subjects.map DecisionSubject.id := by
    rw [Passes.subjects, List.map_map, List.map_map]
    exact List.map_congr_left fun e he => emissions_id he
  exact hsubjects ▸ hids

/-- The decisions are identified exactly when the subjects are distinguished. -/
theorem PassesOf.identified_iff (h : PassesOf request p)
    (hvalid : SnapshotValid request.snapshot request.policy) :
    Identified p p.draft.finalise ↔ p.Distinguished := by
  constructor
  · intro hidentified s hs t ht hne
    rw [DecisionSubject.apart_iff]
    intro hsame
    rcases List.mem_append.1 hs with hs | hs
    · -- both are decided on
      have hnodup := finalise_ids.nodup_iff.1 hidentified.unique
      exact hne (List.inj_on_of_nodup_map hnodup hs ht hsame)
    · -- the first is depended on
      obtain ⟨e, he, hused⟩ := List.mem_flatMap.1 hs
      obtain ⟨e', he', rfl⟩ := List.mem_map.1 ht
      exact hne (hidentified.named e he s hused e' he' ((emissions_id he').trans hsame.symm)).symm
  · intro hdistinct
    have hinj : ∀ s ∈ p.subjects ++ p.emissions.flatMap Emission.uses, ∀ t ∈ p.subjects,
        s.id = t.id → s = t := by
      intro s hs t ht hsame
      by_contra hne
      exact DecisionSubject.apart_iff.1 (hdistinct s hs t ht hne) hsame
    refine ⟨finalise_ids.nodup_iff.2 ?_, fun e he used hused e' he' hsame => ?_⟩
    · exact (h.subjects_nodup hvalid).map_on fun s hs t ht =>
        hinj s (List.mem_append_left _ hs) t ht
    · have hin : used ∈ p.emissions.flatMap Emission.uses := List.mem_flatMap.2 ⟨e, he, hused⟩
      exact (hinj used (List.mem_append_right _ hin) e'.subject (List.mem_map_of_mem he')
        (hsame.symm.trans (emissions_id he'))).symm

end Identified

/-- **Decision identities.** The decisions of a composed state are those its passes emit. They have
different identities, and every dependency on a decision leads to the decision that is meant,
exactly if no two different subjects are named alike and at most one has no canonical name. -/
theorem decisions_identified_iff {request : CompositionRequest} {st : PodState}
    (h : compose request = .ok st) :
    ∃ p, runPasses request = .ok p ∧
      st.decisions.Perm (p.emissions.map fun e => e.record.canonicalise.seal) ∧
      (∀ e ∈ p.emissions, e.record.id = e.subject.id ∧
        decisionDeps e.record.deps = e.uses.map DecisionSubject.key) ∧
      (Identified p st ↔ p.Distinguished) := by
  obtain ⟨hvalid, -⟩ := validate_request_iff.1 (compose_eq_ok.1 h).1
  obtain ⟨p, hp, hof, rfl⟩ := compose_passesOf h
  exact ⟨p, hp, finalise_decisions, fun e he => ⟨emissions_id he, emissions_deps he⟩,
    hof.identified_iff hvalid⟩

/-- The decisions of the sample pod are identified. -/
theorem sample_identified : ∃ st p, compose Sample.request = .ok st ∧
    runPasses Sample.request = .ok p ∧ Identified p st := by
  have hruns : (compose Sample.request).isOk = true := by decide +kernel
  cases hst : compose Sample.request with
  | error fault => simp [hst, Except.isOk, Except.toBool] at hruns
  | ok st =>
    obtain ⟨p, hp, -, -, hiff⟩ := decisions_identified_iff hst
    have hdistinct : (runPasses Sample.request).toOption.map (fun p => decide p.Distinguished) =
        some true := by decide +kernel
    rw [hp] at hdistinct
    exact ⟨st, p, rfl, hp, hiff.2 (by simpa [Except.toOption] using hdistinct)⟩

namespace Sample

/-- A link between two racks, under the name of one of them. -/
def linkOf (a b : RackId) : LinkRecord :=
  { link with id := ⟨a.token, a.canonical⟩, a := { rack := a }, b := { rack := b } }

/-- Two links between four racks whose names, joined in pairs, are the same. -/
def dotted : CompositionRequest where
  snapshot := { snapshot with
    members := [member rackA ⟨1⟩, member (idOf "b.d") ⟨1⟩, member (idOf "a.b") ⟨1⟩,
      member (idOf "d") ⟨1⟩]
    links := [linkOf rackA (idOf "b.d"), linkOf (idOf "a.b") (idOf "d")]
    domains := [{ id := power, kind := .power
                  members := [rackA, idOf "b.d", idOf "a.b", idOf "d"] }] }

end Sample

/-- The decisions on two different pairs have one identity. -/
theorem dotted_collides : ¬ ∀ request st, compose request = .ok st →
    (st.decisions.map DecisionRecord.id).Nodup := by
  intro hclaim
  have hrun : (compose Sample.dotted).toOption.map (fun st =>
      decide (st.decisions.map DecisionRecord.id).Nodup) = some false := by decide +kernel
  obtain ⟨st, hst, hview⟩ := composed_of_map hrun
  exact absurd (hclaim _ st hst) (by simpa using hview)

end PodFabric
