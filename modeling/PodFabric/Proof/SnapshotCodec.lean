import PodFabric.Codec.Binary
import PodFabric.Proof.Composition

/-!
# Snapshots are read back as they were written

The reader of each record mirrors its writer, on the values whose sequences are within the bound the
reader holds them to. For whole documents: what is encoded decodes to the same snapshot, and what
decodes is the encoding of the snapshot it decodes to.
-/

namespace PodFabric

/-! ## Identities, enumerations and digests -/

section Primitives
variable {tag : IdTag} {what : Text}

/-- An identifier is read back as it was written. -/
theorem getTypedId_mirrors :
    Mirrors 4 (fun _ => True) (@putTypedId tag) (getTypedId what) := by
  refine .last getString_mirrors (fun _ _ => trivial) le_rfl fun token _ => ?_
  by_cases hnil : token.isEmpty = true
  · rw [if_pos hnil]
    refine .pure fun id => ⟨?_, ?_⟩
    · rintro ⟨-, rfl⟩
      exact BasicId.isNil_iff.1 hnil
    · rintro rfl
      exact ⟨trivial, (List.isEmpty_iff.1 hnil).symm⟩
  · rw [if_neg hnil]
    by_cases hcanonical : isCanonicalId token = true
    · rw [BasicId.parse, dif_pos hcanonical]
      exact .pure fun id => by simp [BasicId.ext_iff]
    · -- an identity cannot be spelled so
      rw [BasicId.parse, dif_neg hcanonical]
      refine .fail fun id => ?_
      rintro ⟨-, rfl⟩
      exact id.canonical.elim (fun h => hnil (List.isEmpty_iff.2 h)) hcanonical

/-- An enumeration is read back if the bound is its largest value. -/
theorem getRanged_mirrors {α : Type} {toNat : α → ℕ} {ofNat : ℕ → α} {max : ℕ} {status : Status}
    (hof : ∀ a, ofNat (toNat a) = a) (hto : ∀ v ≤ max, toNat (ofNat v) = v)
    (hle : ∀ a, toNat a ≤ max) (hmax : max < 256) :
    Mirrors 1 (fun _ => True) (fun a => putEnum (toNat a)) (getRanged ofNat max status) := by
  have hraw : ∀ a, (toNat a).toUInt8.toNat = toNat a := fun a =>
    UInt8.toNat_ofNat_of_lt ((hle a).trans_lt hmax)
  refine .last getU8_mirrors (fun _ _ => trivial) le_rfl fun raw _ =>
    .getCheck (fun hraw' => .pure fun a => ⟨?_, ?_⟩) ?_
  · rintro ⟨-, rfl⟩
    rw [hraw, hof]
  · rintro rfl
    exact ⟨trivial, UInt8.toNat_inj.1 (by rw [hraw, hto _ hraw'])⟩
  · rintro a ⟨-, rfl⟩
    rw [hraw]
    exact hle a

/-- A membership state is read back as it was written. -/
theorem membership_mirrors : Mirrors 1 (fun _ => True)
    (fun m : MembershipState => putEnum m.ctorIdx) (getEnum MembershipState.ofNat 4 what) :=
  getRanged_mirrors MembershipState.ofNat_ctorIdx (by decide) (by intro a; cases a <;> decide)
    (by decide)

/-- An administrative state is read back as it was written. -/
theorem admin_mirrors {status : Status} : Mirrors 1 (fun _ => True)
    (fun a : AdminState => putEnum a.ctorIdx) (getRanged AdminState.ofNat 3 status) :=
  getRanged_mirrors AdminState.ofNat_ctorIdx (by decide) (by intro a; cases a <;> decide)
    (by decide)

/-- A health state is read back as it was written. -/
theorem health_mirrors : Mirrors 1 (fun _ => True)
    (fun h : HealthState => putEnum h.ctorIdx) (getEnum HealthState.ofNat 3 what) :=
  getRanged_mirrors HealthState.ofNat_ctorIdx (by decide) (by intro a; cases a <;> decide)
    (by decide)

/-- An operational state is read back as it was written. -/
theorem operational_mirrors : Mirrors 1 (fun _ => True)
    (fun o : OperationalState => putEnum o.ctorIdx) (getEnum OperationalState.ofNat 3 what) :=
  getRanged_mirrors OperationalState.ofNat_ctorIdx (by decide) (by intro a; cases a <;> decide)
    (by decide)

/-- A route state is read back as it was written. -/
theorem routeState_mirrors : Mirrors 1 (fun _ => True)
    (fun r : RouteState => putEnum r.ctorIdx) (getEnum RouteState.ofNat 4 what) :=
  getRanged_mirrors RouteState.ofNat_ctorIdx (by decide) (by intro a; cases a <;> decide)
    (by decide)

/-- A kind of domain is read back as it was written. -/
theorem domainKind_mirrors : Mirrors 1 (fun _ => True)
    (fun k : DomainKind => putEnum k.ctorIdx) (getEnum DomainKind.ofNat 5 what) :=
  getRanged_mirrors DomainKind.ofNat_ctorIdx (by decide) (by intro a; cases a <;> decide)
    (by decide)

/-- A kind of obligation is read back as it was written. -/
theorem obligationKind_mirrors : Mirrors 1 (fun _ => True)
    (fun k : ObligationKind => putEnum k.ctorIdx) (getEnum ObligationKind.ofNat 3 what) :=
  getRanged_mirrors ObligationKind.ofNat_ctorIdx (by decide) (by intro a; cases a <;> decide)
    (by decide)

/-- A quality is read back as it was written. -/
theorem quality_mirrors {status : Status} : Mirrors 1 (fun _ => True)
    (fun q : EvidenceQuality => putEnum q.ctorIdx) (getRanged EvidenceQuality.ofNat 2 status) :=
  getRanged_mirrors EvidenceQuality.ofNat_ctorIdx (by decide) (by intro a; cases a <;> decide)
    (by decide)

/-- A class of evidence is read back as it was written. -/
theorem class_mirrors {status : Status} : Mirrors 1 (fun _ => True)
    (fun c : EvidenceClass => putEnum c.ctorIdx) (getRanged EvidenceClass.ofNat 3 status) :=
  getRanged_mirrors EvidenceClass.ofNat_ctorIdx (by decide) (by intro a; cases a <;> decide)
    (by decide)

/-- An identifier of bytes is read back as it was written. -/
theorem getUuid_mirrors : Mirrors 16 (fun _ => True) putUuid getUuid := by
  refine .last .take (fun id _ => id.size) le_rfl fun raw hraw => ?_
  rw [dif_pos hraw]
  exact .pure fun id => by simp [Uuid.ext_iff]

/-- A digest is read back as it was written. -/
theorem getDigest_mirrors : Mirrors 32 (fun _ => True) putDigest getDigest := by
  refine .last .take (fun digest _ => digest.size) le_rfl fun raw hraw => ?_
  rw [dif_pos hraw]
  exact .pure fun digest => by simp [Digest.ext_iff]

/-- A generation is read back as it was written. -/
theorem getGeneration_mirrors :
    Mirrors 8 (fun _ => True) (fun g : RackGeneration => putU64 g.value) getGeneration :=
  .last getU64_mirrors (fun _ _ => trivial) le_rfl fun value _ =>
    .pure fun generation => by simp [Sequence.ext_iff]

end Primitives

/-! ## Provenance, claims and requirements -/

/-- A provenance is read back as it was written. -/
theorem getProvenance_mirrors : Mirrors 18 (fun _ => True) putProvenance getProvenance := by
  refine .bind (f := Provenance.quality) quality_mirrors (fun _ _ => trivial) fun quality _ => ?_
  refine .bind (f := Provenance.klass) class_mirrors (fun _ _ => trivial) fun klass _ => ?_
  refine .bind getTypedId_mirrors (fun _ _ => trivial) fun source _ => ?_
  refine .bind getU64_mirrors (fun _ _ => trivial) fun sourceSequence _ => ?_
  refine .last getString_mirrors (fun _ _ => trivial) le_rfl fun detail _ => ?_
  exact .pure fun p => by simp [Provenance.ext_iff, and_assoc]

/-- A claim is read back as it was written. -/
theorem getClaim_mirrors : Mirrors 24 (fun _ => True) putClaim getClaim := by
  refine .bind getTypedId_mirrors (fun _ _ => trivial) fun resource _ => ?_
  refine .bind getTypedId_mirrors (fun _ _ => trivial) fun exclusivity _ => ?_
  refine .bind getU64_mirrors (fun _ _ => trivial) fun amount _ => ?_
  refine .bind getU64_mirrors (fun _ _ => trivial) fun reserved _ => ?_
  refine .bind getTypedId_mirrors (fun _ _ => trivial) fun domain _ => ?_
  refine .last getProvenance_mirrors (fun _ _ => trivial) (by decide) fun provenance _ => ?_
  exact .pure fun claim => by simp [CapacityClaim.ext_iff, and_assoc]

/-- A requirement is read back as it was written. -/
theorem getRequirement_mirrors : Mirrors 16 (fun _ => True) putRequirement getRequirement := by
  refine .bind getTypedId_mirrors (fun _ _ => trivial) fun resource _ => ?_
  refine .bind getU64_mirrors (fun _ _ => trivial) fun minimum _ => ?_
  refine .last getU32_mirrors (fun _ _ => trivial) le_rfl fun marginPercent _ => ?_
  exact .pure fun requirement => by simp [CapacityRequirement.ext_iff, and_assoc]

/-! ## The bound on sequences -/

/-- The sequence is no longer than a reader accepts. -/
def Short {α : Type} (l : List α) : Prop := l.length ≤ 2 ^ 20

instance {α : Type} (l : List α) : Decidable (Short l) :=
  inferInstanceAs (Decidable (l.length ≤ 2 ^ 20))

/-- The lists of the record are short enough to be read back. -/
structure MemberRecord.Bounded (member : MemberRecord) : Prop where
  failureDomains : Short member.failureDomains
  capacity : Short member.capacity
  ports : Short member.ports

/-- The lists of the route are short enough to be read back. -/
structure RouteEvidence.Bounded (route : RouteEvidence) : Prop where
  path : Short route.path
  pathGenerations : Short route.pathGenerations

/-- The lists of the obligation are short enough to be read back. -/
structure Obligation.Bounded (obligation : Obligation) : Prop where
  protectedRacks : Short obligation.protectedRacks
  requirements : Short obligation.requirements

/-- Every sequence of the snapshot and of its records is within the bound. -/
structure PodSnapshot.Bounded (snapshot : PodSnapshot) : Prop where
  members : Short snapshot.members ∧ ∀ member ∈ snapshot.members, member.Bounded
  links : Short snapshot.links
  routes : Short snapshot.routes ∧ ∀ route ∈ snapshot.routes, route.Bounded
  domains : Short snapshot.domains ∧ ∀ domain ∈ snapshot.domains, Short domain.members
  obligations : Short snapshot.obligations ∧
    ∀ obligation ∈ snapshot.obligations, obligation.Bounded

section Sequences
variable {α : Type} {n : ℕ} {C : α → Prop} {put : α → ByteWriter Unit} {get : ByteReader α}
  {tag : IdTag} {what : Text}

/-- Short sequences of what is mirrored are mirrored. -/
theorem Mirrors.sequence (h : Mirrors n C put get) (hpos : 0 < n) :
    Mirrors 4 (fun l : List α => Short l ∧ ∀ a ∈ l, C a) (putSequence put) (getSequence n get) :=
  (getSequence_mirrors h hpos).congr fun _ => Iff.rfl

/-- A sequence whose items are read back whatever they are. -/
theorem Mirrors.plainSequence (h : Mirrors n (fun _ => True) put get) (hpos : 0 < n) :
    Mirrors 4 Short (putSequence put) (getSequence n get) :=
  (h.sequence hpos).congr fun _ => ⟨fun hl => ⟨hl, fun _ _ => trivial⟩, And.left⟩

/-- Short sequences of identifiers are read back as they were written. -/
theorem typedIds_mirrors :
    Mirrors 4 Short (putSequence (@putTypedId tag)) (getSequence 1 (getTypedId what)) :=
  (getTypedId_mirrors.weaken (by decide)).plainSequence Nat.one_pos

end Sequences

/-! ## The records of a snapshot -/

/-- A bounded record of a rack is read back as it was written. -/
theorem getMember_mirrors : Mirrors 8 MemberRecord.Bounded putMember getMember := by
  refine .bind getTypedId_mirrors (fun _ _ => trivial) fun rack _ => ?_
  refine .bind getU64_mirrors (fun _ _ => trivial) fun generation _ => ?_
  refine .bind getDigest_mirrors (fun _ _ => trivial) fun digest _ => ?_
  refine .bind getString_mirrors (fun _ _ => trivial) fun rnfSchema _ => ?_
  refine .bind (f := MemberRecord.membership) membership_mirrors (fun _ _ => trivial)
    fun membership _ => ?_
  refine .bind (f := MemberRecord.admin) admin_mirrors (fun _ _ => trivial) fun admin _ => ?_
  refine .bind (f := MemberRecord.health) health_mirrors (fun _ _ => trivial) fun health _ => ?_
  simp only [and_assoc]
  refine .bind typedIds_mirrors (fun _ h => h.1.failureDomains) fun failureDomains hdomains => ?_
  refine .bind (getClaim_mirrors.plainSequence (by decide)) (fun _ h => h.1.1.capacity)
    fun capacity hcapacity => ?_
  refine .bind typedIds_mirrors (fun _ h => h.1.1.1.ports) fun ports hports => ?_
  refine .bind getProvenance_mirrors (fun _ _ => trivial) fun provenance _ => ?_
  refine .last getI64_mirrors (fun _ _ => trivial) (by decide) fun observedAt _ => ?_
  refine .pure fun member => ⟨fun h => ?_, ?_⟩
  · simp only [and_assoc] at h
    simpa only [MemberRecord.ext_iff, Sequence.ext_iff] using h.2
  · rintro rfl
    simp only [and_true]
    exact ⟨hdomains, hcapacity, hports⟩

/-- A record of a link is read back as it was written. -/
theorem getLink_mirrors : Mirrors 16 (fun _ => True) putLink getLink := by
  refine .bind getTypedId_mirrors (fun _ _ => trivial) fun id _ => ?_
  refine .bind getTypedId_mirrors (fun _ _ => trivial) fun aRack _ => ?_
  refine .bind getTypedId_mirrors (fun _ _ => trivial) fun aPort _ => ?_
  refine .bind getTypedId_mirrors (fun _ _ => trivial) fun bRack _ => ?_
  refine .bind getTypedId_mirrors (fun _ _ => trivial) fun bPort _ => ?_
  refine .bind getTypedId_mirrors (fun _ _ => trivial) fun domain _ => ?_
  refine .bind getTypedId_mirrors (fun _ _ => trivial) fun resource _ => ?_
  refine .bind getU64_mirrors (fun _ _ => trivial) fun capacity _ => ?_
  refine .bind (f := LinkRecord.admin) admin_mirrors (fun _ _ => trivial) fun admin _ => ?_
  refine .bind (f := LinkRecord.oper) operational_mirrors (fun _ _ => trivial) fun oper _ => ?_
  refine .bind getU64_mirrors (fun _ _ => trivial) fun aGeneration _ => ?_
  refine .bind getU64_mirrors (fun _ _ => trivial) fun bGeneration _ => ?_
  refine .bind getTypedId_mirrors (fun _ _ => trivial) fun route _ => ?_
  refine .bind getProvenance_mirrors (fun _ _ => trivial) fun provenance _ => ?_
  refine .last getI64_mirrors (fun _ _ => trivial) (by decide) fun observedAt _ => ?_
  refine .pure fun link => ?_
  simp only [LinkRecord.ext_iff, LinkEndpoint.ext_iff, Sequence.ext_iff, and_assoc, true_and]

/-- A bounded route is read back as it was written. -/
theorem getRoute_mirrors : Mirrors 12 RouteEvidence.Bounded putRoute getRoute := by
  refine .bind getTypedId_mirrors (fun _ _ => trivial) fun ref _ => ?_
  refine .bind getU64_mirrors (fun _ _ => trivial) fun generation _ => ?_
  refine .bind getDigest_mirrors (fun _ _ => trivial) fun authorityDigest _ => ?_
  simp only [and_assoc]
  refine .bind typedIds_mirrors (fun _ h => h.1.path) fun path hpath => ?_
  refine .bind (getGeneration_mirrors.plainSequence (by decide))
    (fun _ h => h.1.1.pathGenerations) fun pathGenerations hgenerations => ?_
  refine .bind getTypedId_mirrors (fun _ _ => trivial) fun resource _ => ?_
  refine .bind getU64_mirrors (fun _ _ => trivial) fun committedCapacity _ => ?_
  refine .bind (f := RouteEvidence.state) routeState_mirrors (fun _ _ => trivial) fun state _ => ?_
  refine .bind getProvenance_mirrors (fun _ _ => trivial) fun provenance _ => ?_
  refine .last getI64_mirrors (fun _ _ => trivial) (by decide) fun observedAt _ => ?_
  refine .pure fun route => ⟨fun h => ?_, ?_⟩
  · simp only [and_assoc] at h
    simpa only [RouteEvidence.ext_iff, Sequence.ext_iff] using h.2
  · rintro rfl
    simp only [and_true]
    exact ⟨hpath, hgenerations⟩

/-- A domain with a short list of members is read back as it was written. -/
theorem getDomain_mirrors :
    Mirrors 8 (fun domain => Short domain.members) putDomain getDomain := by
  refine .bind getTypedId_mirrors (fun _ _ => trivial) fun id _ => ?_
  refine .bind (f := FailureDomainRecord.kind) domainKind_mirrors (fun _ _ => trivial)
    fun kind _ => ?_
  refine .bind typedIds_mirrors (fun _ h => h.1.1) fun members hmembers => ?_
  refine .bind getString_mirrors (fun _ _ => trivial) fun description _ => ?_
  refine .last getProvenance_mirrors (fun _ _ => trivial) (by decide) fun provenance _ => ?_
  refine .pure fun domain => ⟨fun h => ?_, ?_⟩
  · simp only [and_assoc] at h
    simpa only [FailureDomainRecord.ext_iff] using h.2
  · rintro rfl
    simp only [and_true]
    exact hmembers

/-- A bounded obligation is read back as it was written. -/
theorem getObligation_mirrors : Mirrors 12 Obligation.Bounded putObligation getObligation := by
  refine .bind getTypedId_mirrors (fun _ _ => trivial) fun id _ => ?_
  refine .bind (f := Obligation.kind) obligationKind_mirrors (fun _ _ => trivial) fun kind _ => ?_
  refine .bind getTypedId_mirrors (fun _ _ => trivial) fun tenant _ => ?_
  refine .bind getString_mirrors (fun _ _ => trivial) fun description _ => ?_
  simp only [and_assoc]
  refine .bind typedIds_mirrors (fun _ h => h.1.protectedRacks) fun protectedRacks hracks => ?_
  refine .bind getU32_mirrors (fun _ _ => trivial) fun requiredDomains _ => ?_
  refine .bind (f := Obligation.diversityKind) domainKind_mirrors (fun _ _ => trivial)
    fun diversityKind _ => ?_
  simp only [and_assoc]
  refine .bind (getRequirement_mirrors.plainSequence (by decide)) (fun _ h => h.1.requirements)
    fun requirements hrequirements => ?_
  refine .bind getBool_mirrors (fun _ _ => trivial) fun mandatory _ => ?_
  refine .last getProvenance_mirrors (fun _ _ => trivial) (by decide) fun provenance _ => ?_
  refine .pure fun obligation => ⟨fun h => ?_, ?_⟩
  · simp only [and_assoc] at h
    simpa only [Obligation.ext_iff] using h.2
  · rintro rfl
    simp only [and_true]
    exact ⟨hracks, hrequirements⟩

/-! ## Snapshots -/

/-- A bounded snapshot is read back as it was written. -/
theorem getSnapshot_mirrors : Mirrors 0 PodSnapshot.Bounded putSnapshot getSnapshot := by
  refine .bind (f := fun _ => binaryVersion) getU16_mirrors (fun _ _ => trivial) fun version _ =>
    .getCheck (fun hversion => ?_) fun _ h => h.2.symm
  refine .bind getTypedId_mirrors (fun _ _ => trivial) fun pod _ => ?_
  refine .bind getString_mirrors (fun _ _ => trivial) fun schema _ => ?_
  simp only [and_assoc]
  refine .bind (getMember_mirrors.sequence (by decide)) (fun _ h => h.1.members)
    fun members hmembers => ?_
  refine .bind (getLink_mirrors.plainSequence (by decide)) (fun _ h => h.1.1.links)
    fun links hlinks => ?_
  refine .bind (getRoute_mirrors.sequence (by decide)) (fun _ h => h.1.1.1.routes)
    fun routes hroutes => ?_
  refine .bind (getDomain_mirrors.sequence (by decide)) (fun _ h => h.1.1.1.1.domains)
    fun domains hdomains => ?_
  refine .bind (getObligation_mirrors.sequence (by decide)) (fun _ h => h.1.1.1.1.1.obligations)
    fun obligations hobligations => ?_
  refine .bind getProvenance_mirrors (fun _ _ => trivial) fun provenance _ => ?_
  refine .last getI64_mirrors (fun _ _ => trivial) (by decide) fun observedAt _ => ?_
  refine .pure fun snapshot => ⟨fun h => ?_, ?_⟩
  · simp only [and_assoc] at h
    simpa only [PodSnapshot.ext_iff] using h.2.2
  · rintro rfl
    simp only [and_true]
    exact ⟨⟨hmembers, hlinks, hroutes, hdomains, hobligations⟩, hversion.symm⟩

/-- What is encoded decodes to the same snapshot; what decodes is the encoding of what it decodes
to; and a document is neither continued nor cut short. -/
theorem encoding_exact :
    (∀ (s : PodSnapshot) (limit : ℕ) (b : List UInt8), s.Bounded → s.encode limit = .ok b →
      PodSnapshot.decode b = .ok s) ∧
    (∀ (s : PodSnapshot) (limit : ℕ) (b : List UInt8), b.length ≤ limit →
      PodSnapshot.decode b = .ok s → s.encode limit = .ok b) ∧
    ∀ (s s' : PodSnapshot) (b rest : List UInt8), PodSnapshot.decode b = .ok s →
      PodSnapshot.decode (b ++ rest) = .ok s' → rest = [] := by
  have h := getSnapshot_mirrors
  refine ⟨fun s limit b hbounded hb => ?_, fun s limit b hfits hs => ?_,
    fun s s' b rest hs hs' => ?_⟩
  · exact ((h.document hbounded).1 hb).2
  · exact (h.document (h.of_document hs)).2 ⟨hfits, hs⟩
  · exact h.document_append hs hs'

/-- The sample is bounded. -/
theorem Sample.snapshot_bounded : Sample.snapshot.Bounded := by
  have hmember : ∀ rack generation, (Sample.member rack generation).Bounded :=
    fun _ _ => ⟨Nat.le_of_ble_eq_true rfl, Nat.le_of_ble_eq_true rfl, Nat.zero_le _⟩
  have hmembers : ∀ member ∈ Sample.snapshot.members, member.Bounded :=
    List.forall_mem_cons.2 ⟨hmember _ _, List.forall_mem_singleton.2 (hmember _ _)⟩
  exact ⟨⟨by decide, hmembers⟩, by decide, ⟨by decide, List.forall_mem_nil _⟩, by decide,
    ⟨by decide, List.forall_mem_nil _⟩⟩

/-- The sample pod is encoded, and is read back from the bytes. -/
theorem sample_read_back : ∃ b, Sample.snapshot.encode codecLimits.maxDocumentBytes = .ok b ∧
    PodSnapshot.decode b = .ok Sample.snapshot ∧ ∀ rest ≠ [], ∀ s,
      PodSnapshot.decode (b ++ rest) ≠ .ok s := by
  have hruns : (Sample.snapshot.encode codecLimits.maxDocumentBytes).isOk = true := by
    decide +kernel
  cases hb : Sample.snapshot.encode codecLimits.maxDocumentBytes with
  | error e =>
    rw [hb] at hruns
    cases hruns
  | ok b =>
    have hread := encoding_exact.1 _ _ _ Sample.snapshot_bounded hb
    exact ⟨b, rfl, hread, fun rest hrest s hs => hrest (encoding_exact.2.2 _ _ _ _ hread hs)⟩

end PodFabric
