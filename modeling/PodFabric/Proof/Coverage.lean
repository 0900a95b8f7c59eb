import PodFabric.Proof.Composition
import PodFabric.Proof.Validation

/-!
# Which member records validation covers

Validation checks the first record of each rack and passes over the later ones, which are not
counted either. So it covers every record exactly if the records that it passes over would do.
-/

namespace PodFabric

/-! ## Records that are passed over -/

/-- The records of a rack that is among `racks` or has an earlier record. -/
def repeatedRecords : List RackId → List MemberRecord → List MemberRecord
  | _, [] => []
  | racks, member :: rest =>
    if member.rack ∈ racks then member :: repeatedRecords racks rest
    else repeatedRecords (member.rack :: racks) rest

section Records
variable {member : MemberRecord} {policy : Policy}

/-- Each record is the first one of its rack or passed over. -/
theorem mem_records : ∀ {members : List MemberRecord} {racks : List RackId}, member ∈ members ↔
    member ∈ firstRecords racks members ∨ member ∈ repeatedRecords racks members := by
  intro members
  induction members with
  | nil => simp [firstRecords, repeatedRecords]
  | cons first rest ih =>
    intro racks
    rw [firstRecords, repeatedRecords]
    split
    · rw [List.mem_cons, List.mem_cons, @ih racks]
      exact or_left_comm
    · rw [List.mem_cons, List.mem_cons, @ih (first.rack :: racks), or_assoc]

/-- The claims of a rack and of the others. -/
theorem claimCount_cons {first : MemberRecord} {rest : List MemberRecord} :
    claimCount (first :: rest) = first.capacity.length + claimCount rest := rfl

/-- The claims of all records are those that are counted and those passed over. -/
theorem claimCount_records : ∀ {members : List MemberRecord} {racks : List RackId},
    claimCount members =
      claimCount (firstRecords racks members) + claimCount (repeatedRecords racks members) := by
  intro members
  induction members with
  | nil => exact rfl
  | cons first rest ih =>
    intro racks
    rw [firstRecords, repeatedRecords]
    split
    · rw [claimCount_cons, claimCount_cons, @ih racks]
      omega
    · rw [claimCount_cons, claimCount_cons, @ih (first.rack :: racks)]
      omega

/-- A rack has no more claims than all racks together. -/
theorem length_le_claimCount : ∀ {members : List MemberRecord}, member ∈ members →
    member.capacity.length ≤ claimCount members := by
  intro members
  induction members with
  | nil => intro h; cases h
  | cons first rest ih =>
    intro h
    rw [claimCount_cons]
    cases h with
    | head => exact Nat.le_add_right _ _
    | tail _ h => exact (ih h).trans (Nat.le_add_left _ _)

/-- The record is within the bounds of the policy and repeats nothing. -/
structure MemberRecord.Sound (member : MemberRecord) (policy : Policy) : Prop where
  generation : member.generation.isZero = false
  digest : member.digest.isZero = false
  schema : member.rnfSchema ≠ []
  domains : member.failureDomains.length ≤ policy.maxDomains.toNat ∧ member.failureDomains.Nodup
  ports : member.ports.length ≤ policy.maxPortsPerMember.toNat ∧ member.ports.Nodup
  amounts : ∀ claim ∈ member.capacity,
    claim.amount ≤ policy.maxCapacityAmount ∧ claim.reserved ≤ claim.amount
  claims : (member.capacity.map fun claim => (claim.resource, claim.exclusivity)).Nodup

/-- A record that is checked is sound. -/
theorem validate_sound (h : member.validate policy = .ok ()) : member.Sound policy := by
  unfold MemberRecord.validate at h
  simp only [check_eq_ok, ensure_eq_ok, bounded_eq_ok, forM_eq_ok, Bool.not_eq_true] at h
  obtain ⟨hgeneration, hdigest, hschema, hdomains, hports, hdistinct, hrefs, hamounts, hclaims⟩ := h
  refine ⟨hgeneration, hdigest, hschema, ⟨hdomains, hdistinct⟩, ⟨hports, hrefs⟩, ?_, hclaims⟩
  intro claim hclaim
  have hvalid := hamounts claim hclaim
  unfold CapacityClaim.validate at hvalid
  simp only [check_eq_ok, ensure_eq_ok] at hvalid
  exact hvalid.2

end Records

/-! ## Snapshots -/

/-- Every record is sound, and the claims of all records are within the bound. -/
structure PodSnapshot.Covered (snapshot : PodSnapshot) (policy : Policy) : Prop where
  members : ∀ member ∈ snapshot.members,
    member.Sound policy ∧ member.capacity.length ≤ policy.maxCapacityClaims.toNat
  claims : claimCount snapshot.members ≤ policy.maxCapacityClaims.toNat

/-- The records that are passed over are sound, and their claims fit beside those counted. -/
structure PodSnapshot.RepeatsFit (snapshot : PodSnapshot) (policy : Policy) : Prop where
  members : ∀ member ∈ repeatedRecords [] snapshot.members, member.Sound policy
  claims : claimCount (firstRecords [] snapshot.members) +
    claimCount (repeatedRecords [] snapshot.members) ≤ policy.maxCapacityClaims.toNat

/-- Validation covers every record if and only if the records that it passes over would do. -/
theorem validation_covers_iff {snapshot : PodSnapshot} {policy : Policy}
    (h : snapshot.validate policy = .ok ()) :
    snapshot.Covered policy ↔ snapshot.RepeatsFit policy := by
  have hvalid := validate_snapshot_iff.1 h
  have hcount := @claimCount_records snapshot.members []
  constructor
  · intro hcovered
    refine ⟨fun member hmember => ?_, hcount ▸ hcovered.claims⟩
    exact (hcovered.members member (mem_records.2 (.inr hmember))).1
  · intro hrepeats
    have hclaims : claimCount snapshot.members ≤ policy.maxCapacityClaims.toNat := by
      rw [hcount]
      exact hrepeats.claims
    refine ⟨fun member hmember => ⟨?_, (length_le_claimCount hmember).trans hclaims⟩, hclaims⟩
    obtain hfirst | hrepeated := (@mem_records member snapshot.members []).1 hmember
    · exact validate_sound (hvalid.members member hfirst)
    · exact hrepeats.members member hrepeated

namespace Sample

/-- The pod with a second record of one of its racks, which has nothing but the rack. -/
def repeated : PodSnapshot :=
  { snapshot with members := [member rackA ⟨1⟩, member rackB ⟨1⟩, { rack := rackA }] }

end Sample

/-- The sample is within the policy. -/
theorem sample_covered : Sample.snapshot.Covered {} :=
  (validation_covers_iff (by decide +kernel)).2
    ⟨by rw [show repeatedRecords [] Sample.snapshot.members = [] from rfl]
        exact List.forall_mem_nil _, by decide⟩

/-- A record with neither a generation nor a digest is accepted behind another one of its rack. -/
theorem repeated_uncovered :
    ¬ ∀ (snapshot : PodSnapshot) (policy : Policy), snapshot.validate policy = .ok () →
      snapshot.Covered policy := by
  intro h
  have hcovered := h Sample.repeated {} (by decide +kernel)
  have hsound := (hcovered.members { rack := Sample.rackA } (by simp [Sample.repeated])).1
  exact absurd hsound.generation (by decide)

end PodFabric
