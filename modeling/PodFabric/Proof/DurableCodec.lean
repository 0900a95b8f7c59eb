import PodFabric.Proof.SnapshotCodec
import PodFabric.Proof.Store

/-!
# Durable states are read back as they were written

A durable state is read back from its encoding, and from a checkpoint file, if its sequences are
within the bound of the reader and its expectations are sorted, one for each rack.
-/

namespace PodFabric

/-! ## Records -/

/-- A token's scope is read back as it was written. -/
theorem scope_mirrors {status : Status} : Mirrors 1 (fun _ => True)
    (fun s : AuthorityScope => putEnum s.ctorIdx) (getRanged AuthorityScope.ofNat 4 status) :=
  getRanged_mirrors AuthorityScope.ofNat_ctorIdx (by decide) (by intro a; cases a <;> decide)
    (by decide)

/-- A lifecycle state is read back as it was written. -/
theorem lifecycle_mirrors {status : Status} : Mirrors 1 (fun _ => True)
    (fun l : LifecycleState => putEnum l.ctorIdx) (getRanged LifecycleState.ofNat 7 status) :=
  getRanged_mirrors LifecycleState.ofNat_ctorIdx (by decide) (by intro a; cases a <;> decide)
    (by decide)

/-- An expected member is read back as it was written. -/
theorem getExpectation_mirrors :
    Mirrors 8 (fun _ => True) putExpectation getExpectation := by
  refine .bind getTypedId_mirrors (fun _ _ => trivial) fun rack _ => ?_
  refine .bind getU64_mirrors (fun _ _ => trivial) fun generation _ => ?_
  refine .bind getDigest_mirrors (fun _ _ => trivial) fun digest _ => ?_
  refine .last (f := MemberExpectation.membership) membership_mirrors (fun _ _ => trivial)
    (by decide) fun membership _ => ?_
  exact .pure fun expectation => by
    simp [MemberExpectation.ext_iff, Sequence.ext_iff, and_assoc]

/-- A token is read back as it was written. -/
theorem getToken_mirrors : Mirrors 16 (fun _ => True) putToken getToken := by
  refine .bind getTypedId_mirrors (fun _ _ => trivial) fun lease _ => ?_
  refine .bind getTypedId_mirrors (fun _ _ => trivial) fun pod _ => ?_
  refine .bind getU64_mirrors (fun _ _ => trivial) fun epoch _ => ?_
  refine .bind getUuid_mirrors (fun _ _ => trivial) fun incarnation _ => ?_
  refine .bind (f := AuthorityToken.scope) scope_mirrors (fun _ _ => trivial) fun scope _ => ?_
  refine .bind getTypedId_mirrors (fun _ _ => trivial) fun subject _ => ?_
  refine .bind getI64_mirrors (fun _ _ => trivial) fun issuedAt _ => ?_
  refine .bind getI64_mirrors (fun _ _ => trivial) fun expiresAt _ => ?_
  refine .bind getU64_mirrors (fun _ _ => trivial) fun fencing _ => ?_
  refine .last getDigest_mirrors (fun _ _ => trivial) (by decide) fun payloadDigest _ => ?_
  exact .pure fun token => by
    simp [AuthorityToken.ext_iff, Sequence.ext_iff, Incarnation.ext_iff, and_assoc]

/-- An override is read back as it was written. -/
theorem getOverride_mirrors : Mirrors 2 (fun _ => True) putOverride getOverride := by
  refine .bind (f := Prod.fst) getTypedId_mirrors (fun _ _ => trivial) fun rack _ => ?_
  refine .last (f := Prod.snd) admin_mirrors (fun _ _ => trivial) (by decide) fun mode _ => ?_
  exact .pure fun entry => by simp [Prod.ext_iff]

/-! ## States -/

/-- The state is of the current revision, and its sequences are within the bound of the reader. -/
structure DurableState.Bounded (state : DurableState) : Prop where
  version : state.version = durableStateVersion
  expectations : Short state.expectations
  tokens : Short state.tokens
  revoked : Short state.revoked
  admin : Short state.admin

/-- A bounded durable state is read back as it was written. -/
theorem getDurableState_mirrors :
    Mirrors 0 DurableState.Bounded putDurableState getDurableState := by
  refine .bind getU16_mirrors (fun _ _ => trivial) fun version _ =>
    .getCheck (fun hversion => ?_) fun state h => h.2 ▸ h.1.version
  refine .bind getTypedId_mirrors (fun _ _ => trivial) fun pod _ => ?_
  refine .bind getU64_mirrors (fun _ _ => trivial) fun epoch _ => ?_
  refine .bind getUuid_mirrors (fun _ _ => trivial) fun writer _ => ?_
  refine .bind (f := DurableState.lifecycle) lifecycle_mirrors (fun _ _ => trivial)
    fun lifecycle _ => ?_
  simp only [and_assoc]
  refine .bind (getExpectation_mirrors.plainSequence (by decide)) (fun _ h => h.1.expectations)
    fun expectations hexpectations => ?_
  refine .bind (getToken_mirrors.plainSequence (by decide)) (fun _ h => h.1.1.tokens)
    fun tokens htokens => ?_
  refine .bind typedIds_mirrors (fun _ h => h.1.1.1.revoked) fun revoked hrevoked => ?_
  refine .bind (getOverride_mirrors.plainSequence (by decide)) (fun _ h => h.1.1.1.1.admin)
    fun admin hadmin => ?_
  refine .bind getU64_mirrors (fun _ _ => trivial) fun fencing _ => ?_
  refine .bind getDigest_mirrors (fun _ _ => trivial) fun lastStateDigest _ => ?_
  refine .bind getU64_mirrors (fun _ _ => trivial) fun sequence _ => ?_
  refine .last getI64_mirrors (fun _ _ => trivial) (by decide) fun writtenAt _ => ?_
  refine .pure fun state => ⟨fun h => ?_, ?_⟩
  · simp only [and_assoc] at h
    simpa only [DurableState.ext_iff, Sequence.ext_iff, Incarnation.ext_iff] using h.2
  · rintro rfl
    simp only [and_true]
    exact ⟨hversion, hexpectations, htokens, hrevoked, hadmin⟩

/-- The state is one that the store reads back as it is. -/
structure DurableState.Storable (state : DurableState) : Prop extends state.Bounded where
  sorted : state.expectations.Pairwise fun a b => a.rack < b.rack

namespace DurableState
variable {state : DurableState} {body : List UInt8}

/-- Expectations are ordered by their racks first. -/
theorem lt_of_rack_lt {a b : MemberExpectation} (h : a.rack < b.rack) : a < b := by
  change a.key < b.key
  exact Prod.Lex.toLex_lt_toLex.2 (.inl h)

/-- A storable state that is encoded is decoded to itself. -/
theorem decode_of_encode (hstorable : state.Storable) (h : state.encode = .ok body) :
    decode body = .ok state := by
  have hread : getDurableState.document trailingBytes body = .ok state :=
    ((getDurableState_mirrors.document hstorable.toBounded).1 h).2
  have hsorted : PodFabric.sorted state.expectations = state.expectations :=
    sortOn_eq_self (hstorable.sorted.imp fun h => (lt_of_rack_lt h).le)
  have hdistinct : state.expectations.IsChain fun a b => a.rack ≠ b.rack :=
    (hstorable.sorted.imp fun h => h.ne).isChain
  rw [decode, hread]
  simp only [bind, Except.bind, hsorted, ensure, hdistinct, if_true]
  rfl

/-- Expectations in order, one for each rack, have their racks in order. -/
theorem racks_increase {expectations : List MemberExpectation}
    (hsorted : expectations.Pairwise (· ≤ ·))
    (hdistinct : (expectations.map MemberExpectation.rack).Nodup) :
    expectations.Pairwise fun a b => a.rack < b.rack := by
  rw [List.Nodup, List.pairwise_map] at hdistinct
  refine (hsorted.and hdistinct).imp fun {a b} h => ?_
  have hkey : a.key ≤ b.key := h.1
  obtain hlt | ⟨heq, -⟩ := Prod.Lex.toLex_le_toLex.1 hkey
  · exact hlt
  · exact absurd heq h.2

/-- What is encoded decodes to the same state, and neither a part of it nor more than it decodes. -/
theorem durable_state_round_trip (hbounded : state.Bounded)
    (hsorted : state.expectations.Pairwise (· ≤ ·))
    (hdistinct : (state.expectations.map MemberExpectation.rack).Nodup)
    (hencode : state.encode = .ok body) :
    decode body = .ok state ∧
      (∀ head tail, body = head ++ tail → tail ≠ [] → (decode head).isOk = false) ∧
      ∀ tail, tail ≠ [] → (decode (body ++ tail)).isOk = false := by
  have hread := ((getDurableState_mirrors.document (e := trailingBytes) hbounded).1 hencode).2
  have hfails : ∀ bytes, (getDurableState.document trailingBytes bytes).isOk = false →
      (decode bytes).isOk = false := by
    intro bytes hbytes
    cases hdocument : getDurableState.document trailingBytes bytes with
    | ok other =>
      rw [hdocument] at hbytes
      cases hbytes
    | error status =>
      rw [decode, hdocument]
      rfl
  refine ⟨decode_of_encode ⟨hbounded, racks_increase hsorted hdistinct⟩ hencode, ?_, ?_⟩
  · intro head tail hbody htail
    rw [hbody] at hread
    exact hfails head (getDurableState_mirrors.document_cut htail hread)
  · exact fun tail htail => hfails _ (getDurableState_mirrors.document_extended htail hread)

end DurableState

namespace Sample

/-- A state with an entry in each of its sequences. -/
def kept : DurableState :=
  { pod := idOf "vault"
    expectations := [{ rack := idOf "alcove" }, { rack := idOf "niche", generation := ⟨3⟩ }]
    tokens := [{ lease := idOf "permit", subject := idOf "alcove" }]
    revoked := [idOf "lapsed"]
    admin := [(idOf "niche", .draining)] }

end Sample

/-- The sample's state makes the round trip, and no cut or longer body is accepted. -/
theorem kept_round_trip : ∃ body, Sample.kept.encode = .ok body ∧
    DurableState.decode body = .ok Sample.kept ∧
      (∀ head tail, body = head ++ tail → tail ≠ [] → (DurableState.decode head).isOk = false) ∧
      ∀ tail, tail ≠ [] → (DurableState.decode (body ++ tail)).isOk = false := by
  have hok : Sample.kept.encode.isOk = true := by decide +kernel
  cases hencode : Sample.kept.encode with
  | error status =>
    rw [hencode] at hok
    cases hok
  | ok body =>
    have hbounded : Sample.kept.Bounded :=
      ⟨rfl, by decide, by decide, by decide, by decide⟩
    exact ⟨body, rfl,
      DurableState.durable_state_round_trip hbounded (by decide) (by decide) hencode⟩

/-! ## Checkpoints -/

section Checkpoint
variable {policy : Policy} {state : DurableState} {body : List UInt8}

/-- The framing of a checkpoint has sixteen bytes. -/
theorem length_checkpointFraming : (checkpointFraming body).length = 16 := rfl

/-- A checkpoint has its header, its body and a digest. -/
theorem length_checkpointImage :
    (checkpointImage body).length = checkpointHeader + body.length + 32 := by
  simp only [checkpointImage, List.length_append, length_checkpointFraming, length_bytes32,
    (Digest.of body).size, checkpointHeader]

/-- A checkpoint file is read as what it was written for. -/
theorem decode_checkpointImage (hbody : body.length ≤ journalHardMaxRecord)
    (hfits : (checkpointImage body).length ≤ (policy.maxJournalBytes * 4).toNat) :
    decodeCheckpoint policy (checkpointImage body) = DurableState.decode body := by
  have hlength := @length_checkpointImage body
  have hmagic : (checkpointImage body).take checkpointMagic.length = checkpointMagic := rfl
  have hversion : ((checkpointImage body).drop 8).take 2 = bytes16 durableStateVersion := rfl
  have hdeclared : ((checkpointImage body).drop 12).take 4 =
      bytes32 body.length.toUInt32 := rfl
  have hcrc : ((checkpointImage body).drop 16).take 4 =
      bytes32 (crc32c (checkpointFraming body)) := rfl
  have hframing : (checkpointImage body).take 16 = checkpointFraming body := rfl
  have hrest : (checkpointImage body).drop checkpointHeader =
      body ++ (Digest.of body).bytes := rfl
  have hdigest : (checkpointImage body).drop (checkpointHeader + body.length) =
      (Digest.of body).bytes := by
    rw [← List.drop_drop, hrest, List.drop_left]
  have hbound : body.length ≤ (policy.maxJournalBytes * 4).toNat := by omega
  rw [decodeCheckpoint, hmagic, hversion, hcrc, hframing, hdeclared, bigEndian_bytes16,
    bigEndian_bytes32, bigEndian_bytes32, toNat_length hbody (by decide), hrest]
  dsimp only
  rw [hdigest, List.take_left, List.take_of_length_le (Digest.of body).size.le]
  simp only [ensure, hfits, hbound, if_true]
  rw [if_pos (by omega), if_pos hlength]
  rfl

end Checkpoint

end PodFabric
