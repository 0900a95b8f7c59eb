import PodFabric.Control.Protocol
import PodFabric.Proof.DurableCodec

/-!
# Protocol messages are read back

Requests and responses are read back as they were sent, and no part of a message is one. The reader
of a request accepts a snapshot of any kind of request; with the flag for it beside the request it
mirrors the writer (`getFlagged_mirrors`).
-/

namespace PodFabric

/-! ## Enumerations -/

/-- A kind of request is read back as it was written. -/
theorem getKind_mirrors :
    Mirrors 2 (fun _ => True) (fun kind : MessageKind => putU16 kind.number) getKind := by
  have hkind : ∀ kind : MessageKind, IsKind kind.number := by
    intro kind
    cases kind <;> decide
  have hof : ∀ kind : MessageKind, MessageKind.ofNat (kind.number.toNat - 1) = kind := by
    intro kind
    cases kind <;> rfl
  have hto : ∀ n < 12, (MessageKind.ofNat n).number.toNat = n + 1 := by decide
  refine .last getU16_mirrors (fun _ _ => trivial) le_rfl fun number _ =>
    .getCheck (fun hnumber => .pure fun kind => ⟨?_, ?_⟩) ?_
  · rintro ⟨-, rfl⟩
    exact (hof kind).symm
  · rintro rfl
    have hlow : 1 ≤ number.toNat := UInt16.le_iff_toNat_le.1 hnumber.1
    have hhigh : number.toNat ≤ 12 := UInt16.le_iff_toNat_le.1 hnumber.2
    refine ⟨trivial, UInt16.toNat_inj.1 ?_⟩
    rw [hto _ (by omega)]
    omega
  · rintro kind ⟨-, rfl⟩
    exact hkind kind

section Enumerations
variable {status : Status}

/-- A code is read back as it was written. -/
theorem code_mirrors : Mirrors 1 (fun _ => True) (fun c : Code => putEnum c.ctorIdx)
    (getRanged Code.ofNat 15 status) :=
  getRanged_mirrors Code.ofNat_ctorIdx (by decide) (by intro a; cases a <;> decide) (by decide)

/-- An outcome is read back as it was written. -/
theorem outcome_mirrors : Mirrors 1 (fun _ => True)
    (fun o : PodController.ApplyOutcome => putEnum o.ctorIdx)
    (getRanged PodController.ApplyOutcome.ofNat 4 status) :=
  getRanged_mirrors PodController.ApplyOutcome.ofNat_ctorIdx (by decide)
    (by intro a; cases a <;> decide) (by decide)

/-- A recovery's outcome is read back as it was written. -/
theorem recovery_mirrors : Mirrors 1 (fun _ => True)
    (fun o : RecoveryOutcome => putEnum o.ctorIdx) (getRanged RecoveryOutcome.ofNat 7 status) :=
  getRanged_mirrors RecoveryOutcome.ofNat_ctorIdx (by decide) (by intro a; cases a <;> decide)
    (by decide)

/-- A token's verdict is read back as it was written. -/
theorem verdict_mirrors : Mirrors 1 (fun _ => True)
    (fun v : AuthorityVerdictCode => putEnum v.ctorIdx)
    (getRanged AuthorityVerdictCode.ofNat 10 status) :=
  getRanged_mirrors AuthorityVerdictCode.ofNat_ctorIdx (by decide)
    (by intro a; cases a <;> decide) (by decide)

end Enumerations

/-! ## Responses -/

/-- A response is read back as it was written. -/
theorem getResponse_mirrors : Mirrors 0 (fun _ => True) putResponse getResponse := by
  refine .bind (f := fun _ => protocolVersion) getU16_mirrors (fun _ _ => trivial) fun version _ =>
    .getCheck (fun hversion => ?_) fun _ h => h.2.symm
  refine .bind (f := Response.code) code_mirrors (fun _ _ => trivial) fun code _ => ?_
  refine .bind getString_mirrors (fun _ _ => trivial) fun message _ => ?_
  refine .bind getU64_mirrors (fun _ _ => trivial) fun epoch _ => ?_
  refine .bind getUuid_mirrors (fun _ _ => trivial) fun incarnation _ => ?_
  refine .bind (f := Response.lifecycle) lifecycle_mirrors (fun _ _ => trivial)
    fun lifecycle _ => ?_
  refine .bind getDigest_mirrors (fun _ _ => trivial) fun stateDigest _ => ?_
  refine .bind (f := Response.outcome) outcome_mirrors (fun _ _ => trivial) fun outcome _ => ?_
  refine .bind getBool_mirrors (fun _ _ => trivial) fun revalidationSound _ => ?_
  refine .bind getString_mirrors (fun _ _ => trivial) fun revalidation _ => ?_
  refine .bind getText_mirrors (fun _ _ => trivial) fun text _ => ?_
  refine .bind getBool_mirrors (fun _ _ => trivial) fun textTruncated _ => ?_
  refine .bind (f := Response.recovery) recovery_mirrors (fun _ _ => trivial) fun recovery _ => ?_
  refine .bind getBool_mirrors (fun _ _ => trivial) fun ambiguousCommit _ => ?_
  refine .bind getU32_mirrors (fun _ _ => trivial) fun establishedMembers _ => ?_
  refine .bind getU32_mirrors (fun _ _ => trivial) fun fencedMembers _ => ?_
  refine .bind getU32_mirrors (fun _ _ => trivial) fun staleMembers _ => ?_
  refine .bind getU32_mirrors (fun _ _ => trivial) fun conflictingMembers _ => ?_
  refine .bind getToken_mirrors (fun _ _ => trivial) fun token _ => ?_
  refine .bind (f := Response.verdict) verdict_mirrors (fun _ _ => trivial) fun verdict _ => ?_
  refine .bind getString_mirrors (fun _ _ => trivial) fun verdictDetail _ => ?_
  refine .last getU64_mirrors (fun _ _ => trivial) (by decide) fun nonce _ => ?_
  refine .pure fun response => ?_
  simp only [Response.ext_iff, Sequence.ext_iff, Incarnation.ext_iff, and_assoc, true_and,
    hversion]

/-! ## Requests -/

/-- A request with the flag that a snapshot follows. -/
def putFlagged (flagged : Request × Bool) : ByteWriter Unit := do
  putU16 protocolVersion
  putU16 flagged.1.kind.number
  putU64 flagged.1.nonce
  putTypedId flagged.1.rack
  putEnum flagged.1.admin.ctorIdx
  putBool flagged.1.clearAdmin
  putEnum flagged.1.scope.ctorIdx
  putI64 flagged.1.lifetime
  putToken flagged.1.token
  putTypedId flagged.1.lease
  putBool flagged.2
  if flagged.2 then putSnapshot flagged.1.snapshot

/-- What a reader of requests reads, with the flag it finds. -/
def getFlagged : ByteReader (Request × Bool) := do
  let version ← getU16
  getCheck (version = protocolVersion) ⟨.unsupported, "protocol revision is not supported"⟩
  let kind ← getKind
  let nonce ← getU64
  let rack ← getTypedId "request.rack"
  let admin ← getRanged AdminState.ofNat 3 ⟨.invalid, "request admin mode is out of range"⟩
  let clearAdmin ← getBool
  let scope ← getRanged AuthorityScope.ofNat 4
    ⟨.invalid, "request authority scope is out of range"⟩
  let lifetime ← getI64
  let token ← getToken
  let lease ← getTypedId "request.lease"
  let hasSnapshot ← getBool
  let snapshot ← getAttached hasSnapshot
  return ({ kind, snapshot, rack, admin, clearAdmin, scope, lifetime, token, lease, nonce },
    hasSnapshot)

/-- A snapshot that follows is within the bounds, and without one there is the default. -/
structure Flagged (flagged : Request × Bool) : Prop where
  bounded : flagged.2 = true → flagged.1.snapshot.Bounded
  absent : flagged.2 = false → flagged.1.snapshot = {}

/-- A request and the flag for its snapshot are read back as they were written. -/
theorem getFlagged_mirrors : Mirrors 0 Flagged putFlagged getFlagged := by
  refine .bind (f := fun _ => protocolVersion) getU16_mirrors (fun _ _ => trivial) fun version _ =>
    .getCheck (fun hversion => ?_) fun _ h => h.2.symm
  refine .bind (f := fun r : Request × Bool => r.1.kind) getKind_mirrors (fun _ _ => trivial)
    fun kind _ => ?_
  refine .bind getU64_mirrors (fun _ _ => trivial) fun nonce _ => ?_
  refine .bind getTypedId_mirrors (fun _ _ => trivial) fun rack _ => ?_
  refine .bind (f := fun r : Request × Bool => r.1.admin) admin_mirrors (fun _ _ => trivial)
    fun admin _ => ?_
  refine .bind getBool_mirrors (fun _ _ => trivial) fun clearAdmin _ => ?_
  refine .bind (f := fun r : Request × Bool => r.1.scope) scope_mirrors (fun _ _ => trivial)
    fun scope _ => ?_
  refine .bind getI64_mirrors (fun _ _ => trivial) fun lifetime _ => ?_
  refine .bind getToken_mirrors (fun _ _ => trivial) fun token _ => ?_
  refine .bind getTypedId_mirrors (fun _ _ => trivial) fun lease _ => ?_
  refine .bind (f := Prod.snd) getBool_mirrors (fun _ _ => trivial) fun hasSnapshot _ => ?_
  cases hasSnapshot with
  | true =>
    refine @Mirrors.congrPut _ _ _ _ _ (fun r => putSnapshot r.1.snapshot) _ _ ?_ fun r h => ?_
    · refine .last (f := fun r : Request × Bool => r.1.snapshot) getSnapshot_mirrors
        (fun r h => ?_) (by decide) fun snapshot hsnapshot => .pure fun r => ⟨fun h => ?_, ?_⟩
      · have hflag := h.2
        simp only [and_assoc] at h
        exact h.1.bounded hflag
      · simp only [and_assoc] at h
        obtain ⟨-, -, hkind, hnonce, hrack, hadmin, hclear, hscope, hlifetime, htoken, hlease,
          hflag, hsame⟩ := h
        exact Prod.ext (Request.ext hkind hsame hrack hadmin hclear hscope hlifetime htoken hlease
          hnonce) hflag
      · rintro rfl
        simp only [and_true]
        exact ⟨⟨fun _ => hsnapshot, fun h => by cases h⟩, hversion.symm⟩
    · simp only [h.2, if_true]
  | false =>
    refine @Mirrors.congrPut _ _ _ _ _ (fun _ => Pure.pure ()) _ _ ?_ fun r h => ?_
    · refine Mirrors.pure fun r => ⟨fun h => ?_, ?_⟩
      · simp only [and_assoc] at h
        obtain ⟨hflagged, -, hkind, hnonce, hrack, hadmin, hclear, hscope, hlifetime, htoken,
          hlease, hflag⟩ := h
        exact Prod.ext (Request.ext hkind (hflagged.absent hflag) hrack hadmin hclear hscope
          hlifetime htoken hlease hnonce) hflag
      · rintro rfl
        simp only [and_true]
        exact ⟨⟨fun h => (by cases h), fun _ => rfl⟩, hversion.symm⟩
    · simp only [h.2]
      rfl

/-- The writer of requests raises the flag for evidence to apply. -/
theorem putRequest_eq (request : Request) :
    putRequest request = putFlagged (request, decide (request.kind = .apply)) := by
  have hkind : ∀ kind : MessageKind, IsKind kind.number := by
    intro kind
    cases kind <;> decide
  rw [putRequest, putFlagged]
  simp only [putCheck, ensure, hkind, if_true, decide_eq_true_eq]
  rfl

/-- Reading a request forgets the flag. -/
theorem getRequest_eq : getRequest = Prod.fst <$> getFlagged := by
  rw [getRequest, getFlagged]
  simp only [map_bind, map_pure]

section Documents
variable {request : Request} {response : Response} {bytes : List UInt8}

/-- Decoding a request forgets the flag. -/
theorem Request.decode_eq : Request.decode bytes =
    (getFlagged.document trailingBytes bytes).map Prod.fst := by
  rw [Request.decode, getRequest_eq, Get.document_map]

/-- Messages are read back as they were sent, and no part of a message is one. -/
theorem protocol_round_trip (hdefault : request.kind ≠ .apply → request.snapshot = {})
    (hbounded : request.kind = .apply → request.snapshot.Bounded) {sent answered : List UInt8}
    (hsent : request.encode = .ok sent) (hanswered : response.encode = .ok answered) :
    (Request.decode sent = .ok request ∧
      ∀ head tail, sent = head ++ tail → tail ≠ [] → (Request.decode head).isOk = false) ∧
    Response.decode answered = .ok response ∧
      ∀ head tail, answered = head ++ tail → tail ≠ [] → (Response.decode head).isOk = false := by
  have hflagged : Flagged (request, decide (request.kind = .apply)) :=
    ⟨fun h => hbounded (of_decide_eq_true h), fun h => hdefault (of_decide_eq_false h)⟩
  rw [Request.encode, putRequest_eq] at hsent
  have hrequest := ((getFlagged_mirrors.document (e := trailingBytes) hflagged).1 hsent).2
  have hresponse := ((getResponse_mirrors.document (e := trailingBytes) trivial).1 hanswered).2
  refine ⟨⟨?_, ?_⟩, hresponse, ?_⟩
  · rw [Request.decode_eq, hrequest]
    rfl
  · rintro head tail rfl htail
    have hcut := getFlagged_mirrors.document_cut htail hrequest
    rw [Request.decode_eq]
    cases hhead : getFlagged.document trailingBytes head with
    | ok flagged =>
      rw [hhead] at hcut
      cases hcut
    | error status => rfl
  · rintro head tail rfl htail
    exact getResponse_mirrors.document_cut htail hresponse

end Documents

namespace Sample

/-- A request to apply evidence, and an answer to it. -/
def sent : Request := { kind := .apply, snapshot := snapshot, nonce := 7 }

/-- A response. -/
def answered : Response := { message := "APPLIED", outcome := .applied, nonce := 7 }

end Sample

/-- A request and a response make the round trip, and no cut or longer message is accepted. -/
theorem sent_round_trip : ∃ sent answered,
    (Sample.sent.encode = .ok sent ∧ Sample.answered.encode = .ok answered) ∧
    (Request.decode sent = .ok Sample.sent ∧
      ∀ head tail, sent = head ++ tail → tail ≠ [] → (Request.decode head).isOk = false) ∧
    Response.decode answered = .ok Sample.answered ∧
      ∀ head tail, answered = head ++ tail → tail ≠ [] → (Response.decode head).isOk = false := by
  have hsent : Sample.sent.encode.isOk = true := by decide +kernel
  have hanswered : Sample.answered.encode.isOk = true := by decide +kernel
  cases hs : Sample.sent.encode with
  | error status =>
    rw [hs] at hsent
    cases hsent
  | ok sent =>
    cases ha : Sample.answered.encode with
    | error status =>
      rw [ha] at hanswered
      cases hanswered
    | ok answered =>
      exact ⟨sent, answered, ⟨rfl, rfl⟩,
        protocol_round_trip (fun h => absurd rfl h) (fun _ => Sample.snapshot_bounded) hs ha⟩

end PodFabric
