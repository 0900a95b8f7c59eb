import PodFabric.Proof.Protocol
import PodFabric.Proof.Utf8

/-!
# Responses that can be sent

A response can be sent if its strings are within the bounds and its text, which may have been cut,
is UTF-8. The cut is made at a number of bytes; it leaves UTF-8 exactly where the byte behind it
does not continue a character (`bounded_text_sent_iff`).
-/

namespace PodFabric

/-! ## What is written for each field -/

/-- The text can be written as a string. -/
def IsString (t : Text) : Prop := isValidUtf8 t = true ∧ t.length ≤ codecLimits.maxStringBytes

instance (t : Text) : Decidable (IsString t) :=
  inferInstanceAs (Decidable (_ ∧ _))

section Fields
variable {n : ℕ} {status : Status} {cond : Prop} [Decidable cond] {q : Unit → ByteWriter Unit}
  {t : Text} {tag : IdTag}

/-- A check writes nothing itself. -/
theorem WritesWithin.putCheck (hcond : cond) (hq : WritesWithin n (q ())) :
    WritesWithin n (PodFabric.putCheck cond status >>= q) := by
  have hpasses : PodFabric.putCheck cond status >>= q = q () := by
    rw [PodFabric.putCheck, ensure, if_pos hcond]
    rfl
  rw [hpasses]
  exact hq

/-- When a check can write, its condition holds. -/
theorem Put.Possible.putCheck (h : (PodFabric.putCheck cond status).Possible) : cond := by
  obtain ⟨w, h⟩ := h
  by_contra hcond
  rw [PodFabric.putCheck, ensure, if_neg hcond] at h
  cases h

/-- An identity is a string. -/
theorem isString_token (id : BasicId tag) : IsString id.token := by
  refine ⟨isValidUtf8_token id, ?_⟩
  obtain hnil | hcanonical := id.canonical
  · rw [hnil]
    decide
  · unfold isCanonicalId at hcanonical
    split at hcanonical
    · simp only [Bool.and_eq_true, decide_eq_true_eq] at hcanonical
      exact hcanonical.1.1.1.trans (by decide)
    · cases hcanonical

/-- A string takes its length field and its bytes. -/
theorem putString_within (h : IsString t) : WritesWithin 4100 (putString t) := by
  refine .putCheck h.1 (.putCheck h.2 ?_)
  exact WritesWithin.bind (n := 4) (m := 4096) (.emit (by simp)) (.emit h.2)

/-- A text takes its length field and its bytes. -/
theorem putText_within (hvalid : isValidUtf8 t = true)
    (hshort : t.length ≤ codecLimits.maxBlobBytes) :
    WritesWithin 1048580 (putText t) := by
  refine .putCheck hvalid (.putCheck hshort ?_)
  exact WritesWithin.bind (n := 4) (m := 1048576) (.emit (by simp)) (.emit hshort)

/-- An identifier is a string. -/
theorem putTypedId_within (id : BasicId tag) : WritesWithin 4100 (putTypedId id) :=
  putString_within (isString_token id)

/-- A token takes its fields. -/
theorem putToken_within (token : AuthorityToken) :
    WritesWithin (4100 + (4100 + (8 + (16 + (1 + (4100 + (8 + (8 + (8 + 32)))))))))
      (putToken token) :=
  .bind (putTypedId_within _) <| .bind (putTypedId_within _) <| .bind (.emit le_rfl) <|
    .bind (.emit token.incarnation.id.size.le) <| .bind (.emit le_rfl) <|
    .bind (putTypedId_within _) <| .bind (.emit le_rfl) <| .bind (.emit le_rfl) <|
    .bind (.emit le_rfl) <| .emit token.payloadDigest.size.le

end Fields

/-! ## Responses -/

/-- The strings of the response, other than its text, can be written. -/
structure Response.Worded (response : Response) : Prop where
  message : IsString response.message
  revalidation : IsString response.revalidation
  verdictDetail : IsString response.verdictDetail

section Responses
variable {response : Response} {options : ServerOptions} {t : Text}

/-- A response with strings within the bounds is encoded if its text is UTF-8. -/
theorem encode_isOk_iff (hworded : response.Worded)
    (hshort : response.text.length ≤ codecLimits.maxBlobBytes) :
    response.encode.isOk = true ↔ isValidUtf8 response.text = true := by
  constructor
  · intro h
    have hpossible : (putResponse response).Possible := .of_document h
    iterate 10 replace hpossible := hpossible.of_bind.2
    exact hpossible.of_bind.1.of_bind.1.putCheck
  · intro hvalid
    have hwithin : WritesWithin
        (2 + (1 + (4100 + (8 + (16 + (1 + (32 + (1 + (1 + (4100 + (1048580 + (1 + (1 + (1 + (4 +
          (4 + (4 + (4 + ((4100 + (4100 + (8 + (16 + (1 + (4100 + (8 + (8 + (8 + 32))))))))) + (1 +
          (4100 + 8))))))))))))))))))))) (putResponse response) :=
      .bind (.emit le_rfl) <| .bind (.emit le_rfl) <| .bind (putString_within hworded.message) <|
        .bind (.emit le_rfl) <| .bind (.emit response.incarnation.id.size.le) <|
        .bind (.emit le_rfl) <| .bind (.emit response.stateDigest.size.le) <|
        .bind (.emit le_rfl) <| .bind (.emit le_rfl) <|
        .bind (putString_within hworded.revalidation) <| .bind (putText_within hvalid hshort) <|
        .bind (.emit le_rfl) <| .bind (.emit le_rfl) <| .bind (.emit le_rfl) <|
        .bind (.emit le_rfl) <| .bind (.emit le_rfl) <| .bind (.emit le_rfl) <|
        .bind (.emit le_rfl) <| .bind (putToken_within _) <| .bind (.emit le_rfl) <|
        .bind (putString_within hworded.verdictDetail) <| .emit le_rfl
    exact hwithin.document (by decide)

/-- A cut text is UTF-8 where the byte behind the cut does not continue a character. -/
theorem boundedText_valid_iff {maxBytes : ℕ} (ht : isValidUtf8 t = true) :
    isValidUtf8 (boundedText t maxBytes).1 = true ↔
      ∀ h : maxBytes < t.length, t[maxBytes] &&& 0xC0 ≠ 0x80 := by
  unfold boundedText
  split
  · next hwhole => exact ⟨fun _ h => absurd hwhole (Nat.not_le.2 h), fun _ => ht⟩
  · next hlong =>
    have hlong : maxBytes < t.length := Nat.not_le.1 hlong
    have hmark : isValidUtf8 (text "\ntruncated true\nend\n") = true := by decide
    have hboundary := valid_take_iff ht hlong
    constructor
    · intro h _
      exact hboundary.1 (scan_of_append (c := 10) (by decide) h)
    · intro h
      rw [isValidUtf8_append (hboundary.2 (h hlong))]
      exact hmark

/-- The text of a response is UTF-8, and the response is encoded, if and only if the text is short
enough or the byte behind the cut does not continue a character. -/
theorem bounded_text_sent_iff (ht : isValidUtf8 t = true)
    (hroom : options.maxTextBytes + (text "\ntruncated true\nend\n").length ≤
      codecLimits.maxBlobBytes)
    (hworded : response.Worded) :
    (isValidUtf8 (boundedText t options.maxTextBytes).1 = true ∧
        (response.withText options t).encode.isOk = true) ↔
      ∀ h : options.maxTextBytes < t.length, t[options.maxTextBytes] &&& 0xC0 ≠ 0x80 := by
  have hworded' : (response.withText options t).Worded :=
    ⟨hworded.message, hworded.revalidation, hworded.verdictDetail⟩
  have hshort : (boundedText t options.maxTextBytes).1.length ≤ codecLimits.maxBlobBytes := by
    unfold boundedText
    split
    · next hwhole => exact hwhole.trans (Nat.le_of_add_right_le hroom)
    · rw [List.length_append, List.length_take]
      omega
  rw [encode_isOk_iff hworded' hshort, ← boundedText_valid_iff ht]
  exact and_self_iff

end Responses

/-- A text of ASCII characters that is cut is still sent. -/
theorem bounded_text_sent_ascii :
    isValidUtf8 (boundedText (text "pod racks") 3).1 = true ∧
      (({} : Response).withText { maxTextBytes := 3 } (text "pod racks")).encode.isOk = true :=
  (@bounded_text_sent_iff {} { maxTextBytes := 3 } _ (by decide) (by decide)
    ⟨by decide, by decide, by decide⟩).2 (by decide)

/-- A cut inside a character makes a text that is no longer UTF-8, and a response that cannot be
encoded. -/
theorem bounded_text_torn :
    ¬ ∀ (t : Text) (options : ServerOptions) (response : Response), isValidUtf8 t = true →
      options.maxTextBytes + (text "\ntruncated true\nend\n").length ≤ codecLimits.maxBlobBytes →
      response.Worded → isValidUtf8 (boundedText t options.maxTextBytes).1 = true ∧
        (response.withText options t).encode.isOk = true := by
  intro h
  have hvalid := (h [0xC3, 0xA9] { maxTextBytes := 1 } {} (by decide) (by decide)
    ⟨by decide, by decide, by decide⟩).1
  exact absurd hvalid (by decide)

end PodFabric
