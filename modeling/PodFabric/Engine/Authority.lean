import PodFabric.Model.Primitives

/-!
# Authority tokens

The validity of a fencing token: a conjunction of pod identity, revocation status, minting
incarnation, epoch, lease window and scope, of which the first failing predicate decides.
-/

namespace PodFabric

/-- What a token is checked against. -/
structure AuthorityCheck where
  pod : PodId := .nil
  epoch : PodEpoch := {}
  incarnation : Incarnation := {}
  now : Nanos := 0
  clockSkew : Nanos := 0
  revoked : List LeaseId := []
  required : AuthorityScope := .pod
  enforceScope : Bool := false

/-- The verdict on a token (`validate_token`). -/
def validateToken (token : AuthorityToken) (check : AuthorityCheck) : AuthorityVerdict :=
  if token.lease = .nil ∨ token.pod = .nil then
    ⟨.malformed, .invalid, "token has no lease identity or no pod identity"⟩
  else if token.expiresAt ≤ token.issuedAt then
    ⟨.malformed, .invalid, "token lease window is empty or inverted"⟩
  else if token.pod ≠ check.pod then
    ⟨.wrongPod, .refused, "token was minted for a different pod"⟩
  else if token.lease ∈ check.revoked then
    ⟨.revoked, .refused, "token lease has been revoked"⟩
  else if token.incarnation ≠ check.incarnation then
    ⟨.staleIncarnation, .stale,
      "token was minted by a controller incarnation that is no longer live"⟩
  else if token.epoch ≠ check.epoch then
    ⟨.staleEpoch, .stale, "token was minted at a superseded pod epoch"⟩
  else if check.now < token.issuedAt - check.clockSkew then
    ⟨.notYetValid, .stale, "token is not yet valid on the coordinator clock"⟩
  else if token.expiresAt < check.now then
    ⟨.expired, .stale, "token lease has expired"⟩
  else if check.enforceScope ∧ token.scope ≠ .pod ∧ token.scope ≠ check.required then
    ⟨.wrongScope, .refused, "token scope does not cover the requested operation"⟩
  else ⟨.valid, .ok, []⟩

/-- What a valid token satisfies. -/
structure TokenAdmitted (token : AuthorityToken) (check : AuthorityCheck) : Prop where
  lease : token.lease ≠ .nil
  pod : token.pod ≠ .nil
  window : token.issuedAt < token.expiresAt
  samePod : token.pod = check.pod
  unrevoked : token.lease ∉ check.revoked
  sameIncarnation : token.incarnation = check.incarnation
  sameEpoch : token.epoch = check.epoch
  begun : token.issuedAt - check.clockSkew ≤ check.now
  unexpired : check.now ≤ token.expiresAt
  covered : check.enforceScope = true → token.scope = .pod ∨ token.scope = check.required

/-- A token is valid exactly when every predicate holds. -/
theorem validateToken_valid_iff {token : AuthorityToken} {check : AuthorityCheck} :
    (validateToken token check).valid = true ↔ TokenAdmitted token check := by
  constructor
  · intro h
    unfold validateToken at h
    split at h <;> [cases h; skip]
    next hid =>
    split at h <;> [cases h; skip]
    next hwindow =>
    split at h <;> [cases h; skip]
    next hpod =>
    split at h <;> [cases h; skip]
    next hrevoked =>
    split at h <;> [cases h; skip]
    next hinc =>
    split at h <;> [cases h; skip]
    next hepoch =>
    split at h <;> [cases h; skip]
    next hbegun =>
    split at h <;> [cases h; skip]
    next hexpired =>
    split at h <;> [cases h; skip]
    next hscope =>
    push Not at hid
    exact ⟨hid.1, hid.2, not_le.1 hwindow, not_not.1 hpod, hrevoked, not_not.1 hinc,
      not_not.1 hepoch, not_lt.1 hbegun, not_lt.1 hexpired, fun henf => by
        by_contra hcon
        push Not at hcon
        exact hscope ⟨henf, hcon⟩⟩
  · rintro ⟨hl, hp, hw, hpod, hr, hi, he, hb, hx, hs⟩
    unfold validateToken
    rw [if_neg (by simp [hl, hp]), if_neg (not_le.2 hw), if_neg (not_not.2 hpod), if_neg hr,
      if_neg (not_not.2 hi), if_neg (not_not.2 he), if_neg (not_lt.2 hb), if_neg (not_lt.2 hx),
      if_neg]
    · rfl
    · rintro ⟨henf, hpodScope, hreq⟩
      exact (hs henf).elim hpodScope hreq

end PodFabric
