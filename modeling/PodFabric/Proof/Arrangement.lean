import PodFabric.Proof.Decisions
import PodFabric.Proof.PathOrder

/-!
# The same findings in another order

Rearranged requests pass alike (`Rearranged.passes`), and passes that are alike are finished into
the same state (`finalise_eq`), as long as nothing is left to the order of arrival. Two obligations
that raise the status of the authority must not leave different reasons (`Findings.Decided`), and
two obligations must not share the identity of a decision.
-/

namespace PodFabric

open List

/-! ## Obligations -/

/-- The evidence of the passes is the same up to the order of what it lists. -/
structure PodEvidence.Alike (ev ev' : PodEvidence) : Prop extends
    Evidence.Alike ev.toEvidence ev'.toEvidence where
  capacity : ev'.capacity = ev.capacity
  pairs : List.Forall₂ PairWork.Alike ev.pairs ev'.pairs

/-- Racks with the same faces are found with the same face. -/
theorem findMember_alike {members members' : List MemberWork} {rack : RackId}
    (h : members'.map MemberWork.face = members.map MemberWork.face) :
    (findMember members' rack).map MemberWork.face =
      (findMember members rack).map MemberWork.face := by
  rw [← findMember_face, ← findMember_face, h]

section Obligations
variable {ev ev' : PodEvidence}

/-- A rack is admissible by its face alone. -/
theorem admissible_face {members : List MemberWork} {excludeDrained : Bool} {rack : RackId} :
    admissible (members.map MemberWork.face) excludeDrained rack =
      admissible members excludeDrained rack := by
  unfold admissible
  rw [findMember_face]
  cases findMember members rack <;> rfl

namespace PodEvidence.Alike

/-- The same racks are admissible. -/
theorem admissible_eq (h : ev.Alike ev') : admissible ev'.members = admissible ev.members := by
  funext excludeDrained rack
  rw [← admissible_face, h.members, admissible_face]

/-- The diversity of a kind is the same. -/
theorem diversity_eq (h : ev.Alike ev') : diversity ev' = diversity ev := by
  funext kind excludeDrained
  unfold diversity
  rw [h.domains, h.admissible_eq]

/-- A requirement finds the same. -/
theorem requirementFindings_eq (h : ev.Alike ev') :
    requirementFindings ev' = requirementFindings ev := by
  funext requirement
  unfold requirementFindings
  rw [h.capacity, h.policy]

/-- A protected rack is found the same. -/
theorem protectedRackFinding_eq (h : ev.Alike ev') :
    protectedRackFinding ev' = protectedRackFinding ev := by
  funext rack
  have hfind := @findMember_alike _ _ rack h.members
  unfold protectedRackFinding
  cases hm : findMember ev.members rack with
  | none =>
    rw [hm, Option.map_none, Option.map_eq_none_iff] at hfind
    rw [hfind]
  | some member =>
    rw [hm, Option.map_some, Option.map_eq_some_iff] at hfind
    obtain ⟨member', hm', hface⟩ := hfind
    rw [hm']
    dsimp only
    rw [show member'.established = member.established from
      (congrArg MemberWork.established hface :)]

/-- A protected pair is found the same. -/
theorem protectedPairFinding_eq (h : ev.Alike ev') :
    protectedPairFinding ev' = protectedPairFinding ev := by
  funext a b
  have hfind := @findPair_alike _ _ h.pairs a b
  unfold protectedPairFinding
  cases hp : findPair ev.pairs a b with
  | none =>
    rw [hp, Option.map_none, Option.map_eq_none_iff] at hfind
    rw [hfind]
  | some pair =>
    rw [hp, Option.map_some, Option.map_eq_some_iff] at hfind
    obtain ⟨pair', hp', hstatus⟩ := hfind
    rw [hp']
    dsimp only
    rw [hstatus]

/-- An obligation is judged alike. -/
theorem judgeObligation_eq (h : ev.Alike ev') : judgeObligation ev' = judgeObligation ev := by
  have hfindings : obligationFindings ev' = obligationFindings ev := by
    funext obligation
    unfold obligationFindings diversityFindings maintenanceFindings pathFindings
    rw [h.diversity_eq, h.requirementFindings_eq, h.protectedRackFinding_eq,
      h.protectedPairFinding_eq]
  funext obligation
  unfold judgeObligation
  rw [hfindings]

end PodEvidence.Alike

end Obligations

/-! ## What the round found -/

/-- What a round has found, up to the order of what it lists. -/
structure Findings.Alike (fd fd' : Findings) : Prop where
  evidence : fd.toPodEvidence.Alike fd'.toPodEvidence
  header : fd'.snapshot.pod = fd.snapshot.pod ∧ fd'.snapshot.provenance = fd.snapshot.provenance
  context : fd'.context = { fd.context with
    expectations := fd'.context.expectations, grantedTokens := fd'.context.grantedTokens
    revokedTokens := fd'.context.revokedTokens }
  granted : fd.context.grantedTokens ~ fd'.context.grantedTokens
  revoked : fd.context.revokedTokens ~ fd'.context.revokedTokens
  epoch : fd'.epoch = fd.epoch
  sources : fd.snapshot.obligations ~ fd'.snapshot.obligations
  ids : (fd.snapshot.obligations.map Obligation.id).Nodup
  verdicts : fd.obligations ~ fd'.obligations
  verdictIds : (fd.obligations.map ObligationVerdict.id).Nodup

namespace Findings.Alike
variable {fd fd' : Findings}

/-- The controller's incarnation is the same. -/
theorem incarnation_eq (h : fd.Alike fd') : fd'.context.incarnation = fd.context.incarnation := by
  rw [h.context]

/-- So is whether its state was recovered. -/
theorem recovered_eq (h : fd.Alike fd') :
    fd'.context.recoveredFromStore = fd.context.recoveredFromStore := by
  rw [h.context]

/-- And so is whether its last commit is in doubt. -/
theorem ambiguous_eq (h : fd.Alike fd') :
    fd'.context.ambiguousCommit = fd.context.ambiguousCommit := by
  rw [h.context]

/-! ### Lifecycle -/

/-- The same fences are raised, in some order. -/
theorem evidenceFences_perm (h : fd.Alike fd') : evidenceFences fd ~ evidenceFences fd' := by
  unfold evidenceFences
  rw [← @memberFences_face fd.members, ← @memberFences_face fd'.members, h.evidence.members,
    h.evidence.domains]
  exact (fences_alike h.evidence.pairs).append_left _

/-- The pairs have the same statuses. -/
theorem pairs_status (h : fd.Alike fd') : fd'.pairs.map (fun work => work.verdict.status) =
    fd.pairs.map fun work => work.verdict.status :=
  map_alike (fun hwork => hwork.verdict.status) h.evidence.pairs

/-- What the faces of the racks show is the same. -/
theorem members_map {β : Type} {g : MemberWork → β} (h : fd.Alike fd')
    (hg : ∀ work, g work.face = g work) : fd'.members.map g = fd.members.map g := by
  have hface (members : List MemberWork) :
      members.map g = (members.map MemberWork.face).map g := by
    rw [List.map_map]
    exact List.map_congr_left fun work _ => (hg work).symm
  rw [hface, hface fd.members, h.evidence.members]

/-- The racks get the same verdicts. -/
theorem verdicts_eq (h : fd.Alike fd') :
    fd'.members.map MemberWork.verdict = fd.members.map MemberWork.verdict :=
  h.members_map fun _ => rfl

/-- Something is less than whole in both. -/
theorem hasDegradation_eq (h : fd.Alike fd') : hasDegradation fd' = hasDegradation fd := by
  have hfences : decide (evidenceFences fd' ≠ []) = decide (evidenceFences fd ≠ []) := by
    have hnil : evidenceFences fd' = [] ↔ evidenceFences fd = [] := by
      rw [← List.length_eq_zero_iff, ← List.length_eq_zero_iff, h.evidenceFences_perm.length_eq]
    simp only [ne_eq, hnil]
  have hmembers (members : List MemberWork) :
      members.any (fun work => work.verdict.status ≠ .established) =
        (members.map MemberWork.verdict).any fun verdict => verdict.status ≠ .established := by
    rw [List.any_map]
    rfl
  have hpairs (pairs : List PairWork) : pairs.any (fun work => work.verdict.status ≠ .usable) =
      (pairs.map fun work => work.verdict.status).any fun status => status ≠ .usable := by
    rw [List.any_map]
    rfl
  unfold hasDegradation
  rw [hfences, hmembers, hmembers, h.verdicts_eq, hpairs, hpairs, h.pairs_status,
    h.evidence.capacity, h.evidence.domains, h.verdicts.any_eq]

/-- The established racks show the same faces. -/
theorem established_face (h : fd.Alike fd') : (establishedMembers fd').map MemberWork.face =
    (establishedMembers fd).map MemberWork.face := by
  have hface (members : List MemberWork) :
      (members.filter MemberWork.established).map MemberWork.face =
        (members.map MemberWork.face).filter MemberWork.established := by
    rw [List.filter_map]
    rfl
  unfold establishedMembers
  rw [hface, hface, h.evidence.members]

/-- As many racks are established. -/
theorem established_length (h : fd.Alike fd') :
    (establishedMembers fd').length = (establishedMembers fd).length := by
  simpa using congrArg List.length h.established_face

/-- As many of them are in an administrative state. -/
theorem established_count (h : fd.Alike fd') {p : AdminState → Bool} :
    (establishedMembers fd').countP (fun work => p work.verdict.admin) =
      (establishedMembers fd).countP fun work => p work.verdict.admin := by
  have hface (members : List MemberWork) : members.countP (fun work => p work.verdict.admin) =
      (members.map MemberWork.face).countP fun work => p work.verdict.admin := by
    rw [List.countP_map]
    rfl
  rw [hface, h.established_face, ← hface]

/-- Connectivity is expected in both. -/
theorem connectivityExpected_eq (h : fd.Alike fd') :
    connectivityExpected fd' = connectivityExpected fd := by
  have hnil : fd'.pairs = [] ↔ fd.pairs = [] := by
    rw [← List.length_eq_zero_iff, ← List.length_eq_zero_iff, h.evidence.pairs.length_eq]
  unfold connectivityExpected
  rw [h.established_length, h.evidence.policy]
  simp only [ne_eq, hnil]

/-- The evidence asks for the same lifecycle. -/
theorem evidenceLifecycle_eq (h : fd.Alike fd') : evidenceLifecycle fd' = evidenceLifecycle fd := by
  have hcarries : fd'.pairs.any (fun work => work.verdict.status.carries) =
      fd.pairs.any fun work => work.verdict.status.carries := by
    have hstatus (pairs : List PairWork) : pairs.any (fun work => work.verdict.status.carries) =
        (pairs.map fun work => work.verdict.status).any LinkStatus.carries := by
      rw [List.any_map]
      rfl
    rw [hstatus, hstatus, h.pairs_status]
  unfold evidenceLifecycle
  rw [h.established_length, @established_count _ _ h fun admin => admin = .maintenance,
    @established_count _ _ h fun admin => admin ≠ .enabled, h.connectivityExpected_eq,
    h.hasDegradation_eq, h.evidence.policy, hcarries]

/-- So do the evidence and the recovery. -/
theorem desiredLifecycle_eq (h : fd.Alike fd') : desiredLifecycle fd' = desiredLifecycle fd := by
  unfold desiredLifecycle
  rw [h.evidenceLifecycle_eq, h.epoch, h.context]

/-- The pod moves to the same lifecycle. -/
theorem composedLifecycle_eq (h : fd.Alike fd') : composedLifecycle fd' = composedLifecycle fd := by
  unfold composedLifecycle
  rw [h.desiredLifecycle_eq, h.context]

/-- The same degradations are reported. -/
theorem degradations_eq (h : fd.Alike fd') : degradations fd' = degradations fd := by
  unfold degradations
  rw [h.established_length, h.connectivityExpected_eq, h.composedLifecycle_eq,
    h.desiredLifecycle_eq, h.epoch, h.context]

end Findings.Alike

/-! ### Authority -/

namespace AuthorityFold
variable {f f' : AuthorityFold} {code : Code} {reasons reasons' : List Reason}

section Raise
variable {α : Type} {g : α → Code} {r : α → List Reason} {l l' : List α} {reason : Reason}

/-- A contribution makes the status the worse of the two. -/
theorem raise_code : (f.raise code reasons).1 = f.1.worst code := by
  unfold raise Code.worst
  split
  · next hlt => rw [if_neg (Nat.not_le.2 hlt)]
  · next hle => rw [if_pos (Nat.not_lt.1 hle)]

/-- Contributions make the status the worst of all. Induction on them. -/
theorem foldl_raise_code : (l.foldl (fun f a => f.raise (g a) (r a)) f).1 =
    (l.map g).foldl Code.worst f.1 := by
  induction l generalizing f with
  | nil => rfl
  | cons a l ih => rw [List.foldl_cons, ih, raise_code, List.map_cons, List.foldl_cons]

/-- The status that contributions come to does not depend on their order. -/
theorem foldl_raise_perm (hp : l ~ l') : (l'.foldl (fun f a => f.raise (g a) (r a)) f).1 =
    (l.foldl (fun f a => f.raise (g a) (r a)) f).1 := by
  have : RightCommutative Code.worst := by
    refine ⟨fun a b c => Code.severity_injective ?_⟩
    simp only [Code.severity_worst]
    exact max_right_comm _ _ _
  rw [foldl_raise_code, foldl_raise_code, (hp.map g).foldl_eq]

/-- Reasons that are there stay. -/
theorem mem_raise (h : reason ∈ f.2) : reason ∈ (f.raise code reasons).2 := by
  unfold raise
  split
  · exact List.mem_append_left _ h
  · exact h

/-- Reasons that are there stay under any contributions. Induction on them. -/
theorem foldl_raise_keeps (h : reason ∈ f.2) :
    reason ∈ (l.foldl (fun f a => f.raise (g a) (r a)) f).2 := by
  induction l generalizing f with
  | nil => exact h
  | cons a l ih => exact ih (mem_raise h)

/-- A reason that is left is the first of a contribution that raises the status. Induction on the
contributions. -/
theorem mem_foldl_raise (h : reason ∈ (l.foldl (fun f a => f.raise (g a) (r a)) f).2) :
    reason ∈ f.2 ∨ ∃ a ∈ l, f.1.severity < (g a).severity ∧ reason ∈ (r a).head? := by
  induction l generalizing f with
  | nil => exact .inl h
  | cons a l ih =>
    rw [List.foldl_cons] at h
    by_cases hlt : f.1.severity < (g a).severity
    · have hraise : f.raise (g a) (r a) = (g a, f.2 ++ (r a).head?.toList) := if_pos hlt
      rw [hraise] at h
      rcases ih h with hin | ⟨b, hb, hlt', hhead⟩
      · rcases List.mem_append.1 hin with hin | hhead
        · exact .inl hin
        · exact .inr ⟨a, List.mem_cons_self, hlt, Option.mem_toList.1 hhead⟩
      · exact .inr ⟨b, List.mem_cons_of_mem _ hb, hlt.trans hlt', hhead⟩
    · have hkeep : f.raise (g a) (r a) = f := if_neg hlt
      rw [hkeep] at h
      rcases ih h with hin | ⟨b, hb, hlt', hhead⟩
      · exact .inl hin
      · exact .inr ⟨b, List.mem_cons_of_mem _ hb, hlt', hhead⟩

/-- Contributions that weigh no more than the status change nothing. -/
theorem foldl_raise_settled (h : ∀ a ∈ l, (g a).severity ≤ f.1.severity) :
    l.foldl (fun f a => f.raise (g a) (r a)) f = f := by
  induction l with
  | nil => rfl
  | cons a l ih =>
    have hkeep : f.raise (g a) (r a) = f := if_neg (Nat.not_lt.2 (h a List.mem_cons_self))
    rw [List.foldl_cons, hkeep]
    exact ih fun b hb => h b (List.mem_cons_of_mem _ hb)

/-- If anything raises the status, one of the heaviest contributions leaves its reason. Induction on
the contributions: the last to raise the status is the heaviest. -/
theorem foldl_raise_heaviest (h : ∃ a ∈ l, f.1.severity < (g a).severity) :
    ∃ t ∈ l, f.1.severity < (g t).severity ∧ (∀ a ∈ l, (g a).severity ≤ (g t).severity) ∧
      ∀ reason ∈ (r t).head?, reason ∈ (l.foldl (fun f a => f.raise (g a) (r a)) f).2 := by
  induction l generalizing f with
  | nil =>
    obtain ⟨a, ha, -⟩ := h
    cases ha
  | cons a l ih =>
    rw [List.foldl_cons]
    by_cases hlt : f.1.severity < (g a).severity
    · have hraise : f.raise (g a) (r a) = (g a, f.2 ++ (r a).head?.toList) := if_pos hlt
      rw [hraise]
      by_cases hmore : ∃ b ∈ l, (g a).severity < (g b).severity
      · obtain ⟨t, ht, hlt', hmost, hleft⟩ := @ih (g a, f.2 ++ (r a).head?.toList) hmore
        refine ⟨t, List.mem_cons_of_mem _ ht, hlt.trans hlt', fun b hb => ?_, hleft⟩
        rcases List.mem_cons.1 hb with rfl | hb
        · exact hlt'.le
        · exact hmost b hb
      · push Not at hmore
        refine ⟨a, List.mem_cons_self, hlt, fun b hb => ?_, fun reason hreason => ?_⟩
        · rcases List.mem_cons.1 hb with rfl | hb
          · exact le_refl _
          · exact hmore b hb
        · exact foldl_raise_keeps (List.mem_append_right _ (Option.mem_toList.2 hreason))
    · have hkeep : f.raise (g a) (r a) = f := if_neg hlt
      rw [hkeep]
      obtain ⟨b, hb, hlt'⟩ := h
      rcases List.mem_cons.1 hb with rfl | hb
      · exact absurd hlt' hlt
      obtain ⟨t, ht, hlt', hmost, hleft⟩ := ih ⟨b, hb, hlt'⟩
      refine ⟨t, List.mem_cons_of_mem _ ht, hlt', fun c hc => ?_, hleft⟩
      rcases List.mem_cons.1 hc with rfl | hc
      · exact (Nat.not_lt.1 hlt).trans hlt'.le
      · exact hmost c hc

end Raise

section Join
variable {c : Prop} [Decidable c]

/-- The status that is joined does not depend on the reasons. -/
theorem join_code (h : f'.1 = f.1) : (f'.join code reasons').1 = (f.join code reasons).1 :=
  congrArg (Code.worst · code) h

/-- Nor does it if the contribution depends on a condition. -/
theorem joinIf_code (h : f'.1 = f.1) : (if c then f'.join code reasons' else f').1 =
    (if c then f.join code reasons else f).1 := by
  split
  · exact join_code h
  · exact h

/-- A contribution under a condition appends its reasons under that condition. -/
theorem joinIf_reasons : (if c then f.join code reasons else f).2 =
    f.2 ++ if c then reasons else [] := by
  split
  · rfl
  · exact (List.append_nil _).symm

end Join

end AuthorityFold

/-- What the verdicts on racks, domains and capacity amount to. -/
def evidenceAuthority (fd : Findings) : AuthorityFold :=
  let f : AuthorityFold := (.ok, [])
  let f := fd.members.foldl
    (fun f work => f.raise work.verdict.status.outcome work.verdict.reasons) f
  let f := fd.domains.foldl
    (fun f work => f.raise work.verdict.status.outcome work.verdict.reasons) f
  fd.capacity.foldl (fun f a => f.raise a.status.outcome a.reasons) f

/-- The reasons of the authority that are not those of a verdict. -/
def standingReasons (fd : Findings) : List Reason :=
  (match composedLifecycle fd with
    | .retired => [⟨.memberRetiring, "the pod is retired"⟩]
    | _ => []) ++
  (if fd.context.recoveredFromStore then [⟨.recoveredHistorical,
    "authority from a previous controller incarnation is not carried over"⟩] else []) ++
  (if fd.context.ambiguousCommit then [⟨.ambiguousCommit,
    "durable state may be torn, so pod authority is indeterminate"⟩] else []) ++
  tokenReasons fd ++
  if fd.policy.requireAuthorityToken ∧ ¬ anyValidPodToken fd then
    [⟨.tokenInvalid, text "the pod holds no valid pod-scope authority token for " ++
      text "the current epoch and incarnation"⟩]
  else []

namespace Findings
variable (fd : Findings)

/-- How much the verdict on an obligation weighs. -/
def weight (verdict : ObligationVerdict) : ℕ := (obligationOutcome fd.snapshot verdict).severity

/-- The verdict on an obligation weighs more than all the verdicts on the evidence. -/
def Raises (verdict : ObligationVerdict) : Prop :=
  (evidenceAuthority fd).1.severity < fd.weight verdict

/-- The verdict on an obligation weighs more than all the verdicts on the evidence, and no less than
those on the other obligations. -/
structure Heaviest (verdict : ObligationVerdict) : Prop where
  raises : fd.Raises verdict
  most : ∀ other ∈ fd.obligations, fd.weight other ≤ fd.weight verdict

/-- The authority shows the reason in any case: for a verdict on the evidence, for the lifecycle,
the recovery or a token. -/
def Given (reason : Reason) : Prop :=
  reason ∈ (evidenceAuthority fd).2 ∨ reason ∈ standingReasons fd

/-- Whichever of the obligations raises the status of the authority, its first reason is given in
any case, or is the first reason of each of the heaviest. -/
def Decided : Prop :=
  ∀ verdict ∈ fd.obligations, ∀ heaviest ∈ fd.obligations, fd.Raises verdict →
    fd.Heaviest heaviest → ∀ reason ∈ verdict.reasons.head?,
      fd.Given reason ∨ reason ∈ heaviest.reasons.head?

end Findings

section Leaves
variable {fd : Findings} {reason : Reason}

/-- The obligations contribute after all the evidence. -/
theorem verdictAuthority_eq : verdictAuthority fd = fd.obligations.foldl
    (fun f verdict => f.raise (obligationOutcome fd.snapshot verdict) verdict.reasons)
    (evidenceAuthority fd) := rfl

/-- The reasons of the authority are those of the verdicts and the others. -/
theorem finalAuthority_reasons :
    (finalAuthority fd).2 = (verdictAuthority fd).2 ++ standingReasons fd := by
  have hstate : (stateAuthority fd).2 = (verdictAuthority fd).2 ++
      (match composedLifecycle fd with
        | .retired => [⟨.memberRetiring, "the pod is retired"⟩]
        | _ => []) ++
      (if fd.context.recoveredFromStore then [⟨.recoveredHistorical,
        "authority from a previous controller incarnation is not carried over"⟩] else []) ++
      if fd.context.ambiguousCommit then [⟨.ambiguousCommit,
        "durable state may be torn, so pod authority is indeterminate"⟩] else [] := by
    unfold stateAuthority
    rw [AuthorityFold.joinIf_reasons, AuthorityFold.joinIf_reasons]
    cases composedLifecycle fd with
    | retired => rfl
    | constructing => rfl
    | active | degraded | partitioned | recovering | maintenance | draining =>
      rw [List.append_nil]
  unfold finalAuthority standingReasons
  rw [AuthorityFold.joinIf_reasons, AuthorityFold.join, hstate]
  simp only [List.append_assoc]

/-- The verdicts leave the reasons of the evidence, and those of obligations that raise the
status. -/
theorem mem_finalAuthority (hd : fd.Decided) : reason ∈ (finalAuthority fd).2 ↔
    fd.Given reason ∨ ∃ heaviest ∈ fd.obligations, fd.Heaviest heaviest ∧
      reason ∈ heaviest.reasons.head? := by
  have hheaviest {verdict : ObligationVerdict} (hin : verdict ∈ fd.obligations)
      (hraises : fd.Raises verdict) : ∃ heaviest ∈ fd.obligations, fd.Heaviest heaviest ∧
        ∀ reason ∈ heaviest.reasons.head?, reason ∈ (verdictAuthority fd).2 := by
    obtain ⟨heaviest, hin', hraises', hmost, hleft⟩ :=
      AuthorityFold.foldl_raise_heaviest ⟨verdict, hin, hraises⟩
    exact ⟨heaviest, hin', ⟨hraises', hmost⟩, hleft⟩
  rw [finalAuthority_reasons, List.mem_append]
  constructor
  · rintro (hverdict | hstanding)
    · rw [verdictAuthority_eq] at hverdict
      rcases AuthorityFold.mem_foldl_raise hverdict with hgiven | ⟨verdict, hin, hraises, hhead⟩
      · exact .inl (.inl hgiven)
      · obtain ⟨heaviest, hin', hheavy, -⟩ := hheaviest hin hraises
        rcases hd verdict hin heaviest hin' hraises hheavy reason hhead with hgiven | hsame
        · exact .inl hgiven
        · exact .inr ⟨heaviest, hin', hheavy, hsame⟩
    · exact .inl (.inr hstanding)
  · rintro ((hgiven | hstanding) | ⟨heaviest, hin, hheavy, hhead⟩)
    · exact .inl (AuthorityFold.foldl_raise_keeps hgiven)
    · exact .inr hstanding
    · obtain ⟨last, hin', hheavy', hleft⟩ := hheaviest hin hheavy.raises
      rcases hd heaviest hin last hin' hheavy.raises hheavy' reason hhead with
        (hgiven | hstanding) | hsame
      · exact .inl (AuthorityFold.foldl_raise_keeps hgiven)
      · exact .inr hstanding
      · exact .inl (hleft reason hsame)

end Leaves

/-- Of the revoked leases a token is checked only for being one of them. -/
theorem validateToken_revoked {token : AuthorityToken} {check check' : AuthorityCheck}
    (hsame : check' = { check with revoked := check'.revoked })
    (hrevoked : check.revoked ~ check'.revoked) :
    validateToken token check' = validateToken token check := by
  rw [hsame]
  unfold validateToken
  simp only [hrevoked.mem_iff]

namespace Findings.Alike
variable {fd fd' : Findings}

/-- An obligation contributes the same. -/
theorem obligationOutcome_eq (h : fd.Alike fd') :
    obligationOutcome fd'.snapshot = obligationOutcome fd.snapshot := by
  funext verdict
  unfold obligationOutcome
  rw [← find?_perm h.sources h.ids verdict.id]

/-- The verdicts on the evidence come to the same. -/
theorem evidenceAuthority_eq (h : fd.Alike fd') : evidenceAuthority fd' = evidenceAuthority fd := by
  have hmembers (f : AuthorityFold) (members : List MemberWork) :
      members.foldl (fun f work => f.raise work.verdict.status.outcome work.verdict.reasons) f =
        (members.map MemberWork.verdict).foldl
          (fun f verdict => f.raise verdict.status.outcome verdict.reasons) f := by
    rw [List.foldl_map]
  unfold evidenceAuthority
  dsimp only
  rw [hmembers, hmembers, h.verdicts_eq, h.evidence.domains, h.evidence.capacity]

/-- The verdicts come to the same status. -/
theorem verdictAuthority_code (h : fd.Alike fd') :
    (verdictAuthority fd').1 = (verdictAuthority fd).1 := by
  rw [verdictAuthority_eq, verdictAuthority_eq, h.evidenceAuthority_eq, h.obligationOutcome_eq]
  exact AuthorityFold.foldl_raise_perm h.verdicts

/-- The lifecycle and the recovery come to the same status. -/
theorem stateAuthority_code (h : fd.Alike fd') :
    (stateAuthority fd').1 = (stateAuthority fd).1 := by
  unfold stateAuthority
  rw [h.composedLifecycle_eq, h.recovered_eq, h.ambiguous_eq]
  refine AuthorityFold.joinIf_code (AuthorityFold.joinIf_code ?_)
  cases composedLifecycle fd with
  | retired | constructing => exact AuthorityFold.join_code h.verdictAuthority_code
  | active | degraded | partitioned | recovering | maintenance | draining =>
    exact h.verdictAuthority_code

/-- A token gets the same verdict. -/
theorem validateToken_eq (h : fd.Alike fd') (token : AuthorityToken) :
    validateToken token (tokenCheck fd') = validateToken token (tokenCheck fd) := by
  refine validateToken_revoked ?_ h.revoked
  unfold tokenCheck
  rw [h.header.1, h.epoch, h.evidence.policy, h.evidence.observedAt, h.context]

/-- The same tokens do not hold, in some order. -/
theorem invalidTokens_perm (h : fd.Alike fd') : invalidTokens fd ~ invalidTokens fd' := by
  have hverdicts : (fun token => (token, validateToken token (tokenCheck fd'))) =
      fun token => (token, validateToken token (tokenCheck fd)) :=
    funext fun token => by rw [h.validateToken_eq]
  unfold invalidTokens
  rw [hverdicts]
  exact (h.granted.map _).filter _

/-- Both hold a valid token of the pod, or neither does. -/
theorem anyValidPodToken_eq (h : fd.Alike fd') : anyValidPodToken fd' = anyValidPodToken fd := by
  unfold anyValidPodToken
  simp only [h.validateToken_eq]
  exact h.granted.any_eq.symm

/-- The authority comes to the same status. -/
theorem finalAuthority_code (h : fd.Alike fd') :
    (finalAuthority fd').1 = (finalAuthority fd).1 := by
  unfold finalAuthority
  dsimp only
  rw [h.anyValidPodToken_eq, h.evidence.policy]
  exact AuthorityFold.joinIf_code (AuthorityFold.join_code h.stateAuthority_code)

/-- The same reasons stand. -/
theorem standingReasons_mem (h : fd.Alike fd') {reason : Reason} :
    reason ∈ standingReasons fd' ↔ reason ∈ standingReasons fd := by
  have htokens : reason ∈ tokenReasons fd' ↔ reason ∈ tokenReasons fd :=
    (h.invalidTokens_perm.flatMap_right _).mem_iff.symm
  unfold standingReasons
  rw [h.composedLifecycle_eq, h.recovered_eq, h.ambiguous_eq, h.anyValidPodToken_eq,
    h.evidence.policy]
  simp only [List.mem_append, htokens]

/-- The same reasons are given in any case. -/
theorem given_iff (h : fd.Alike fd') {reason : Reason} : fd'.Given reason ↔ fd.Given reason := by
  unfold Findings.Given
  rw [h.evidenceAuthority_eq, h.standingReasons_mem]

/-- The verdict on an obligation weighs the same. -/
theorem weight_eq (h : fd.Alike fd') : fd'.weight = fd.weight := by
  funext verdict
  unfold Findings.weight
  rw [h.obligationOutcome_eq]

/-- The same obligations raise the status. -/
theorem raises_iff (h : fd.Alike fd') {verdict : ObligationVerdict} :
    fd'.Raises verdict ↔ fd.Raises verdict := by
  unfold Findings.Raises
  rw [h.evidenceAuthority_eq, h.weight_eq]

/-- The same obligations are the heaviest. -/
theorem heaviest_iff (h : fd.Alike fd') {verdict : ObligationVerdict} :
    fd'.Heaviest verdict ↔ fd.Heaviest verdict := by
  constructor
  · rintro ⟨hraises, hmost⟩
    rw [h.weight_eq] at hmost
    exact ⟨h.raises_iff.1 hraises, fun other hother => hmost other (h.verdicts.mem_iff.1 hother)⟩
  · rintro ⟨hraises, hmost⟩
    refine ⟨h.raises_iff.2 hraises, fun other hother => ?_⟩
    rw [h.weight_eq]
    exact hmost other (h.verdicts.mem_iff.2 hother)

/-- Findings that are alike are decided alike. -/
theorem decided (h : fd.Alike fd') (hd : fd.Decided) : fd'.Decided := by
  intro verdict hverdict heaviest hheaviest hraises hheavy reason hreason
  rw [h.given_iff]
  exact hd verdict (h.verdicts.mem_iff.2 hverdict) heaviest (h.verdicts.mem_iff.2 hheaviest)
    (h.raises_iff.1 hraises) (h.heaviest_iff.1 hheavy) reason hreason

/-- The authority shows the same reasons. -/
theorem finalAuthority_mem (h : fd.Alike fd') (hd : fd.Decided) {reason : Reason} :
    reason ∈ (finalAuthority fd').2 ↔ reason ∈ (finalAuthority fd).2 := by
  rw [mem_finalAuthority hd, mem_finalAuthority (h.decided hd), h.given_iff]
  simp only [h.heaviest_iff, h.verdicts.mem_iff]

/-- The authority of the pod is the same. -/
theorem podAuthority_eq (h : fd.Alike fd') (hd : fd.Decided) :
    podAuthority fd' = podAuthority fd := by
  have hcount (statuses : List MemberStatus) :
      countStatus fd'.members statuses = countStatus fd.members statuses := by
    have hverdicts (members : List MemberWork) : countStatus members statuses =
        ((members.map MemberWork.verdict).countP fun verdict =>
          verdict.status ∈ statuses).toUInt32 := by
      rw [List.countP_map]
      rfl
    rw [hverdicts, hverdicts, h.verdicts_eq]
  unfold podAuthority
  simp only [hcount, h.finalAuthority_code, h.epoch, h.incarnation_eq, h.recovered_eq,
    canonicalise_eq_of_mem_iff fun _ => h.finalAuthority_mem hd]

/-- The same fences are raised for the evidence, the tokens and the pod. -/
theorem fences_perm (h : fd.Alike fd') (hd : fd.Decided) :
    evidenceFences fd ++ tokenFences fd ++ podFences fd ~
      evidenceFences fd' ++ tokenFences fd' ++ podFences fd' := by
  have hpod : podFences fd' = podFences fd := by
    unfold podFences
    rw [h.podAuthority_eq hd, h.header.1]
  rw [hpod]
  exact (h.evidenceFences_perm.append (h.invalidTokens_perm.map _)).append_right _

end Findings.Alike

/-! ### Decisions -/

/-- Records of the same dependencies and reasons have one canonical form. -/
theorem DecisionRecord.canonicalise_congr {record record' : DecisionRecord}
    (hid : record'.id = record.id) (hkind : record'.kind = record.kind)
    (hstatus : record'.status = record.status)
    (hfingerprint : record'.fingerprint = record.fingerprint) (hdeps : record.deps ~ record'.deps)
    (hreasons : ∀ reason, reason ∈ record'.reasons ↔ reason ∈ record.reasons) :
    record'.canonicalise = record.canonicalise := by
  unfold DecisionRecord.canonicalise
  rw [hid, hkind, hstatus, hfingerprint, canonicalise_perm hdeps,
    canonicalise_eq_of_mem_iff hreasons]

/-- Verdicts that are alike have one canonical form. -/
theorem ConnectivityVerdict.Alike.canonicalise_eq {v v' : ConnectivityVerdict} (h : v.Alike v') :
    v'.canonicalise = v.canonicalise := by
  unfold ConnectivityVerdict.canonicalise
  rw [h.ends.1, h.ends.2, h.status, h.resource, h.capacity,
    canonicalise_eq_of_mem_iff h.reasons,
    show sorted v.links = sorted v'.links from sortOn_congr h.links fun _ _ _ _ h => h,
    show sorted v.routes = sorted v'.routes from sortOn_congr h.routes fun _ _ _ _ h => h]

/-- The decisions on pairs that are alike have one canonical form. -/
theorem pairDecision_alike {work work' : PairWork} (h : work.Alike work') :
    (pairDecision work').canonicalise = (pairDecision work).canonicalise := by
  refine DecisionRecord.canonicalise_congr ?_ rfl ?_ rfl ?_ h.verdict.reasons
  · unfold pairDecision
    rw [h.key]
  · unfold pairDecision
    rw [h.verdict.status]
  · unfold pairDecision
    rw [h.key]
    exact ((h.links.map _).append_left _).append (h.routes.map _)

/-- The decisions on racks, domains, capacity and pairs. -/
def evidenceDecisions (fd : Findings) (domainCapacity : List CapacityAggregate) :
    List DecisionRecord :=
  fd.members.map memberDecision ++ fd.domains.map domainDecision ++
    fd.capacity.map capacityDecision ++ domainCapacity.map domainCapacityDecision ++
    fd.pairs.map pairDecision

/-- Then come those on the obligations, in the order of the snapshot. -/
theorem partDecisions_eq {fd : Findings} {domainCapacity : List CapacityAggregate} :
    partDecisions fd domainCapacity = evidenceDecisions fd domainCapacity ++
      fd.snapshot.obligations.map (obligationDecision fd.obligations) := rfl

/-- The identity of the decision on an obligation. -/
def Obligation.decision (obligation : Obligation) : DecisionId :=
  makeDecisionId .obligationState obligation.id.token

namespace Findings.Alike
variable {fd fd' : Findings} {domainCapacity : List CapacityAggregate}

/-- The decisions on racks are the same. -/
theorem memberDecisions_eq (h : fd.Alike fd') :
    fd'.members.map memberDecision = fd.members.map memberDecision :=
  h.members_map fun _ => rfl

/-- The decision on an obligation is the same. -/
theorem obligationDecision_eq (h : fd.Alike fd') : obligationDecision fd'.obligations =
    obligationDecision fd.obligations := by
  funext obligation
  unfold obligationDecision
  rw [← find?_perm h.verdicts h.verdictIds obligation.id]

/-- The decisions on racks, domains, capacity and pairs are the same, one by one. -/
theorem evidenceDecisions_eq (h : fd.Alike fd') :
    (evidenceDecisions fd' domainCapacity).map DecisionRecord.canonicalise =
      (evidenceDecisions fd domainCapacity).map DecisionRecord.canonicalise := by
  have hpairs := map_alike (fun hwork => pairDecision_alike hwork) h.evidence.pairs
  unfold evidenceDecisions
  simp only [List.map_append, List.map_map] at hpairs ⊢
  rw [← List.map_map, ← @List.map_map _ _ _ _ memberDecision fd.members, h.memberDecisions_eq,
    h.evidence.domains, h.evidence.capacity]
  exact congrArg _ hpairs

/-- The decisions on the parts are the same, in some order. -/
theorem partDecisions_perm (h : fd.Alike fd') :
    (partDecisions fd domainCapacity).map DecisionRecord.canonicalise ~
      (partDecisions fd' domainCapacity).map DecisionRecord.canonicalise := by
  rw [partDecisions_eq, partDecisions_eq, List.map_append, List.map_append, h.evidenceDecisions_eq,
    h.obligationDecision_eq]
  exact ((h.sources.map _).map _).append_left _

/-- So are their identities. -/
theorem partIds_perm (h : fd.Alike fd') : (partDecisions fd domainCapacity).map DecisionRecord.id ~
    (partDecisions fd' domainCapacity).map DecisionRecord.id := by
  have hids := (@partDecisions_perm _ _ domainCapacity h).map DecisionRecord.id
  rw [List.map_map, List.map_map] at hids
  exact hids

/-- The decisions on the lifecycle have one canonical form. -/
theorem lifecycleDecision_eq (h : fd.Alike fd') :
    (lifecycleDecision fd' (partDecisions fd' domainCapacity)).canonicalise =
      (lifecycleDecision fd (partDecisions fd domainCapacity)).canonicalise := by
  have hdeps := (@partIds_perm _ _ domainCapacity h).map fun id : DecisionId =>
    DepKey.mk .decision id.token
  rw [List.map_map, List.map_map] at hdeps
  refine DecisionRecord.canonicalise_congr rfl rfl ?_ rfl ?_ ?_
  · unfold lifecycleDecision
    rw [h.composedLifecycle_eq]
  · unfold lifecycleDecision
    rw [h.epoch, h.context]
    exact hdeps.append_right _
  · unfold lifecycleDecision
    rw [h.degradations_eq]
    exact fun _ => .rfl

/-- So have those on the authority. -/
theorem authorityDecision_eq (h : fd.Alike fd') (hd : fd.Decided) :
    (authorityDecision fd').canonicalise = (authorityDecision fd).canonicalise := by
  have hracks : fd'.members.map (fun work => memberKey work.rack) =
      fd.members.map fun work => memberKey work.rack := h.members_map fun _ => rfl
  refine DecisionRecord.canonicalise_congr rfl rfl ?_ rfl ?_ ?_
  · unfold authorityDecision
    rw [h.podAuthority_eq hd]
  · unfold authorityDecision
    dsimp only
    rw [h.epoch, h.incarnation_eq, hracks]
    exact ((h.granted.map _).append_left _).append (h.revoked.map _)
  · unfold authorityDecision
    rw [h.podAuthority_eq hd]
    exact fun _ => .rfl

/-- The decisions are sorted alike, if no two obligations share the identity of a decision. -/
theorem emitDecisions_sorted (h : fd.Alike fd') (hd : fd.Decided)
    (hids : (fd.snapshot.obligations.map Obligation.decision).Nodup) :
    (sortOn DecisionRecord.id (emitDecisions fd' domainCapacity)).map DecisionRecord.canonicalise =
      (sortOn DecisionRecord.id (emitDecisions fd domainCapacity)).map
        DecisionRecord.canonicalise := by
  rw [map_sortOn DecisionRecord.id DecisionRecord.id DecisionRecord.canonicalise fun _ => rfl,
    map_sortOn DecisionRecord.id DecisionRecord.id DecisionRecord.canonicalise fun _ => rfl]
  have hobligations := (((h.sources.map (obligationDecision fd.obligations)).map
    DecisionRecord.canonicalise))
  have hdistinct : (((fd.snapshot.obligations.map (obligationDecision fd.obligations)).map
      DecisionRecord.canonicalise).map DecisionRecord.id).Nodup := by
    rw [List.map_map, List.map_map]
    exact hids
  refine sortOn_eq_of_filter fun id => ?_
  unfold emitDecisions
  dsimp only
  rw [List.map_append, List.map_append, List.filter_append, List.filter_append]
  refine congrArg₂ _ ?_ (congrArg _ ?_)
  · rw [partDecisions_eq, partDecisions_eq, List.map_append, List.map_append, List.filter_append,
      List.filter_append, h.evidenceDecisions_eq, h.obligationDecision_eq]
    exact congrArg _ (filter_key_perm hobligations hdistinct id).symm
  · rw [List.map_cons, List.map_cons, List.map_cons, List.map_cons, h.lifecycleDecision_eq,
      h.authorityDecision_eq hd, List.map_nil]

end Findings.Alike

/-! ## The state -/

/-- Passes that are alike are finished into the same state. -/
theorem finalise_eq {p p' : Passes} (h : p.findings.Alike p'.findings)
    (hdomains : p'.domainCapacity = p.domainCapacity) (hd : p.findings.Decided)
    (hids : (p.findings.snapshot.obligations.map Obligation.decision).Nodup) :
    p'.draft.finalise = p.draft.finalise := by
  have hdecisions : (sortOn DecisionRecord.id p'.draft.decisions).map DecisionRecord.canonicalise =
      (sortOn DecisionRecord.id p.draft.decisions).map DecisionRecord.canonicalise := by
    unfold Passes.draft
    dsimp only
    rw [hdomains]
    exact h.emitDecisions_sorted hd hids
  have hpairs : (sortOn ConnectivityVerdict.key p'.draft.connectivity).map
      ConnectivityVerdict.canonicalise =
        (sortOn ConnectivityVerdict.key p.draft.connectivity).map
          ConnectivityVerdict.canonicalise := by
    have hverdicts := @map_alike _ _ _ (fun work => work.verdict.canonicalise)
      (fun hwork => hwork.verdict.canonicalise_eq) h.evidence.pairs
    have hsorted (l : List ConnectivityVerdict) :
        (sortOn ConnectivityVerdict.key l).map ConnectivityVerdict.canonicalise =
          sortOn ConnectivityVerdict.key (l.map ConnectivityVerdict.canonicalise) :=
      map_sortOn _ _ _ fun _ => rfl
    rw [hsorted, hsorted]
    unfold Passes.draft
    dsimp only
    rw [List.map_map, List.map_map]
    exact congrArg _ hverdicts
  have hobligations : sortOn ObligationVerdict.id p'.draft.obligations =
      sortOn ObligationVerdict.id p.draft.obligations :=
    (sortOn_distinct h.verdicts h.verdictIds).symm
  have hfences : sorted p'.draft.fences = sorted p.draft.fences :=
    (sortOn_congr (h.fences_perm hd) fun _ _ _ _ h => h).symm
  have hcanonical : p'.draft.canonicalise = p.draft.canonicalise := by
    unfold PodState.canonicalise
    rw [hdecisions, hpairs, hobligations, hfences]
    unfold Passes.draft
    dsimp only
    rw [h.verdicts_eq, h.evidence.capacity, hdomains, h.evidence.domains, h.epoch,
      h.evidence.observedAt, h.header.1, h.header.2, h.composedLifecycle_eq, h.degradations_eq,
      h.podAuthority_eq hd, h.incarnation_eq]
  unfold PodState.finalise
  rw [hcanonical]

/-! ## The passes -/

/-- The evidence of a request once its domains are judged. -/
def settledEvidence (request : CompositionRequest) : Evidence where
  policy := request.policy
  snapshot := request.snapshot
  members := (initialMembers request).map
    (noteOverlap (checkedDomains request.snapshot (initialMembers request)))
  domains := (checkedDomains request.snapshot (initialMembers request)).map
    (markOverlap (checkedDomains request.snapshot (initialMembers request))
      (initialMembers request))

/-- What the passes over a request find. -/
def settledFindings (request : CompositionRequest) : Findings :=
  let ev := settledEvidence request
  let capacity := ((evaluateCapacity request.policy ev.members).toOption.map
    CapacityLedger.byResource).getD []
  let evidence : PodEvidence :=
    { toEvidence := ev, capacity, pairs := (evaluateConnectivity ev).toOption.getD [] }
  { toPodEvidence := evidence
    context := request.context
    epoch := (adoptGenerationAdvances request.context.epoch
      (initialMembers request)).toOption.getD request.context.epoch
    obligations := request.snapshot.obligations.map (judgeObligation evidence) }

section Compose
variable {request request' : CompositionRequest} {p : Passes}

/-- The evidence of the passes is settled by the request. -/
theorem PassesOf.evidence (h : PassesOf request p) :
    p.findings.toEvidence = settledEvidence request := by
  unfold settledEvidence
  rw [← h.policy, ← h.domains, ← h.members, ← h.snapshot]

/-- What the passes find is settled by the request. -/
theorem PassesOf.findings_eq (h : PassesOf request p) : p.findings = settledFindings request := by
  obtain ⟨ledger, hledger, hcapacity, -⟩ := h.ledger
  have hpairs := h.pairs
  have hobligations := h.obligations
  have hevidence := h.evidence
  obtain ⟨⟨⟨ev, capacity, pairs⟩, context, epoch, obligations⟩, domainCapacity⟩ := p
  obtain rfl : ev = settledEvidence request := hevidence
  obtain rfl : context = request.context := h.context
  have hmembers : evaluateCapacity request.policy (settledEvidence request).members =
    .ok ledger := hledger
  have hepoch : adoptGenerationAdvances request.context.epoch (initialMembers request) =
    .ok epoch := h.epoch
  obtain rfl : capacity = ledger.byResource := hcapacity
  unfold settledFindings
  dsimp only at hpairs hobligations ⊢
  rw [hmembers, hpairs, hepoch, hobligations]
  rfl

/-- Rearranged requests have the same evidence, up to its order. -/
theorem Rearranged.settled (h : Rearranged request request')
    (hs : SnapshotValid request.snapshot request.policy)
    (hc : ContextValid request.context request.policy) :
    (settledEvidence request).Alike (settledEvidence request') := by
  have hdomains := h.checkedDomains_eq hc hs.domainIds
  refine ⟨h.policy, h.observedAt, ?_, ?_, h.links, h.routes, hs.routeRefs⟩
  · unfold settledEvidence
    rw [hdomains, h.noted_face hc]
  · unfold settledEvidence
    rw [hdomains, h.markOverlap_eq hc]

/-- A request in another order passes alike. -/
theorem Rearranged.passes (h : Rearranged request request') (hvalid : request.validate = .ok ())
    (hp : runPasses request = .ok p) (hsame : request.snapshot.SameCapacity)
    (hpairs : (settledEvidence request).Decided) :
    ∃ p', runPasses request' = .ok p' ∧ p.findings.Alike p'.findings ∧
      p'.domainCapacity = p.domainCapacity := by
  obtain ⟨hs, hc⟩ := validate_request_iff.1 hvalid
  have hof := runPasses_passesOf hp
  have hcount := runPasses_count hp
  obtain ⟨ledger, hledger, hcapacity, hsplit⟩ := hof.ledger
  rw [hof.members, ← h.checkedDomains_eq hc hs.domainIds] at hledger
  obtain ⟨ledger', hledger', hresource, hdomain⟩ := h.capacity hc hsame hledger
  have halike : p.findings.toEvidence.Alike (settledEvidence request') :=
    hof.evidence ▸ h.settled hs hc
  obtain ⟨pairs', hpairs', hpaired⟩ := halike.evaluate (hof.evidence ▸ hpairs) hof.pairs
  have hevidence : p.findings.toPodEvidence.Alike
      ⟨settledEvidence request', p.findings.capacity, pairs'⟩ := ⟨halike, rfl, hpaired⟩
  refine ⟨{
    findings := {
      toPodEvidence := ⟨settledEvidence request', p.findings.capacity, pairs'⟩
      context := request'.context, epoch := p.findings.epoch
      obligations := request'.snapshot.obligations.map
        (judgeObligation p.findings.toPodEvidence) }
    domainCapacity := p.domainCapacity }, runPasses_of_parts ?_ ?_, ?_, rfl⟩
  · refine ⟨?_, rfl, rfl, rfl, ?_, rfl, rfl, ⟨ledger', hledger', ?_, ?_⟩, hpairs', ?_⟩
    · rw [h.covered, h.policy]
      exact hof.racks
    · rw [h.epoch_eq hc]
      exact hof.epoch
    · rw [hresource, ← hcapacity]
    · rw [hdomain, ← hsplit]
    · exact congrArg (request'.snapshot.obligations.map ·) hevidence.judgeObligation_eq.symm
  · rw [h.coveredDomains_eq hc, h.policy]
    exact hcount
  · have hids : (request.snapshot.obligations.map (judgeObligation p.findings.toPodEvidence)).map
        ObligationVerdict.id = request.snapshot.obligations.map Obligation.id := by
      rw [List.map_map]
      rfl
    refine ⟨hevidence, ?_, ?_, ?_, ?_, rfl, ?_, ?_, ?_, ?_⟩
    · rw [hof.snapshot]
      exact h.header
    · rw [hof.context]
      exact h.context
    · rw [hof.context]
      exact h.granted
    · rw [hof.context]
      exact h.revoked
    · rw [hof.snapshot]
      exact h.obligations
    · rw [hof.snapshot]
      exact hs.obligationIds
    · rw [hof.obligations]
      exact h.obligations.map _
    · rw [hof.obligations, hids]
      exact hs.obligationIds

end Compose

end PodFabric
