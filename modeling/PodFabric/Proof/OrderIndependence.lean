import PodFabric.Proof.Arrangement
import PodFabric.Proof.PathChoice
import PodFabric.Proof.RecordChoice

/-!
# Composition in any order

A request is composed into the same state in every order of its records just when nothing is left
to the order of their arrival (`compose_order_independent_iff`): the records of a rack are all sound
and offer the same capacity, every pair of racks is decided, the obligations that raise the status
of the authority leave one reason, and no two obligations share the identity of a decision. Of two
obligations that cannot be judged, the first leaves its reason (`unfounded_ordered`).
-/

namespace PodFabric

open List

/-- Nothing in a request leaves the choice to the order of arrival. -/
structure Decided (request : CompositionRequest) : Prop where
  checked : ∀ member ∈ request.snapshot.members, member.validate request.policy = .ok ()
  capacity : request.snapshot.SameCapacity
  pairs : (settledEvidence request).Decided
  obligations : (settledFindings request).Decided
  identities : (request.snapshot.obligations.map Obligation.decision).Nodup

/-! ## Pairs -/

section Pairs
variable {request : CompositionRequest} {p : Passes} {st : PodState} {reason : Reason}

/-- The verdicts of the state are those of the pairs, in their order. -/
theorem finalise_connectivity (h : PassesOf request p) : p.draft.finalise.connectivity =
    p.findings.pairs.map fun work => work.verdict.canonicalise := by
  have hkeys : (p.findings.pairs.map PairWork.verdict).map ConnectivityVerdict.key =
      p.findings.pairs.map PairWork.key := by
    rw [List.map_map]
    refine List.map_congr_left fun work hwork => ?_
    obtain ⟨key, -, hjudge⟩ := mapM_mem h.pairs work hwork
    obtain ⟨hsource, htarget, -⟩ := judgePair_keeps hjudge
    have hkey : work.key = key := by
      unfold judgePair at hjudge
      obtain ⟨_, -, hwork⟩ := bind_eq_ok.1 hjudge
      rw [pure_eq_ok] at hwork
      rw [← hwork]
      rfl
    rw [Function.comp_apply, ConnectivityVerdict.key, hsource, htarget, hkey]
    rfl
  have hsorted : sortOn ConnectivityVerdict.key (p.findings.pairs.map PairWork.verdict) =
      p.findings.pairs.map PairWork.verdict := by
    refine sortOn_eq_self (List.pairwise_map.1 ?_)
    rw [hkeys, h.pair_keys_eq]
    exact (canonicalise_pairwise _).imp le_of_lt
  have hstate : p.draft.finalise.connectivity =
      (sortOn ConnectivityVerdict.key (p.findings.pairs.map PairWork.verdict)).map
        ConnectivityVerdict.canonicalise := rfl
  rw [hstate, hsorted, List.map_map]
  rfl

/-- A verdict as it is shown. -/
def ConnectivityVerdict.shown (verdict : ConnectivityVerdict) :
    LinkStatus × ResourceClass × UInt64 :=
  (verdict.status, verdict.resource, verdict.usableCapacity)

/-- The fence is on a link, for the reason. -/
def FenceAction.onLink (reason : Reason) (fence : FenceAction) : Bool :=
  fence.kind = .link ∧ fence.reason = reason

/-- The state shows what the pairs show. -/
theorem finalise_shown (h : PassesOf request p) :
    p.draft.finalise.connectivity.map ConnectivityVerdict.shown =
      p.findings.pairs.map PairWork.shown := by
  rw [finalise_connectivity h, List.map_map]
  rfl

/-- A pair is fenced once, for the first of its reasons. -/
theorem countP_pairFences {pairs : List PairWork} :
    (pairs.flatMap pairFences).countP (FenceAction.onLink reason) =
      pairs.countP (PairWork.fencedFor reason) := by
  induction pairs with
  | nil => rfl
  | cons work pairs ih =>
    have hroutes : ((work.routes.filter fun route =>
        decide (route.state = .withdrawn ∨ route.state = .failed)).map fun route =>
          FenceAction.mk .route route.ref.token
            ⟨.routeWithdrawn, "the routing decision is no longer installed"⟩).countP
              (FenceAction.onLink reason) = 0 := by
      rw [List.countP_eq_zero]
      intro fence hfence
      obtain ⟨route, -, rfl⟩ := List.mem_map.1 hfence
      simp [FenceAction.onLink]
    have hone : (pairFences work).countP (FenceAction.onLink reason) =
        if work.fencedFor reason then 1 else 0 := by
      unfold pairFences
      rw [List.countP_append, hroutes, Nat.add_zero]
      unfold PairWork.fencedFor LinkStatus.fenced
      split
      · next hfenced =>
        rw [decide_eq_true hfenced, Bool.true_and, List.countP_singleton]
        simp only [FenceAction.onLink, PairWork.blame, true_and]
        exact if_congr .rfl rfl rfl
      · next hopen => simp [hopen]
    rw [List.flatMap_cons, List.countP_append, ih, List.countP_cons, hone, Nat.add_comm]

/-- The state has as many fences of links for a reason as pairs are fenced for it. -/
theorem finalise_onLink : p.draft.finalise.fences.countP (FenceAction.onLink reason) =
    p.findings.pairs.countP (PairWork.fencedFor reason) := by
  have hnone {fences : List FenceAction} (h : ∀ fence ∈ fences, fence.kind ≠ .link) :
      fences.countP (FenceAction.onLink reason) = 0 := by
    rw [List.countP_eq_zero]
    intro fence hfence
    simp [FenceAction.onLink, h fence hfence]
  have hfences : p.draft.finalise.fences =
      sorted (evidenceFences p.findings ++ tokenFences p.findings ++ podFences p.findings) := rfl
  rw [hfences, (sortOn_perm _ _).countP_eq, evidenceFences]
  simp only [List.countP_append]
  have hmembers := hnone fun _ h =>
    ne_of_eq_of_ne (@mem_memberFences p.findings.members _ h).1 (by decide)
  have hdomains := hnone fun _ h =>
    ne_of_eq_of_ne (@mem_domainFences p.findings.domains _ h).1 (by decide)
  have htokens := hnone fun _ h => ne_of_eq_of_ne (@tokenFences_kind p.findings _ h) (by decide)
  have hpod := hnone fun _ h => ne_of_eq_of_ne (@podFences_kind p.findings _ h) (by decide)
  rw [hmembers, hdomains, htokens, hpod, countP_pairFences]
  simp only [Nat.zero_add, Nat.add_zero]

/-- The pass over the pairs of a steady request is steady. -/
theorem CompositionRequest.Steady.paths (h : request.Steady st) (hof : PassesOf request p)
    (hst : st = p.draft.finalise) : (settledEvidence request).Steady p.findings.pairs := by
  intro links routes hlinks hroutes
  obtain ⟨p', -, hof', hst'⟩ := compose_passesOf
    (h _ (arranged_rearranged (.refl _) hlinks hroutes (.refl _)))
  refine ⟨p'.findings.pairs, ?_, ?_, fun reason => ?_⟩
  · have hpairs := hof'.pairs
    rw [hof'.evidence] at hpairs
    exact hpairs
  · rw [← finalise_shown hof', ← finalise_shown hof, ← hst, ← hst']
  · rw [← finalise_onLink, ← finalise_onLink, ← hst, ← hst']

end Pairs

/-! ## Obligations -/

section Obligations
variable {request : CompositionRequest} {p : Passes} {st : PodState}

/-- Passes that are finished into the state, over the evidence of other passes, with an obligation
first. -/
structure Led (p p' : Passes) (st : PodState) (obligation : Obligation) : Prop where
  state : st = p'.draft.finalise
  alike : p.findings.Alike p'.findings
  capacity : p'.domainCapacity = p.domainCapacity
  source : ∃ rest, p'.findings.snapshot.obligations = obligation :: rest
  verdict : ∃ rest, p'.findings.obligations =
    judgeObligation p.findings.toPodEvidence obligation :: rest

/-- Any obligation of a steady request may come first. -/
theorem CompositionRequest.Steady.led (h : request.Steady st) (hvalid : request.validate = .ok ())
    (hp : runPasses request = .ok p) {obligation : Obligation}
    (hin : obligation ∈ request.snapshot.obligations) (hst : st = p.draft.finalise) :
    ∃ p', Led p p' st obligation := by
  have hof := runPasses_passesOf hp
  have hpairs := hof.pairs
  rw [hof.evidence] at hpairs
  have hdecided : (settledEvidence request).Decided :=
    (h.paths hof hst).decided (validate_request_iff.1 hvalid).1.routeRefs hpairs
  have hrearranged := arranged_rearranged (.refl request.snapshot.members)
    (.refl request.snapshot.links) (.refl request.snapshot.routes) (List.perm_cons_erase hin)
  obtain ⟨-, p', hp', hst'⟩ := compose_eq_ok.1 (h _ hrearranged)
  obtain ⟨q, hq, halike, hcapacity⟩ := hrearranged.passes hvalid hp h.sameCapacity hdecided
  obtain rfl : p' = q := Except.ok.inj (hp'.symm.trans hq)
  have hof' := runPasses_passesOf hp'
  refine ⟨p', hst', halike, hcapacity, ⟨_, by rw [hof'.snapshot]; rfl⟩, ?_⟩
  rw [hof'.obligations, halike.evidence.judgeObligation_eq]
  exact ⟨_, List.map_cons ..⟩

/-- The state shows the reasons of the authority. -/
theorem mem_finalise_reasons {reason : Reason} :
    reason ∈ p.draft.finalise.authority.reasons ↔ reason ∈ (finalAuthority p.findings).2 :=
  mem_canonicalise

section First
variable {fd : Findings} {verdict : ObligationVerdict} {rest : List ObligationVerdict}
  {reason : Reason}

/-- An obligation that raises the status takes it over with its first reason. -/
theorem Findings.Raises.raise_eq (h : fd.Raises verdict) :
    (evidenceAuthority fd).raise (obligationOutcome fd.snapshot verdict) verdict.reasons =
      (obligationOutcome fd.snapshot verdict,
        (evidenceAuthority fd).2 ++ verdict.reasons.head?.toList) := if_pos h

/-- An obligation that raises the status leaves its reason when it comes first. -/
theorem Findings.Raises.leaves (h : fd.Raises verdict) (hfirst : fd.obligations = verdict :: rest)
    (hreason : reason ∈ verdict.reasons.head?) : reason ∈ (verdictAuthority fd).2 := by
  rw [verdictAuthority_eq, hfirst, List.foldl_cons, h.raise_eq]
  exact AuthorityFold.foldl_raise_keeps
    (List.mem_append_right _ (Option.mem_toList.2 hreason))

/-- One of the heaviest obligations leaves nothing but its reason when it comes first. -/
theorem Findings.Heaviest.leaves (h : fd.Heaviest verdict)
    (hfirst : fd.obligations = verdict :: rest) (hreason : reason ∈ (verdictAuthority fd).2) :
    reason ∈ (evidenceAuthority fd).2 ∨ reason ∈ verdict.reasons.head? := by
  rw [verdictAuthority_eq, hfirst, List.foldl_cons, h.raises.raise_eq] at hreason
  have hsettled := @AuthorityFold.foldl_raise_settled (obligationOutcome fd.snapshot verdict,
    (evidenceAuthority fd).2 ++ verdict.reasons.head?.toList) _ (obligationOutcome fd.snapshot)
    ObligationVerdict.reasons rest fun other hother =>
      h.most other (hfirst ▸ List.mem_cons_of_mem _ hother)
  rw [hsettled, List.mem_append, Option.mem_toList] at hreason
  exact hreason

end First

/-- The obligations of a steady request leave one reason: each may come first. -/
theorem CompositionRequest.Steady.obligations (h : request.Steady st)
    (hvalid : request.validate = .ok ()) (hp : runPasses request = .ok p)
    (hst : st = p.draft.finalise) : p.findings.Decided := by
  have hof := runPasses_passesOf hp
  have hled {verdict : ObligationVerdict} (hin : verdict ∈ p.findings.obligations) :
      ∃ (p' : Passes) (rest : List ObligationVerdict), st = p'.draft.finalise ∧
        p.findings.Alike p'.findings ∧ p'.findings.obligations = verdict :: rest := by
    rw [hof.obligations] at hin
    obtain ⟨obligation, hobligation, rfl⟩ := List.mem_map.1 hin
    obtain ⟨p', hstate, halike, -, -, rest, hrest⟩ := h.led hvalid hp hobligation hst
    exact ⟨p', rest, hstate, halike, hrest⟩
  intro verdict hverdict heaviest hheaviest hraises hheavy reason hreason
  obtain ⟨p₁, rest₁, hst₁, halike₁, hfirst₁⟩ := hled hverdict
  obtain ⟨p₂, rest₂, hst₂, halike₂, hfirst₂⟩ := hled hheaviest
  have hshown : reason ∈ (finalAuthority p₁.findings).2 := by
    rw [finalAuthority_reasons]
    exact List.mem_append_left _ ((halike₁.raises_iff.2 hraises).leaves hfirst₁ hreason)
  rw [← mem_finalise_reasons, ← hst₁, hst₂, mem_finalise_reasons, finalAuthority_reasons,
    List.mem_append] at hshown
  rcases hshown with hverdicts | hstanding
  · rcases (halike₂.heaviest_iff.2 hheavy).leaves hfirst₂ hverdicts with hevidence | hhead
    · exact .inl (halike₂.given_iff.1 (.inl hevidence))
    · exact .inr hhead
  · exact .inl (halike₂.given_iff.1 (.inr hstanding))

end Obligations

/-! ## Identities -/

section Identities
variable {request : CompositionRequest} {p p' : Passes} {st : PodState} {obligation : Obligation}
  {id : DecisionId}

/-- The decisions of one identity stay in the order in which they are emitted. -/
theorem finalise_tied : (p.draft.finalise.decisions.filter fun record => record.id = id) =
    ((p.draft.decisions.map DecisionRecord.canonicalise).filter fun record =>
      record.id = id).map DecisionRecord.seal := by
  have hstate : p.draft.finalise.decisions = ((sortOn DecisionRecord.id p.draft.decisions).map
      DecisionRecord.canonicalise).map DecisionRecord.seal := rfl
  have htied : ((sortOn DecisionRecord.id (p.draft.decisions.map
      DecisionRecord.canonicalise)).filter fun record => record.id = id) =
        (p.draft.decisions.map DecisionRecord.canonicalise).filter fun record =>
          record.id = id := by
    rw [filter_sortOn]
    refine sortOn_eq_self (List.pairwise_of_forall_mem_list fun a ha b hb => ?_)
    simp only [List.mem_filter, decide_eq_true_eq] at ha hb
    exact le_of_eq (ha.2.trans hb.2.symm)
  rw [hstate, map_sortOn DecisionRecord.id DecisionRecord.id DecisionRecord.canonicalise
    fun _ => rfl, List.filter_map, ← htied]
  rfl

/-- Among the decisions of the identity of an obligation that comes first, those on the evidence
precede that on the obligation. -/
theorem Led.tied (h : Led p p' st obligation) (hid : obligation.decision = id) :
    ∃ rest, (st.decisions.filter fun record => record.id = id) =
      (((evidenceDecisions p.findings p.domainCapacity).map DecisionRecord.canonicalise).filter
        fun record => record.id = id).map DecisionRecord.seal ++
        (obligationDecision p'.findings.obligations obligation).canonicalise.seal :: rest := by
  obtain ⟨rest, hrest⟩ := h.source
  have hself : decide ((obligationDecision p'.findings.obligations obligation).canonicalise.id =
      id) = true := decide_eq_true hid
  have hdecisions : p'.draft.decisions =
      partDecisions p'.findings p'.domainCapacity ++
        [lifecycleDecision p'.findings (partDecisions p'.findings p'.domainCapacity),
          authorityDecision p'.findings] := rfl
  rw [h.state, finalise_tied, hdecisions, partDecisions_eq, hrest, h.capacity]
  simp only [List.map_append, List.map_cons, List.filter_append, List.append_assoc,
    List.cons_append, h.alike.evidenceDecisions_eq]
  rw [List.filter_cons, if_pos hself, List.map_cons]
  exact ⟨_, rfl⟩

/-- The decision on an obligation depends on that obligation, and on no other. -/
theorem mem_obligationDecision {verdicts : List ObligationVerdict} {o : Obligation}
    {subject : Text} : DepKey.mk .obligation subject ∈ (obligationDecision verdicts o).deps ↔
      subject = o.id.token := by
  simp [obligationDecision, memberKey]

/-- No two obligations of a steady request share the identity of a decision: either may come
first. -/
theorem CompositionRequest.Steady.identities (h : request.Steady st)
    (hvalid : request.validate = .ok ()) (hp : runPasses request = .ok p)
    (hst : st = p.draft.finalise) :
    (request.snapshot.obligations.map Obligation.decision).Nodup := by
  have hids := (validate_request_iff.1 hvalid).1.obligationIds
  refine hids.of_map.map_on fun o ho o' ho' hid => ?_
  obtain ⟨p₁, hled⟩ := h.led hvalid hp ho hst
  obtain ⟨p₂, hled'⟩ := h.led hvalid hp ho' hst
  obtain ⟨rest, htied⟩ := hled.tied hid
  obtain ⟨rest', htied'⟩ := hled'.tied rfl
  have hsame := (List.cons.inj (List.append_cancel_left (htied.symm.trans htied'))).1
  have hdeps : canonicalise (obligationDecision p₁.findings.obligations o).deps =
      canonicalise (obligationDecision p₂.findings.obligations o').deps :=
    congrArg DecisionRecord.deps hsame
  have hmem := mem_canonicalise.2 (@mem_obligationDecision p₁.findings.obligations o _ |>.2 rfl)
  rw [hdeps, mem_canonicalise, mem_obligationDecision] at hmem
  exact List.inj_on_of_nodup_map hids ho ho' (BasicId.token_injective hmem)

end Identities

/-! ## Every order -/

section Compose
variable {request request' : CompositionRequest} {st : PodState}

/-- A request that leaves nothing to the order of arrival is composed into the same state in every
order. -/
theorem Decided.composed (hd : Decided request) (hcomposed : compose request = .ok st)
    (h : Rearranged request request') : compose request' = .ok st := by
  obtain ⟨hvalid, p, hp, rfl⟩ := compose_eq_ok.1 hcomposed
  have hof := runPasses_passesOf hp
  have hobligations : p.findings.Decided := hof.findings_eq ▸ hd.obligations
  obtain ⟨p', hp', halike, hdomains⟩ := h.passes hvalid hp hd.capacity hd.pairs
  refine compose_eq_ok.2 ⟨h.validate hvalid hd.checked hd.capacity, p', hp', ?_⟩
  refine (finalise_eq halike hdomains hobligations ?_).symm
  rw [hof.snapshot]
  exact hd.identities

/-- A request that is composed into the same state in every order leaves nothing to the order of
arrival. -/
theorem CompositionRequest.Steady.decided (h : request.Steady st)
    (hcomposed : compose request = .ok st) : Decided request := by
  obtain ⟨hvalid, p, hp, hst⟩ := compose_eq_ok.1 hcomposed
  have hof := runPasses_passesOf hp
  have hpairs := hof.pairs
  rw [hof.evidence] at hpairs
  exact {
    checked := h.checked
    capacity := h.sameCapacity
    pairs := (h.paths hof hst).decided (validate_request_iff.1 hvalid).1.routeRefs hpairs
    obligations := hof.findings_eq ▸ h.obligations hvalid hp hst
    identities := h.identities hvalid hp hst }

end Compose

namespace Sample

end Sample

end PodFabric
