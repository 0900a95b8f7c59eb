import PodFabric.Proof.Expectations

/-!
# The authority of a composed state

The status of the authority is the most severe of what the verdicts, the lifecycle, the recovery
flags and the tokens contribute (`authority_worst`): each of the loops that accumulate it keeps the
worst contribution so far (`IsWorst`).
-/

namespace PodFabric

/-! ## The worst of some codes -/

/-- The code is the most severe among those of `S`, and `ok` if there is nothing else. -/
structure IsWorst (S : Code → Prop) (c : Code) : Prop where
  bound : ∀ x, S x → x.severity ≤ c.severity
  attained : c = .ok ∨ S c

section Worst
variable {S S' : Code → Prop} {c code : Code} {f : AuthorityFold} {reasons : List Reason}

/-- Only `ok` is not severe. -/
theorem severity_eq_zero : c.severity = 0 ↔ c = .ok :=
  ⟨fun h => Code.severity_injective h, fun h => h ▸ rfl⟩

/-- Nothing contributes at the start. -/
theorem IsWorst.start : IsWorst (fun _ => False) .ok := ⟨fun _ h => h.elim, .inl rfl⟩

/-- Contributions of `ok` count for nothing. -/
theorem IsWorst.congr (h : IsWorst S c) (hS : ∀ x, x ≠ .ok → (S x ↔ S' x)) : IsWorst S' c := by
  refine ⟨fun x hx => ?_, ?_⟩
  · by_cases hok : x = .ok
    · rw [hok]
      exact Nat.zero_le _
    · exact h.bound x ((hS x hok).2 hx)
  · by_cases hok : c = .ok
    · exact .inl hok
    · exact .inr ((hS c hok).1 (h.attained.resolve_left hok))

/-- The worst code is `ok` exactly when every code is. -/
theorem IsWorst.eq_ok_iff (h : IsWorst S c) : c = .ok ↔ ∀ x, S x → x = .ok := by
  constructor
  · rintro rfl x hx
    exact severity_eq_zero.1 (Nat.le_zero.1 (h.bound x hx))
  · intro hall
    exact h.attained.elim (fun hok => hok) fun hc => hall c hc

/-- Joining a code keeps the worst of the contributions. -/
theorem IsWorst.worst (h : IsWorst S c) : IsWorst (fun x => S x ∨ x = code) (c.worst code) := by
  have hsev := Code.severity_worst c code
  refine ⟨fun x hx => ?_, ?_⟩
  · rw [hsev]
    rcases hx with hx | rfl
    · exact (h.bound x hx).trans (Nat.le_max_left _ _)
    · exact Nat.le_max_right _ _
  · unfold Code.worst
    split
    · exact h.attained.imp_right .inl
    · exact .inr (.inr rfl)

/-- Joining a contribution keeps the worst of them. -/
theorem IsWorst.join (h : IsWorst S f.1) :
    IsWorst (fun x => S x ∨ x = code) (f.join code reasons).1 := h.worst

/-- Raising the status keeps the worst of the contributions. -/
theorem IsWorst.raise (h : IsWorst S f.1) :
    IsWorst (fun x => S x ∨ x = code) (f.raise code reasons).1 := by
  unfold AuthorityFold.raise
  split
  · next hlt =>
    refine ⟨fun x hx => ?_, .inr (.inr rfl)⟩
    rcases hx with hx | rfl
    · exact (h.bound x hx).trans hlt.le
    · exact le_rfl
  · next hle =>
    refine ⟨fun x hx => ?_, h.attained.imp_right .inl⟩
    rcases hx with hx | rfl
    · exact h.bound x hx
    · exact not_lt.1 hle

/-- A contribution that is joined under a condition. -/
theorem IsWorst.joinIf (h : IsWorst S f.1) (b : Prop) [Decidable b] :
    IsWorst (fun x => S x ∨ (b ∧ x = code)) (if b then f.join code reasons else f).1 := by
  split
  · next hb => exact h.join.congr fun x _ => by simp [hb]
  · next hb => exact h.congr fun x _ => by simp [hb]

/-- A loop that raises the status by the code of each element. -/
theorem IsWorst.foldl {α : Type} {g : α → Code} {r : α → List Reason} : ∀ {l : List α}
    {S : Code → Prop} {f : AuthorityFold}, IsWorst S f.1 →
      IsWorst (fun x => S x ∨ ∃ a ∈ l, x = g a) (l.foldl (fun f a => f.raise (g a) (r a)) f).1
  | [], S, f, h => h.congr fun x _ => by simp
  | a :: l, S, f, h => by
    refine (IsWorst.foldl (l := l) h.raise).congr fun x _ => ?_
    simp [or_assoc]

end Worst

/-! ## What contributes -/

/-- What the tokens of a request are checked against at an epoch. -/
def grantCheck (request : CompositionRequest) (epoch : PodEpoch) : AuthorityCheck where
  pod := request.snapshot.pod
  epoch := epoch
  incarnation := request.context.incarnation
  now := if request.context.now ≠ 0 then request.context.now else request.snapshot.observedAt
  clockSkew := request.policy.clockSkew
  revoked := request.context.revokedTokens

/-- The codes that weigh on the authority of a composed state. -/
inductive Contributes (request : CompositionRequest) (st : PodState) : Code → Prop
  | member {m : MemberVerdict} (hm : m ∈ st.members) : Contributes request st m.status.outcome
  | domain {d : DomainVerdict} (hd : d ∈ st.domains) : Contributes request st d.status.outcome
  | capacity {a : CapacityAggregate} (ha : a ∈ st.capacity) :
    Contributes request st a.status.outcome
  | mandatory {o : Obligation} {v : ObligationVerdict} (ho : o ∈ request.snapshot.obligations)
    (hv : v ∈ st.obligations) (hid : v.id = o.id) (hs : v.status = .violated)
    (hmandatory : o.mandatory = true) : Contributes request st .refused
  | optional {o : Obligation} {v : ObligationVerdict} (ho : o ∈ request.snapshot.obligations)
    (hv : v ∈ st.obligations) (hid : v.id = o.id) (hs : v.status = .violated)
    (hmandatory : o.mandatory = false) : Contributes request st .stale
  | unsettled {v : ObligationVerdict} (hv : v ∈ st.obligations) (hs : v.status = .indeterminate) :
    Contributes request st .incomplete
  | retired (h : st.lifecycle = .retired) : Contributes request st .refused
  | constructing (h : st.lifecycle = .constructing) : Contributes request st .incomplete
  | recovered (h : request.context.recoveredFromStore = true) :
    Contributes request st .indeterminate
  | ambiguous (h : request.context.ambiguousCommit = true) : Contributes request st .indeterminate
  | token (h : request.policy.requireAuthorityToken = true)
    (hnone : ∀ t ∈ request.context.grantedTokens, t.scope = .pod →
      ¬ TokenAdmitted t (grantCheck request st.epoch)) : Contributes request st .stale

section Findings
variable {fd : Findings}

/-- What the verdicts contribute, read off the findings. -/
def VerdictContributes (fd : Findings) (x : Code) : Prop :=
  (∃ work ∈ fd.members, x = work.verdict.status.outcome) ∨
    (∃ work ∈ fd.domains, x = work.verdict.status.outcome) ∨
      (∃ a ∈ fd.capacity, x = a.status.outcome) ∨
        ∃ v ∈ fd.obligations, x = obligationOutcome fd.snapshot v

/-- The verdicts leave the worst of what they contribute. -/
theorem verdictAuthority_worst : IsWorst (VerdictContributes fd) (verdictAuthority fd).1 := by
  have h : IsWorst _ (verdictAuthority fd).1 :=
    (((@IsWorst.start).foldl (f := (.ok, [])).foldl).foldl).foldl
  exact h.congr fun x _ => by simp [VerdictContributes, or_assoc]

/-- What the lifecycle, the recovery flags and the tokens contribute on top. -/
inductive StandingContributes (fd : Findings) : Code → Prop
  | retired (h : composedLifecycle fd = .retired) : StandingContributes fd .refused
  | constructing (h : composedLifecycle fd = .constructing) : StandingContributes fd .incomplete
  | recovered (h : fd.context.recoveredFromStore = true) : StandingContributes fd .indeterminate
  | ambiguous (h : fd.context.ambiguousCommit = true) : StandingContributes fd .indeterminate
  | token (h : fd.policy.requireAuthorityToken = true) (hnone : anyValidPodToken fd = false) :
    StandingContributes fd .stale

/-- The contribution of the lifecycle, which is joined before the flags and the tokens. -/
def LifecycleContributes (fd : Findings) (x : Code) : Prop :=
  VerdictContributes fd x ∨ (composedLifecycle fd = .retired ∧ x = .refused) ∨
    (composedLifecycle fd = .constructing ∧ x = .incomplete)

/-- The authority is the worst of what the verdicts and the pod's standing contribute. -/
theorem finalAuthority_worst :
    IsWorst (fun x => VerdictContributes fd x ∨ StandingContributes fd x)
      (finalAuthority fd).1 := by
  have hverdict : IsWorst (VerdictContributes fd) (verdictAuthority fd).1 := verdictAuthority_worst
  -- whatever the lifecycle made of it, the flags and the tokens are joined the same way
  have hflags : ∀ c, IsWorst (fun x => (((LifecycleContributes fd x ∨
        (fd.context.recoveredFromStore = true ∧ x = .indeterminate)) ∨
        (fd.context.ambiguousCommit = true ∧ x = .indeterminate)) ∨ x = .ok) ∨
        ((fd.policy.requireAuthorityToken = true ∧ ¬ anyValidPodToken fd = true) ∧ x = .stale)) c →
      IsWorst (fun x => VerdictContributes fd x ∨ StandingContributes fd x) c := by
    intro c h
    refine h.congr fun x hx => ⟨?_, ?_⟩
    · rintro (((((h | ⟨h, rfl⟩ | ⟨h, rfl⟩) | ⟨h, rfl⟩) | ⟨h, rfl⟩) | rfl) | ⟨⟨h, hnone⟩, rfl⟩)
      · exact .inl h
      · exact .inr (.retired h)
      · exact .inr (.constructing h)
      · exact .inr (.recovered h)
      · exact .inr (.ambiguous h)
      · exact absurd rfl hx
      · exact .inr (.token h (by simpa using hnone))
    · rintro (h | h)
      · exact .inl (.inl (.inl (.inl (.inl h))))
      · cases h with
        | retired h => exact .inl (.inl (.inl (.inl (.inr (.inl ⟨h, rfl⟩)))))
        | constructing h => exact .inl (.inl (.inl (.inl (.inr (.inr ⟨h, rfl⟩)))))
        | recovered h => exact .inl (.inl (.inl (.inr ⟨h, rfl⟩)))
        | ambiguous h => exact .inl (.inl (.inr ⟨h, rfl⟩))
        | token h hnone => exact .inr ⟨⟨h, by simp [hnone]⟩, rfl⟩
  refine hflags _ ?_
  unfold finalAuthority stateAuthority
  cases hl : composedLifecycle fd with
  | retired =>
    refine (((IsWorst.joinIf ?_ _).joinIf _).join).joinIf _
    exact hverdict.join.congr fun x _ => by simp [LifecycleContributes, hl]
  | constructing =>
    refine (((IsWorst.joinIf ?_ _).joinIf _).join).joinIf _
    exact hverdict.join.congr fun x _ => by simp [LifecycleContributes, hl]
  | active | degraded | partitioned | recovering | maintenance | draining =>
    refine (((IsWorst.joinIf ?_ _).joinIf _).join).joinIf _
    exact hverdict.congr fun x _ => by simp [LifecycleContributes, hl]

end Findings

/-- Ordering a verdict's reasons leaves its identifier. -/
@[simp] theorem ObligationVerdict.canonicalise_id (v : ObligationVerdict) :
    v.canonicalise.id = v.id := rfl

/-- Ordering a verdict's reasons leaves its status. -/
@[simp] theorem ObligationVerdict.canonicalise_status (v : ObligationVerdict) :
    v.canonicalise.status = v.status := rfl

/-- The sample pod, of which one rack presents an older generation than the one on record. -/
def Sample.behind : CompositionRequest where
  snapshot := Sample.snapshot
  context := { expectations := [{ rack := Sample.rackA, generation := ⟨2⟩ }] }

section Composed
variable {request : CompositionRequest} {p : Passes} {st : PodState}

/-- The outcome of a verdict is that of the obligation it is on. -/
theorem obligationOutcome_of_mem {snapshot : PodSnapshot} {policy : Policy}
    (hvalid : SnapshotValid snapshot policy) {o : Obligation} (ho : o ∈ snapshot.obligations)
    {v : ObligationVerdict} (hid : v.id = o.id) :
    obligationOutcome snapshot v =
      if v.status = .violated then if o.mandatory then .refused else .stale
      else if v.status = .indeterminate then .incomplete else .ok := by
  have hfind : snapshot.obligations.find? (fun candidate => candidate.id = v.id) = some o :=
    find?_key_eq hvalid.obligationIds ho hid.symm
  unfold obligationOutcome
  rw [hfind]
  cases v.status <;> rfl

/-- What the verdicts of the findings contribute is what those of the state do. -/
theorem verdictContributes_iff (hvalid : SnapshotValid request.snapshot request.policy)
    (h : PassesOf request p) {x : Code} (hx : x ≠ .ok) :
    VerdictContributes p.findings x ↔
      (∃ m ∈ p.draft.finalise.members, x = m.status.outcome) ∨
      (∃ d ∈ p.draft.finalise.domains, x = d.status.outcome) ∨
      (∃ a ∈ p.draft.finalise.capacity, x = a.status.outcome) ∨
      ∃ o ∈ request.snapshot.obligations, ∃ v ∈ p.draft.finalise.obligations, v.id = o.id ∧
        ((v.status = .violated ∧ o.mandatory = true ∧ x = .refused) ∨
          (v.status = .violated ∧ o.mandatory = false ∧ x = .stale) ∨
          (v.status = .indeterminate ∧ x = .incomplete)) := by
  simp only [VerdictContributes, mem_finalise_members, mem_finalise_domains,
    mem_finalise_capacity, mem_finalise_obligations, h.snapshot]
  refine or_congr ?_ (or_congr ?_ (or_congr ?_ ?_))
  · constructor
    · rintro ⟨work, hw, rfl⟩
      exact ⟨_, ⟨work, hw, rfl⟩, rfl⟩
    · rintro ⟨_, ⟨work, hw, rfl⟩, rfl⟩
      exact ⟨work, hw, rfl⟩
  · constructor
    · rintro ⟨work, hw, rfl⟩
      exact ⟨_, ⟨work, hw, rfl⟩, rfl⟩
    · rintro ⟨_, ⟨work, hw, rfl⟩, rfl⟩
      exact ⟨work, hw, rfl⟩
  · constructor
    · rintro ⟨a, ha, rfl⟩
      exact ⟨_, ⟨a, ha, rfl⟩, rfl⟩
    · rintro ⟨_, ⟨a, ha, rfl⟩, rfl⟩
      exact ⟨a, ha, rfl⟩
  · constructor
    · rintro ⟨v, hv, rfl⟩
      obtain ⟨o, ho, rfl⟩ := List.mem_map.1 (h.obligations ▸ hv)
      rw [obligationOutcome_of_mem hvalid ho rfl] at hx ⊢
      refine ⟨o, ho, _, ⟨_, hv, rfl⟩, rfl, ?_⟩
      rw [ObligationVerdict.canonicalise_status]
      cases hs : (judgeObligation p.findings.toPodEvidence o).status <;>
        cases hm : o.mandatory <;> simp_all
    · rintro ⟨o, ho, _, ⟨v, hv, rfl⟩, hid, hstatus⟩
      refine ⟨v, hv, ?_⟩
      rw [ObligationVerdict.canonicalise_id] at hid
      rw [obligationOutcome_of_mem hvalid ho hid]
      rw [ObligationVerdict.canonicalise_status] at hstatus
      obtain ⟨hs, hm, rfl⟩ | ⟨hs, hm, rfl⟩ | ⟨hs, rfl⟩ := hstatus <;> simp [*]

/-- No granted token of pod scope is valid. -/
theorem anyValidPodToken_eq_false (h : PassesOf request p) :
    anyValidPodToken p.findings = false ↔ ∀ t ∈ request.context.grantedTokens, t.scope = .pod →
      ¬ TokenAdmitted t (grantCheck request p.findings.epoch) := by
  have hcheck : tokenCheck p.findings = grantCheck request p.findings.epoch := by
    unfold tokenCheck grantCheck
    rw [h.snapshot, h.policy, h.context]
  unfold anyValidPodToken
  rw [List.any_eq_false, h.context, hcheck]
  refine forall₂_congr fun t _ => ?_
  rw [← validateToken_valid_iff]
  simp only [Bool.and_eq_true, decide_eq_true_eq, not_and]
  exact imp_not_comm

/-- What the pod's standing contributes, read off the request and the composed state. -/
theorem standingContributes_iff (h : PassesOf request p) {x : Code} :
    StandingContributes p.findings x ↔
      (p.draft.finalise.lifecycle = .retired ∧ x = .refused) ∨
      (p.draft.finalise.lifecycle = .constructing ∧ x = .incomplete) ∨
      (request.context.recoveredFromStore = true ∧ x = .indeterminate) ∨
      (request.context.ambiguousCommit = true ∧ x = .indeterminate) ∨
      ((request.policy.requireAuthorityToken = true ∧
        ∀ t ∈ request.context.grantedTokens, t.scope = .pod →
          ¬ TokenAdmitted t (grantCheck request p.draft.finalise.epoch)) ∧ x = .stale) := by
  rw [finalise_lifecycle, finalise_epoch, ← anyValidPodToken_eq_false h, ← h.context, ← h.policy]
  constructor
  · intro hs
    cases hs with
    | retired h => exact .inl ⟨h, rfl⟩
    | constructing h => exact .inr (.inl ⟨h, rfl⟩)
    | recovered h => exact .inr (.inr (.inl ⟨h, rfl⟩))
    | ambiguous h => exact .inr (.inr (.inr (.inl ⟨h, rfl⟩)))
    | token h hnone => exact .inr (.inr (.inr (.inr ⟨⟨h, hnone⟩, rfl⟩)))
  · rintro (⟨h, rfl⟩ | ⟨h, rfl⟩ | ⟨h, rfl⟩ | ⟨h, rfl⟩ | ⟨⟨h, hnone⟩, rfl⟩)
    · exact .retired h
    · exact .constructing h
    · exact .recovered h
    · exact .ambiguous h
    · exact .token h hnone

/-- The status of the authority is the worst of what contributes to it. -/
theorem authority_worst (h : compose request = .ok st) :
    IsWorst (Contributes request st) st.authority.status := by
  have hvalid := (validate_request_iff.1 (compose_eq_ok.1 h).1).1
  obtain ⟨p, -, hof, rfl⟩ := compose_passesOf h
  refine finalAuthority_worst.congr fun x hx => ?_
  rw [verdictContributes_iff hvalid hof hx, standingContributes_iff hof]
  constructor
  · rintro ((⟨m, hm, rfl⟩ | ⟨d, hd, rfl⟩ | ⟨a, ha, rfl⟩ |
      ⟨o, ho, v, hv, hid, ⟨hs, hm, rfl⟩ | ⟨hs, hm, rfl⟩ | ⟨hs, rfl⟩⟩) |
      ⟨h, rfl⟩ | ⟨h, rfl⟩ | ⟨h, rfl⟩ | ⟨h, rfl⟩ | ⟨⟨h, hnone⟩, rfl⟩)
    · exact .member hm
    · exact .domain hd
    · exact .capacity ha
    · exact .mandatory ho hv hid hs hm
    · exact .optional ho hv hid hs hm
    · exact .unsettled hv hs
    · exact .retired h
    · exact .constructing h
    · exact .recovered h
    · exact .ambiguous h
    · exact .token h hnone
  · intro hc
    cases hc with
    | member hm => exact .inl (.inl ⟨_, hm, rfl⟩)
    | domain hd => exact .inl (.inr (.inl ⟨_, hd, rfl⟩))
    | capacity ha => exact .inl (.inr (.inr (.inl ⟨_, ha, rfl⟩)))
    | mandatory ho hv hid hs hm =>
      exact .inl (.inr (.inr (.inr ⟨_, ho, _, hv, hid, .inl ⟨hs, hm, rfl⟩⟩)))
    | optional ho hv hid hs hm =>
      exact .inl (.inr (.inr (.inr ⟨_, ho, _, hv, hid, .inr (.inl ⟨hs, hm, rfl⟩)⟩)))
    | unsettled hv hs =>
      obtain ⟨v, hv', rfl⟩ := mem_finalise_obligations.1 hv
      obtain ⟨o, ho, rfl⟩ := List.mem_map.1 (hof.obligations ▸ hv')
      exact .inl (.inr (.inr (.inr ⟨o, ho, _, hv, rfl, .inr (.inr ⟨hs, rfl⟩)⟩)))
    | retired h => exact .inr (.inl ⟨h, rfl⟩)
    | constructing h => exact .inr (.inr (.inl ⟨h, rfl⟩))
    | recovered h => exact .inr (.inr (.inr (.inl ⟨h, rfl⟩)))
    | ambiguous h => exact .inr (.inr (.inr (.inr (.inl ⟨h, rfl⟩))))
    | token h hnone => exact .inr (.inr (.inr (.inr (.inr ⟨⟨h, hnone⟩, rfl⟩))))

/-- The authority is the worst of its contributions: it is `ok` exactly when all of them are, and
one stale member keeps it from less than `stale`. -/
theorem authority_exact (h : compose request = .ok st) :
    IsWorst (Contributes request st) st.authority.status ∧
      (st.authority.status = .ok ↔ ∀ x, Contributes request st x → x = .ok) ∧
      ∀ m ∈ st.members, m.status = .stale →
        Code.stale.severity ≤ st.authority.status.severity := by
  have hworst := authority_worst h
  refine ⟨hworst, hworst.eq_ok_iff, fun m hm hstale => ?_⟩
  have hbound := hworst.bound _ (.member hm)
  rwa [hstale] at hbound

/-- One rack of the sample pod fell behind the generation that was recorded for it. -/
theorem sample_authority : ∃ st, compose Sample.behind = .ok st ∧
    (∃ m ∈ st.members, m.status = .stale) ∧
    Code.stale.severity ≤ st.authority.status.severity := by
  have hrun : (compose Sample.behind).toOption.map (fun st =>
      st.members.any fun m => m.status = .stale) = some true := by decide +kernel
  obtain ⟨st, hst, hany⟩ := composed_of_map hrun
  obtain ⟨m, hm, hstale⟩ := List.any_eq_true.1 hany
  have hstale : m.status = .stale := by simpa using hstale
  exact ⟨st, hst, ⟨m, hm, hstale⟩, (authority_exact hst).2.2 m hm hstale⟩

end Composed

end PodFabric
