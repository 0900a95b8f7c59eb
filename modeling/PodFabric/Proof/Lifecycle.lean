import PodFabric.Proof.Accounting
import PodFabric.Proof.Authority

/-!
# The lifecycle of a composed state

Which lifecycle the evidence asks for and which one a round moves to, read back from the findings
(`evidence_active_iff`, `composed_active_iff`), and how the lifecycle agrees with the authority.
The authority knows nothing of the connectivity and of the lifecycle the pod comes from, which is
where the two disagree (`authority_agrees_iff`); an active pod that has lost all its members stays
active (`active_whole_iff`).
-/

namespace PodFabric

/-! ## Transitions -/

namespace LifecycleState
variable {current desired : LifecycleState}

/-- When a pod becomes active. -/
theorem next_eq_active : current.next desired = .active ↔
    current ≠ .retired ∧ ((desired = .active ∧ current ≠ .partitioned) ∨
      (current = .active ∧ (desired = .constructing ∨ desired = .active))) := by
  cases current <;> cases desired <;> decide

/-- Only a retired pod is retired when nobody asks for it. -/
theorem next_eq_retired (h : desired ≠ .retired) :
    current.next desired = .retired ↔ current = .retired := by
  cases current <;> cases desired <;> first | decide | exact absurd rfl h

/-- The states of a pod that is cut apart or has not found back. -/
def unsettled (s : LifecycleState) : Bool := s = recovering ∨ s = partitioned

/-- When a pod becomes unsettled. -/
theorem next_unsettled (h : desired ≠ .retired) : (current.next desired).unsettled = true ↔
    current ≠ .retired ∧ (desired.unsettled = true ∨ current = .partitioned ∨
      (current = .recovering ∧ desired ≠ .active ∧ desired ≠ .degraded)) := by
  cases current <;> cases desired <;> first | decide | exact absurd rfl h

end LifecycleState

/-! ## What the evidence asks for -/

section Evidence
variable {fd : Findings}

/-- Several members are established, and no pair of racks carries traffic where some should. -/
def Severed (fd : Findings) : Prop :=
  2 ≤ (establishedMembers fd).length ∧ connectivityExpected fd = true ∧
    ∀ work ∈ fd.pairs, work.verdict.status.carries = false

/-- Several members are established, and nothing speaks of connectivity between them. -/
def Unlinked (fd : Findings) : Prop :=
  2 ≤ (establishedMembers fd).length ∧ connectivityExpected fd = false

/-- An established member is administratively moved. -/
def AnyMoved (fd : Findings) : Prop :=
  ∃ work ∈ establishedMembers fd, work.verdict.admin ≠ .enabled

/-- Why the evidence asks for a lifecycle. -/
inductive EvidenceAsks (fd : Findings) : LifecycleState → Prop
  | constructing (none : establishedMembers fd = []) : EvidenceAsks fd .constructing
  | partitioned (severed : Severed fd) : EvidenceAsks fd .partitioned
  | unlinked (unlinked : Unlinked fd) : EvidenceAsks fd .degraded
  | maintenance (whole : ¬ Severed fd ∧ ¬ Unlinked fd) (moved : AnyMoved fd) :
    EvidenceAsks fd .maintenance
  | draining (whole : ¬ Severed fd ∧ ¬ Unlinked fd) (moved : AnyMoved fd) :
    EvidenceAsks fd .draining
  | degraded (whole : ¬ Severed fd ∧ ¬ Unlinked fd) (some : establishedMembers fd ≠ [])
    (settled : ¬ AnyMoved fd) (less : hasDegradation fd = true ∨
      (establishedMembers fd).length < fd.policy.minEstablishedMembers.toNat) :
    EvidenceAsks fd .degraded
  | active (whole : ¬ Severed fd ∧ ¬ Unlinked fd) (some : establishedMembers fd ≠ [])
    (settled : ¬ AnyMoved fd) (sound : hasDegradation fd = false)
    (enough : fd.policy.minEstablishedMembers.toNat ≤ (establishedMembers fd).length) :
    EvidenceAsks fd .active

/-- The count of racks that are not enabled is positive when one is moved. -/
theorem anyMoved_iff :
    0 < (establishedMembers fd).countP (fun work => work.verdict.admin ≠ .enabled) ↔
      AnyMoved fd := by
  simp [AnyMoved, List.countP_pos_iff]

/-- What the evidence asks for. -/
theorem evidence_asks : EvidenceAsks fd (evidenceLifecycle fd) := by
  unfold evidenceLifecycle
  dsimp only
  split
  · next h => exact .unlinked ⟨h.1, by simpa using h.2⟩
  · next hlinked =>
    have hlinked : ¬ Unlinked fd := fun h => hlinked ⟨h.1, by simp [h.2]⟩
    split
    · next h => exact .constructing (List.length_eq_zero_iff.1 h)
    · next hsome =>
      have hsome : establishedMembers fd ≠ [] := by simpa using hsome
      split
      · next h => exact .partitioned ⟨h.1, h.2.1, by simpa using h.2.2⟩
      · next hjoined =>
        have hjoined : ¬ Severed fd := fun h => hjoined ⟨h.1, h.2.1, by simpa using h.2.2⟩
        split
        · next hall =>
          -- all established members are in maintenance, and there are some
          obtain ⟨work, hw⟩ := List.exists_mem_of_ne_nil _ hsome
          have hadmin := (List.countP_eq_length.1 hall) work hw
          exact .maintenance ⟨hjoined, hlinked⟩ ⟨work, hw, by simp_all⟩
        · split
          · next hmoved => exact .draining ⟨hjoined, hlinked⟩ (anyMoved_iff.1 hmoved)
          · next hmoved =>
            have hsettled : ¬ AnyMoved fd := fun h => hmoved (anyMoved_iff.2 h)
            split
            · next hless => exact .degraded ⟨hjoined, hlinked⟩ hsome hsettled hless
            · next hsound =>
              push Not at hsound
              exact .active ⟨hjoined, hlinked⟩ hsome hsettled (by simpa using hsound.1) hsound.2

/-- A severed pod has an established rack. -/
theorem severed_some (h : Severed fd) : establishedMembers fd ≠ [] := by
  intro hnil
  have hlength := h.1
  simp [hnil] at hlength

/-- An unlinked pod has an established rack. -/
theorem unlinked_some (h : Unlinked fd) : establishedMembers fd ≠ [] := by
  intro hnil
  have hlength := h.1
  simp [hnil] at hlength

/-- A pod with a moved rack has an established rack. -/
theorem anyMoved_some (h : AnyMoved fd) : establishedMembers fd ≠ [] := by
  obtain ⟨work, hw, -⟩ := h
  exact List.ne_nil_of_mem hw

/-- A severed pod is not unlinked. -/
theorem severed_linked (h : Severed fd) : ¬ Unlinked fd := by
  intro hunlinked
  have hexpected := h.2.1
  rw [hunlinked.2] at hexpected
  cases hexpected

/-- The evidence asks for `constructing` when no rack is established. -/
theorem evidence_constructing_iff :
    evidenceLifecycle fd = .constructing ↔ establishedMembers fd = [] := by
  have h : EvidenceAsks fd (evidenceLifecycle fd) := evidence_asks
  generalize evidenceLifecycle fd = s at h ⊢
  constructor
  · rintro rfl
    cases h with
    | constructing none => exact none
  · intro hnone
    cases h with
    | constructing _ => rfl
    | partitioned severed => exact absurd hnone (severed_some severed)
    | unlinked unlinked => exact absurd hnone (unlinked_some unlinked)
    | maintenance _ moved | draining _ moved => exact absurd hnone (anyMoved_some moved)
    | degraded _ some | active _ some => exact absurd hnone some

/-- The evidence asks for `partitioned` when the pod is severed. -/
theorem evidence_partitioned_iff : evidenceLifecycle fd = .partitioned ↔ Severed fd := by
  have h : EvidenceAsks fd (evidenceLifecycle fd) := evidence_asks
  generalize evidenceLifecycle fd = s at h ⊢
  constructor
  · rintro rfl
    cases h with
    | partitioned severed => exact severed
  · intro hsevered
    cases h with
    | partitioned _ => rfl
    | constructing none => exact absurd none (severed_some hsevered)
    | unlinked unlinked => exact absurd unlinked (severed_linked hsevered)
    | maintenance whole | draining whole | degraded whole | active whole =>
      exact absurd hsevered whole.1

/-- The evidence describes a pod that works, if only in part, unless no member is established, the
members are cut off from each other, or one of them is moved. -/
theorem evidence_works_iff : evidenceLifecycle fd = .active ∨ evidenceLifecycle fd = .degraded ↔
    Unlinked fd ∨ (establishedMembers fd ≠ [] ∧ ¬ Severed fd ∧ ¬ AnyMoved fd) := by
  have h : EvidenceAsks fd (evidenceLifecycle fd) := evidence_asks
  generalize evidenceLifecycle fd = s at h ⊢
  cases h with
  | constructing none =>
    refine iff_of_false (by simp) ?_
    rintro (h | h)
    · exact unlinked_some h none
    · exact h.1 none
  | partitioned severed =>
    refine iff_of_false (by simp) ?_
    rintro (h | h)
    · exact severed_linked severed h
    · exact h.2.1 severed
  | unlinked unlinked => exact iff_of_true (.inr rfl) (.inl unlinked)
  | maintenance whole moved | draining whole moved =>
    refine iff_of_false (by simp) ?_
    rintro (h | h)
    · exact whole.2 h
    · exact h.2.2 moved
  | degraded whole some settled => exact iff_of_true (.inr rfl) (.inr ⟨some, whole.1, settled⟩)
  | active whole some settled => exact iff_of_true (.inl rfl) (.inr ⟨some, whole.1, settled⟩)

/-- The pod works in full. -/
structure WorksInFull (fd : Findings) : Prop where
  joined : ¬ Severed fd
  linked : ¬ Unlinked fd
  some : establishedMembers fd ≠ []
  settled : ¬ AnyMoved fd
  sound : hasDegradation fd = false
  enough : fd.policy.minEstablishedMembers.toNat ≤ (establishedMembers fd).length

/-- The evidence asks for `active` when the pod works in full. -/
theorem evidence_active_iff : evidenceLifecycle fd = .active ↔ WorksInFull fd := by
  have h : EvidenceAsks fd (evidenceLifecycle fd) := evidence_asks
  generalize evidenceLifecycle fd = s at h ⊢
  constructor
  · rintro rfl
    cases h with
    | active whole some settled sound enough =>
      exact ⟨whole.1, whole.2, some, settled, sound, enough⟩
  · intro hworks
    cases h with
    | active => rfl
    | constructing none => exact absurd none hworks.some
    | partitioned severed => exact absurd severed hworks.joined
    | unlinked unlinked => exact absurd unlinked hworks.linked
    | maintenance _ moved | draining _ moved => exact absurd moved hworks.settled
    | degraded _ _ _ less =>
      rcases less with less | less
      · exact absurd (hworks.sound.symm.trans less) (by simp)
      · exact absurd less (not_lt.2 hworks.enough)

/-! ## What a round moves to -/

/-- Recovery and ambiguity put a round on hold. -/
def OnHold (context : CompositionContext) : Prop :=
  context.recoveredFromStore = true ∨ context.ambiguousCommit = true

/-- The evidence never retires a pod. -/
theorem evidence_not_retired : evidenceLifecycle fd ≠ .retired := by
  intro hr
  have h : EvidenceAsks fd (evidenceLifecycle fd) := evidence_asks
  rw [hr] at h
  cases h

/-- The evidence never asks for a recovery. -/
theorem evidence_not_recovering : evidenceLifecycle fd ≠ .recovering := by
  intro hr
  have h : EvidenceAsks fd (evidenceLifecycle fd) := evidence_asks
  rw [hr] at h
  cases h

/-- Off hold, the evidence decides, but an advanced epoch keeps the pod from being active. -/
theorem desired_of_not_onHold (h : ¬ OnHold fd.context) : desiredLifecycle fd =
    if fd.epoch ≠ fd.context.epoch ∧ evidenceLifecycle fd = .active then .degraded
    else evidenceLifecycle fd := by
  unfold OnHold at h
  push Not at h
  simp only [desiredLifecycle, h.1, h.2, if_false, Bool.false_eq_true]

/-- A pod that is on hold is asked to be unsettled. -/
theorem desired_of_onHold (h : OnHold fd.context) :
    (desiredLifecycle fd).unsettled = true := by
  unfold desiredLifecycle
  rcases h with h | h
  · cases fd.context.ambiguousCommit <;> simp [h, LifecycleState.unsettled]
  · simp [h, LifecycleState.unsettled]

/-- A round never asks for a retirement. -/
theorem desired_not_retired : desiredLifecycle fd ≠ .retired := by
  by_cases h : OnHold fd.context
  · intro hr
    have hunsettled := desired_of_onHold h
    rw [hr] at hunsettled
    cases hunsettled
  · rw [desired_of_not_onHold h]
    split
    · exact LifecycleState.noConfusion
    · exact evidence_not_retired

/-- The composed lifecycle is the step towards the desired one. -/
theorem composedLifecycle_eq :
    composedLifecycle fd = fd.context.lifecycle.next (desiredLifecycle fd) := by
  unfold composedLifecycle
  split
  · next h => rw [h, LifecycleState.next_retired]
  · rfl

/-- `active` is desired of a pod that works in full at an unchanged epoch. -/
theorem desired_active_iff : desiredLifecycle fd = .active ↔
    ¬ OnHold fd.context ∧ WorksInFull fd ∧ fd.epoch = fd.context.epoch := by
  by_cases h : OnHold fd.context
  · refine iff_of_false (fun ha => ?_) fun ⟨hnot, _⟩ => hnot h
    have hunsettled := desired_of_onHold h
    rw [ha] at hunsettled
    cases hunsettled
  · rw [desired_of_not_onHold h, ← evidence_active_iff]
    split
    · next hadvanced =>
      exact iff_of_false LifecycleState.noConfusion fun h => hadvanced.1 h.2.2
    · next hnot =>
      refine ⟨fun ha => ⟨h, ha, ?_⟩, fun ⟨_, ha, _⟩ => ha⟩
      by_contra he
      exact hnot ⟨he, ha⟩

/-- `constructing` is desired of a pod without established racks. -/
theorem desired_constructing_iff : desiredLifecycle fd = .constructing ↔
    ¬ OnHold fd.context ∧ establishedMembers fd = [] := by
  by_cases h : OnHold fd.context
  · refine iff_of_false (fun hc => ?_) fun ⟨hnot, _⟩ => hnot h
    have hunsettled := desired_of_onHold h
    rw [hc] at hunsettled
    cases hunsettled
  · rw [desired_of_not_onHold h, ← evidence_constructing_iff]
    split
    · next hadvanced =>
      refine iff_of_false LifecycleState.noConfusion fun ⟨_, hc⟩ => ?_
      rw [hadvanced.2] at hc
      cases hc
    · exact ⟨fun hc => ⟨h, hc⟩, fun ⟨_, hc⟩ => hc⟩

/-- A round leaves the pod active when it works in full and may be active at once, and when an
active pod has lost all its members. -/
theorem composed_active_iff : composedLifecycle fd = .active ↔
    ¬ OnHold fd.context ∧ ((WorksInFull fd ∧ fd.epoch = fd.context.epoch ∧
        fd.context.lifecycle ≠ .partitioned ∧ fd.context.lifecycle ≠ .retired) ∨
      (fd.context.lifecycle = .active ∧ establishedMembers fd = [])) := by
  rw [composedLifecycle_eq, LifecycleState.next_eq_active, desired_active_iff,
    desired_constructing_iff]
  constructor
  · rintro ⟨hret, ⟨⟨hhold, hworks, he⟩, hpart⟩ | ⟨hact, ⟨hhold, hnone⟩ | ⟨hhold, hworks, he⟩⟩⟩
    · exact ⟨hhold, .inl ⟨hworks, he, hpart, hret⟩⟩
    · exact ⟨hhold, .inr ⟨hact, hnone⟩⟩
    · exact ⟨hhold, .inl ⟨hworks, he, by simp [hact], hret⟩⟩
  · rintro ⟨hhold, ⟨hworks, he, hpart, hret⟩ | ⟨hact, hnone⟩⟩
    · exact ⟨hret, .inl ⟨⟨hhold, hworks, he⟩, hpart⟩⟩
    · exact ⟨by simp [hact], .inr ⟨hact, .inl ⟨hhold, hnone⟩⟩⟩

/-- The pod is cut apart, or has not found back from being so. -/
inductive Adrift (fd : Findings) : Prop
  | severed (severed : Severed fd)
  | partitioned (was : fd.context.lifecycle = .partitioned)
  | lost (was : fd.context.lifecycle = .recovering) (linked : ¬ Unlinked fd)
    (why : establishedMembers fd = [] ∨ AnyMoved fd)

/-- Off hold, a pod is asked to be unsettled when it is severed. -/
theorem desired_unsettled_iff (h : ¬ OnHold fd.context) :
    (desiredLifecycle fd).unsettled = true ↔ Severed fd := by
  rw [desired_of_not_onHold h, ← evidence_partitioned_iff]
  split
  · next hadvanced => exact iff_of_false Bool.false_ne_true (by simp [hadvanced.2])
  · have hnot : evidenceLifecycle fd ≠ .recovering := evidence_not_recovering
    simp [LifecycleState.unsettled, hnot]

/-- Off hold, a pod is asked to work when it is unlinked or nothing keeps it from working. -/
theorem desired_works_iff (h : ¬ OnHold fd.context) :
    desiredLifecycle fd = .active ∨ desiredLifecycle fd = .degraded ↔
      Unlinked fd ∨ (establishedMembers fd ≠ [] ∧ ¬ Severed fd ∧ ¬ AnyMoved fd) := by
  rw [desired_of_not_onHold h, ← evidence_works_iff]
  split
  · next hadvanced => exact iff_of_true (.inr rfl) (.inl hadvanced.2)
  · exact Iff.rfl

/-- Off hold, the composed lifecycle is unsettled for pods that are adrift. -/
theorem composed_unsettled_iff (h : ¬ OnHold fd.context) :
    (composedLifecycle fd).unsettled = true ↔ fd.context.lifecycle ≠ .retired ∧ Adrift fd := by
  rw [composedLifecycle_eq, LifecycleState.next_unsettled desired_not_retired,
    desired_unsettled_iff h, ← not_or, desired_works_iff h]
  refine and_congr_right fun _ => ⟨?_, ?_⟩
  · rintro (hsevered | hwas | ⟨hwas, hnot⟩)
    · exact .severed hsevered
    · exact .partitioned hwas
    · by_cases hsevered : Severed fd
      · exact .severed hsevered
      · refine .lost hwas (fun hu => hnot (.inl hu)) ?_
        by_contra hcon
        push Not at hcon
        exact hnot (.inr ⟨hcon.1, hsevered, hcon.2⟩)
  · intro hadrift
    cases hadrift with
    | severed hsevered => exact .inl hsevered
    | partitioned hwas => exact .inr (.inl hwas)
    | lost hwas hlinked hwhy =>
      refine .inr (.inr ⟨hwas, ?_⟩)
      rintro (hu | ⟨hsome, -, hsettled⟩)
      · exact hlinked hu
      · exact hwhy.elim hsome hsettled

end Evidence

/-! ## Racks that stand -/

/-- The evidence establishes the rack: it has one record, and the record holds. -/
def Stands (request : CompositionRequest) (rack : RackId) : Prop :=
  ∃ record, recordsOf request.snapshot rack = [record] ∧
    ∃ adopted, Establishes request.policy request.snapshot.observedAt record
      (recorded request.context.expectations rack) adopted

section Composed
variable {request : CompositionRequest} {p : Passes} {st : PodState} {rack : RackId}

/-- A rack is established exactly when it stands. -/
theorem stands_iff :
    (memberWork request rack).verdict.status = .established ↔ Stands request rack := by
  rcases @evaluateMember_cases request.policy request.snapshot.observedAt rack
    (recordsOf request.snapshot rack) (recorded request.context.expectations rack) with
    ⟨record, honly, hjudged⟩ | ⟨hnot, hwithheld, -⟩
  · cases hjudged with
    | withheld withheld _ _ refused =>
      refine iff_of_false withheld.status ?_
      rintro ⟨record', honly', adopted, hest⟩
      rw [honly, List.singleton_inj] at honly'
      subst honly'
      exact refused adopted hest
    | established establishes _ status => exact iff_of_true status ⟨record, honly, _, establishes⟩
  · refine iff_of_false hwithheld.status ?_
    rintro ⟨record, honly, -⟩
    exact hnot record honly

/-- A rack that stands is covered. -/
theorem Stands.covered (h : Stands request rack) : rack ∈ coveredRacks request := by
  obtain ⟨record, honly, -⟩ := h
  have hmem : record ∈ recordsOf request.snapshot rack := by simp [honly]
  obtain ⟨hrecord, hrack⟩ := List.mem_filter.1 hmem
  have hrack : record.rack = rack := by simpa using hrack
  unfold coveredRacks
  rw [mem_canonicalise, List.mem_append]
  exact .inl (List.mem_map.2 ⟨record, hrecord, hrack⟩)

/-- What holds of all judged statuses, said of the covered racks. -/
theorem PassesOf.forall_status (h : PassesOf request p) {P : MemberStatus → Prop} :
    (∀ work ∈ p.findings.members, P work.verdict.status) ↔
      ∀ rack ∈ coveredRacks request, P (memberWork request rack).verdict.status := by
  constructor
  · intro hall rack hrack
    have hstatus := hall _ (h.mem_members.2 ⟨rack, hrack, rfl⟩)
    exact hstatus
  · intro hall work hw
    obtain ⟨rack, hrack, rfl⟩ := h.mem_members.1 hw
    exact hall rack hrack

/-- No member is established when no rack stands. -/
theorem PassesOf.none_established (h : PassesOf request p) :
    establishedMembers p.findings = [] ↔ ∀ rack, ¬ Stands request rack := by
  unfold establishedMembers
  rw [List.filter_eq_nil_iff]
  constructor
  · intro hnone rack hstands
    have hw := h.mem_members.2 ⟨rack, hstands.covered, rfl⟩
    exact hnone _ hw ((h.sound hw).established.2 (stands_iff.2 hstands))
  · intro hnone work hw hest
    have hstatus := (h.sound hw).established.1 hest
    obtain ⟨rack, -, rfl⟩ := h.mem_members.1 hw
    exact hnone rack (stands_iff.1 hstatus)

/-! ## Lifecycle and authority -/

/-- Nothing that weighs on the authority is less than whole, whatever the lifecycle. -/
structure Unqualified (request : CompositionRequest) (fd : Findings) : Prop where
  members : ∀ rack ∈ coveredRacks request, Stands request rack
  domains : ∀ work ∈ fd.domains, work.verdict.status = .ok
  capacity : ∀ a ∈ fd.capacity, a.status.isUsable = true
  obligations : ∀ v ∈ fd.obligations, v.status ≠ .violated ∧ v.status ≠ .indeterminate
  offHold : ¬ OnHold request.context
  token : request.policy.requireAuthorityToken = true →
    ∃ t ∈ request.context.grantedTokens, t.scope = .pod ∧
      TokenAdmitted t (grantCheck request fd.epoch)

/-- An obligation contributes `ok` unless it is violated or indeterminate. -/
theorem obligationOutcome_ok_iff {snapshot : PodSnapshot} {v : ObligationVerdict} :
    obligationOutcome snapshot v = .ok ↔ v.status ≠ .violated ∧ v.status ≠ .indeterminate := by
  unfold obligationOutcome
  cases v.status with
  | violated =>
    refine iff_of_false (fun h => ?_) (by simp)
    dsimp only at h
    split at h
    · split at h <;> cases h
    · cases h
  | indeterminate => exact iff_of_false (by simp) (by simp)
  | satisfied | atRisk | unsupported => simp

/-- A rack contributes `ok` when it is established. -/
theorem memberOutcome_ok_iff {s : MemberStatus} : s.outcome = .ok ↔ s = .established := by
  cases s <;> decide

/-- A domain contributes `ok` when it is `ok`. -/
theorem domainOutcome_ok_iff {s : DomainStatus} : s.outcome = .ok ↔ s = .ok := by
  cases s <;> decide

/-- An aggregate contributes `ok` when it can be used. -/
theorem capacityOutcome_ok_iff {s : CapacityStatus} : s.outcome = .ok ↔ s.isUsable = true := by
  cases s <;> decide

/-- The authority is granted when nothing qualifies it and the pod is neither under construction
nor retired. -/
theorem PassesOf.authority_ok_iff (h : PassesOf request p) :
    (podAuthority p.findings).status = .ok ↔ Unqualified request p.findings ∧
      composedLifecycle p.findings ≠ .retired ∧ composedLifecycle p.findings ≠ .constructing := by
  have hworst : IsWorst _ (podAuthority p.findings).status := finalAuthority_worst
  have hmembers := h.forall_status (P := fun s => s = .established)
  rw [hworst.eq_ok_iff]
  constructor
  · intro hall
    have hstanding {x : Code} (hx : StandingContributes p.findings x) : x = .ok := hall x (.inr hx)
    refine ⟨⟨?_, ?_, ?_, ?_, ?_, ?_⟩, ?_, ?_⟩
    · intro rack hrack
      refine stands_iff.1 (hmembers.1 (fun work hw => ?_) rack hrack)
      exact memberOutcome_ok_iff.1 (hall _ (.inl (.inl ⟨work, hw, rfl⟩)))
    · intro work hw
      exact domainOutcome_ok_iff.1 (hall _ (.inl (.inr (.inl ⟨work, hw, rfl⟩))))
    · intro a ha
      exact capacityOutcome_ok_iff.1 (hall _ (.inl (.inr (.inr (.inl ⟨a, ha, rfl⟩)))))
    · intro v hv
      exact obligationOutcome_ok_iff.1 (hall _ (.inl (.inr (.inr (.inr ⟨v, hv, rfl⟩)))))
    · rintro (hr | ha)
      · exact absurd (hstanding (.recovered (h.context ▸ hr))) (by decide)
      · exact absurd (hstanding (.ambiguous (h.context ▸ ha))) (by decide)
    · intro hrequired
      by_contra hnone
      push Not at hnone
      refine absurd (hstanding (.token (h.policy ▸ hrequired) ?_)) (by decide)
      exact (anyValidPodToken_eq_false h).2 hnone
    · intro hr
      exact absurd (hstanding (.retired hr)) (by decide)
    · intro hc
      exact absurd (hstanding (.constructing hc)) (by decide)
  · rintro ⟨hq, hretired, hconstructing⟩ x (hx | hx)
    · rcases hx with ⟨work, hw, rfl⟩ | ⟨work, hw, rfl⟩ | ⟨a, ha, rfl⟩ | ⟨v, hv, rfl⟩
      · refine memberOutcome_ok_iff.2 (hmembers.2 (fun rack hrack => ?_) work hw)
        exact stands_iff.2 (hq.members rack hrack)
      · exact domainOutcome_ok_iff.2 (hq.domains work hw)
      · exact capacityOutcome_ok_iff.2 (hq.capacity a ha)
      · exact obligationOutcome_ok_iff.2 (hq.obligations v hv)
    · cases hx with
      | retired hr => exact absurd hr hretired
      | constructing hc => exact absurd hc hconstructing
      | recovered hr => exact absurd (.inl (h.context ▸ hr)) hq.offHold
      | ambiguous ha => exact absurd (.inr (h.context ▸ ha)) hq.offHold
      | token hrequired hnone =>
        obtain ⟨t, ht, hscope, hadmitted⟩ := hq.token (h.policy ▸ hrequired)
        exact absurd hadmitted ((anyValidPodToken_eq_false h).1 hnone t ht hscope)

/-- The authority is granted to a pod that is adrift. -/
def GrantedAdrift (request : CompositionRequest) : Prop :=
  ∃ p, runPasses request = .ok p ∧ Unqualified request p.findings ∧
    request.context.lifecycle ≠ .retired ∧ Adrift p.findings

/-- Lifecycle and authority agree unless all verdicts but those on the connectivity are good and
the pod is adrift. -/
theorem authority_agrees_iff (h : compose request = .ok st) :
    (st.authority.status = .ok → st.lifecycle ≠ .constructing ∧ st.lifecycle ≠ .recovering ∧
      st.lifecycle ≠ .partitioned ∧ st.lifecycle ≠ .retired) ↔ ¬ GrantedAdrift request := by
  obtain ⟨p, hp, hof, rfl⟩ := compose_passesOf h
  rw [finalise_authority, finalise_lifecycle, hof.authority_ok_iff]
  constructor
  · rintro hagrees ⟨p', hp', hq, hretired, hadrift⟩
    rw [hp, Except.ok.injEq] at hp'
    subst hp'
    have hunsettled := (composed_unsettled_iff (hof.context ▸ hq.offHold)).2
      ⟨hof.context ▸ hretired, hadrift⟩
    have hnot : composedLifecycle p.findings ≠ .retired ∧
        composedLifecycle p.findings ≠ .constructing := by
      constructor <;> intro hl <;> rw [hl] at hunsettled <;> cases hunsettled
    obtain ⟨-, hrecovering, hpartitioned, -⟩ := hagrees ⟨hq, hnot⟩
    simp [LifecycleState.unsettled, hrecovering, hpartitioned] at hunsettled
  · rintro hnot ⟨hq, hretired, hconstructing⟩
    have hsettled : ¬ (composedLifecycle p.findings).unsettled = true := by
      intro hunsettled
      obtain ⟨hwas, hadrift⟩ := (composed_unsettled_iff (hof.context ▸ hq.offHold)).1 hunsettled
      exact hnot ⟨p, hp, hq, hof.context ▸ hwas, hadrift⟩
    simp only [LifecycleState.unsettled, decide_eq_true_eq, not_or] at hsettled
    exact ⟨hconstructing, hsettled.1, hsettled.2, hretired⟩

/-- The sample pod with its only link down. -/
def Sample.cut : CompositionRequest where
  snapshot := { Sample.snapshot with links := [{ Sample.link with oper := .down }] }

/-- The racks of the sample pod are cut off from each other, and the authority is granted. -/
theorem cut_granted : ∃ st, compose Sample.cut = .ok st ∧ GrantedAdrift Sample.cut := by
  have hrun : (compose Sample.cut).toOption.map (fun st =>
      (st.authority.status, st.lifecycle)) = some (.ok, .partitioned) := by decide +kernel
  obtain ⟨st, hst, hview⟩ := composed_of_map hrun
  rw [Prod.mk.injEq] at hview
  refine ⟨st, hst, ?_⟩
  by_contra hnot
  exact ((authority_agrees_iff hst).2 hnot hview.1).2.2.1 hview.2

/-- A pod that is cut in two can be reported as authoritative. -/
theorem cut_disagrees : ¬ ∀ request st, compose request = .ok st → st.authority.status = .ok →
    st.lifecycle ≠ .constructing ∧ st.lifecycle ≠ .recovering ∧ st.lifecycle ≠ .partitioned ∧
      st.lifecycle ≠ .retired := by
  intro hclaim
  have hrun : (compose Sample.cut).toOption.map (fun st =>
      (st.authority.status, st.lifecycle)) = some (.ok, .partitioned) := by decide +kernel
  obtain ⟨st, hst, hview⟩ := composed_of_map hrun
  rw [Prod.mk.injEq] at hview
  exact (hclaim _ st hst hview.1).2.2.1 hview.2

/-! ## What an active pod is -/

/-- The state of a pod that is whole. -/
structure PodState.Whole (st : PodState) (policy : Policy) : Prop where
  enough : max 1 policy.minEstablishedMembers.toNat ≤
    st.members.countP fun m => m.status = .established
  members : ∀ m ∈ st.members, m.status = .established
  connectivity : ∀ c ∈ st.connectivity, c.status = .usable
  capacity : ∀ a ∈ st.capacity ++ st.domainCapacity, a.status = .ok ∨ a.status = .deduplicated
  domains : ∀ d ∈ st.domains, d.status = .ok
  obligations : ∀ o ∈ st.obligations, o.status = .satisfied

/-- Nothing is degraded when every verdict is the best and nothing is fenced. -/
theorem not_degraded_iff {fd : Findings} : hasDegradation fd = false ↔
    evidenceFences fd = [] ∧ (∀ work ∈ fd.members, work.verdict.status = .established) ∧
      (∀ work ∈ fd.pairs, work.verdict.status = .usable) ∧
      (∀ a ∈ fd.capacity, a.status.isUsable = true) ∧
      (∀ work ∈ fd.domains, work.verdict.status = .ok) ∧
      ∀ v ∈ fd.obligations, v.status = .satisfied := by
  simp [hasDegradation, and_assoc]

/-- The members a state counts as established are those the lifecycle counts. -/
theorem PassesOf.countP_established (h : PassesOf request p) :
    p.draft.finalise.members.countP (fun m => m.status = .established) =
      (establishedMembers p.findings).length := by
  have hmembers : p.draft.finalise.members =
      (sortOn MemberVerdict.rack (p.findings.members.map MemberWork.verdict)).map
        MemberVerdict.canonicalise := rfl
  rw [hmembers, List.countP_map, (sortOn_perm _ _).countP_eq, List.countP_map, establishedMembers,
    ← List.countP_eq_length_filter]
  refine List.countP_congr fun work hw => ?_
  exact decide_eq_true_iff.trans (h.sound hw).established.symm

/-- A pod that works in full is whole. -/
theorem PassesOf.whole (h : PassesOf request p) (hworks : WorksInFull p.findings) :
    p.draft.finalise.Whole request.policy := by
  obtain ⟨-, hmembers, hpairs, hcapacity, hdomains, hobligations⟩ :=
    not_degraded_iff.1 hworks.sound
  obtain ⟨ledger, -, hpod, hdomain⟩ := h.ledger
  refine ⟨?_, fun m hm => ?_, fun c hc => ?_, fun a ha => ?_, fun d hd => ?_, fun o ho => ?_⟩
  · rw [h.countP_established]
    have hsome := List.length_pos_iff.2 hworks.some
    have henough := hworks.enough
    rw [h.policy] at henough
    exact max_le hsome henough
  · obtain ⟨work, hw, rfl⟩ := mem_finalise_members.1 hm
    exact hmembers work hw
  · obtain ⟨work, hw, rfl⟩ := mem_finalise_connectivity.1 hc
    exact hpairs work hw
  · have husable : a.status.isUsable = true := by
      rcases List.mem_append.1 ha with ha | ha
      · obtain ⟨b, hb, rfl⟩ := mem_finalise_capacity.1 ha
        exact hcapacity b hb
      · obtain ⟨b, hb, rfl⟩ := mem_finalise_domainCapacity.1 ha
        rw [hpod] at hcapacity
        exact byDomain_usable hcapacity b (hdomain ▸ hb)
    simpa [CapacityStatus.isUsable] using husable
  · obtain ⟨work, hw, rfl⟩ := mem_finalise_domains.1 hd
    exact hdomains work hw
  · obtain ⟨v, hv, rfl⟩ := mem_finalise_obligations.1 ho
    exact hobligations v hv

/-- An active pod is whole, unless it was active before and the evidence establishes no rack at
all. -/
theorem active_whole_iff (h : compose request = .ok st) :
    (st.lifecycle = .active → st.Whole request.policy) ↔
      ¬ (request.context.lifecycle = .active ∧ ¬ OnHold request.context ∧
        ∀ rack, ¬ Stands request rack) := by
  obtain ⟨p, -, hof, rfl⟩ := compose_passesOf h
  rw [finalise_lifecycle, composed_active_iff, hof.none_established, hof.context]
  constructor
  · rintro hwhole ⟨hwas, hoff, hnone⟩
    have henough := (hwhole ⟨hoff, .inr ⟨hwas, hnone⟩⟩).enough
    rw [hof.countP_established, hof.none_established.2 hnone] at henough
    simp at henough
  · rintro hnot ⟨hoff, ⟨hworks, -⟩ | ⟨hwas, hnone⟩⟩
    · exact hof.whole hworks
    · exact absurd ⟨hwas, hoff, hnone⟩ hnot

/-- The sample pod was active, and none of its racks answers. -/
def Sample.silent : CompositionRequest where
  snapshot := { Sample.snapshot with members := [], links := [] }
  context := { lifecycle := .active, expectations := [{ rack := Sample.rackA }] }

/-- A silent pod stays active though it is not whole. -/
theorem silent_active : ∃ st, compose Sample.silent = .ok st ∧ st.lifecycle = .active ∧
    ¬ st.Whole Sample.silent.policy := by
  have hrun : (compose Sample.silent).toOption.map PodState.lifecycle = some .active := by
    decide +kernel
  obtain ⟨st, hst, hactive⟩ := composed_of_map hrun
  have hlost : Sample.silent.context.lifecycle = .active ∧ ¬ OnHold Sample.silent.context ∧
      ∀ rack, ¬ Stands Sample.silent rack := by
    refine ⟨rfl, by simp [OnHold, Sample.silent], ?_⟩
    rintro rack ⟨record, honly, -⟩
    simp [recordsOf, Sample.silent] at honly
  exact ⟨st, hst, hactive, fun hwhole => (active_whole_iff hst).1 (fun _ => hwhole) hlost⟩

/-- A pod whose only rack is silent can stay active. -/
theorem silent_not_whole : ¬ ∀ request st, compose request = .ok st → st.lifecycle = .active →
    st.Whole request.policy := by
  intro hclaim
  have hrun : (compose Sample.silent).toOption.map (fun st =>
      (st.lifecycle, st.members.any fun m => m.status = .established)) = some (.active, false) := by
    decide +kernel
  obtain ⟨st, hst, hview⟩ := composed_of_map hrun
  rw [Prod.mk.injEq] at hview
  have henough := (hclaim _ st hst hview.1).enough
  have hnone : st.members.countP (fun m => m.status = .established) = 0 :=
    List.countP_eq_zero.2 fun m hm => by simpa using List.any_eq_false.1 hview.2 m hm
  rw [hnone] at henough
  exact absurd henough (by decide)

end Composed

end PodFabric
