import PodFabric.Proof.Breakdown

/-!
# Isolation of domains

The totals and the contributions of a domain come from the keys that it wins alone. Its status and
its reasons are those of the pod at the last of these keys, so whatever the pod has noted before
shows in the domain (`domain_isolated_iff`).
-/

namespace PodFabric

open List

/-! ## What the pod notes -/

/-- The reasons that a slot leaves behind. -/
def Slot.notes (slot : Slot) : List Reason :=
  slot.uncounted.map CapacityContribution.notCountedReason ++
    (settle slot.usable).elim [] fun s => s.dropped.map CapacityContribution.notCountedReason

/-- How bad a suppressed claim makes the aggregate. -/
def CapacityContribution.gravity (c : CapacityContribution) : ℕ :=
  if c.notCountedReason.code = .capacityConflict then CapacityStatus.conflicting.severity
  else CapacityStatus.incomplete.severity

/-- How bad the settled claims of a slot make the aggregate. -/
def Settlement.gravity (s : Settlement) : ℕ :=
  if s.conflict then CapacityStatus.conflicting.severity
  else if s.dropped ≠ [] then CapacityStatus.deduplicated.severity
  else CapacityStatus.ok.severity

/-- The greatest of some numbers. -/
def greatest (l : List ℕ) : ℕ := l.foldr max 0

/-- How bad the claims of a slot make the aggregate. -/
def Slot.gravity (slot : Slot) : ℕ :=
  max (greatest (slot.uncounted.map CapacityContribution.gravity))
    ((settle slot.usable).elim CapacityStatus.incomplete.severity Settlement.gravity)

/-- A counter of the pod skips something, or the total passes the bound of the policy. -/
def Strained (limit total committed : ℕ) (slots : List Slot) : Prop :=
  0 < skipped total (slots.map Slot.amount) ∨ 0 < skipped committed (slots.map Slot.committed) ∨
    limit + skipped total (slots.map Slot.amount) < total + (slots.map Slot.amount).sum

instance (limit total committed : ℕ) (slots : List Slot) :
    Decidable (Strained limit total committed slots) := inferInstanceAs (Decidable (_ ∨ _ ∨ _))

section Notes
variable {policy : Policy} {resource : ResourceClass} {f : ResourceFold} {slot : Slot}
  {slots : List Slot}

/-- A suppressed claim raises the severity to its own. -/
theorem noteUncounted_severity {status : CapacityStatus} {c : CapacityContribution} :
    (ResourceFold.noteUncounted status c).severity = max status.severity c.gravity := by
  have hdeduplicated : CapacityStatus.deduplicated.severity = 1 := rfl
  have hincomplete : CapacityStatus.incomplete.severity = 2 := rfl
  have hconflicting : CapacityStatus.conflicting.severity = 4 := rfl
  unfold ResourceFold.noteUncounted CapacityContribution.gravity
  dsimp only
  split
  · rw [CapacityStatus.severity_worst, CapacityStatus.severity_worst]
    omega
  split
  · rw [CapacityStatus.severity_worst, CapacityStatus.severity_worst]
    omega
  · rw [CapacityStatus.severity_worst]

/-- Suppressed claims raise the severity to the greatest of theirs. -/
theorem foldl_noteUncounted_severity : ∀ {uncounted : List CapacityContribution}
    {status : CapacityStatus}, (uncounted.foldl ResourceFold.noteUncounted status).severity =
      max status.severity (greatest (uncounted.map CapacityContribution.gravity))
  | [], _ => (Nat.max_zero _).symm
  | c :: uncounted, status => by
    rw [List.foldl_cons, foldl_noteUncounted_severity, noteUncounted_severity, List.map_cons]
    exact max_assoc _ _ _

/-- Settled claims raise the severity to their own. -/
theorem addSettled_severity {s : Settlement} :
    (f.addSettled s).status.severity = max f.status.severity s.gravity := by
  unfold ResourceFold.addSettled Settlement.gravity
  cases s.conflict with
  | true => simp [CapacityStatus.severity_worst]
  | false =>
    by_cases hdropped : s.dropped = []
    · simp [hdropped, CapacityStatus.severity]
    · simp [hdropped, CapacityStatus.severity_worst]

/-- The reason that the pod notes when its total skips an amount. -/
def overflowReason : Reason :=
  ⟨.policyBoundExceeded, "aggregate capacity overflowed the counter"⟩

/-- What an amount does to the status and the reasons. -/
theorem addTotal_notes {amount : UInt64} : (f.addTotal amount).status.severity =
      max f.status.severity (if f.total.toNat + amount.toNat < 2 ^ 64 then 0
        else CapacityStatus.indeterminate.severity) ∧
    (f.addTotal amount).reasons =
      f.reasons ++ if f.total.toNat + amount.toNat < 2 ^ 64 then [] else [overflowReason] := by
  unfold ResourceFold.addTotal
  rcases @toNat_checkedAdd f.total amount with ⟨c, hc, -, hfits⟩ | ⟨⟨fault, hfault⟩, hover⟩
  · rw [hc, if_pos hfits, if_pos hfits, Nat.max_zero, List.append_nil]
    exact ⟨rfl, rfl⟩
  · rw [hfault, if_neg hover, if_neg hover]
    exact ⟨CapacityStatus.severity_worst _ _, rfl⟩

/-- What a reservation does to the status and the reasons. -/
theorem addCommitted_notes {reserved : UInt64} : (f.addCommitted reserved).status.severity =
      max f.status.severity (if f.committed.toNat + reserved.toNat < 2 ^ 64 then 0
        else CapacityStatus.indeterminate.severity) ∧
    (f.addCommitted reserved).reasons = f.reasons := by
  unfold ResourceFold.addCommitted
  rcases @toNat_checkedAdd f.committed reserved with ⟨c, hc, -, hfits⟩ | ⟨⟨fault, hfault⟩, hover⟩
  · rw [hc, if_pos hfits, Nat.max_zero]
    exact ⟨rfl, rfl⟩
  · rw [hfault, if_neg hover]
    exact ⟨CapacityStatus.severity_worst _ _, rfl⟩

/-- What the bound on the total does to the status and the reasons. -/
theorem checkTotal_notes {limit : UInt64} : (f.checkTotal limit).status.severity =
      max f.status.severity (if limit.toNat < f.total.toNat then
        CapacityStatus.indeterminate.severity else 0) ∧
    (f.checkTotal limit).reasons = f.reasons := by
  unfold ResourceFold.checkTotal
  simp only [UInt64.lt_iff_toNat_lt]
  split
  · exact ⟨CapacityStatus.severity_worst _ _, rfl⟩
  · exact ⟨(Nat.max_zero _).symm, rfl⟩

/-- A counter cannot take in the slot, or its total is then above the bound. -/
def StrainsAt (limit total committed : ℕ) (slot : Slot) : Prop :=
  2 ^ 64 ≤ total + slot.amount ∨ 2 ^ 64 ≤ committed + slot.committed ∨
    limit < advance total slot.amount

instance (limit total committed : ℕ) (slot : Slot) :
    Decidable (StrainsAt limit total committed slot) := inferInstanceAs (Decidable (_ ∨ _ ∨ _))

/-- What a pass of the loop notes. -/
theorem addSlot_notes : (f.addSlot policy resource slot).status.severity =
      max f.status.severity (max slot.gravity
        (if slot.wonBy.isSome ∧ StrainsAt policy.maxCapacityTotal.toNat f.total.toNat
          f.committed.toNat slot then CapacityStatus.indeterminate.severity else 0)) ∧
    (f.addSlot policy resource slot).reasons = f.reasons ++ slot.notes ++
      if f.total.toNat + slot.amount < 2 ^ 64 then [] else [overflowReason] := by
  have ht := f.total.toNat_lt
  unfold ResourceFold.addSlot Slot.gravity Slot.notes Slot.wonBy StrainsAt
  cases hs : settle slot.usable with
  | none =>
    have hamount : slot.amount = 0 := by simp [Slot.amount, hs]
    simp only [Option.elim_none, Option.map_none, Option.isSome_none, Bool.false_eq_true, false_and,
      if_false, Nat.max_zero, CapacityStatus.severity_worst, ResourceFold.addUncounted,
      foldl_noteUncounted_severity, hamount, Nat.add_zero, if_pos ht, List.append_nil]
    exact ⟨max_assoc _ _ _, trivial⟩
  | some s =>
    have hamount : slot.amount = s.winner.amount.toNat := by simp [Slot.amount, hs]
    have hreserved : slot.committed = s.winner.reserved.toNat := by simp [Slot.committed, hs]
    dsimp only
    -- the fold once the claims of the slot are shown
    generalize hg : (f.addUncounted slot.uncounted).addSettled s = g
    have htotal : g.total = f.total := by rw [← hg]; rfl
    have hcommitted : g.committed = f.committed := by rw [← hg]; rfl
    have hreasons : g.reasons = f.reasons ++ (slot.uncounted.map
        CapacityContribution.notCountedReason ++ s.dropped.map
          CapacityContribution.notCountedReason) := by
      rw [← hg, ← List.append_assoc]
      rfl
    have hstatus : g.status.severity = max (max f.status.severity
        (greatest (slot.uncounted.map CapacityContribution.gravity))) s.gravity := by
      rw [← hg, addSettled_severity, ← foldl_noteUncounted_severity]
      rfl
    simp only [Option.elim_some, Option.map_some, Option.isSome_some, true_and, hamount, hreserved,
      ResourceFold.addDomain, checkTotal_notes, addCommitted_notes, addTotal_notes,
      addCommitted_total, addTotal_total, addTotal_committed, hstatus, hreasons, htotal, hcommitted]
    refine ⟨?_, trivial⟩
    split <;> split <;> split <;> split <;> omega

/-- No more is skipped than there is. -/
theorem skipped_le : ∀ {amounts : List ℕ} {total : ℕ}, skipped total amounts ≤ amounts.sum
  | [], _ => le_rfl
  | amount :: rest, total => by
    have hrest := @skipped_le rest (total + amount)
    have hrest' := @skipped_le rest total
    rw [skipped, List.sum_cons]
    split <;> omega

/-- Something is skipped when the first amount does not fit, or something of the rest is. -/
theorem skipped_pos {total amount : ℕ} {rest : List ℕ} (ht : total < 2 ^ 64) :
    0 < skipped total (amount :: rest) ↔
      2 ^ 64 ≤ total + amount ∨ 0 < skipped (advance total amount) rest := by
  rw [skipped, advance]
  split <;> omega

/-- The pod is strained by the first slot or by the rest. -/
theorem strained_cons {limit total committed : ℕ} (ht : total < 2 ^ 64) (hc : committed < 2 ^ 64) :
    Strained limit total committed (slot :: slots) ↔
      (slot.wonBy.isSome ∧ StrainsAt limit total committed slot) ∨
        Strained limit (advance total slot.amount) (advance committed slot.committed) slots := by
  have hskip := @skipped_advance total slot.amount (slots.map Slot.amount)
  have hle := @skipped_le (slots.map Slot.amount) (advance total slot.amount)
  unfold Strained StrainsAt
  rw [List.map_cons, List.map_cons, skipped_pos ht, skipped_pos hc, List.sum_cons]
  cases hwon : slot.wonBy with
  | none =>
    obtain ⟨hamount, hcommitted⟩ := unsettled_sums hwon
    simp only [Option.isSome_none, Bool.false_eq_true, false_and, false_or]
    omega
  | some domain =>
    simp only [Option.isSome_some, true_and]
    omega

/-- What the loop over some slots notes. -/
theorem foldl_notes : ∀ {slots : List Slot} {f : ResourceFold},
    (policy.maxCapacityTotal.toNat < f.total.toNat →
      CapacityStatus.indeterminate.severity ≤ f.status.severity) →
    (slots.foldl (ResourceFold.addSlot policy resource) f).status.severity =
        max f.status.severity (max (greatest (slots.map Slot.gravity))
          (if Strained policy.maxCapacityTotal.toNat f.total.toNat f.committed.toNat slots then
            CapacityStatus.indeterminate.severity else 0)) ∧
      ∀ reason, reason ∈ (slots.foldl (ResourceFold.addSlot policy resource) f).reasons ↔
        reason ∈ f.reasons ∨ (∃ slot ∈ slots, reason ∈ slot.notes) ∨
          reason = overflowReason ∧ 0 < skipped f.total.toNat (slots.map Slot.amount)
  | [], f, hlimit => by
    refine ⟨?_, fun reason => by simp [skipped]⟩
    have hstrained : Strained policy.maxCapacityTotal.toNat f.total.toNat f.committed.toNat [] ↔
        policy.maxCapacityTotal.toNat < f.total.toNat := by simp [Strained, skipped]
    simp only [hstrained, List.foldl_nil, List.map_nil, greatest, List.foldr_nil]
    split
    · next hover =>
      have hworse := hlimit hover
      omega
    · omega
  | slot :: slots, f, hlimit => by
    obtain ⟨hstatus, hreasons⟩ := @addSlot_notes policy resource f slot
    obtain ⟨htotal, hcommitted⟩ := @addSlot_sums policy resource f slot
    have hnext : policy.maxCapacityTotal.toNat < (f.addSlot policy resource slot).total.toNat →
        CapacityStatus.indeterminate.severity ≤
          (f.addSlot policy resource slot).status.severity := by
      intro hover
      rw [htotal] at hover
      rw [hstatus]
      cases hwon : slot.wonBy with
      | none =>
        rw [advance, (unsettled_sums hwon).1, Nat.add_zero, if_pos f.total.toNat_lt] at hover
        exact le_max_of_le_left (hlimit hover)
      | some domain =>
        rw [if_pos ⟨rfl, .inr (.inr hover)⟩]
        exact le_max_of_le_right (le_max_right _ _)
    obtain ⟨hstatus', hreasons'⟩ := @foldl_notes slots _ hnext
    rw [hstatus, htotal, hcommitted] at hstatus'
    simp only [hreasons, htotal] at hreasons'
    constructor
    · have hgreatest : greatest ((slot :: slots).map Slot.gravity) =
          max slot.gravity (greatest (slots.map Slot.gravity)) := rfl
      have hcons := @strained_cons slot slots policy.maxCapacityTotal.toNat _ _ f.total.toNat_lt
        f.committed.toNat_lt
      rw [List.foldl_cons, hstatus', hgreatest]
      by_cases hat : slot.wonBy.isSome = true ∧ StrainsAt policy.maxCapacityTotal.toNat
          f.total.toNat f.committed.toNat slot
      · rw [if_pos hat, if_pos (hcons.2 (.inl hat))]
        split <;> omega
      · have hrest : Strained policy.maxCapacityTotal.toNat f.total.toNat f.committed.toNat
            (slot :: slots) ↔ Strained policy.maxCapacityTotal.toNat
              (advance f.total.toNat slot.amount)
                (advance f.committed.toNat slot.committed) slots :=
          hcons.trans (or_iff_right hat)
        rw [if_neg hat]
        simp only [hrest]
        omega
    · intro reason
      rw [List.foldl_cons, hreasons', List.map_cons, skipped_pos f.total.toNat_lt]
      by_cases hfits : f.total.toNat + slot.amount < 2 ^ 64
      · rw [if_pos hfits]
        simp only [List.append_nil, List.mem_append, List.exists_mem_cons_iff, not_le.2 hfits,
          false_or, or_assoc]
      · rw [if_neg hfits]
        simp only [List.mem_append, List.mem_singleton, List.exists_mem_cons_iff, not_lt.1 hfits,
          true_or, and_true, or_assoc]
        constructor
        · rintro (hbefore | hslot | hover | hrest | ⟨hover, -⟩)
          · exact .inl hbefore
          · exact .inr (.inl hslot)
          · exact .inr (.inr (.inr hover))
          · exact .inr (.inr (.inl hrest))
          · exact .inr (.inr (.inr hover))
        · rintro (hbefore | hslot | hrest | hover)
          · exact .inl hbefore
          · exact .inr (.inl hslot)
          · exact .inr (.inr (.inr (.inl hrest)))
          · exact .inr (.inr (.inl hover))

end Notes

/-! ## Two ledgers -/

/-- The entries of a resource under a key. -/
def CapacityLedger.under (ledger : CapacityLedger) (resource : ResourceClass)
    (key : ExclusivityKey) :
    List LedgerEntry :=
  (entriesOf ledger.entries resource).filter fun e => e.claim.exclusivity = key

/-- The ledgers hold the same entries under each key with a claim of the domain. -/
def AgreeOn (ledger ledger' : CapacityLedger) (resource : ResourceClass)
    (domain : DomainId) : Prop :=
  ∀ key, (∃ e ∈ ledger.under resource key ++ ledger'.under resource key, e.claim.domain = domain) →
    ledger.under resource key = ledger'.under resource key

/-- The breakdown of a resource in a domain. -/
def CapacityLedger.breakdown (ledger : CapacityLedger) (resource : ResourceClass)
    (domain : DomainId) : Option CapacityAggregate :=
  ledger.byDomain.find? fun a => a.resource = resource ∧ a.domain = domain

section Agreement
variable {ledger ledger' : CapacityLedger} {resource : ResourceClass} {domain : DomainId}

/-- A domain that wins a slot has a claim in it. -/
theorem wonBy_claim {entries : List LedgerEntry}
    (h : (Slot.ofEntries entries).wonBy = some domain) :
    ∃ e ∈ entries, e.claim.domain = domain := by
  obtain ⟨s, hs, rfl⟩ := Option.map_eq_some_iff.1 h
  rw [ofEntries_usable] at hs
  obtain ⟨⟨claim, hclaim, -, hdomain⟩, -⟩ := settle_spec hs
  obtain ⟨e, he, rfl⟩ := List.mem_map.1 hclaim
  exact ⟨e, (List.mem_filter.1 he).1, hdomain.symm⟩

/-- The keys that a domain wins, in order. -/
def wonKeys (ledger : CapacityLedger) (resource : ResourceClass) (domain : DomainId) :
    List ExclusivityKey :=
  (slotKeys ledger.entries resource).filter fun key =>
    (Slot.ofEntries (ledger.under resource key)).wonBy = some domain

/-- The slots a domain wins, key by key. -/
theorem wonSlots_eq : wonSlots domain (ledger.slots resource) =
    (wonKeys ledger resource domain).map fun key =>
      Slot.ofEntries (ledger.under resource key) := by
  rw [slots_eq, wonSlots, List.filter_map]
  rfl

/-- The keys a domain wins. -/
theorem mem_wonKeys {key : ExclusivityKey} : key ∈ wonKeys ledger resource domain ↔
    (Slot.ofEntries (ledger.under resource key)).wonBy = some domain := by
  rw [wonKeys, List.mem_filter, decide_eq_true_iff]
  refine ⟨And.right, fun hwon => ⟨?_, hwon⟩⟩
  obtain ⟨e, he, -⟩ := wonBy_claim hwon
  obtain ⟨hin, hkey⟩ := List.mem_filter.1 he
  exact (of_decide_eq_true hkey) ▸ mem_slotKeys hin

/-- A key that the domain wins in one ledger holds the same entries in the other. -/
theorem AgreeOn.under (h : AgreeOn ledger ledger' resource domain) {key : ExclusivityKey}
    (hwon : (Slot.ofEntries (ledger.under resource key)).wonBy = some domain ∨
      (Slot.ofEntries (ledger'.under resource key)).wonBy = some domain) :
    ledger.under resource key = ledger'.under resource key := by
  refine h key ?_
  rcases hwon with hwon | hwon
  · obtain ⟨e, he, hdomain⟩ := wonBy_claim hwon
    exact ⟨e, List.mem_append_left _ he, hdomain⟩
  · obtain ⟨e, he, hdomain⟩ := wonBy_claim hwon
    exact ⟨e, List.mem_append_right _ he, hdomain⟩

/-- Where the ledgers agree, the domain wins the same slots. -/
theorem AgreeOn.wonSlots (h : AgreeOn ledger ledger' resource domain) :
    wonSlots domain (ledger.slots resource) = wonSlots domain (ledger'.slots resource) := by
  have hkeys : wonKeys ledger resource domain = wonKeys ledger' resource domain := by
    have hpairwise (ledger : CapacityLedger) :
        (wonKeys ledger resource domain).Pairwise (· < ·) := (canonicalise_pairwise _).filter _
    refine List.Perm.eq_of_pairwise (fun _ _ _ _ h h' => absurd h (lt_asymm h')) (hpairwise ledger)
      (hpairwise ledger') ((List.perm_ext_iff_of_nodup ((hpairwise ledger).imp fun h => ne_of_lt h)
        ((hpairwise ledger').imp fun h => ne_of_lt h)).2 fun key => ?_)
    rw [mem_wonKeys, mem_wonKeys]
    constructor
    · intro hwon
      rwa [← h.under (.inl hwon)]
    · intro hwon
      rwa [h.under (.inr hwon)]
  rw [wonSlots_eq, wonSlots_eq, hkeys]
  refine List.map_congr_left fun key hkey => ?_
  rw [← hkeys, mem_wonKeys] at hkey
  rw [h.under (.inl hkey)]

/-- A resource with a slot is one of the ledger. -/
theorem mem_resources_of_slots {slot : Slot} (h : slot ∈ ledger.slots resource) :
    resource ∈ ledger.resources := by
  rw [slots_eq] at h
  obtain ⟨key, hkey, -⟩ := List.mem_map.1 h
  obtain ⟨e, he, -⟩ := List.mem_map.1 (mem_canonicalise.1 hkey)
  obtain ⟨hin, hresource⟩ := List.mem_filter.1 he
  exact mem_canonicalise.2 (List.mem_map.2 ⟨e, hin, of_decide_eq_true hresource⟩)

/-- The breakdown of a resource in a domain is made of the slots that the domain wins. -/
theorem breakdown_eq : ledger.breakdown resource domain =
    if PodFabric.wonSlots domain (ledger.slots resource) = [] then none
    else some (finishDomain
      (domainAggregate ledger.policy resource (ledger.slots resource) domain)) := by
  have hunique : ∀ a ∈ ledger.byDomain, a.resource = resource ∧ a.domain = domain →
      a = finishDomain (domainAggregate ledger.policy resource (ledger.slots resource) domain) ∧
        PodFabric.wonSlots domain (ledger.slots resource) ≠ [] := by
    intro a ha hnamed
    rw [byDomain_eq] at ha
    obtain ⟨resource', -, ha⟩ := List.mem_flatMap.1 ha
    obtain ⟨domain', hdomain, rfl⟩ := List.mem_map.1 ha
    obtain ⟨rfl, rfl⟩ : resource' = resource ∧ domain' = domain := hnamed
    exact ⟨rfl, mem_wonDomains.1 hdomain⟩
  unfold CapacityLedger.breakdown
  split
  · next hnone =>
    refine List.find?_eq_none.2 fun a ha hnamed => ?_
    exact (hunique a ha (of_decide_eq_true hnamed)).2 hnone
  · next hsome =>
    obtain ⟨slot, hslot⟩ := List.exists_mem_of_ne_nil _ hsome
    have hin : finishDomain (domainAggregate ledger.policy resource (ledger.slots resource) domain)
        ∈
        ledger.byDomain := by
      rw [byDomain_eq]
      exact List.mem_flatMap.2 ⟨resource, mem_resources_of_slots (List.mem_filter.1 hslot).1,
        List.mem_map_of_mem (mem_wonDomains.2 hsome)⟩
    cases hfind : ledger.byDomain.find? fun a => a.resource = resource ∧ a.domain = domain with
    | none => exact absurd (decide_eq_true ⟨rfl, rfl⟩) (List.find?_eq_none.1 hfind _ hin)
    | some a =>
      have hnamed := List.find?_some hfind
      rw [(hunique a (List.mem_of_find?_eq_some hfind) (of_decide_eq_true hnamed)).1]

/-! ## The result -/

/-- What the pod has noted once the last slot that a domain wins is settled. -/
def Noted (ledger : CapacityLedger) (resource : ResourceClass) (domain : DomainId)
    (reason : Reason) :
    Prop :=
  (∃ slot ∈ uptoWon domain (ledger.slots resource), reason ∈ slot.notes) ∨
    reason = overflowReason ∧
      0 < skipped 0 ((uptoWon domain (ledger.slots resource)).map Slot.amount)

/-- How bad the pod is once the last slot that a domain wins is settled. -/
def standing (ledger : CapacityLedger) (resource : ResourceClass) (domain : DomainId) : ℕ :=
  max (greatest ((uptoWon domain (ledger.slots resource)).map Slot.gravity))
    (if Strained ledger.policy.maxCapacityTotal.toNat 0 0
      (uptoWon domain (ledger.slots resource)) then
      CapacityStatus.indeterminate.severity else 0)

/-- How bad the counters of a domain make it by themselves. -/
def ownGravity (slots : List Slot) (domain : DomainId) : ℕ :=
  if cutShort slots domain = (0, 0) then 0 else CapacityStatus.indeterminate.severity

/-- The severity of the loop over the slots, and where its reasons come from. -/
theorem foldSlots_notes {policy : Policy} {slots : List Slot} :
    (foldSlots policy resource slots).status.severity = max (greatest (slots.map Slot.gravity))
        (if Strained policy.maxCapacityTotal.toNat 0 0 slots then
          CapacityStatus.indeterminate.severity else 0) ∧
      ∀ reason, reason ∈ (foldSlots policy resource slots).reasons ↔
        (∃ slot ∈ slots, reason ∈ slot.notes) ∨
          reason = overflowReason ∧ 0 < skipped 0 (slots.map Slot.amount) := by
  have hstart : policy.maxCapacityTotal.toNat < ({} : ResourceFold).total.toNat →
      CapacityStatus.indeterminate.severity ≤ ({} : ResourceFold).status.severity :=
    fun h => absurd h (Nat.not_lt_zero _)
  obtain ⟨hstatus, hreasons⟩ := @foldl_notes policy resource slots {} hstart
  refine ⟨?_, fun reason => (hreasons reason).trans (or_iff_right List.not_mem_nil)⟩
  rw [foldSlots, hstatus]
  exact Nat.zero_max _

/-- The totals of a domain overflow just when something is left out of them, and reserve no more
than they offer. -/
theorem domainTotals_rest {contributions : List CapacityContribution} {total reserved : UInt64}
    (hle : reserved.toNat ≤ total.toNat)
    (hclaims : ∀ c ∈ contributions, c.counted = true → c.reserved.toNat ≤ c.amount.toNat) :
    ((domainTotals total reserved contributions).2.2 = true ↔
        cutOff total.toNat reserved.toNat ((contributions.filter CapacityContribution.counted).map
          fun c => (c.amount.toNat, c.reserved.toNat)) ≠ (0, 0)) ∧
      (domainTotals total reserved contributions).2.1.toNat ≤
        (domainTotals total reserved contributions).1.toNat := by
  induction contributions generalizing total reserved with
  | nil => exact ⟨by simp [domainTotals, cutOff], hle⟩
  | cons c rest ih =>
    have hrest : ∀ c ∈ rest, c.counted = true → c.reserved.toNat ≤ c.amount.toNat :=
      fun c hc => hclaims c (List.mem_cons_of_mem _ hc)
    rw [domainTotals]
    cases hc : c.counted with
    | false =>
      rw [List.filter_cons_of_neg (by simp [hc]), if_pos (by simp)]
      exact ih hle hrest
    | true =>
      have hclaim := hclaims c List.mem_cons_self hc
      have ht := total.toNat_lt
      have hr := reserved.toNat_lt
      rw [List.filter_cons_of_pos hc, if_neg (by simp), List.map_cons, cutOff]
      have hsums {pairs : List (ℕ × ℕ)} (h : ¬ (total.toNat + c.amount.toNat < 2 ^ 64 ∧
          reserved.toNat + c.reserved.toNat < 2 ^ 64)) :
          (((c.amount.toNat, c.reserved.toNat) :: pairs).map Prod.fst).sum ≠ 0 ∨
            (((c.amount.toNat, c.reserved.toNat) :: pairs).map Prod.snd).sum ≠ 0 := by
        simp only [List.map_cons, List.sum_cons]
        omega
      rcases @toNat_checkedAdd total c.amount with ⟨t, hsum, ht', hfits⟩ | ⟨⟨fault, hsum⟩, hover⟩
      · rcases @toNat_checkedAdd reserved c.reserved with
          ⟨r, hsum', hr', hfits'⟩ | ⟨⟨fault, hsum'⟩, hover⟩
        · rw [hsum, hsum', if_pos ⟨hfits, hfits'⟩, ← ht', ← hr']
          exact ih (by omega) hrest
        · rw [hsum, hsum', if_neg fun h => hover h.2]
          exact ⟨iff_of_true rfl fun h => (hsums fun h => hover h.2).elim (· (Prod.mk.inj h).1)
            (· (Prod.mk.inj h).2), hle⟩
      · rw [hsum, if_neg fun h => hover h.1]
        exact ⟨iff_of_true rfl fun h => (hsums fun h => hover h.1).elim (· (Prod.mk.inj h).1)
          (· (Prod.mk.inj h).2), hle⟩

/-- A counted claim reserves no more than it offers. -/
theorem settled_reserved {slots : List Slot} {c : CapacityContribution}
    (hc : c ∈ (PodFabric.wonSlots domain slots).flatMap Slot.settled)
      (hcounted : c.counted = true) :
    c.reserved.toNat ≤ c.amount.toNat := by
  obtain ⟨slot, -, hc⟩ := List.mem_flatMap.1 hc
  unfold Slot.settled at hc
  cases hs : settle slot.usable with
  | none =>
    rw [hs] at hc
    cases hc
  | some s =>
    rw [hs] at hc
    have hsettled := settle_settled hs
    rcases List.mem_cons.1 hc with rfl | hc
    · exact UInt64.le_iff_toNat_le.1 hsettled.reserved
    · rw [hsettled.dropped c hc] at hcounted
      cases hcounted

/-- The status of a domain is that of the pod at its last slot, or that of its own counters. -/
theorem finishDomain_severity {policy : Policy} {slots : List Slot} :
    (finishDomain (domainAggregate policy resource slots domain)).status.severity =
      max (foldSlots policy resource (uptoWon domain slots)).status.severity
        (ownGravity slots domain) := by
  obtain ⟨hover, hle⟩ := @domainTotals_rest ((PodFabric.wonSlots domain slots).flatMap Slot.settled)
    0 0 le_rfl fun c => settled_reserved
  rw [wonSlots_sums] at hover
  have hfits : ¬ (domainTotals 0 0 ((PodFabric.wonSlots domain slots).flatMap Slot.settled)).1 <
      (domainTotals 0 0 ((PodFabric.wonSlots domain slots).flatMap Slot.settled)).2.1 := by
    rw [UInt64.lt_iff_toNat_lt]
    exact not_lt.2 hle
  unfold finishDomain ownGravity
  dsimp only [domainAggregate]
  rw [if_neg hfits]
  split
  · next hoverflowed =>
    have hsomething : cutShort slots domain ≠ (0, 0) := hover.1 hoverflowed
    rw [if_neg hsomething, CapacityStatus.severity_worst]
  · next hfine =>
    have hnothing : cutShort slots domain = (0, 0) := not_not.1 (mt hover.2 hfine)
    rw [if_pos hnothing, Nat.max_zero]

/-- The breakdowns of a domain that wins the same slots differ at most in what they take over from
the pod. -/
theorem finishDomain_eq_iff {policy policy' : Policy} {slots slots' : List Slot}
    (hwon : PodFabric.wonSlots domain slots = PodFabric.wonSlots domain slots') :
    finishDomain (domainAggregate policy resource slots domain) =
        finishDomain (domainAggregate policy' resource slots' domain) ↔
      (∀ reason, reason ∈ (foldSlots policy resource (uptoWon domain slots)).reasons ↔
        reason ∈ (foldSlots policy' resource (uptoWon domain slots')).reasons) ∧
      max (foldSlots policy resource (uptoWon domain slots)).status.severity
          (ownGravity slots domain) =
        max (foldSlots policy' resource (uptoWon domain slots')).status.severity
          (ownGravity slots domain) := by
  have hown : ownGravity slots' domain = ownGravity slots domain := by
    unfold ownGravity cutShort
    rw [hwon]
  have hseverity := @finishDomain_severity resource domain policy slots
  have hseverity' := @finishDomain_severity resource domain policy' slots'
  rw [hown] at hseverity'
  rw [← hseverity, ← hseverity']
  constructor
  · intro hsame
    refine ⟨fun reason => ?_, congrArg (fun a => a.status.severity) hsame⟩
    have hreasons : canonicalise (foldSlots policy resource (uptoWon domain slots)).reasons =
      canonicalise (foldSlots policy' resource (uptoWon domain slots')).reasons :=
        congrArg CapacityAggregate.reasons hsame
    rw [← mem_canonicalise, hreasons, mem_canonicalise]
  · rintro ⟨hreasons, hstatus⟩
    have hstatus := CapacityStatus.severity_injective hstatus
    have hreasons : canonicalise (foldSlots policy resource (uptoWon domain slots)).reasons =
      canonicalise (foldSlots policy' resource (uptoWon domain slots')).reasons :=
        canonicalise_eq_of_mem_iff hreasons
    have hcontributions : (PodFabric.wonSlots domain slots).flatMap Slot.settled =
        (PodFabric.wonSlots domain slots').flatMap Slot.settled := by rw [hwon]
    refine CapacityAggregate.ext rfl rfl ?_ ?_ ?_ hstatus (congrArg sorted hcontributions) hreasons
    · exact congrArg (fun cs => (domainTotals 0 0 cs).1) hcontributions
    · exact congrArg (fun cs => (domainTotals 0 0 cs).2.1) hcontributions
    · exact congrArg (fun cs => if (domainTotals 0 0 cs).1
        < (domainTotals 0 0 cs).2.1 then (0 : UInt64)
        else (domainTotals 0 0 cs).1 - (domainTotals 0 0 cs).2.1) hcontributions

end Agreement

/-- **Where two ledgers agree on a domain, its breakdown is the same just when the domain wins
nothing, or the pod has noted the same reasons up to the last slot it wins, and is as bad
there.** -/
theorem domain_isolated_iff {ledger ledger' : CapacityLedger} {resource : ResourceClass}
    {domain : DomainId} (h : AgreeOn ledger ledger' resource domain) :
    ledger.breakdown resource domain = ledger'.breakdown resource domain ↔
      wonSlots domain (ledger.slots resource) = [] ∨
        (∀ reason, Noted ledger resource domain reason ↔ Noted ledger' resource domain reason) ∧
        max (standing ledger resource domain) (ownGravity (ledger.slots resource) domain) =
          max (standing ledger' resource domain) (ownGravity (ledger.slots resource) domain) := by
  have hwon := h.wonSlots
  rw [breakdown_eq, breakdown_eq, ← hwon]
  by_cases hnone : wonSlots domain (ledger.slots resource) = []
  · simp [hnone]
  · obtain ⟨hstanding, hnoted⟩ :=
      @foldSlots_notes resource ledger.policy (uptoWon domain (ledger.slots resource))
    obtain ⟨hstanding', hnoted'⟩ :=
      @foldSlots_notes resource ledger'.policy (uptoWon domain (ledger'.slots resource))
    rw [if_neg hnone, if_neg hnone, Option.some.injEq, finishDomain_eq_iff hwon, hstanding,
      hstanding', or_iff_right hnone]
    simp only [hnoted, hnoted']
    rfl

namespace Sample

/-- A shelf of the power domain. -/
def lone : CapacityLedger where
  policy := {}
  entries := [{ claim := shelf (idOf "shelf") power 4 }]

/-- The same shelf behind one of another domain that two racks report. -/
def crowded : CapacityLedger where
  policy := {}
  entries := [{ claim := shelf (idOf "early") cooling 2 },
    { claim := { shelf (idOf "early") cooling 2 with owner := rackB } },
    { claim := shelf (idOf "shelf") power 4 }]

end Sample

/-- The two sample ledgers agree on the power domain. -/
theorem sample_agree : AgreeOn Sample.lone Sample.crowded Sample.bandwidth Sample.power := by
  rintro key ⟨e, he, hdomain⟩
  have hin : e ∈ Sample.crowded.entries ∧ e.claim.exclusivity = key := by
    rcases List.mem_append.1 he with he | he
    · obtain ⟨hin, hkey⟩ := List.mem_filter.1 he
      exact ⟨List.mem_of_mem_drop (i := 2) (List.mem_filter.1 hin).1, of_decide_eq_true hkey⟩
    · obtain ⟨hin, hkey⟩ := List.mem_filter.1 he
      exact ⟨(List.mem_filter.1 hin).1, of_decide_eq_true hkey⟩
  have hshelf : e = { claim := Sample.shelf (Sample.idOf "shelf") Sample.power 4 } := by
    rcases hin.1 with _ | ⟨_, _ | ⟨_, _ | ⟨_, hnone⟩⟩⟩
    · exact absurd hdomain (by decide)
    · exact absurd hdomain (by decide)
    · rfl
    · cases hnone
  obtain rfl : key = Sample.idOf "shelf" := by rw [← hin.2, hshelf]; rfl
  decide +kernel

/-- The power domain wins its shelf, and what the pod has noted by then is not the same. -/
theorem sample_isolation :
    wonSlots Sample.power (Sample.lone.slots Sample.bandwidth) ≠ [] ∧
      ¬ ((∀ reason, Noted Sample.lone Sample.bandwidth Sample.power reason ↔
          Noted Sample.crowded Sample.bandwidth Sample.power reason) ∧
        max (standing Sample.lone Sample.bandwidth Sample.power)
            (ownGravity (Sample.lone.slots Sample.bandwidth) Sample.power) =
          max (standing Sample.crowded Sample.bandwidth Sample.power)
            (ownGravity (Sample.lone.slots Sample.bandwidth) Sample.power)) := by
  have hdiffer : Sample.lone.breakdown Sample.bandwidth Sample.power ≠
      Sample.crowded.breakdown Sample.bandwidth Sample.power := by decide +kernel
  exact not_or.1 (mt (domain_isolated_iff sample_agree).2 hdiffer)

/-- A claim that is reported twice in another domain shows in the power domain. -/
theorem crowded_shows : ¬ ∀ (ledger ledger' : CapacityLedger) (resource : ResourceClass)
    (domain : DomainId), AgreeOn ledger ledger' resource domain →
      ledger.breakdown resource domain = ledger'.breakdown resource domain := by
  intro hclaim
  have hsame := hclaim _ _ _ _ sample_agree
  exact absurd hsame (by decide +kernel)

end PodFabric
