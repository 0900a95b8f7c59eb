import PodFabric.Engine.Domains

/-!
# What the ledger shows

The contributions of the frozen aggregates come from the recorded entries: a property of every
contribution a slot can show holds of everything the aggregates show (`FoldHolds`). A counted
contribution stands for a usable entry.
-/

namespace PodFabric

/-! ## Recording -/

/-- A loop of records passes when each claim does, and appends the entries. -/
theorem recordAll_iff {ledger' : CapacityLedger} : ∀ {entries : List LedgerEntry}
    {ledger : CapacityLedger}, entries.foldlM CapacityLedger.record ledger = .ok ledger' ↔
      (∀ e ∈ entries, ledger.validateClaim e.claim = .ok ()) ∧
        ledger' = { ledger with entries := ledger.entries ++ entries }
  | [], ledger => by
    simp only [List.foldlM_nil, pure_eq_ok, List.append_nil]
    simp [eq_comm]
  | e :: entries, ledger => by
    rw [List.foldlM_cons, List.forall_mem_cons]
    unfold CapacityLedger.record
    simp only [bind_eq_ok, pure_eq_ok]
    constructor
    · rintro ⟨_, ⟨⟨⟩, hclaim, rfl⟩, h⟩
      obtain ⟨hall, rfl⟩ := recordAll_iff.1 h
      exact ⟨⟨hclaim, fun e he => hall e he⟩, by simp⟩
    · rintro ⟨⟨hclaim, hall⟩, rfl⟩
      exact ⟨_, ⟨(), hclaim, rfl⟩, recordAll_iff.2 ⟨fun e he => hall e he, by simp⟩⟩

/-- A loop of records keeps the bounds and appends the entries. -/
theorem recordAll_eq_ok {ledger ledger' : CapacityLedger} {entries : List LedgerEntry}
    (h : entries.foldlM CapacityLedger.record ledger = .ok ledger') :
    ledger'.policy = ledger.policy ∧ ledger'.entries = ledger.entries ++ entries := by
  obtain ⟨-, rfl⟩ := recordAll_iff.1 h
  exact ⟨rfl, rfl⟩

/-- The ledger of a composition holds the members' claims, in order. -/
theorem evaluateCapacity_entries {policy : Policy} {members : List MemberWork}
    {ledger : CapacityLedger} (h : evaluateCapacity policy members = .ok ledger) :
    ledger.policy = policy ∧ ledger.entries = members.flatMap memberEntries := by
  simpa using recordAll_eq_ok h

/-! ## Settling -/

/-- Everything a slot shows. -/
def Slot.shown (slot : Slot) : List CapacityContribution :=
  slot.uncounted ++ match settle slot.usable with
    | none => []
    | some s => s.winner :: s.dropped

/-- The winner stands for one of the claims, and the others are shown as not counted. -/
theorem settle_spec {usable : List LedgerClaim} {s : Settlement} (h : settle usable = some s) :
    (∃ claim ∈ usable, s.winner.owner = claim.owner ∧ s.winner.domain = claim.domain) ∧
      ∀ c ∈ s.dropped, c.counted = false := by
  unfold settle at h
  split at h
  · cases h
  · next primary others hsort =>
    cases h
    have hprimary : primary ∈ sortOn LedgerClaim.rank usable := by
      rw [hsort]
      exact List.mem_cons_self
    refine ⟨⟨primary, mem_sortOn.1 hprimary, rfl, rfl⟩, ?_⟩
    · simp only [List.mem_map]
      rintro _ ⟨other, -, rfl⟩
      rfl

/-- A counted contribution of a slot stands for a usable entry. -/
theorem Slot.shown_counted {entries : List LedgerEntry} {c : CapacityContribution}
    (h : c ∈ (Slot.ofEntries entries).shown) (hc : c.counted = true) :
    ∃ e ∈ entries, e.suppressed = none ∧ c.owner = e.claim.owner ∧ c.domain = e.claim.domain := by
  rcases List.mem_append.1 h with h | h
  · simp only [Slot.ofEntries, List.mem_filterMap, Option.map_eq_some_iff] at h
    obtain ⟨e, -, reason, -, rfl⟩ := h
    cases hc
  · split at h
    · cases h
    · next s hs =>
      obtain ⟨⟨claim, hclaim, ho, hd⟩, hdropped⟩ := settle_spec hs
      rcases List.mem_cons.1 h with rfl | h
      · simp only [Slot.ofEntries, List.mem_filterMap, Option.ite_none_right_eq_some,
          Option.isNone_iff_eq_none, Option.some.injEq] at hclaim
        obtain ⟨e, he, hnone, rfl⟩ := hclaim
        exact ⟨e, he, hnone, ho, hd⟩
      · rw [hdropped c h] at hc
        cases hc

/-! ## Freezing -/

/-- A property of everything the fold shows so far, in the pod and in the domains. -/
structure FoldHolds (Q : CapacityContribution → Prop) (f : ResourceFold) : Prop where
  pod : ∀ c ∈ f.contributions, Q c
  domains : ∀ e ∈ f.domains.entries, ∀ c ∈ e.2.contributions, Q c

section Fold
variable {Q : CapacityContribution → Prop} {f : ResourceFold}

/-- An amount keeps what holds of all contributions. -/
theorem FoldHolds.addTotal (h : FoldHolds Q f) (amount : UInt64) :
    FoldHolds Q (f.addTotal amount) := by
  unfold ResourceFold.addTotal
  split <;> exact ⟨h.pod, h.domains⟩

/-- A reservation keeps what holds of all contributions. -/
theorem FoldHolds.addCommitted (h : FoldHolds Q f) (reserved : UInt64) :
    FoldHolds Q (f.addCommitted reserved) := by
  unfold ResourceFold.addCommitted
  split <;> exact ⟨h.pod, h.domains⟩

/-- The bound on the total keeps what holds of all contributions. -/
theorem FoldHolds.checkTotal (h : FoldHolds Q f) (limit : UInt64) :
    FoldHolds Q (f.checkTotal limit) := by
  unfold ResourceFold.checkTotal
  split <;> exact ⟨h.pod, h.domains⟩

/-- A domain's share keeps what holds of all contributions. -/
theorem FoldHolds.addDomain (h : FoldHolds Q f) (resource : ResourceClass) {s : Settlement}
    (hs : ∀ c ∈ s.winner :: s.dropped, Q c) : FoldHolds Q (f.addDomain resource s) := by
  refine ⟨h.pod, fun e he c hc => ?_⟩
  have hfind : (f.addDomain resource s).domains.find? e.1 = some e.2 :=
    OrderedMap.find?_eq_some.2 he
  rw [ResourceFold.addDomain, OrderedMap.find?_insert] at hfind
  split at hfind
  · rw [Option.some.injEq] at hfind
    rw [← hfind] at hc
    rcases List.mem_append.1 hc with hc | hc
    · cases hprior : f.domains.find? s.winner.domain with
      | none => simp [hprior] at hc
      | some prior =>
        rw [hprior] at hc
        exact h.domains _ (OrderedMap.find?_eq_some.1 hprior) c hc
    · exact hs c hc
  · exact h.domains e (OrderedMap.find?_eq_some.1 hfind) c hc

/-- One slot preserves a property of everything it shows. -/
theorem FoldHolds.addSlot (h : FoldHolds Q f) (policy : Policy) (resource : ResourceClass)
    {slot : Slot} (hs : ∀ c ∈ slot.shown, Q c) :
    FoldHolds Q (f.addSlot policy resource slot) := by
  have huncounted : FoldHolds Q (f.addUncounted slot.uncounted) := by
    refine ⟨fun c hc => ?_, h.domains⟩
    rcases List.mem_append.1 hc with hc | hc
    · exact h.pod c hc
    · exact hs c (List.mem_append_left _ hc)
  unfold ResourceFold.addSlot
  dsimp only
  split
  · exact ⟨huncounted.pod, huncounted.domains⟩
  · next s hsettle =>
    have hshown : ∀ c ∈ s.winner :: s.dropped, Q c := fun c hc =>
      hs c (List.mem_append_right _ (by rw [hsettle]; exact hc))
    have hsettled : FoldHolds Q ((f.addUncounted slot.uncounted).addSettled s) := by
      refine ⟨fun c hc => ?_, huncounted.domains⟩
      rcases List.mem_append.1 hc with hc | hc
      · exact huncounted.pod c hc
      · exact hshown c hc
    exact (((hsettled.addTotal _).addCommitted _).checkTotal _).addDomain resource hshown

/-- The loop over the slots of a resource preserves it. -/
theorem FoldHolds.slots {policy : Policy} {resource : ResourceClass} {slots : List Slot}
    (hs : ∀ slot ∈ slots, ∀ c ∈ slot.shown, Q c) (h : FoldHolds Q f) :
    FoldHolds Q (slots.foldl (ResourceFold.addSlot policy resource) f) := by
  induction slots generalizing f with
  | nil => exact h
  | cons slot slots ih =>
    exact ih (fun s hs' => hs s (List.mem_cons_of_mem _ hs'))
      (h.addSlot policy resource (hs slot List.mem_cons_self))

end Fold

section Aggregates
variable {ledger : CapacityLedger}

/-- A counted contribution of the fold of a resource stands for a usable entry of the ledger. -/
theorem freezeResource_counted (resource : ResourceClass) :
    FoldHolds (fun c => c.counted = true → ∃ e ∈ ledger.entries, e.suppressed = none ∧
      c.owner = e.claim.owner ∧ c.domain = e.claim.domain) (ledger.freezeResource resource) := by
  refine FoldHolds.slots (fun slot hslot c hc hcounted => ?_)
    ⟨by simp, by simp [OrderedMap.empty]⟩
  simp only [CapacityLedger.slots, List.mem_map] at hslot
  obtain ⟨key, -, rfl⟩ := hslot
  obtain ⟨e, he, hrest⟩ := Slot.shown_counted hc hcounted
  exact ⟨e, (List.mem_filter.1 (List.mem_filter.1 he).1).1, hrest⟩

/-- A counted contribution of an aggregate stands for a usable entry of the ledger. -/
theorem counted_contribution {a : CapacityAggregate} (ha : a ∈ ledger.byResource ++ ledger.byDomain)
    {c : CapacityContribution} (hc : c ∈ a.contributions) (hcounted : c.counted = true) :
    ∃ e ∈ ledger.entries, e.suppressed = none ∧ c.owner = e.claim.owner ∧
      c.domain = e.claim.domain := by
  rcases List.mem_append.1 ha with ha | ha
  · simp only [CapacityLedger.byResource, List.mem_map] at ha
    obtain ⟨resource, -, rfl⟩ := ha
    exact (freezeResource_counted resource).pod c (by simpa [ResourceFold.finish] using hc) hcounted
  · simp only [CapacityLedger.byDomain, List.mem_flatMap, List.mem_map] at ha
    obtain ⟨resource, -, e, he, rfl⟩ := ha
    exact (freezeResource_counted resource).domains e he c (by simpa [finishDomain] using hc)
      hcounted

end Aggregates

end PodFabric
