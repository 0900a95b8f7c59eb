import PodFabric.Proof.Isolation

/-!
# Ties

The claims of a key are considered in the order of their rank, which leaves the link and the
provenance of a claim aside. The order in which claims come makes no difference just when the claims
that tie for the first rank of a key are all the same (`order_independent_iff`).
-/

namespace PodFabric

open List

/-! ## Slots of the same claims -/

/-- Two settlements that differ at most in the order of the claims that are not counted. -/
structure Settlement.Alike (s s' : Settlement) : Prop where
  winner : s.winner = s'.winner
  dropped : s.dropped ~ s'.dropped
  conflict : s.conflict = s'.conflict

/-- Two slots that differ at most in the order of the claims that are not counted. -/
structure Slot.Alike (slot slot' : Slot) : Prop where
  uncounted : slot.uncounted ~ slot'.uncounted
  settle : Option.Rel Settlement.Alike (settle slot.usable) (settle slot'.usable)

/-- The running amounts over claims that are no less than the first. -/
theorem settleAmounts_eq : ∀ {others : List LedgerClaim} {amount reserved : UInt64},
    (∀ other ∈ others, amount ≤ other.amount) → settleAmounts amount reserved others =
      (amount, others.foldl (fun reserved other =>
        max reserved (min other.reserved amount)) reserved)
  | [], _, _, _ => rfl
  | other :: others, amount, reserved, hle => by
    rw [settleAmounts, min_eq_left (hle other List.mem_cons_self),
      settleAmounts_eq fun o ho => hle o (List.mem_cons_of_mem _ ho)]
    rfl

/-- The settled amounts do not depend on the order of the other claims. -/
theorem settleAmounts_perm {others others' : List LedgerClaim} {amount reserved : UInt64}
    (hp : others ~ others') (hle : ∀ other ∈ others, amount ≤ other.amount) :
    settleAmounts amount reserved others = settleAmounts amount reserved others' := by
  have : RightCommutative fun (reserved : UInt64) (other : LedgerClaim) =>
      max reserved (min other.reserved amount) := ⟨fun _ _ _ => max_right_comm _ _ _⟩
  rw [settleAmounts_eq hle, settleAmounts_eq fun o ho => hle o (hp.mem_iff.2 ho), hp.foldl_eq]

/-- The first claims of a key tie only if they are the same. -/
def TieFree (usable : List LedgerClaim) : Prop :=
  ∀ claim ∈ usable, ∀ claim' ∈ usable, claim.rank = claim'.rank →
    (∀ other ∈ usable, claim.rank ≤ other.rank) → claim = claim'

section Settling
variable {usable usable' : List LedgerClaim}

/-- Claims without a tie are settled alike in any order. -/
theorem settle_perm (hp : usable ~ usable') (htie : TieFree usable) :
    Option.Rel Settlement.Alike (settle usable) (settle usable') := by
  have hsorted := ((sortOn_perm LedgerClaim.rank usable).trans hp).trans
    (sortOn_perm LedgerClaim.rank usable').symm
  have hpairwise := sortOn_pairwise LedgerClaim.rank usable
  have hpairwise' := sortOn_pairwise LedgerClaim.rank usable'
  cases hs : sortOn LedgerClaim.rank usable with
  | nil =>
    have hnil : usable = [] := by
      rw [← List.length_eq_zero_iff, ← @length_sortOn _ _ _ LedgerClaim.rank, hs]
      rfl
    rw [hnil] at hp ⊢
    rw [← hp.nil_eq]
    exact .none
  | cons primary others =>
    cases hs' : sortOn LedgerClaim.rank usable' with
    | nil =>
      rw [hs, hs'] at hsorted
      exact absurd hsorted.symm.nil_eq nofun
    | cons primary' others' =>
      rw [hs] at hpairwise hsorted
      rw [hs'] at hpairwise' hsorted
      have hin {claim : LedgerClaim} : claim ∈ usable ↔ claim ∈ primary :: others := by
        rw [← hs, mem_sortOn]
      have hin' {claim : LedgerClaim} : claim ∈ usable ↔ claim ∈ primary' :: others' := by
        rw [hp.mem_iff, ← hs', mem_sortOn]
      have hfirst : ∀ other ∈ usable, primary.rank ≤ other.rank := by
        intro other hother
        rcases List.mem_cons.1 (hin.1 hother) with rfl | hother
        · exact le_rfl
        · exact (List.pairwise_cons.1 hpairwise).1 other hother
      have hfirst' : ∀ other ∈ usable, primary'.rank ≤ other.rank := by
        intro other hother
        rcases List.mem_cons.1 (hin'.1 hother) with rfl | hother
        · exact le_rfl
        · exact (List.pairwise_cons.1 hpairwise').1 other hother
      have hprimary := hin.2 List.mem_cons_self
      have hprimary' := hin'.2 List.mem_cons_self
      obtain rfl : primary = primary' := htie _ hprimary _ hprimary'
        (le_antisymm (hfirst _ hprimary') (hfirst' _ hprimary)) hfirst
      have hothers : others ~ others' := (List.perm_cons primary).1 hsorted
      have hle : ∀ other ∈ others, primary.amount ≤ other.amount := fun other hother =>
        (Prod.Lex.le_iff.1 (hfirst other (hin.2 (List.mem_cons_of_mem _ hother)))).elim le_of_lt
          fun h => h.1.le
      have hconflict : (others.any fun other => decide (other.amount ≠ primary.amount ∨
          other.reserved ≠ primary.reserved ∨ other.domain ≠ primary.domain)) =
        others'.any fun other => decide (other.amount ≠ primary.amount ∨
          other.reserved ≠ primary.reserved ∨ other.domain ≠ primary.domain) := hothers.any_eq
      unfold settle
      rw [hs, hs']
      simp only [hconflict, settleAmounts_perm hothers hle]
      exact .some ⟨rfl, hothers.map _, rfl⟩

end Settling

/-- The greatest of a list does not depend on its order. -/
theorem greatest_perm {l l' : List ℕ} (hp : l ~ l') : greatest l = greatest l' := by
  have : LeftCommutative (max : ℕ → ℕ → ℕ) := ⟨max_left_comm⟩
  exact hp.foldr_eq 0

/-- Settlements that are alike are equally grave. -/
theorem Settlement.Alike.gravity {s s' : Settlement} (h : s.Alike s') : s.gravity = s'.gravity := by
  have hnil : s.dropped = [] ↔ s'.dropped = [] := by
    rw [← List.length_eq_zero_iff, h.dropped.length_eq, List.length_eq_zero_iff]
  unfold Settlement.gravity
  simp only [h.conflict, ne_eq, hnil]

namespace Slot.Alike
variable {slot slot' : Slot}

/-- Slots that are alike count the same. -/
theorem sums (h : slot.Alike slot') : slot.amount = slot'.amount ∧
    slot.committed = slot'.committed := by
  have hsettle := h.settle
  unfold Slot.amount Slot.committed
  generalize PodFabric.settle slot.usable = o, PodFabric.settle slot'.usable = o' at hsettle
  cases hsettle with
  | none => exact ⟨rfl, rfl⟩
  | some halike => simp only [Option.elim_some, halike.winner, and_self]

/-- Slots that are alike are won by the same domain. -/
theorem wonBy (h : slot.Alike slot') : slot.wonBy = slot'.wonBy := by
  have hsettle := h.settle
  unfold Slot.wonBy
  generalize PodFabric.settle slot.usable = o, PodFabric.settle slot'.usable = o' at hsettle
  cases hsettle with
  | none => rfl
  | some halike => simp only [Option.map_some, halike.winner]

/-- Slots that are alike show the same settled claims. -/
theorem settled (h : slot.Alike slot') : slot.settled ~ slot'.settled := by
  have hsettle := h.settle
  unfold Slot.settled
  generalize PodFabric.settle slot.usable = o, PodFabric.settle slot'.usable = o' at hsettle
  cases hsettle with
  | none => exact .rfl
  | some halike =>
    rw [Option.elim_some, Option.elim_some, halike.winner]
    exact halike.dropped.cons _

/-- Slots that are alike show the same claims. -/
theorem shown (h : slot.Alike slot') : slot.shown ~ slot'.shown := by
  rw [shown_eq, shown_eq]
  exact h.uncounted.append h.settled

/-- Slots that are alike are equally grave. -/
theorem gravity (h : slot.Alike slot') : slot.gravity = slot'.gravity := by
  have hsettle := h.settle
  unfold Slot.gravity
  rw [greatest_perm (h.uncounted.map CapacityContribution.gravity)]
  generalize PodFabric.settle slot.usable = o, PodFabric.settle slot'.usable = o' at hsettle
  cases hsettle with
  | none => rfl
  | some halike => rw [Option.elim_some, Option.elim_some, halike.gravity]

/-- Slots that are alike leave the same reasons. -/
theorem notes (h : slot.Alike slot') : slot.notes ~ slot'.notes := by
  have hsettle := h.settle
  unfold Slot.notes
  refine (h.uncounted.map _).append ?_
  generalize PodFabric.settle slot.usable = o, PodFabric.settle slot'.usable = o' at hsettle
  cases hsettle with
  | none => exact .rfl
  | some halike => exact halike.dropped.map _

end Slot.Alike

/-! ## Loops over the same claims -/

section Loops
variable {slots slots' : List Slot} {policy : Policy} {resource : ResourceClass} {domain : DomainId}

/-- What slots that are alike have alike, slot by slot. -/
theorem alike_map {β : Type} {g : Slot → β} (hg : ∀ {slot slot' : Slot}, slot.Alike slot' →
    g slot = g slot') (h : List.Forall₂ Slot.Alike slots slots') : slots.map g = slots'.map g := by
  induction h with
  | nil => rfl
  | cons halike _ ih => rw [List.map_cons, List.map_cons, hg halike, ih]

/-- What slots that are alike list alike, in all. -/
theorem alike_flatMap {β : Type} {g : Slot → List β} (hg : ∀ {slot slot' : Slot},
    slot.Alike slot' → g slot ~ g slot') (h : List.Forall₂ Slot.Alike slots slots') :
    slots.flatMap g ~ slots'.flatMap g := by
  induction h with
  | nil => exact .rfl
  | cons halike _ ih =>
    rw [List.flatMap_cons, List.flatMap_cons]
    exact (hg halike).append ih

/-- The slots a domain wins are alike. -/
theorem alike_wonSlots (h : List.Forall₂ Slot.Alike slots slots') :
    List.Forall₂ Slot.Alike (wonSlots domain slots) (wonSlots domain slots') := by
  induction h with
  | nil => exact .nil
  | @cons slot slot' _ _ halike _ ih =>
    unfold wonSlots at ih ⊢
    rw [List.filter_cons, List.filter_cons, halike.wonBy]
    split
    · exact .cons halike ih
    · exact ih

/-- The slots up to the last a domain wins are alike. -/
theorem alike_uptoWon (h : List.Forall₂ Slot.Alike slots slots') :
    List.Forall₂ Slot.Alike (uptoWon domain slots) (uptoWon domain slots') := by
  have hdrop {l l' : List Slot} (h : List.Forall₂ Slot.Alike l l') :
      List.Forall₂ Slot.Alike (l.dropWhile fun slot => slot.wonBy ≠ some domain)
        (l'.dropWhile fun slot => slot.wonBy ≠ some domain) := by
    induction h with
    | nil => exact .nil
    | @cons slot slot' _ _ halike hrest ih =>
      rw [List.dropWhile_cons, List.dropWhile_cons, halike.wonBy]
      split
      · exact ih
      · exact .cons halike hrest
  unfold uptoWon List.rdropWhile
  exact List.forall₂_reverse_iff.2 (hdrop (List.forall₂_reverse_iff.2 h))

/-- Loops over alike slots count and note the same. -/
theorem foldSlots_alike (h : List.Forall₂ Slot.Alike slots slots') :
    (foldSlots policy resource slots).status = (foldSlots policy resource slots').status ∧
      (∀ reason, reason ∈ (foldSlots policy resource slots).reasons ↔
        reason ∈ (foldSlots policy resource slots').reasons) ∧
      (foldSlots policy resource slots).total = (foldSlots policy resource slots').total ∧
      (foldSlots policy resource slots).committed =
        (foldSlots policy resource slots').committed := by
  have hamounts := alike_map (fun halike => halike.sums.1) h
  have hcommitted := alike_map (fun halike => halike.sums.2) h
  have hgravity := alike_map Slot.Alike.gravity h
  have hnotes (reason : Reason) : (∃ slot ∈ slots, reason ∈ slot.notes) ↔
      ∃ slot ∈ slots', reason ∈ slot.notes := by
    rw [← List.mem_flatMap, (alike_flatMap Slot.Alike.notes h).mem_iff, List.mem_flatMap]
  obtain ⟨hstatus, hreasons⟩ := @foldSlots_notes resource policy slots
  obtain ⟨hstatus', hreasons'⟩ := @foldSlots_notes resource policy slots'
  obtain ⟨hsum, hsum'⟩ := @foldl_skipped policy resource slots {}
  obtain ⟨hsum₂, hsum₂'⟩ := @foldl_skipped policy resource slots' {}
  refine ⟨?_, fun reason => ?_, UInt64.toNat_inj.1 ?_, UInt64.toNat_inj.1 ?_⟩
  · have hstrained : Strained policy.maxCapacityTotal.toNat 0 0 slots ↔
        Strained policy.maxCapacityTotal.toNat 0 0 slots' := by
      unfold Strained
      rw [hamounts, hcommitted]
    refine CapacityStatus.severity_injective ?_
    rw [hstatus, hstatus', hgravity, if_congr hstrained rfl rfl]
  · rw [hreasons, hreasons', hnotes, hamounts]
  · rw [hamounts] at hsum
    unfold foldSlots
    omega
  · rw [hcommitted] at hsum'
    unfold foldSlots
    omega

/-- The breakdowns over alike slots are the same. -/
theorem finishDomain_alike (h : List.Forall₂ Slot.Alike slots slots') :
    finishDomain (domainAggregate policy resource slots domain) =
      finishDomain (domainAggregate policy resource slots' domain) := by
  have hwon := @alike_wonSlots _ _ domain h
  have hupto := @alike_uptoWon _ _ domain h
  have hamounts := alike_map (fun halike => halike.sums.1) hwon
  have hcommitted := alike_map (fun halike => halike.sums.2) hwon
  have hcut : cutShort slots domain = cutShort slots' domain := by
    unfold cutShort
    rw [alike_map (fun halike => Prod.ext halike.sums.1 halike.sums.2) hwon]
  obtain ⟨hstatus, hreasons, -, -⟩ := @foldSlots_alike _ _ policy resource hupto
  obtain ⟨hsum, hsum'⟩ := @finishDomain_sums policy resource slots domain
  obtain ⟨hsum₂, hsum₂'⟩ := @finishDomain_sums policy resource slots' domain
  rw [hamounts, hcut] at hsum
  rw [hcommitted, hcut] at hsum'
  have htotal : (finishDomain (domainAggregate policy resource slots domain)).total =
      (finishDomain (domainAggregate policy resource slots' domain)).total :=
    UInt64.toNat_inj.1 (by omega)
  have hreserved : (finishDomain (domainAggregate policy resource slots domain)).reserved =
      (finishDomain (domainAggregate policy resource slots' domain)).reserved :=
    UInt64.toNat_inj.1 (by omega)
  refine CapacityAggregate.ext rfl rfl htotal hreserved ?_ ?_ ?_ ?_
  · exact congrArg₂ (fun total reserved : UInt64 =>
      if total < reserved then 0 else total - reserved) htotal hreserved
  · refine CapacityStatus.severity_injective ?_
    rw [finishDomain_severity, finishDomain_severity, hstatus, ownGravity, ownGravity, hcut]
  · exact sortOn_congr (alike_flatMap Slot.Alike.settled hwon) fun _ _ _ _ h => h
  · exact canonicalise_eq_of_mem_iff hreasons

end Loops

/-! ## Order and repetition -/

/-- What freezing leaves behind: the usable claims of each key in the order of their rank. -/
def CapacityLedger.frozen (ledger : CapacityLedger) : CapacityLedger :=
  { ledger with
    entries := ledger.entries.filter (fun e => e.suppressed.isSome) ++
      sortOn (fun e => e.claim.rank) (ledger.entries.filter fun e => e.suppressed.isNone) }

section Order
variable {policy : Policy} {entries entries' : List LedgerEntry} {ledger ledger' : CapacityLedger}
  {resource : ResourceClass} {key : ExclusivityKey}

/-- A fold with the same sums and the same reasons is finished alike. -/
theorem finish_congr {f f' : ResourceFold} (hstatus : f.status = f'.status)
    (hreasons : ∀ reason, reason ∈ f.reasons ↔ reason ∈ f'.reasons) (htotal : f.total = f'.total)
    (hcommitted : f.committed = f'.committed) (hcontributions :
      f.contributions ~ f'.contributions) :
    f.finish resource = f'.finish resource := by
  have hshown : sorted f.contributions = sorted f'.contributions :=
    sortOn_congr hcontributions fun _ _ _ _ h => h
  have hnoted (extra : List Reason) :
      canonicalise (f.reasons ++ extra) = canonicalise (f'.reasons ++ extra) :=
    canonicalise_eq_of_mem_iff fun reason => by rw [List.mem_append, List.mem_append, hreasons]
  unfold ResourceFold.finish
  rw [hstatus, htotal, hcommitted, hshown]
  by_cases hover : f'.total < f'.committed
  · simp only [hover, if_true, hnoted]
  · simp only [hover, if_false, canonicalise_eq_of_mem_iff hreasons]

/-- Ledgers with alike slots are frozen alike. -/
theorem frozen_alike (hpolicy : ledger.policy = ledger'.policy)
    (hresources : ledger.resources = ledger'.resources)
    (halike : ∀ resource, List.Forall₂ Slot.Alike (ledger.slots resource)
      (ledger'.slots resource)) :
    ledger.byResource = ledger'.byResource ∧ ledger.byDomain = ledger'.byDomain := by
  constructor
  · unfold CapacityLedger.byResource
    rw [← hresources]
    refine List.map_congr_left fun resource _ => ?_
    obtain ⟨hstatus, hreasons, htotal, hcommitted⟩ :=
      @foldSlots_alike _ _ ledger.policy resource (halike resource)
    have hfreeze : ledger.freezeResource resource =
        foldSlots ledger.policy resource (ledger.slots resource) := rfl
    have hfreeze' : ledger'.freezeResource resource =
        foldSlots ledger.policy resource (ledger'.slots resource) := by rw [hpolicy]; rfl
    have hcontributions : (ledger.freezeResource resource).contributions ~
        (ledger'.freezeResource resource).contributions := by
      rw [freezeResource_tallied.contributions, freezeResource_tallied.contributions]
      exact alike_flatMap Slot.Alike.shown (halike resource)
    rw [hfreeze, hfreeze'] at hcontributions ⊢
    exact finish_congr hstatus hreasons htotal hcommitted hcontributions
  · rw [byDomain_eq, byDomain_eq, ← hresources, ← hpolicy]
    refine List.flatMap_congr fun resource _ => ?_
    have hdomains : wonDomains (ledger.slots resource) = wonDomains (ledger'.slots resource) := by
      have hwon := congrArg (List.filterMap id) (alike_map Slot.Alike.wonBy (halike resource))
      rw [List.filterMap_map, List.filterMap_map] at hwon
      exact congrArg canonicalise hwon
    rw [hdomains]
    exact List.map_congr_left fun domain _ => finishDomain_alike (halike resource)

/-- The usable claims of a key, in another order of the entries. -/
theorem claimsOf_perm (hp : entries ~ entries') :
    claimsOf entries resource key ~ claimsOf entries' resource key :=
  (((hp.filter _).filter _).filter _).map _

/-- The slots of the same entries are alike where their usable claims are settled alike. -/
theorem slots_alike (hp : ledger.entries ~ ledger'.entries)
    (hsettle : ∀ key, Option.Rel Settlement.Alike (settle (claimsOf ledger.entries resource key))
      (settle (claimsOf ledger'.entries resource key))) :
    List.Forall₂ Slot.Alike (ledger.slots resource) (ledger'.slots resource) := by
  have hkeys : slotKeys ledger.entries resource = slotKeys ledger'.entries resource :=
    canonicalise_perm ((hp.filter _).map _)
  rw [slots_eq, slots_eq, ← hkeys, List.forall₂_map_left_iff, List.forall₂_map_right_iff,
    List.forall₂_same]
  refine fun key _ => ⟨((hp.filter _).filter _).filterMap _, ?_⟩
  rw [ofEntries_usable, ofEntries_usable]
  exact hsettle key

/-- The resources do not depend on the order of the entries. -/
theorem resources_perm (hp : ledger.entries ~ ledger'.entries) :
    ledger.resources = ledger'.resources := canonicalise_perm (hp.map _)

/-- Freezing rearranges the entries. -/
theorem frozen_perm : ledger.frozen.entries ~ ledger.entries := by
  refine ((sortOn_perm _ _).append_left _).trans ?_
  have hsome : (fun e : LedgerEntry => e.suppressed.isNone) =
      fun e => !e.suppressed.isSome := funext fun e => by simp
  rw [hsome]
  exact List.filter_append_perm _ _

/-- The claims of a key are left in the order of their rank. -/
theorem claimsOf_frozen : claimsOf ledger.frozen.entries resource key =
    sortOn LedgerClaim.rank (claimsOf ledger.entries resource key) := by
  have hsuppressed : ((((ledger.entries.filter fun e => e.suppressed.isSome).filter fun e =>
      e.claim.resource = resource).filter fun e => e.claim.exclusivity = key).filter fun e =>
        e.suppressed.isNone) = [] := by
    refine List.filter_eq_nil_iff.2 fun e he => ?_
    simp only [List.mem_filter] at he
    simp [Option.isSome_iff_ne_none.1 he.1.1.2]
  have hunsuppressed : ((((ledger.entries.filter fun e => e.suppressed.isNone).filter fun e =>
      e.claim.resource = resource).filter fun e => e.claim.exclusivity = key).filter fun e =>
        e.suppressed.isNone) = (((ledger.entries.filter fun e =>
          e.claim.resource = resource).filter fun e => e.claim.exclusivity = key).filter fun e =>
            e.suppressed.isNone) := by
    simp only [List.filter_filter]
    refine List.filter_congr fun e _ => ?_
    cases e.suppressed.isNone <;> simp
  have hmap {l : List LedgerEntry} : (sortOn (fun e : LedgerEntry => e.claim.rank) l).map
      LedgerEntry.claim = sortOn LedgerClaim.rank (l.map LedgerEntry.claim) :=
    map_sortOn _ _ _ fun _ => rfl
  unfold claimsOf usableClaims entriesOf CapacityLedger.frozen
  simp only [List.filter_append, filter_sortOn, hsuppressed, hunsuppressed, List.nil_append, hmap]

/-- What settling returns is like itself. -/
theorem settle_refl {usable : List LedgerClaim} :
    Option.Rel Settlement.Alike (settle usable) (settle usable) := by
  cases settle usable with
  | none => exact .none
  | some s => exact .some ⟨rfl, .rfl, rfl⟩

/-- Freezing again changes nothing. -/
theorem freeze_again : ledger.frozen.byResource = ledger.byResource ∧
    ledger.frozen.byDomain = ledger.byDomain := by
  refine frozen_alike rfl (resources_perm frozen_perm) fun resource =>
    slots_alike frozen_perm fun key => ?_
  have hsettle : settle (claimsOf ledger.frozen.entries resource key) =
      settle (claimsOf ledger.entries resource key) := by
    rw [claimsOf_frozen, settle, settle, sortOn_sortOn]
  rw [hsettle]
  exact settle_refl

/-- The results of freezing the calls of a multiset, in whatever order they are made, are the same,
and stay the same if the ledger is frozen again. -/
structure OrderFree (policy : Policy) (entries : List LedgerEntry) : Prop where
  resources : ∀ order order', order ~ entries → order' ~ entries →
    CapacityLedger.byResource { policy, entries := order } =
      CapacityLedger.byResource { policy, entries := order' }
  domains : ∀ order order', order ~ entries → order' ~ entries →
    CapacityLedger.byDomain { policy, entries := order } =
      CapacityLedger.byDomain { policy, entries := order' }
  again : ∀ order, order ~ entries →
    (CapacityLedger.frozen { policy, entries := order }).byResource =
        CapacityLedger.byResource { policy, entries := order } ∧
      (CapacityLedger.frozen { policy, entries := order }).byDomain =
        CapacityLedger.byDomain { policy, entries := order }

/-- Whether claims are free of ties does not depend on their order. -/
theorem TieFree.perm {usable usable' : List LedgerClaim} (hp : usable ~ usable')
    (h : TieFree usable) : TieFree usable' := fun claim hclaim claim' hclaim' hrank hfirst =>
  h claim (hp.mem_iff.2 hclaim) claim' (hp.mem_iff.2 hclaim') hrank fun other hother =>
    hfirst other (hp.mem_iff.1 hother)

/-- Without ties the order of the entries does not matter. -/
theorem orderFree_of_tieFree (h : ∀ resource key, TieFree (claimsOf entries resource key)) :
    OrderFree policy entries := by
  have hsame (order order' : List LedgerEntry) (hp : order ~ entries) (hp' : order' ~ entries) :
      CapacityLedger.byResource { policy, entries := order } =
          CapacityLedger.byResource { policy, entries := order' } ∧
        CapacityLedger.byDomain { policy, entries := order } =
          CapacityLedger.byDomain { policy, entries := order' } := by
    have hperm := hp.trans hp'.symm
    refine frozen_alike rfl (resources_perm hperm) fun resource => slots_alike hperm fun key => ?_
    exact settle_perm (claimsOf_perm hperm) ((h resource key).perm (claimsOf_perm hp.symm))
  exact ⟨fun order order' hp hp' => (hsame order order' hp hp').1,
    fun order order' hp hp' => (hsame order order' hp hp').2, fun _ _ => freeze_again⟩

/-- A claim that comes first and that no other precedes is the one that is counted. -/
theorem first_counted {e : LedgerEntry} (hnone : e.suppressed = none)
    (hfirst : ∀ other ∈ claimsOf entries e.claim.resource e.claim.exclusivity,
      e.claim.rank ≤ other.rank) :
    ∃ c ∈ (CapacityLedger.freezeResource { policy, entries := e :: entries }
      e.claim.resource).contributions, c.counted = true ∧ c.exclusivity = e.claim.exclusivity ∧
        c.viaLink = e.claim.viaLink ∧ c.provenance = e.claim.provenance := by
  have hclaims : claimsOf (e :: entries) e.claim.resource e.claim.exclusivity =
      e.claim :: claimsOf entries e.claim.resource e.claim.exclusivity := by
    simp [claimsOf, entriesOf, usableClaims, hnone]
  have hkey : e.claim.exclusivity ∈ slotKeys (e :: entries) e.claim.resource :=
    mem_slotKeys (List.mem_filter.2 ⟨List.mem_cons_self, decide_eq_true rfl⟩)
  have hsort : sortOn LedgerClaim.rank (claimsOf (e :: entries) e.claim.resource
      e.claim.exclusivity) = e.claim :: sortOn LedgerClaim.rank
        (claimsOf entries e.claim.resource e.claim.exclusivity) := by
    rw [hclaims, sortOn_cons hfirst]
  have hsettle : ∃ s, settle (claimsOf (e :: entries) e.claim.resource e.claim.exclusivity) = some s
      ∧
      s.winner.counted = true ∧ s.winner.exclusivity = e.claim.exclusivity ∧
        s.winner.viaLink = e.claim.viaLink ∧ s.winner.provenance = e.claim.provenance := by
    unfold settle
    rw [hsort]
    exact ⟨_, rfl, rfl, rfl, rfl, rfl⟩
  obtain ⟨s, hs, hwinner⟩ := hsettle
  refine ⟨s.winner, ?_, hwinner⟩
  rw [freezeResource_tallied.contributions, slots_eq, List.flatMap_map, List.mem_flatMap]
  refine ⟨_, hkey, ?_⟩
  rw [shown_eq, Slot.settled, ofEntries_usable]
  have hsettled : settle (usableClaims ((entriesOf (e :: entries) e.claim.resource).filter
      fun other =>
      other.claim.exclusivity = e.claim.exclusivity)) = some s := hs
  rw [hsettled]
  exact List.mem_append_right _ List.mem_cons_self

/-- The aggregates of two ledgers with the same results show the same. -/
theorem mem_of_byResource (hsame : ledger.byResource = ledger'.byResource)
    (hresource : resource ∈ ledger.resources) {c : CapacityContribution}
    (hc : c ∈ (ledger.freezeResource resource).contributions) :
    c ∈ (ledger'.freezeResource resource).contributions := by
  have ha : (ledger.freezeResource resource).finish resource ∈ ledger'.byResource :=
    hsame ▸ List.mem_map_of_mem hresource
  obtain ⟨resource', -, hfinish⟩ := List.mem_map.1 ha
  obtain rfl : resource' = resource := congrArg CapacityAggregate.resource hfinish
  have hshown : sorted (ledger'.freezeResource resource').contributions =
      sorted (ledger.freezeResource resource').contributions :=
    congrArg CapacityAggregate.contributions hfinish
  have hin : c ∈ sorted (ledger.freezeResource resource').contributions := mem_sortOn.2 hc
  rw [← hshown] at hin
  exact mem_sortOn.1 hin

/-- A resource counts one contribution under a key. -/
theorem counted_unique {c c' : CapacityContribution}
    (hc : c ∈ (ledger.freezeResource resource).contributions)
    (hc' : c' ∈ (ledger.freezeResource resource).contributions) (hcounted : c.counted = true)
    (hcounted' : c'.counted = true) (hkey : c.exclusivity = c'.exclusivity) : c = c' := by
  have honce := @contributions_counted ledger resource c'.exclusivity
  rw [List.countP_eq_length_filter] at honce
  have hle : ((ledger.freezeResource resource).contributions.filter fun other =>
      other.counted ∧ other.exclusivity = c'.exclusivity).length ≤ 1 := by
    rw [honce]
    split <;> omega
  have hmem : c ∈ (ledger.freezeResource resource).contributions.filter fun other =>
      other.counted ∧ other.exclusivity = c'.exclusivity :=
    List.mem_filter.2 ⟨hc, decide_eq_true ⟨hcounted, hkey⟩⟩
  have hmem' : c' ∈ (ledger.freezeResource resource).contributions.filter fun other =>
      other.counted ∧ other.exclusivity = c'.exclusivity :=
    List.mem_filter.2 ⟨hc', decide_eq_true ⟨hcounted', rfl⟩⟩
  obtain ⟨only, honly⟩ := List.length_eq_one_iff.1 (hle.antisymm (List.length_pos_of_mem hmem))
  rw [honly, List.mem_singleton] at hmem hmem'
  exact hmem.trans hmem'.symm

/-- A usable claim of a key comes from an entry that nothing suppresses. -/
theorem mem_claimsOf {claim : LedgerClaim} : claim ∈ claimsOf entries resource key ↔
    ∃ e ∈ entries, e.suppressed = none ∧ e.claim = claim ∧ claim.resource = resource ∧
      claim.exclusivity = key := by
  simp only [claimsOf, usableClaims, entriesOf, List.mem_map, List.mem_filter, decide_eq_true_eq,
    Option.isNone_iff_eq_none]
  constructor
  · rintro ⟨e, ⟨⟨⟨he, rfl⟩, rfl⟩, hnone⟩, rfl⟩
    exact ⟨e, he, hnone, rfl, rfl, rfl⟩
  · rintro ⟨e, he, hnone, rfl, rfl, rfl⟩
    exact ⟨e, ⟨⟨⟨he, rfl⟩, rfl⟩, hnone⟩, rfl⟩

/-- Claims of a key and a link that have the same rank are equal. -/
theorem claim_eq_of_rank {claim claim' : LedgerClaim} (hrank : claim.rank = claim'.rank)
    (hresource : claim.resource = claim'.resource)
    (hkey : claim.exclusivity = claim'.exclusivity) (hlink : claim.viaLink = claim'.viaLink)
    (hprovenance : claim.provenance = claim'.provenance) : claim = claim' := by
  have hamount : claim.amount = claim'.amount := congrArg (fun r => (ofLex r).1) hrank
  have hreserved : claim.reserved = claim'.reserved :=
    congrArg (fun r => (ofLex (ofLex r).2).1) hrank
  have howner : claim.owner = claim'.owner :=
    congrArg (fun r => (ofLex (ofLex (ofLex r).2).2).1) hrank
  have hdomain : claim.domain = claim'.domain :=
    congrArg (fun r => (ofLex (ofLex (ofLex r).2).2).2) hrank
  exact LedgerClaim.ext hresource hkey howner hlink hamount hreserved hdomain hprovenance

/-- An entry put first is the one that is counted, where none precedes it. -/
theorem erase_counted {e : LedgerEntry} (hnone : e.suppressed = none)
    (hfirst : ∀ other ∈ claimsOf entries e.claim.resource e.claim.exclusivity,
      e.claim.rank ≤ other.rank) :
    ∃ c ∈ (CapacityLedger.freezeResource { policy, entries := e :: entries.erase e }
      e.claim.resource).contributions, c.counted = true ∧ c.exclusivity = e.claim.exclusivity ∧
        c.viaLink = e.claim.viaLink ∧ c.provenance = e.claim.provenance := by
  refine first_counted hnone fun other hother => hfirst other ?_
  obtain ⟨e', he', hfound⟩ := mem_claimsOf.1 hother
  exact mem_claimsOf.2 ⟨e', List.mem_of_mem_erase he', hfound⟩

/-- Whichever of two tied claims comes first is counted: they are the same where the order makes no
difference. -/
theorem tieFree_of_orderFree (h : OrderFree policy entries) (resource : ResourceClass)
    (key : ExclusivityKey) : TieFree (claimsOf entries resource key) := by
  intro claim hclaim claim' hclaim' hrank hfirst
  obtain ⟨e, he, hnone, rfl, rfl, rfl⟩ := mem_claimsOf.1 hclaim
  obtain ⟨e', he', hnone', rfl, hresource, hkey⟩ := mem_claimsOf.1 hclaim'
  obtain ⟨c, hc, hcounted, hckey, hclink, hcprovenance⟩ := @erase_counted policy _ _ hnone hfirst
  obtain ⟨c', hc', hcounted', hckey', hclink', hcprovenance'⟩ :=
    @erase_counted policy entries _ hnone'
    (by rw [hresource, hkey, ← hrank]; exact hfirst)
  have hresources := h.resources _ _ (List.perm_cons_erase he).symm (List.perm_cons_erase he').symm
  rw [hresource] at hc'
  have hin : e'.claim.resource ∈ CapacityLedger.resources
      { policy, entries := e' :: entries.erase e' } :=
    mem_canonicalise.2 (List.mem_map_of_mem List.mem_cons_self)
  have hmoved := mem_of_byResource hresources.symm (hresource ▸ hin) hc'
  have heq : c = c' := counted_unique hc hmoved hcounted hcounted'
    (hckey.trans (hkey.symm.trans hckey'.symm))
  subst heq
  exact claim_eq_of_rank hrank hresource.symm hkey.symm (hclink.symm.trans hclink')
    (hcprovenance.symm.trans hcprovenance')

end Order

/-- **The order of the calls makes no difference just when the first claims of each key tie only if
they are the same.** -/
theorem order_independent_iff {policy : Policy} {entries : List LedgerEntry} :
    OrderFree policy entries ↔ ∀ resource key, TieFree (claimsOf entries resource key) :=
  ⟨tieFree_of_orderFree, orderFree_of_tieFree⟩

/-! ## A tie

A shelf is claimed through two links: the link that is named first is the one that is counted. -/

/-- A claim of a rack, by way of a link. -/
def Sample.twin (link : LinkId) : LedgerEntry :=
  ⟨{ Sample.shelf (Sample.idOf "cabinet") Sample.power 4 with viaLink := link }, none⟩

/-- Two claims of the same rank, by way of different links. -/
def Sample.twins : List LedgerEntry :=
  [Sample.twin (Sample.idOf "left"), Sample.twin (Sample.idOf "right")]

/-- The two twins tie. -/
theorem twins_ordered : ¬ ∀ (policy : Policy) (entries : List LedgerEntry)
    (ledger : CapacityLedger),
    entries.foldlM CapacityLedger.record { policy } = .ok ledger → OrderFree policy entries := by
  intro hclaim
  have haccepted : (Sample.twins.foldlM CapacityLedger.record { policy := {} }).isOk = true := by
    decide +kernel
  cases hrun : Sample.twins.foldlM CapacityLedger.record { policy := {} } with
  | error fault =>
    rw [hrun] at haccepted
    cases haccepted
  | ok ledger =>
    have hswap := (hclaim _ _ _ hrun).resources Sample.twins Sample.twins.reverse .rfl
      (List.reverse_perm _)
    exact absurd hswap (by decide +kernel)

end PodFabric
