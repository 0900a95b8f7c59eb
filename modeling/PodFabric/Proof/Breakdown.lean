import Mathlib.Data.List.DropRight
import PodFabric.Proof.Accounting

/-!
# The breakdown by domain

A domain shows the settled claims of the keys it wins, and takes over the status and the reasons
that the pod has accumulated up to the last of them (`domain_find`). Its totals are summed up on
their own, and stop where they overflow, whereas those of the pod skip what does not fit: they agree
just when both leave out the same (`domain_sums_iff`).
-/

namespace PodFabric

open List

/-! ## The domain of a slot -/

/-- The domain to which the counted claim of a slot is attributed. -/
def Slot.wonBy (slot : Slot) : Option DomainId :=
  (settle slot.usable).map fun s => s.winner.domain

/-- The settled claims of a slot, as they are shown. -/
def Slot.settled (slot : Slot) : List CapacityContribution :=
  (settle slot.usable).elim [] fun s => s.winner :: s.dropped

/-- A slot shows its suppressed claims, then its settled ones. -/
theorem shown_eq {slot : Slot} : slot.shown = slot.uncounted ++ slot.settled := by
  unfold Slot.shown Slot.settled
  cases settle slot.usable <;> rfl

/-- The slots that a domain wins. -/
def wonSlots (domain : DomainId) (slots : List Slot) : List Slot :=
  slots.filter fun slot => slot.wonBy = some domain

/-- The slots up to the last one that a domain wins. -/
def uptoWon (domain : DomainId) (slots : List Slot) : List Slot :=
  slots.rdropWhile fun slot => slot.wonBy ≠ some domain

section Find
variable {policy : Policy} {resource : ResourceClass} {f : ResourceFold} {slot : Slot}
  {slots : List Slot} {domain : DomainId}

/-- The loop over the slots of a resource. -/
abbrev foldSlots (policy : Policy) (resource : ResourceClass) (slots : List Slot) : ResourceFold :=
  slots.foldl (ResourceFold.addSlot policy resource) {}

/-- A slot adds its settled claims to the domain that wins it. -/
theorem addSlot_domains : (f.addSlot policy resource slot).domains =
    slot.wonBy.elim f.domains fun domain =>
      f.domains.insert domain { (f.domains.find? domain).getD {} with
        resource, domain
        contributions := ((f.domains.find? domain).getD {}).contributions ++ slot.settled
        status := (f.addSlot policy resource slot).status
        reasons := (f.addSlot policy resource slot).reasons } := by
  unfold Slot.wonBy Slot.settled
  cases hs : settle slot.usable with
  | none => simp [ResourceFold.addSlot, ResourceFold.addUncounted, hs]
  | some s =>
    simp only [ResourceFold.addSlot, hs, ResourceFold.addDomain, checkTotal_domains,
      addCommitted_domains, addTotal_domains]
    rfl

/-- What the loop leaves under a domain that wins a slot. -/
def domainAggregate (policy : Policy) (resource : ResourceClass) (slots : List Slot)
    (domain : DomainId) : CapacityAggregate where
  resource := resource
  domain := domain
  contributions := (wonSlots domain slots).flatMap Slot.settled
  status := (foldSlots policy resource (uptoWon domain slots)).status
  reasons := (foldSlots policy resource (uptoWon domain slots)).reasons

/-- The breakdown has the domains that win a slot. -/
theorem domain_find : (foldSlots policy resource slots).domains.find? domain =
    if wonSlots domain slots = [] then none
    else some (domainAggregate policy resource slots domain) := by
  unfold domainAggregate
  induction slots using List.reverseRecOn with
  | nil => rfl
  | append_singleton slots slot ih =>
    have hfold : foldSlots policy resource (slots ++ [slot]) =
        (foldSlots policy resource slots).addSlot policy resource slot := by
      simp [foldSlots]
    rw [hfold, addSlot_domains]
    by_cases hwon : slot.wonBy = some domain
    · have hupto : uptoWon domain (slots ++ [slot]) = slots ++ [slot] := by
        simp [uptoWon, hwon]
      have hslots : wonSlots domain (slots ++ [slot]) = wonSlots domain slots ++ [slot] := by
        simp [wonSlots, List.filter_append, hwon]
      rw [hupto, hslots, hwon, Option.elim_some, OrderedMap.find?_insert_self, ih, hfold,
        if_neg (List.append_ne_nil_of_right_ne_nil _ (List.cons_ne_nil _ _)), List.flatMap_append,
        List.flatMap_singleton]
      by_cases hnone : wonSlots domain slots = []
      · rw [if_pos hnone, hnone]
        rfl
      · rw [if_neg hnone]
        rfl
    · have hupto : uptoWon domain (slots ++ [slot]) = uptoWon domain slots := by
        simp [uptoWon, hwon]
      have hslots : wonSlots domain (slots ++ [slot]) = wonSlots domain slots := by
        simp [wonSlots, List.filter_append, hwon]
      rw [hupto, hslots, ← ih]
      cases hother : slot.wonBy with
      | none => rfl
      | some other =>
        rw [Option.elim_some, OrderedMap.find?_insert, if_neg]
        exact fun hsame => hwon (hother.trans (congrArg some hsame.symm))

end Find

/-! ## Sums that leave something out -/

/-- A counter after an amount, which it skips if it does not fit. -/
def advance (total amount : ℕ) : ℕ := if total + amount < 2 ^ 64 then total + amount else total

/-- What a counter leaves out that skips the amounts that do not fit. -/
def skipped (total : ℕ) : List ℕ → ℕ
  | [] => 0
  | amount :: rest =>
    if total + amount < 2 ^ 64 then skipped (total + amount) rest else amount + skipped total rest

/-- What two counters leave out that stop together where an amount does not fit one of them. -/
def cutOff (total reserved : ℕ) : List (ℕ × ℕ) → ℕ × ℕ
  | [] => (0, 0)
  | pair :: rest =>
    if total + pair.1 < 2 ^ 64 ∧ reserved + pair.2 < 2 ^ 64 then
      cutOff (total + pair.1) (reserved + pair.2) rest
    else (((pair :: rest).map Prod.fst).sum, ((pair :: rest).map Prod.snd).sum)

/-- Nothing is skipped when everything fits. -/
theorem skipped_of_fits : ∀ {amounts : List ℕ} {total : ℕ}, total + amounts.sum < 2 ^ 64 →
    skipped total amounts = 0
  | [], _, _ => rfl
  | amount :: rest, total, h => by
    rw [List.sum_cons] at h
    rw [skipped, if_pos (by omega)]
    exact skipped_of_fits (by omega)

/-- One amount is counted or skipped. -/
theorem skipped_advance {total amount : ℕ} {rest : List ℕ} :
    skipped total (amount :: rest) + advance total amount =
      skipped (advance total amount) rest + (total + amount) := by
  rw [skipped, advance]
  split <;> omega

/-- Nothing is cut off when everything fits. -/
theorem cutOff_of_fits : ∀ {pairs : List (ℕ × ℕ)} {total reserved : ℕ},
    total + (pairs.map Prod.fst).sum < 2 ^ 64 → reserved + (pairs.map Prod.snd).sum < 2 ^ 64 →
      cutOff total reserved pairs = (0, 0)
  | [], _, _, _, _ => rfl
  | pair :: rest, total, reserved, ht, hr => by
    rw [List.map_cons, List.sum_cons] at ht hr
    rw [cutOff, if_pos ⟨by omega, by omega⟩]
    exact cutOff_of_fits (by omega) (by omega)

/-- A checked sum either fits and is exact, or is refused. -/
theorem toNat_checkedAdd {a b : UInt64} : (∃ c, checkedAdd a b = .ok c ∧
    c.toNat = a.toNat + b.toNat ∧ a.toNat + b.toNat < 2 ^ 64) ∨
      (∃ fault, checkedAdd a b = .error fault) ∧ ¬ a.toNat + b.toNat < 2 ^ 64 := by
  cases h : checkedAdd a b with
  | ok c =>
    obtain ⟨hfits, rfl⟩ := checkedAdd_eq_ok.1 h
    exact .inl ⟨_, rfl, by rw [UInt64.toNat_add, Nat.mod_eq_of_lt hfits], hfits⟩
  | error fault =>
    refine .inr ⟨⟨fault, rfl⟩, fun hfits => ?_⟩
    rw [checkedAdd_eq_ok.2 ⟨hfits, rfl⟩] at h
    cases h

section Sums
variable {policy : Policy} {resource : ResourceClass} {f : ResourceFold} {slot : Slot}
  {slots : List Slot}

/-- The running total advances by the amount if it fits. -/
theorem addTotal_total {amount : UInt64} :
    (f.addTotal amount).total.toNat = advance f.total.toNat amount.toNat := by
  unfold ResourceFold.addTotal advance
  rcases @toNat_checkedAdd f.total amount with ⟨c, hc, hsum, hfits⟩ | ⟨⟨fault, hfault⟩, hover⟩
  · rw [hc, if_pos hfits]
    exact hsum
  · rw [hfault, if_neg hover]

/-- The running reservations advance by the reservation if it fits. -/
theorem addCommitted_committed {reserved : UInt64} :
    (f.addCommitted reserved).committed.toNat = advance f.committed.toNat reserved.toNat := by
  unfold ResourceFold.addCommitted advance
  rcases @toNat_checkedAdd f.committed reserved with ⟨c, hc, hsum, hfits⟩ | ⟨⟨fault, hfault⟩, hover⟩
  · rw [hc, if_pos hfits]
    exact hsum
  · rw [hfault, if_neg hover]

/-- A pass of the loop adds the amounts of its slot, each if it fits. -/
theorem addSlot_sums :
    (f.addSlot policy resource slot).total.toNat = advance f.total.toNat slot.amount ∧
      (f.addSlot policy resource slot).committed.toNat =
        advance f.committed.toNat slot.committed := by
  unfold ResourceFold.addSlot Slot.amount Slot.committed
  cases hs : settle slot.usable with
  | none => exact ⟨(if_pos f.total.toNat_lt).symm, (if_pos f.committed.toNat_lt).symm⟩
  | some s =>
    simp only [ResourceFold.addDomain, checkTotal_total, checkTotal_committed, addCommitted_total,
      addTotal_total, addCommitted_committed, addTotal_committed, Option.elim_some]
    exact ⟨rfl, rfl⟩

/-- The counters of the pod skip what does not fit. -/
theorem foldl_skipped : ∀ {slots : List Slot} {f : ResourceFold},
    (slots.foldl (ResourceFold.addSlot policy resource) f).total.toNat +
        skipped f.total.toNat (slots.map Slot.amount) =
      f.total.toNat + (slots.map Slot.amount).sum ∧
    (slots.foldl (ResourceFold.addSlot policy resource) f).committed.toNat +
        skipped f.committed.toNat (slots.map Slot.committed) =
      f.committed.toNat + (slots.map Slot.committed).sum
  | [], _ => ⟨rfl, rfl⟩
  | slot :: slots, f => by
    obtain ⟨htotal, hcommitted⟩ :=
      @foldl_skipped slots (f.addSlot policy resource slot)
    obtain ⟨hstep, hstep'⟩ := @addSlot_sums policy resource f slot
    have hskip := @skipped_advance f.total.toNat slot.amount (slots.map Slot.amount)
    have hskip' := @skipped_advance f.committed.toNat slot.committed (slots.map Slot.committed)
    rw [hstep] at htotal
    rw [hstep'] at hcommitted
    simp only [List.foldl_cons, List.map_cons, List.sum_cons]
    exact ⟨by omega, by omega⟩

/-- The counters of a domain leave out what comes from the first that does not fit on. -/
theorem domainTotals_cutOff {contributions : List CapacityContribution} {total reserved : UInt64} :
    (domainTotals total reserved contributions).1.toNat +
        (cutOff total.toNat reserved.toNat ((contributions.filter CapacityContribution.counted).map
          fun c => (c.amount.toNat, c.reserved.toNat))).1 =
      total.toNat + countedAmount contributions ∧
    (domainTotals total reserved contributions).2.1.toNat +
        (cutOff total.toNat reserved.toNat ((contributions.filter CapacityContribution.counted).map
          fun c => (c.amount.toNat, c.reserved.toNat))).2 =
      reserved.toNat + countedReserved contributions := by
  induction contributions generalizing total reserved with
  | nil => exact ⟨rfl, rfl⟩
  | cons c rest ih =>
    rw [domainTotals]
    cases hc : c.counted with
    | false =>
      have hamount : countedAmount (c :: rest) = countedAmount rest := by simp [countedAmount, hc]
      have hreserved : countedReserved (c :: rest) = countedReserved rest := by
        simp [countedReserved, hc]
      rw [hamount, hreserved, List.filter_cons_of_neg (by simp [hc]), if_pos (by simp)]
      exact ih
    | true =>
      have hamount : countedAmount (c :: rest) = c.amount.toNat + countedAmount rest := by
        simp [countedAmount, hc]
      have hreserved : countedReserved (c :: rest) = c.reserved.toNat + countedReserved rest := by
        simp [countedReserved, hc]
      rw [hamount, hreserved, List.filter_cons_of_pos hc, if_neg (by simp), List.map_cons, cutOff]
      have hrest : (((rest.filter CapacityContribution.counted).map fun c =>
          (c.amount.toNat, c.reserved.toNat)).map Prod.fst).sum = countedAmount rest ∧
          (((rest.filter CapacityContribution.counted).map fun c =>
          (c.amount.toNat, c.reserved.toNat)).map Prod.snd).sum = countedReserved rest := by
        simp only [List.map_map]
        exact ⟨rfl, rfl⟩
      rcases @toNat_checkedAdd total c.amount with ⟨t, ht, hsum, hfits⟩ | ⟨⟨fault, ht⟩, hover⟩
      · rcases @toNat_checkedAdd reserved c.reserved with
          ⟨r, hr, hsum', hfits'⟩ | ⟨⟨fault, hr⟩, hover⟩
        · rw [ht, hr, if_pos ⟨hfits, hfits'⟩, ← hsum, ← hsum']
          obtain ⟨htotal, hcommitted⟩ := @ih t r
          dsimp only
          omega
        · rw [ht, hr, if_neg fun h => hover h.2]
          simp only [List.map_cons, List.sum_cons, hrest.1, hrest.2, and_self]
      · rw [ht, if_neg fun h => hover h.1]
        simp only [List.map_cons, List.sum_cons, hrest.1, hrest.2, and_self]

end Sums

/-! ## Pod and domains -/

/-- The domains that win a slot, in order. -/
def wonDomains (slots : List Slot) : List DomainId := canonicalise (slots.filterMap Slot.wonBy)

/-- The amounts and reservations that slots add. -/
def Slot.sums (slot : Slot) : ℕ × ℕ := (slot.amount, slot.committed)

section Domains
variable {policy : Policy} {resource : ResourceClass} {slots : List Slot} {domain : DomainId}

/-- A domain is in the breakdown when it wins a slot. -/
theorem mem_wonDomains : domain ∈ wonDomains slots ↔ wonSlots domain slots ≠ [] := by
  rw [wonDomains, mem_canonicalise, List.mem_filterMap, Ne, wonSlots, List.filter_eq_nil_iff]
  simp

/-- The domains of the breakdown are those that win a slot. -/
theorem foldSlots_keys : (foldSlots policy resource slots).domains.keys = wonDomains slots := by
  refine List.Perm.eq_of_pairwise (fun _ _ _ _ h h' => absurd h (lt_asymm h'))
    (List.pairwise_map.2 (foldSlots policy resource slots).domains.ordered)
    (canonicalise_pairwise _) ?_
  refine (List.perm_ext_iff_of_nodup (OrderedMap.nodup_keys _) (canonicalise_nodup _)).2
    fun domain => ?_
  rw [← wonDomains, mem_wonDomains]
  constructor
  · intro hkey hnone
    obtain ⟨e, he, rfl⟩ := List.mem_map.1 hkey
    have hfind := OrderedMap.find?_eq_some.2 he
    rw [domain_find, if_pos hnone] at hfind
    cases hfind
  · intro hwon
    have hfind := @domain_find policy resource slots domain
    rw [if_neg hwon] at hfind
    exact List.mem_map_of_mem (OrderedMap.find?_eq_some.1 hfind)

/-- The breakdown, domain by domain. -/
theorem foldSlots_entries : (foldSlots policy resource slots).domains.entries =
    (wonDomains slots).map fun domain => (domain,
      domainAggregate policy resource slots domain) := by
  rw [← @foldSlots_keys policy resource, OrderedMap.keys, List.map_map]
  refine (List.map_id _).symm.trans (List.map_congr_left fun e he => ?_)
  have hfind := OrderedMap.find?_eq_some.2 he
  rw [domain_find] at hfind
  split at hfind
  · cases hfind
  · exact Prod.ext rfl (Option.some.inj hfind).symm

/-- What the domains win is what the pod settles. -/
theorem sum_wonSlots (g : Slot → ℕ) (hg : ∀ slot, slot.wonBy = none → g slot = 0) :
    ((wonDomains slots).map fun domain => ((wonSlots domain slots).map g).sum).sum =
      (slots.map g).sum := by
  have hsettled : ((slots.filter fun slot => slot.wonBy.isSome).map g).sum = (slots.map g).sum := by
    induction slots with
    | nil => rfl
    | cons slot slots ih =>
      cases hwon : slot.wonBy with
      | none => simp [hwon, hg slot hwon, ih]
      | some domain => simp [hwon, ih]
  have hgroups := groups_perm Slot.wonBy (l := slots.filter fun slot => slot.wonBy.isSome)
    ((canonicalise_nodup (slots.filterMap Slot.wonBy)).map (Option.some_injective _))
    fun slot hslot => by
      obtain ⟨hin, hsome⟩ := List.mem_filter.1 hslot
      obtain ⟨domain, hdomain⟩ := Option.isSome_iff_exists.1 hsome
      rw [hdomain]
      exact List.mem_map_of_mem (mem_canonicalise.2 (List.mem_filterMap.2 ⟨slot, hin, hdomain⟩))
  have hwon (domain : DomainId) :
      ((slots.filter fun slot => slot.wonBy.isSome).filter fun slot => slot.wonBy = some domain) =
        wonSlots domain slots := by
    rw [List.filter_filter]
    refine List.filter_congr fun slot _ => ?_
    cases slot.wonBy <;> simp
  rw [← hsettled, ← (hgroups.map g).sum_eq, List.flatMap_map, List.map_flatMap, List.flatMap_def,
    List.sum_flatten, List.map_map]
  refine congrArg List.sum (List.map_congr_left fun domain _ => ?_)
  rw [Function.comp_apply, hwon]

variable {ledger : CapacityLedger}

/-- The breakdowns, resource by resource and domain by domain. -/
theorem byDomain_eq : ledger.byDomain = ledger.resources.flatMap fun resource =>
    (wonDomains (ledger.slots resource)).map fun domain =>
      finishDomain (domainAggregate ledger.policy resource (ledger.slots resource) domain) := by
  refine List.flatMap_congr fun resource _ => ?_
  rw [CapacityLedger.freezeResource, foldSlots_entries, List.map_map]
  rfl

/-- Finishing a domain's aggregate leaves its resource. -/
@[simp] theorem finishDomain_resource {a : CapacityAggregate} :
    (finishDomain a).resource = a.resource := rfl

/-- The breakdowns of one resource. -/
theorem byDomain_filter (hresource : resource ∈ ledger.resources) :
    (ledger.byDomain.filter fun a => a.resource = resource) =
      (wonDomains (ledger.slots resource)).map fun domain =>
        finishDomain (domainAggregate ledger.policy resource (ledger.slots resource) domain) := by
  obtain ⟨before, after, hsplit⟩ := List.append_of_mem hresource
  have hnodup : ledger.resources.Nodup := canonicalise_nodup _
  rw [hsplit] at hnodup
  have hother {others : List ResourceClass} (hothers : resource ∉ others) :
      (others.flatMap fun resource => (wonDomains (ledger.slots resource)).map fun domain =>
        finishDomain (domainAggregate ledger.policy resource (ledger.slots resource) domain)).filter
          (fun a => a.resource = resource) = [] := by
    refine List.filter_eq_nil_iff.2 fun a ha => ?_
    obtain ⟨other, hin, ha⟩ := List.mem_flatMap.1 ha
    obtain ⟨domain, -, rfl⟩ := List.mem_map.1 ha
    have hne : other ≠ resource := fun hsame => hothers (hsame ▸ hin)
    simp [domainAggregate, hne]
  have hsame : ((wonDomains (ledger.slots resource)).map fun domain =>
      finishDomain (domainAggregate ledger.policy resource (ledger.slots resource) domain)).filter
        (fun a => a.resource = resource) = (wonDomains (ledger.slots resource)).map fun domain =>
      finishDomain (domainAggregate ledger.policy resource (ledger.slots resource) domain) := by
    refine List.filter_eq_self.2 fun a ha => ?_
    obtain ⟨domain, -, rfl⟩ := List.mem_map.1 ha
    simp [domainAggregate]
  rw [byDomain_eq, hsplit, List.flatMap_append, List.flatMap_cons, List.filter_append,
    List.filter_append, hsame, hother, hother, List.nil_append, List.append_nil]
  · exact (List.nodup_cons.1 (List.nodup_append.1 hnodup).2.1).1
  · exact fun hin => (List.nodup_append.1 hnodup).2.2 _ hin _ List.mem_cons_self rfl

end Domains

/-! ## The sums agree -/

/-- What a domain leaves out of its totals. -/
def cutShort (slots : List Slot) (domain : DomainId) : ℕ × ℕ :=
  cutOff 0 0 ((wonSlots domain slots).map Slot.sums)

/-- The counters of the pod leave out as much as those of the domains. -/
structure LeaveOutAlike (slots : List Slot) : Prop where
  amounts : skipped 0 (slots.map Slot.amount) =
    ((wonDomains slots).map fun domain => (cutShort slots domain).1).sum
  reservations : skipped 0 (slots.map Slot.committed) =
    ((wonDomains slots).map fun domain => (cutShort slots domain).2).sum

/-- The breakdowns of a resource add up to its aggregate, and count what it counts. -/
structure CapacityLedger.AddsUp (ledger : CapacityLedger) (a : CapacityAggregate) : Prop where
  total : ((ledger.byDomain.filter fun d => d.resource = a.resource).map
    fun d => d.total.toNat).sum = a.total.toNat
  reserved : ((ledger.byDomain.filter fun d => d.resource = a.resource).map
    fun d => d.reserved.toNat).sum = a.reserved.toNat
  counted : ∀ c ∈ a.contributions, c.counted = true →
    (((ledger.byDomain.filter fun d => d.resource = a.resource).flatMap
      CapacityAggregate.contributions).count c) = 1

section AddsUp
variable {policy : Policy} {resource : ResourceClass} {slots : List Slot} {domain : DomainId}

/-- The settled claims of a slot that counts a claim count what the slot adds. -/
theorem settled_sums {slot : Slot} (hwon : slot.wonBy = some domain) :
    (slot.settled.filter CapacityContribution.counted).map
      (fun c => (c.amount.toNat, c.reserved.toNat)) = [slot.sums] := by
  unfold Slot.settled Slot.sums Slot.amount Slot.committed
  unfold Slot.wonBy at hwon
  cases hs : settle slot.usable with
  | none =>
    rw [hs] at hwon
    cases hwon
  | some s =>
    have hsettled := settle_settled hs
    have hdropped : s.dropped.filter CapacityContribution.counted = [] :=
      List.filter_eq_nil_iff.2 fun c hc => by simp [hsettled.dropped c hc]
    simp [hsettled.counted, hdropped]

/-- The counted amounts of a domain are those of the slots it wins. -/
theorem wonSlots_sums : (((wonSlots domain slots).flatMap Slot.settled).filter
      CapacityContribution.counted).map (fun c => (c.amount.toNat, c.reserved.toNat)) =
    (wonSlots domain slots).map Slot.sums := by
  rw [List.filter_flatMap, List.map_flatMap, List.map_eq_flatMap]
  exact List.flatMap_congr fun slot hslot => settled_sums
    (by simpa using (List.mem_filter.1 hslot).2)

/-- The totals of a domain and what they leave out are what the domain wins. -/
theorem finishDomain_sums :
    (finishDomain (domainAggregate policy resource slots domain)).total.toNat +
        (cutShort slots domain).1 = ((wonSlots domain slots).map Slot.amount).sum ∧
      (finishDomain (domainAggregate policy resource slots domain)).reserved.toNat +
        (cutShort slots domain).2 = ((wonSlots domain slots).map Slot.committed).sum := by
  obtain ⟨htotal, hreserved⟩ :=
    @domainTotals_cutOff ((wonSlots domain slots).flatMap Slot.settled) 0 0
  have hamount : countedAmount ((wonSlots domain slots).flatMap Slot.settled) =
      ((wonSlots domain slots).map Slot.amount).sum := by
    have h := congrArg (fun pairs => (pairs.map Prod.fst).sum) (@wonSlots_sums slots domain)
    simp only [List.map_map] at h
    exact h
  have hcommitted : countedReserved ((wonSlots domain slots).flatMap Slot.settled) =
      ((wonSlots domain slots).map Slot.committed).sum := by
    have h := congrArg (fun pairs => (pairs.map Prod.snd).sum) (@wonSlots_sums slots domain)
    simp only [List.map_map] at h
    exact h
  rw [wonSlots_sums, hamount, UInt64.toNat_zero, Nat.zero_add] at htotal
  rw [wonSlots_sums, hcommitted, UInt64.toNat_zero, Nat.zero_add] at hreserved
  exact ⟨htotal, hreserved⟩

/-- A slot that nobody wins counts nothing. -/
theorem unsettled_sums {slot : Slot} (h : slot.wonBy = none) :
    slot.amount = 0 ∧ slot.committed = 0 := by
  have hnone : settle slot.usable = none := Option.map_eq_none_iff.1 h
  simp [Slot.amount, Slot.committed, hnone]

end AddsUp

section Result
variable {ledger : CapacityLedger} {resource : ResourceClass} {c : CapacityContribution}

/-- What a slot suppresses is not counted. -/
theorem uncounted_of_slots {slot : Slot} (hslot : slot ∈ ledger.slots resource)
    (hc : c ∈ slot.uncounted) : c.counted = false := by
  rw [slots_eq] at hslot
  obtain ⟨key, -, rfl⟩ := List.mem_map.1 hslot
  exact ofEntries_not_counted hc

/-- The domains show a counted contribution as often as the pod does. -/
theorem count_breakdown (hresource : resource ∈ ledger.resources) (hcounted : c.counted = true) :
    ((ledger.byDomain.filter fun d => d.resource = resource).flatMap
        CapacityAggregate.contributions).count c =
      (ledger.freezeResource resource).contributions.count c := by
  have hshown : ∀ slot ∈ ledger.slots resource, slot.shown.count c = slot.settled.count c := by
    intro slot hslot
    have hnone : slot.uncounted.count c = 0 := List.count_eq_zero.2 fun hc => by
      rw [uncounted_of_slots hslot hc] at hcounted
      cases hcounted
    rw [shown_eq, List.count_append, hnone, Nat.zero_add]
  have hdomain (domain : DomainId) : (finishDomain (domainAggregate ledger.policy resource
      (ledger.slots resource) domain)).contributions.count c =
        ((wonSlots domain (ledger.slots resource)).map fun slot => slot.settled.count c).sum := by
    have hperm : (finishDomain (domainAggregate ledger.policy resource
        (ledger.slots resource) domain)).contributions ~
          (wonSlots domain (ledger.slots resource)).flatMap Slot.settled := sortOn_perm id _
    rw [hperm.count_eq, List.count_flatMap]
    rfl
  rw [byDomain_filter hresource, List.flatMap_map, List.count_flatMap,
    freezeResource_tallied.contributions, List.count_flatMap]
  refine (congrArg List.sum (List.map_congr_left fun domain _ => hdomain domain)).trans ?_
  refine (sum_wonSlots (fun slot => slot.settled.count c) fun slot hnone => ?_).trans ?_
  · rw [Slot.settled, Option.map_eq_none_iff.1 hnone]
    rfl
  · exact congrArg List.sum (List.map_congr_left fun slot hslot => (hshown slot hslot).symm)

/-- What the domains count and what they leave out is what the pod counts and leaves out. -/
theorem breakdown_sums {policy : Policy} {slots : List Slot} :
    ((wonDomains slots).map fun domain =>
        (finishDomain (domainAggregate policy resource slots domain)).total.toNat).sum +
      ((wonDomains slots).map fun domain => (cutShort slots domain).1).sum =
        (slots.map Slot.amount).sum ∧
    ((wonDomains slots).map fun domain =>
        (finishDomain (domainAggregate policy resource slots domain)).reserved.toNat).sum +
      ((wonDomains slots).map fun domain => (cutShort slots domain).2).sum =
        (slots.map Slot.committed).sum := by
  rw [← sum_wonSlots Slot.amount fun _ h => (unsettled_sums h).1,
    ← sum_wonSlots Slot.committed fun _ h => (unsettled_sums h).2, ← List.sum_map_add,
    ← List.sum_map_add]
  constructor
  · exact congrArg List.sum (List.map_congr_left fun domain _ => finishDomain_sums.1)
  · exact congrArg List.sum (List.map_congr_left fun domain _ => finishDomain_sums.2)

/-- **The breakdowns add up to the pod just when the counters of both leave out as much.** -/
theorem domain_sums_iff {a : CapacityAggregate} (ha : a ∈ ledger.byResource) :
    ledger.AddsUp a ↔ LeaveOutAlike (ledger.slots a.resource) := by
  obtain ⟨resource, hresource, rfl⟩ := List.mem_map.1 ha
  change _ ↔ LeaveOutAlike (ledger.slots resource)
  obtain ⟨hpod, hpod'⟩ := @foldl_skipped ledger.policy resource (ledger.slots resource) {}
  obtain ⟨hdomains, hdomains'⟩ :=
    @breakdown_sums resource ledger.policy (ledger.slots resource)
  have hfilter : (ledger.byDomain.filter fun d =>
      d.resource = ((ledger.freezeResource resource).finish resource).resource) =
        (wonDomains (ledger.slots resource)).map fun domain =>
          finishDomain (domainAggregate ledger.policy resource (ledger.slots resource) domain) :=
    byDomain_filter hresource
  have htotal : ((ledger.freezeResource resource).finish resource).total.toNat +
      skipped 0 ((ledger.slots resource).map Slot.amount) =
        0 + ((ledger.slots resource).map Slot.amount).sum := hpod
  have hreserved : ((ledger.freezeResource resource).finish resource).reserved.toNat +
      skipped 0 ((ledger.slots resource).map Slot.committed) =
        0 + ((ledger.slots resource).map Slot.committed).sum := hpod'
  constructor
  · intro h
    have hsums := And.intro h.total h.reserved
    rw [hfilter, List.map_map, List.map_map] at hsums
    simp only [Function.comp_def] at hsums
    exact ⟨by omega, by omega⟩
  · rintro ⟨hamounts, hreservations⟩
    refine ⟨?_, ?_, fun c hc hcounted => ?_⟩
    · rw [hfilter, List.map_map]
      simp only [Function.comp_def]
      omega
    · rw [hfilter, List.map_map]
      simp only [Function.comp_def]
      omega
    · have hin : c ∈ (ledger.freezeResource resource).contributions := mem_sortOn.1 hc
      have honce := @contributions_counted ledger resource c.exclusivity
      have hle : (ledger.freezeResource resource).contributions.count c ≤
          (ledger.freezeResource resource).contributions.countP
            fun other => other.counted ∧ other.exclusivity = c.exclusivity :=
        List.countP_mono_left fun other _ hsame => by
          rw [eq_of_beq hsame]
          simpa using hcounted
      have hpos := List.count_pos_iff.2 hin
      refine (count_breakdown hresource hcounted).trans ?_
      split at honce <;> omega

end Result

/-- Nothing is left out of sums that fit the counters. -/
theorem leaveOutAlike_of_fits {slots : List Slot} (h : (slots.map Slot.amount).sum < 2 ^ 64) :
    LeaveOutAlike slots := by
  have hle := sum_committed_le slots
  have hcut (domain : DomainId) : cutShort slots domain = (0, 0) := by
    have hamount : ((wonSlots domain slots).map Slot.amount).sum ≤ (slots.map Slot.amount).sum :=
      (List.filter_sublist.map Slot.amount).sum_le_sum fun _ _ => Nat.zero_le _
    have hcommitted := sum_committed_le (wonSlots domain slots)
    refine cutOff_of_fits ?_ ?_
    · rw [List.map_map, Nat.zero_add]
      exact hamount.trans_lt h
    · rw [List.map_map, Nat.zero_add]
      exact (hcommitted.trans hamount).trans_lt h
  refine ⟨?_, ?_⟩
  · rw [skipped_of_fits (by omega)]
    simp [hcut]
  · rw [skipped_of_fits (by omega)]
    simp [hcut]

namespace Sample

/-- A further failure domain. -/
def cooling : DomainId := idOf "cooling"

/-- A claim of a shelf of its own. -/
def shelf (key : ExclusivityKey) (domain : DomainId) (amount : UInt64) : LedgerClaim where
  resource := bandwidth
  exclusivity := key
  owner := rackA
  amount := amount
  domain := domain

/-- A ledger that admits any amount, with a shelf that fills the counter in one domain and one of a
single unit in another. -/
def brimful : CapacityLedger where
  policy := { maxCapacityAmount := 0xffffffffffffffff, maxCapacityTotal := 0xffffffffffffffff }
  entries := [{ claim := shelf (idOf "first") power 0xffffffffffffffff },
    { claim := shelf (idOf "second") cooling 1 }]

end Sample

/-- The two claims of the sample trunk add up. -/
theorem sample_adds_up : ∃ a ∈ ({ policy := {}, entries := Sample.entries } :
    CapacityLedger).byResource, CapacityLedger.AddsUp
      { policy := {}, entries := Sample.entries } a := by
  have hin : Sample.bandwidth ∈ ({ policy := {}, entries := Sample.entries } :
      CapacityLedger).resources := by decide +kernel
  refine ⟨_, List.mem_map_of_mem hin, (domain_sums_iff (List.mem_map_of_mem hin)).2 ?_⟩
  exact leaveOutAlike_of_fits (by decide +kernel)

/-- The pod skips the single unit, and its domain shows it. -/
theorem brimful_differs : ¬ ∀ (policy : Policy) (entries : List LedgerEntry)
    (ledger : CapacityLedger),
    entries.foldlM CapacityLedger.record { policy } = .ok ledger →
      ∀ a ∈ ledger.byResource, ledger.AddsUp a := by
  intro hclaim
  have haccepted : (Sample.brimful.entries.foldlM CapacityLedger.record
      { policy := Sample.brimful.policy }).isOk = true := by decide +kernel
  cases hrun : Sample.brimful.entries.foldlM CapacityLedger.record
      { policy := Sample.brimful.policy } with
  | error fault =>
    rw [hrun] at haccepted
    cases haccepted
  | ok ledger =>
    obtain rfl : ledger = Sample.brimful := by
      obtain ⟨hpolicy, hentries⟩ := recordAll_eq_ok hrun
      cases ledger
      exact congrArg₂ CapacityLedger.mk hpolicy hentries
    have hin : Sample.bandwidth ∈ Sample.brimful.resources := by decide +kernel
    have htotal := (hclaim _ _ _ hrun _ (List.mem_map_of_mem hin)).total
    exact absurd htotal (by decide +kernel)

end PodFabric
