import PodFabric.Proof.Composition
import PodFabric.Proof.Ledger

/-!
# Accounting

The aggregates of the ledger against a reference that knows nothing of slots and running sums: the
total of a resource is the sum over its physical keys of the least amount a usable claim offers,
each such key is counted once, and each claim is shown once (`ledger_exact`). A sum that does not
fit the counter is never reported as authoritative. The breakdown by domain is no worse than the
aggregate it breaks down (`byDomain_usable`).
-/

namespace PodFabric

open List

namespace CapacityStatus
variable {a b : CapacityStatus}

/-- Statuses of the same severity are equal. -/
theorem severity_injective : Function.Injective severity := by
  intro a b
  cases a <;> cases b <;> decide

/-- The worst of two statuses is as severe as the more severe one. -/
theorem severity_worst (a b : CapacityStatus) :
    (a.worst b).severity = max a.severity b.severity := by
  unfold worst
  split <;> omega

/-- Only `ok` and `deduplicated` let an aggregate be used. -/
theorem isUsable_iff : a.isUsable = true ↔ a.severity ≤ 1 := by
  cases a <;> decide

end CapacityStatus

/-! ## Settling -/

/-- What a contribution shows of its claim, whether or not it is counted. -/
def CapacityContribution.claimed (c : CapacityContribution) : CapacityContribution :=
  { c with reserved := 0, counted := false, notCountedReason := {} }

/-- How a claim is shown. -/
def LedgerClaim.claimed (claim : LedgerClaim) : CapacityContribution :=
  (claim.contribution false {}).claimed

/-- A contribution claims what its claim does. -/
@[simp] theorem contribution_claimed (claim : LedgerClaim) (counted : Bool) (reason : Reason) :
    (claim.contribution counted reason).claimed = claim.claimed := rfl

/-- When no other claim is smaller, the first one's amount stays, and the reservation stays within
it. -/
theorem settleAmounts_of_le : ∀ {others : List LedgerClaim} {amount reserved : UInt64},
    (∀ other ∈ others, amount ≤ other.amount) → reserved ≤ amount →
      (settleAmounts amount reserved others).1 = amount ∧
        (settleAmounts amount reserved others).2 ≤ amount
  | [], _, _, _, hr => ⟨rfl, hr⟩
  | other :: others, amount, reserved, hle, hr => by
    have hmin : min amount other.amount = amount := min_eq_left (hle other List.mem_cons_self)
    have hnext : max reserved (min other.reserved amount) ≤ amount :=
      max_le hr (min_le_right _ _)
    rw [settleAmounts, hmin]
    exact settleAmounts_of_le (fun o ho => hle o (List.mem_cons_of_mem _ ho)) hnext

/-- The settlement of some claims: they are all shown, the counted one at the least amount. -/
structure Settled (usable : List LedgerClaim) (s : Settlement) : Prop where
  shown : (s.winner :: s.dropped).map CapacityContribution.claimed ~ usable.map LedgerClaim.claimed
  counted : s.winner.counted = true
  dropped : ∀ c ∈ s.dropped, c.counted = false
  offered : ∃ claim ∈ usable, claim.amount = s.winner.amount
  least : ∀ claim ∈ usable, s.winner.amount ≤ claim.amount
  reserved : s.winner.reserved ≤ s.winner.amount

/-- What settling returns is what settling means. -/
theorem settle_settled {usable : List LedgerClaim} {s : Settlement} (h : settle usable = some s) :
    Settled usable s := by
  unfold settle at h
  split at h
  · cases h
  · next primary others hsort =>
    cases h
    have hperm : (primary :: others) ~ usable := hsort ▸ sortOn_perm LedgerClaim.rank usable
    have hsorted := hsort ▸ sortOn_pairwise LedgerClaim.rank usable
    have hle : ∀ other ∈ others, primary.amount ≤ other.amount := by
      intro other ho
      have hrank := (List.pairwise_cons.1 hsorted).1 other ho
      exact (Prod.Lex.le_iff.1 hrank).elim le_of_lt fun h => h.1.le
    obtain ⟨hamount, hreserved⟩ := settleAmounts_of_le hle (min_le_right primary.reserved _)
    refine ⟨?_, rfl, ?_, ⟨primary, hperm.mem_iff.1 List.mem_cons_self, hamount.symm⟩, ?_, ?_⟩
    · refine List.Perm.trans (List.Perm.of_eq ?_) (hperm.map LedgerClaim.claimed)
      simp only [List.map_cons, List.map_map]
      refine congrArg₂ List.cons ?_ (List.map_congr_left fun other _ => rfl)
      simp only [CapacityContribution.claimed, hamount]
      rfl
    · intro c hc
      obtain ⟨other, -, rfl⟩ := List.mem_map.1 hc
      rfl
    · intro claim hclaim
      rw [hamount]
      rcases List.mem_cons.1 (hperm.mem_iff.2 hclaim) with rfl | ho
      · exact le_rfl
      · exact hle claim ho
    · rw [hamount]
      exact hreserved

/-- Only a key without usable claims is not settled. -/
theorem settle_eq_none {usable : List LedgerClaim} : settle usable = none ↔ usable = [] := by
  unfold settle
  split
  · next hsort =>
    have hlength := congrArg List.length hsort
    simpa using hlength
  · next primary others hsort =>
    refine iff_of_false (by simp) ?_
    rintro rfl
    cases hsort

/-! ## Slots -/

/-- The usable claims among some entries. -/
def usableClaims (entries : List LedgerEntry) : List LedgerClaim :=
  (entries.filter fun e => e.suppressed.isNone).map LedgerEntry.claim

/-- The usable claims of a slot are those of its entries. -/
theorem ofEntries_usable (entries : List LedgerEntry) :
    (Slot.ofEntries entries).usable = usableClaims entries := by
  unfold Slot.ofEntries usableClaims
  induction entries with
  | nil => rfl
  | cons e entries ih => cases he : e.suppressed <;> simp_all

/-- The contributions of a slot that are not counted are its suppressed claims. -/
theorem ofEntries_uncounted (entries : List LedgerEntry) :
    (Slot.ofEntries entries).uncounted.map CapacityContribution.claimed =
      (entries.filter fun e => e.suppressed.isSome).map fun e => e.claim.claimed := by
  unfold Slot.ofEntries
  induction entries with
  | nil => rfl
  | cons e entries ih => cases he : e.suppressed <;> simp_all

/-- A suppressed claim is not counted. -/
theorem ofEntries_not_counted {entries : List LedgerEntry} {c : CapacityContribution}
    (h : c ∈ (Slot.ofEntries entries).uncounted) : c.counted = false := by
  simp only [Slot.ofEntries, List.mem_filterMap, Option.map_eq_some_iff] at h
  obtain ⟨e, -, reason, -, rfl⟩ := h
  rfl

/-- A slot shows the claims of its entries, each once. -/
theorem shown_claimed (entries : List LedgerEntry) :
    (Slot.ofEntries entries).shown.map CapacityContribution.claimed ~
      entries.map fun e => e.claim.claimed := by
  have husable : (usableClaims entries).map LedgerClaim.claimed =
      (entries.filter fun e => e.suppressed.isNone).map fun e => e.claim.claimed := by
    simp [usableClaims]
  have hsplit : ((entries.filter fun e => e.suppressed.isSome).map fun e => e.claim.claimed) ++
      (usableClaims entries).map LedgerClaim.claimed ~ entries.map fun e => e.claim.claimed := by
    rw [husable]
    refine List.perm_append_comm.trans ?_
    rw [← List.map_append]
    refine List.Perm.map _ ?_
    simpa using List.filter_append_perm (fun e : LedgerEntry => e.suppressed.isNone) entries
  unfold Slot.shown
  rw [List.map_append, ofEntries_uncounted]
  refine (List.Perm.append_left _ ?_).trans hsplit
  rw [ofEntries_usable]
  cases hs : settle (usableClaims entries) with
  | none =>
    rw [settle_eq_none.1 hs]
    exact .nil
  | some s => exact (settle_settled hs).shown

/-- What a slot adds to the total of its resource. -/
def Slot.amount (slot : Slot) : ℕ :=
  (settle slot.usable).elim 0 fun s => s.winner.amount.toNat

/-- What a slot adds to the reservations of its resource. -/
def Slot.committed (slot : Slot) : ℕ :=
  (settle slot.usable).elim 0 fun s => s.winner.reserved.toNat

/-- A slot reserves no more than it offers. -/
theorem Slot.committed_le (slot : Slot) : slot.committed ≤ slot.amount := by
  unfold Slot.committed Slot.amount
  cases hs : settle slot.usable with
  | none => exact le_rfl
  | some s => exact UInt64.le_iff_toNat_le.1 (settle_settled hs).reserved

/-! ## The loop over the slots -/

section Loop
variable {f : ResourceFold} {done : List Slot} {slot : Slot} {policy : Policy}
  {resource : ResourceClass}

/-- What the loop has accumulated over the slots it is done with: the running sums are those of
the slots as long as they fit, and a sum that does not fit is noted in the status. -/
structure Tallied (done : List Slot) (f : ResourceFold) : Prop where
  contributions : f.contributions = done.flatMap Slot.shown
  moderate : f.status.severity ≤ CapacityStatus.conflicting.severity
  total : (done.map Slot.amount).sum < 2 ^ 64 → f.total.toNat = (done.map Slot.amount).sum
  committed : (done.map Slot.amount).sum < 2 ^ 64 →
    f.committed.toNat = (done.map Slot.committed).sum
  overflow : 2 ^ 64 ≤ (done.map Slot.amount).sum →
    CapacityStatus.indeterminate.severity ≤ f.status.severity

/-- The status has not got better, nor so bad that it claims the resource is exhausted. -/
structure Worsens (a b : CapacityStatus) : Prop where
  worse : a.severity ≤ b.severity
  moderate : a.severity ≤ CapacityStatus.conflicting.severity →
    b.severity ≤ CapacityStatus.conflicting.severity

section Worsens
variable {a b c : CapacityStatus}

/-- A status is as bad as itself. -/
theorem Worsens.refl : Worsens a a := ⟨le_rfl, fun h => h⟩

/-- A status that worsens twice worsens. -/
theorem Worsens.trans (h : Worsens a b) (h' : Worsens b c) : Worsens a c :=
  ⟨h.worse.trans h'.worse, fun hm => h'.moderate (h.moderate hm)⟩

/-- Joining a status up to a conflict worsens. -/
theorem Worsens.worst (h : Worsens a b)
    (hc : c.severity ≤ CapacityStatus.conflicting.severity) : Worsens a (b.worst c) := by
  refine h.trans ⟨?_, fun hm => ?_⟩
  · rw [CapacityStatus.severity_worst]
    exact le_max_left _ _
  · rw [CapacityStatus.severity_worst]
    exact max_le hm hc

end Worsens

/-- Contributions that are not counted only worsen the status. -/
theorem foldl_noteUncounted {uncounted : List CapacityContribution} {status : CapacityStatus} :
    Worsens status (uncounted.foldl ResourceFold.noteUncounted status) := by
  induction uncounted generalizing status with
  | nil => exact .refl
  | cons c uncounted ih =>
    have hone : Worsens status (ResourceFold.noteUncounted status c) := by
      have hincomplete : Worsens status (status.worst .incomplete) := Worsens.refl.worst (by decide)
      unfold ResourceFold.noteUncounted
      dsimp only
      split
      · exact hincomplete.worst (by decide)
      · split
        · exact hincomplete.worst (by decide)
        · exact hincomplete
    exact hone.trans ih

/-- An amount joins a running sum, or the status notes that it does not fit. -/
structure Joins (old amount new : UInt64) (status status' : CapacityStatus) : Prop where
  worsens : Worsens status status'
  fits : old.toNat + amount.toNat < 2 ^ 64 → new.toNat = old.toNat + amount.toNat
  overflow : 2 ^ 64 ≤ old.toNat + amount.toNat →
    CapacityStatus.indeterminate.severity ≤ status'.severity

/-- A sum that fits joins the running total and leaves the status. -/
theorem joins_ok {a b c : UInt64} {status : CapacityStatus} (h : checkedAdd a b = .ok c) :
    Joins a b c status status := by
  obtain ⟨hlt, rfl⟩ := checkedAdd_eq_ok.1 h
  refine ⟨.refl, fun _ => ?_, fun hge => absurd hge (not_le.2 hlt)⟩
  rw [UInt64.toNat_add, Nat.mod_eq_of_lt hlt]

/-- A sum that does not fit leaves the running total, and the answer is indeterminate. -/
theorem joins_error {a b : UInt64} {status : CapacityStatus} {fault : Status}
    (h : checkedAdd a b = .error fault) :
    Joins a b a status (status.worst .indeterminate) := by
  have hge : ¬ a.toNat + b.toNat < 2 ^ 64 := by
    intro hlt
    rw [checkedAdd_eq_ok.2 ⟨hlt, rfl⟩] at h
    cases h
  refine ⟨Worsens.refl.worst (by decide), fun hlt => absurd hlt hge, fun _ => ?_⟩
  rw [CapacityStatus.severity_worst]
  exact le_max_right _ _

/-- How an amount joins the running total. -/
theorem addTotal_joins (amount : UInt64) :
    Joins f.total amount (f.addTotal amount).total f.status (f.addTotal amount).status := by
  unfold ResourceFold.addTotal
  cases h : checkedAdd f.total amount with
  | ok total => exact joins_ok h
  | error fault => exact joins_error h

/-- How a reservation joins the running sum. -/
theorem addCommitted_joins (reserved : UInt64) : Joins f.committed reserved
    (f.addCommitted reserved).committed f.status (f.addCommitted reserved).status := by
  unfold ResourceFold.addCommitted
  cases h : checkedAdd f.committed reserved with
  | ok committed => exact joins_ok h
  | error fault => exact joins_error h

/-- An amount leaves the contributions. -/
@[simp] theorem addTotal_contributions (amount : UInt64) :
    (f.addTotal amount).contributions = f.contributions := by
  unfold ResourceFold.addTotal
  split <;> rfl

/-- An amount leaves the reservations. -/
@[simp] theorem addTotal_committed (amount : UInt64) :
    (f.addTotal amount).committed = f.committed := by
  unfold ResourceFold.addTotal
  split <;> rfl

/-- An amount leaves the breakdown. -/
@[simp] theorem addTotal_domains (amount : UInt64) : (f.addTotal amount).domains = f.domains := by
  unfold ResourceFold.addTotal
  split <;> rfl

/-- A reservation leaves the contributions. -/
@[simp] theorem addCommitted_contributions (reserved : UInt64) :
    (f.addCommitted reserved).contributions = f.contributions := by
  unfold ResourceFold.addCommitted
  split <;> rfl

/-- A reservation leaves the total. -/
@[simp] theorem addCommitted_total (reserved : UInt64) :
    (f.addCommitted reserved).total = f.total := by
  unfold ResourceFold.addCommitted
  split <;> rfl

/-- A reservation leaves the breakdown. -/
@[simp] theorem addCommitted_domains (reserved : UInt64) :
    (f.addCommitted reserved).domains = f.domains := by
  unfold ResourceFold.addCommitted
  split <;> rfl

/-- The bound on the total leaves the contributions. -/
@[simp] theorem checkTotal_contributions (limit : UInt64) :
    (f.checkTotal limit).contributions = f.contributions := by
  unfold ResourceFold.checkTotal
  split <;> rfl

/-- The bound on the total leaves the total. -/
@[simp] theorem checkTotal_total (limit : UInt64) : (f.checkTotal limit).total = f.total := by
  unfold ResourceFold.checkTotal
  split <;> rfl

/-- The bound on the total leaves the reservations. -/
@[simp] theorem checkTotal_committed (limit : UInt64) :
    (f.checkTotal limit).committed = f.committed := by
  unfold ResourceFold.checkTotal
  split <;> rfl

/-- The bound on the total leaves the breakdown. -/
@[simp] theorem checkTotal_domains (limit : UInt64) :
    (f.checkTotal limit).domains = f.domains := by
  unfold ResourceFold.checkTotal
  split <;> rfl

/-- The bound on the total only worsens the status. -/
theorem checkTotal_worsens (limit : UInt64) : Worsens f.status (f.checkTotal limit).status := by
  unfold ResourceFold.checkTotal
  split
  · exact Worsens.refl.worst (by decide)
  · exact .refl

/-- Settled claims only worsen the status. -/
theorem addSettled_worsens (s : Settlement) : Worsens f.status (f.addSettled s).status := by
  have hstatus : Worsens f.status
      (if s.dropped ≠ [] ∧ ¬ s.conflict then f.status.worst .deduplicated else f.status) := by
    split
    · exact Worsens.refl.worst (by decide)
    · exact .refl
  unfold ResourceFold.addSettled
  dsimp only
  split
  · exact hstatus.worst (by decide)
  · exact hstatus

/-- What a pass of the loop does to the fold. -/
structure SlotAdded (f f' : ResourceFold) (slot : Slot) : Prop where
  contributions : f'.contributions = f.contributions ++ slot.shown
  worsens : Worsens f.status f'.status
  total : f.total.toNat + slot.amount < 2 ^ 64 → f'.total.toNat = f.total.toNat + slot.amount
  committed : f.committed.toNat + slot.committed < 2 ^ 64 →
    f'.committed.toNat = f.committed.toNat + slot.committed
  overflow : 2 ^ 64 ≤ f.total.toNat + slot.amount →
    CapacityStatus.indeterminate.severity ≤ f'.status.severity

/-- Once the suppressed claims are noted, the rest of the pass makes the status no better. -/
theorem addSlot_uncounted : Worsens (f.addUncounted slot.uncounted).status
    (f.addSlot policy resource slot).status := by
  unfold ResourceFold.addSlot
  dsimp only
  cases settle slot.usable with
  | none => exact Worsens.refl.worst (by decide)
  | some s =>
    exact (addSettled_worsens s).trans ((addTotal_joins _).worsens.trans
      ((addCommitted_joins _).worsens.trans (checkTotal_worsens _)))

/-- A pass of the loop over the slots adds its slot. -/
theorem addSlot_added : SlotAdded f (f.addSlot policy resource slot) slot := by
  have hworsens : Worsens f.status (f.addSlot policy resource slot).status :=
    foldl_noteUncounted.trans addSlot_uncounted
  unfold ResourceFold.addSlot at hworsens ⊢
  dsimp only at hworsens ⊢
  cases hs : settle slot.usable with
  | none =>
    have hamount : slot.amount = 0 := by simp [Slot.amount, hs]
    have hcommitted : slot.committed = 0 := by simp [Slot.committed, hs]
    rw [hs] at hworsens
    refine ⟨?_, hworsens, fun _ => by simp [hamount, ResourceFold.addUncounted],
      fun _ => by simp [hcommitted, ResourceFold.addUncounted], fun hge => ?_⟩
    · simp [ResourceFold.addUncounted, Slot.shown, hs]
    · have hlt := f.total.toNat_lt
      omega
  | some s =>
    have hamount : slot.amount = s.winner.amount.toNat := by simp [Slot.amount, hs]
    have hcommitted : slot.committed = s.winner.reserved.toNat := by simp [Slot.committed, hs]
    rw [hs] at hworsens
    dsimp only at hworsens ⊢
    -- the fold once the claims of the slot are shown
    generalize hg : (f.addUncounted slot.uncounted).addSettled s = g at hworsens ⊢
    have hgtotal : g.total = f.total := by rw [← hg]; rfl
    have hgcommitted : g.committed = f.committed := by rw [← hg]; rfl
    have htotal := @addTotal_joins g s.winner.amount
    have hreserved := @addCommitted_joins (g.addTotal s.winner.amount) s.winner.reserved
    have hcheck := @checkTotal_worsens
      ((g.addTotal s.winner.amount).addCommitted s.winner.reserved) policy.maxCapacityTotal
    rw [addTotal_committed, hgcommitted] at hreserved
    rw [hgtotal] at htotal
    refine ⟨?_, hworsens, fun hlt => ?_, fun hlt => ?_, fun hge => ?_⟩
    · simp only [ResourceFold.addDomain, checkTotal_contributions, addCommitted_contributions,
        addTotal_contributions, ← hg, ResourceFold.addSettled, ResourceFold.addUncounted,
        Slot.shown, hs, List.append_assoc]
    · simp only [ResourceFold.addDomain, checkTotal_total, addCommitted_total]
      rw [hamount] at hlt ⊢
      exact htotal.fits hlt
    · simp only [ResourceFold.addDomain, checkTotal_committed]
      rw [hcommitted] at hlt ⊢
      exact hreserved.fits hlt
    · rw [hamount] at hge
      exact (htotal.overflow hge).trans (hreserved.worsens.trans hcheck).worse

/-- Before the first slot nothing is tallied. -/
theorem Tallied.start : Tallied [] {} :=
  ⟨rfl, by decide, fun _ => rfl, fun _ => rfl, fun h => absurd h (by simp)⟩

/-- The slots reserve no more than they offer. -/
theorem sum_committed_le (slots : List Slot) :
    (slots.map Slot.committed).sum ≤ (slots.map Slot.amount).sum :=
  List.sum_le_sum fun slot _ => slot.committed_le

/-- One pass of the loop keeps the tally. -/
theorem Tallied.addSlot (h : Tallied done f) :
    Tallied (done ++ [slot]) (f.addSlot policy resource slot) := by
  have hstep : SlotAdded f (f.addSlot policy resource slot) slot := addSlot_added
  have hcommitted := sum_committed_le done
  have hslot := slot.committed_le
  have hsum : ((done ++ [slot]).map Slot.amount).sum = (done.map Slot.amount).sum +
      slot.amount := by
    simp
  have hsum' : ((done ++ [slot]).map Slot.committed).sum =
      (done.map Slot.committed).sum + slot.committed := by simp
  refine ⟨?_, hstep.worsens.moderate h.moderate, fun hlt => ?_, fun hlt => ?_, fun hge => ?_⟩
  · rw [hstep.contributions, h.contributions]
    simp
  · rw [hsum] at hlt ⊢
    have htotal := h.total (by omega)
    rw [hstep.total (by omega), htotal]
  · rw [hsum] at hlt
    have hdone := h.committed (by omega)
    rw [hstep.committed (by omega), hdone, hsum']
  · rw [hsum] at hge
    by_cases hlt : (done.map Slot.amount).sum < 2 ^ 64
    · exact hstep.overflow (by rw [h.total hlt]; exact hge)
    · exact (h.overflow (not_lt.1 hlt)).trans hstep.worsens.worse

/-- What every pass keeps holds of the slots the loop is done with. -/
theorem loop_induction {P : List Slot → ResourceFold → Prop}
    (step : ∀ done f slot, P done f → P (done ++ [slot]) (f.addSlot policy resource slot)) :
    ∀ (slots done : List Slot) (f : ResourceFold), P done f →
      P (done ++ slots) (slots.foldl (ResourceFold.addSlot policy resource) f)
  | [], done, f, h => by simpa using h
  | slot :: slots, done, f, h => by
    have hrest := loop_induction step slots (done ++ [slot]) _ (step done f slot h)
    rwa [List.append_assoc] at hrest

/-- The loop over the slots only worsens the status. Induction on the slots. -/
theorem foldl_worsens : ∀ {slots : List Slot} {f : ResourceFold},
    Worsens f.status (slots.foldl (ResourceFold.addSlot policy resource) f).status
  | [], _ => .refl
  | _ :: _, _ => addSlot_added.worsens.trans foldl_worsens

/-- A suppressed claim keeps the aggregate from being authoritative. -/
theorem addSlot_incomplete (h : slot.uncounted ≠ []) :
    CapacityStatus.incomplete.severity ≤ (f.addSlot policy resource slot).status.severity := by
  refine le_trans ?_ addSlot_uncounted.worse
  obtain ⟨c, rest, hcons⟩ := List.exists_cons_of_ne_nil h
  have hone : CapacityStatus.incomplete.severity ≤
      (ResourceFold.noteUncounted f.status c).severity := by
    unfold ResourceFold.noteUncounted
    dsimp only
    split
    · simp only [CapacityStatus.severity_worst, le_max_iff, le_refl, or_true, true_or]
    · split
      · simp only [CapacityStatus.severity_worst, le_max_iff, le_refl, or_true, true_or]
      · simp only [CapacityStatus.severity_worst, le_max_iff, le_refl, or_true]
  unfold ResourceFold.addUncounted
  rw [hcons]
  exact hone.trans foldl_noteUncounted.worse

/-- A suppressed claim leaves the answer incomplete, whatever slots follow. -/
theorem foldl_incomplete {slots : List Slot} (hslot : slot ∈ slots) (hsome : slot.uncounted ≠ []) :
    CapacityStatus.incomplete.severity ≤
      (slots.foldl (ResourceFold.addSlot policy resource) f).status.severity := by
  induction slots generalizing f with
  | nil => cases hslot
  | cons first slots ih =>
    rcases List.mem_cons.1 hslot with rfl | hslot
    · exact (addSlot_incomplete hsome).trans foldl_worsens.worse
    · exact ih hslot

end Loop

/-! ## The reference -/

/-- The entries of a resource. -/
def entriesOf (entries : List LedgerEntry) (resource : ResourceClass) : List LedgerEntry :=
  entries.filter fun e => e.claim.resource = resource

/-- The usable claims of a resource under a key. -/
def claimsOf (entries : List LedgerEntry) (resource : ResourceClass) (key : ExclusivityKey) :
    List LedgerClaim :=
  usableClaims ((entriesOf entries resource).filter fun e => e.claim.exclusivity = key)

/-- The keys of a resource with a usable claim. -/
def usableKeys (entries : List LedgerEntry) (resource : ResourceClass) : Finset ExclusivityKey :=
  ((usableClaims (entriesOf entries resource)).map LedgerClaim.exclusivity).toFinset

/-- The least amount that some claims offer. -/
def leastAmount (claims : List LedgerClaim) : ℕ :=
  ((claims.map fun claim => claim.amount.toNat).min?).getD 0

/-- The total of a resource: each physical key counts once, at the least amount claimed for it. -/
def referenceTotal (entries : List LedgerEntry) (resource : ResourceClass) : ℕ :=
  ∑ key ∈ usableKeys entries resource, leastAmount (claimsOf entries resource key)

section Reference
variable {entries : List LedgerEntry} {resource : ResourceClass} {key : ExclusivityKey}

/-- A slot counts the least amount its usable claims report. -/
theorem amount_ofEntries :
    (Slot.ofEntries entries).amount = leastAmount (usableClaims entries) := by
  unfold Slot.amount leastAmount
  rw [ofEntries_usable]
  cases hs : settle (usableClaims entries) with
  | none => rw [settle_eq_none.1 hs]; rfl
  | some s =>
    have hsettled := settle_settled hs
    obtain ⟨claim, hclaim, hamount⟩ := hsettled.offered
    have hmin : ((usableClaims entries).map fun claim => claim.amount.toNat).min? =
        some s.winner.amount.toNat := by
      rw [List.min?_eq_some_iff]
      refine ⟨List.mem_map.2 ⟨claim, hclaim, by rw [hamount]⟩, fun n hn => ?_⟩
      obtain ⟨other, hother, rfl⟩ := List.mem_map.1 hn
      exact UInt64.le_iff_toNat_le.1 (hsettled.least other hother)
    rw [hmin]
    rfl

/-- A key is usable when it has a usable claim. -/
theorem mem_usableKeys : key ∈ usableKeys entries resource ↔
    claimsOf entries resource key ≠ [] := by
  unfold usableKeys claimsOf usableClaims
  simp only [List.mem_toFinset, List.mem_map, List.mem_filter, exists_exists_and_eq_and, ne_eq,
    List.map_eq_nil_iff, List.filter_eq_nil_iff, not_forall, decide_eq_true_eq, not_not]
  constructor
  · rintro ⟨e, ⟨he, hnone⟩, rfl⟩
    exact ⟨e, ⟨he, rfl⟩, hnone⟩
  · rintro ⟨e, ⟨he, rfl⟩, hnone⟩
    exact ⟨e, ⟨he, hnone⟩, rfl⟩

/-- The keys of a resource, each with a slot. -/
def slotKeys (entries : List LedgerEntry) (resource : ResourceClass) : List ExclusivityKey :=
  canonicalise ((entriesOf entries resource).map fun e => e.claim.exclusivity)

/-- Every entry of a resource has its key among the slots. -/
theorem mem_slotKeys {e : LedgerEntry} (he : e ∈ entriesOf entries resource) :
    e.claim.exclusivity ∈ slotKeys entries resource :=
  mem_canonicalise.2 (List.mem_map_of_mem he)

/-- Every usable key has a slot. -/
theorem usableKeys_subset : usableKeys entries resource ⊆ (slotKeys entries resource).toFinset := by
  intro key hkey
  simp only [usableKeys, usableClaims, List.mem_toFinset, List.mem_map, List.mem_filter] at hkey
  obtain ⟨_, ⟨e, ⟨he, -⟩, rfl⟩, rfl⟩ := hkey
  exact List.mem_toFinset.2 (mem_slotKeys he)

/-- A sum over the slots is one over the keys that count. -/
theorem sum_slotKeys {g : ExclusivityKey → ℕ}
    (hg : ∀ key, claimsOf entries resource key = [] → g key = 0) :
    ((slotKeys entries resource).map g).sum = ∑ key ∈ usableKeys entries resource, g key := by
  have hnodup : (slotKeys entries resource).Nodup := canonicalise_nodup _
  rw [← List.sum_toFinset g hnodup]
  refine (Finset.sum_subset usableKeys_subset fun key _ hkey => hg key ?_).symm
  by_contra hne
  exact hkey (mem_usableKeys.2 hne)

end Reference

/-! ## The aggregates -/

/-- The last step makes the status no better either. -/
theorem finish_worse {f : ResourceFold} {resource : ResourceClass} :
    f.status.severity ≤ (f.finish resource).status.severity := by
  unfold ResourceFold.finish
  dsimp only
  split
  · rw [CapacityStatus.severity_worst]
    exact le_max_left _ _
  · exact le_rfl

section Aggregates
variable {ledger : CapacityLedger} {resource : ResourceClass}

/-- The slots of a resource, key by key. -/
theorem slots_eq : ledger.slots resource = (slotKeys ledger.entries resource).map fun key =>
    Slot.ofEntries ((entriesOf ledger.entries resource).filter fun e =>
      e.claim.exclusivity = key) := rfl

/-- The loop over the slots of a resource, as an induction on the slots done. -/
theorem freezeResource_induction {P : List Slot → ResourceFold → Prop} (start : P [] {})
    (step : ∀ done f slot, P done f →
      P (done ++ [slot]) (f.addSlot ledger.policy resource slot)) :
    P (ledger.slots resource) (ledger.freezeResource resource) :=
  loop_induction step (ledger.slots resource) [] {} start

/-- At its end the loop has tallied all the slots. -/
theorem freezeResource_tallied :
    Tallied (ledger.slots resource) (ledger.freezeResource resource) :=
  freezeResource_induction .start fun _ _ _ h => h.addSlot

/-- The slots offer the reference total. -/
theorem sum_amount : ((ledger.slots resource).map Slot.amount).sum =
    referenceTotal ledger.entries resource := by
  rw [slots_eq, List.map_map, referenceTotal, ← sum_slotKeys]
  · refine congrArg List.sum (List.map_congr_left fun key _ => ?_)
    exact amount_ofEntries
  · intro key hnone
    rw [hnone]
    rfl

/-- A contribution of a slot is under the key of the slot. -/
theorem shown_key {entries : List LedgerEntry} {key : ExclusivityKey}
    (hkey : ∀ e ∈ entries, e.claim.exclusivity = key) {c : CapacityContribution}
    (hc : c ∈ (Slot.ofEntries entries).shown) : c.exclusivity = key := by
  have hclaimed := (shown_claimed entries).mem_iff.1 (List.mem_map_of_mem hc)
  obtain ⟨e, he, hsame⟩ := List.mem_map.1 hclaimed
  exact (congrArg CapacityContribution.exclusivity hsame).symm.trans (hkey e he)

/-- A slot counts one contribution if it has a usable claim. -/
theorem countP_shown (entries : List LedgerEntry) :
    (Slot.ofEntries entries).shown.countP CapacityContribution.counted =
      if usableClaims entries = [] then 0 else 1 := by
  have hnone : (Slot.ofEntries entries).uncounted.countP CapacityContribution.counted = 0 :=
    List.countP_eq_zero.2 fun c hc => by simp [ofEntries_not_counted hc]
  unfold Slot.shown
  rw [List.countP_append, hnone, ofEntries_usable]
  cases hs : settle (usableClaims entries) with
  | none => simp [settle_eq_none.1 hs]
  | some s =>
    have hsettled := settle_settled hs
    have hdropped : s.dropped.countP CapacityContribution.counted = 0 :=
      List.countP_eq_zero.2 fun c hc => by simp [hsettled.dropped c hc]
    have hsome : usableClaims entries ≠ [] := by
      intro hnil
      rw [settle_eq_none.2 hnil] at hs
      cases hs
    rw [List.countP_cons, hdropped, if_pos hsettled.counted, if_neg hsome]

/-- The aggregate of a resource agrees with the reference. -/
structure Accounted (entries : List LedgerEntry) (a : CapacityAggregate) : Prop where
  total : referenceTotal entries a.resource < 2 ^ 64 →
    a.total.toNat = referenceTotal entries a.resource
  reserved : referenceTotal entries a.resource < 2 ^ 64 → a.reserved ≤ a.total
  headroom : referenceTotal entries a.resource < 2 ^ 64 → a.headroom = a.total - a.reserved
  exhausted : referenceTotal entries a.resource < 2 ^ 64 → a.status ≠ .exhausted
  overflow : 2 ^ 64 ≤ referenceTotal entries a.resource →
    a.status ≠ .ok ∧ a.status ≠ .deduplicated
  counted : ∀ key, a.contributions.countP (fun c => c.counted ∧ c.exclusivity = key) =
    if key ∈ usableKeys entries a.resource then 1 else 0
  shown : a.contributions.map CapacityContribution.claimed ~
    (entriesOf entries a.resource).map fun e => e.claim.claimed

/-- Every entry of the resource is shown once, with what it claims. -/
theorem contributions_claimed :
    (ledger.freezeResource resource).contributions.map CapacityContribution.claimed ~
      (entriesOf ledger.entries resource).map fun e => e.claim.claimed := by
  rw [freezeResource_tallied.contributions, slots_eq, List.flatMap_map, List.map_flatMap]
  have hgroups := groups_perm (fun e : LedgerEntry => e.claim.exclusivity)
    (canonicalise_nodup _ : (slotKeys ledger.entries resource).Nodup)
    (fun e (he : e ∈ entriesOf ledger.entries resource) => mem_slotKeys he)
  refine List.Perm.trans ?_ (hgroups.map _)
  rw [List.map_flatMap]
  exact List.Perm.flatMap_left _ fun key _ => shown_claimed _

/-- One claim of every usable key is counted, and none of any other key. -/
theorem contributions_counted (key : ExclusivityKey) :
    (ledger.freezeResource resource).contributions.countP
        (fun c => c.counted ∧ c.exclusivity = key) =
      if key ∈ usableKeys ledger.entries resource then 1 else 0 := by
  have hslot : ∀ key', (Slot.ofEntries ((entriesOf ledger.entries resource).filter fun e =>
      e.claim.exclusivity = key')).shown.countP (fun c => c.counted ∧ c.exclusivity = key) =
        if key' = key ∧ claimsOf ledger.entries resource key' ≠ [] then 1 else 0 := by
    intro key'
    have hexcl : ∀ e ∈ (entriesOf ledger.entries resource).filter (fun e =>
        e.claim.exclusivity = key'), e.claim.exclusivity = key' := fun e he => by
      simpa using (List.mem_filter.1 he).2
    by_cases hk : key' = key
    · have hsame : ∀ c ∈ (Slot.ofEntries ((entriesOf ledger.entries resource).filter fun e =>
          e.claim.exclusivity = key')).shown,
          (decide (c.counted = true ∧ c.exclusivity = key) = true ↔ c.counted = true) :=
        fun c hc => by simp [shown_key hexcl hc, hk]
      rw [List.countP_congr hsame, countP_shown]
      simp only [hk, true_and, claimsOf, ne_eq, ite_not]
    · rw [if_neg (fun h => hk h.1), List.countP_eq_zero]
      intro c hc
      simp [shown_key hexcl hc, hk]
  rw [freezeResource_tallied.contributions, slots_eq, List.flatMap_map, List.countP_flatMap]
  have hsum : ((slotKeys ledger.entries resource).map fun key' =>
      if key' = key ∧ claimsOf ledger.entries resource key' ≠ [] then 1 else 0).sum =
        ∑ key' ∈ usableKeys ledger.entries resource,
          if key' = key ∧ claimsOf ledger.entries resource key' ≠ [] then 1 else 0 :=
    sum_slotKeys fun key' hnil => by simp [hnil]
  refine (congrArg List.sum (List.map_congr_left fun key' _ => hslot key')).trans (hsum.trans ?_)
  have hite : ∀ key' ∈ usableKeys ledger.entries resource,
      (if key' = key ∧ claimsOf ledger.entries resource key' ≠ [] then 1 else 0) =
        if key' = key then 1 else 0 := by
    intro key' hkey'
    simp [mem_usableKeys.1 hkey']
  rw [Finset.sum_congr rfl hite, Finset.sum_ite_eq']

/-- Every aggregate of the frozen ledger accounts for its resource. -/
theorem byResource_accounted {a : CapacityAggregate} (ha : a ∈ ledger.byResource) :
    Accounted ledger.entries a := by
  obtain ⟨resource, -, rfl⟩ := List.mem_map.1 ha
  have htallied := @freezeResource_tallied ledger resource
  have hle := sum_committed_le (ledger.slots resource)
  have hstatus := htallied.moderate
  have htotal := htallied.total
  have hcommitted := htallied.committed
  have hoverflow := htallied.overflow
  rw [sum_amount] at hle htotal hcommitted hoverflow
  have hfits : referenceTotal ledger.entries resource < 2 ^ 64 →
      ¬ (ledger.freezeResource resource).total < (ledger.freezeResource resource).committed := by
    intro hlt hcon
    rw [UInt64.lt_iff_toNat_lt, htotal hlt, hcommitted hlt] at hcon
    omega
  refine ⟨htotal, fun hlt => not_lt.1 (hfits hlt), fun hlt => if_neg (hfits hlt), fun hlt => ?_,
    fun hge => ?_, fun key => ?_, ?_⟩
  · intro hexhausted
    have hsame : (ledger.freezeResource resource).status = .exhausted :=
      (if_neg (hfits hlt)).symm.trans hexhausted
    rw [hsame] at hstatus
    exact absurd hstatus (by decide)
  · have hworse : CapacityStatus.indeterminate.severity ≤
        ((ledger.freezeResource resource).finish resource).status.severity :=
      (hoverflow hge).trans finish_worse
    constructor
    · intro hok
      rw [hok] at hworse
      exact absurd hworse (by decide)
    · intro hdup
      rw [hdup] at hworse
      exact absurd hworse (by decide)
  · rw [← contributions_counted]
    exact (sortOn_perm id _).countP_eq _
  · exact ((sortOn_perm id _).map _).trans contributions_claimed

/-- After any accepted sequence of claims, usable ones and suppressed ones, each resource has an
aggregate, and every aggregate agrees with the reference. -/
theorem ledger_exact {policy : Policy} {entries : List LedgerEntry}
    (h : entries.foldlM CapacityLedger.record { policy } = .ok ledger) :
    (∀ e ∈ entries, ∃ a ∈ ledger.byResource, a.resource = e.claim.resource) ∧
      ∀ a ∈ ledger.byResource, Accounted entries a := by
  have hentries : ledger.entries = entries := by simpa using (recordAll_eq_ok h).2
  refine ⟨fun e he => ?_, fun a ha => hentries ▸ byResource_accounted ha⟩
  refine ⟨_, List.mem_map.2 ⟨e.claim.resource, ?_, rfl⟩, rfl⟩
  exact mem_canonicalise.2 (List.mem_map.2 ⟨e, hentries.symm ▸ he, rfl⟩)

/-- A claim of the trunk that two racks share. -/
def Sample.trunk (owner : RackId) (amount : UInt64) : LedgerClaim where
  resource := Sample.bandwidth
  exclusivity := Sample.idOf "trunk"
  owner := owner
  amount := amount
  reserved := 3
  domain := Sample.power

/-- Two racks report the trunk at different amounts, and a third report is suppressed. -/
def Sample.entries : List LedgerEntry :=
  [{ claim := Sample.trunk Sample.rackA 10 }, { claim := Sample.trunk Sample.rackB 7 },
    { claim := Sample.trunk Sample.rackA 5, suppressed := some ⟨.memberUnhealthy, "down"⟩ }]

/-- The trunk counts once, at the lesser of the two amounts that are usable. -/
theorem sample_ledger : ∃ ledger,
    Sample.entries.foldlM CapacityLedger.record { policy := {} } = .ok ledger ∧
      ∃ a ∈ ledger.byResource, a.total.toNat = 7 ∧ a.reserved ≤ a.total := by
  have hrun : (Sample.entries.foldlM CapacityLedger.record { policy := {} }).isOk = true := by
    decide +kernel
  cases hledger : Sample.entries.foldlM CapacityLedger.record { policy := {} } with
  | error fault => simp [hledger, Except.isOk, Except.toBool] at hrun
  | ok ledger =>
    obtain ⟨hall, hexact⟩ := ledger_exact hledger
    obtain ⟨a, ha, hresource⟩ := hall { claim := Sample.trunk Sample.rackB 7 }
      (by simp [Sample.entries])
    have htotal : referenceTotal Sample.entries a.resource = 7 := by
      rw [hresource]
      decide +kernel
    have hfits : referenceTotal Sample.entries a.resource < 2 ^ 64 := by
      rw [htotal]
      decide
    exact ⟨ledger, rfl, a, ha, ((hexact a ha).total hfits).trans htotal,
      (hexact a ha).reserved hfits⟩

end Aggregates

/-! ## The breakdown by domain -/

/-- The amounts that are counted among some contributions. -/
def countedAmount (contributions : List CapacityContribution) : ℕ :=
  ((contributions.filter CapacityContribution.counted).map fun c => c.amount.toNat).sum

/-- The reservations that are counted among some contributions. -/
def countedReserved (contributions : List CapacityContribution) : ℕ :=
  ((contributions.filter CapacityContribution.counted).map fun c => c.reserved.toNat).sum

/-- The sums over a domain go through as long as they fit. -/
theorem domainTotals_of_fits : ∀ {contributions : List CapacityContribution}
    {total reserved : UInt64}, total.toNat + countedAmount contributions < 2 ^ 64 →
      reserved.toNat + countedReserved contributions < 2 ^ 64 →
      ∃ total' reserved', domainTotals total reserved contributions = (total', reserved', false) ∧
        total'.toNat = total.toNat + countedAmount contributions ∧
        reserved'.toNat = reserved.toNat + countedReserved contributions
  | [], total, reserved, _, _ => ⟨total, reserved, rfl, by simp [countedAmount],
      by simp [countedReserved]⟩
  | c :: rest, total, reserved, ht, hr => by
    rw [domainTotals]
    cases hc : c.counted with
    | false =>
      have hamount : countedAmount (c :: rest) = countedAmount rest := by
        simp [countedAmount, hc]
      have hreserved : countedReserved (c :: rest) = countedReserved rest := by
        simp [countedReserved, hc]
      rw [hamount] at ht ⊢
      rw [hreserved] at hr ⊢
      simpa using domainTotals_of_fits ht hr
    | true =>
      have hamount : countedAmount (c :: rest) = c.amount.toNat + countedAmount rest := by
        simp [countedAmount, hc]
      have hreserved : countedReserved (c :: rest) = c.reserved.toNat + countedReserved rest := by
        simp [countedReserved, hc]
      rw [hamount] at ht ⊢
      rw [hreserved] at hr ⊢
      have htotal : (total + c.amount).toNat = total.toNat + c.amount.toNat := by
        rw [UInt64.toNat_add, Nat.mod_eq_of_lt (by omega)]
      have hcommitted : (reserved + c.reserved).toNat = reserved.toNat + c.reserved.toNat := by
        rw [UInt64.toNat_add, Nat.mod_eq_of_lt (by omega)]
      rw [checkedAdd_eq_ok.2 ⟨by omega, rfl⟩, checkedAdd_eq_ok.2 ⟨by omega, rfl⟩]
      obtain ⟨total', reserved', heq, ht', hr'⟩ :=
        @domainTotals_of_fits rest (total + c.amount) (reserved + c.reserved) (by omega) (by omega)
      exact ⟨total', reserved', by simpa using heq, by omega, by omega⟩

/-- The domains hold no more than the loop has counted, and none is worse off than the pod. -/
structure Spread (done : List Slot) (f : ResourceFold) : Prop where
  status : ∀ e ∈ f.domains.entries, e.2.status.severity ≤ f.status.severity
  amount : ∀ e ∈ f.domains.entries,
    countedAmount e.2.contributions ≤ (done.map Slot.amount).sum
  reserved : ∀ e ∈ f.domains.entries,
    countedReserved e.2.contributions ≤ countedAmount e.2.contributions

section Spread
variable {f : ResourceFold} {done : List Slot} {slot : Slot} {policy : Policy}
  {resource : ResourceClass}

/-- The counted amounts of two lists add up. -/
theorem countedAmount_append (cs cs' : List CapacityContribution) :
    countedAmount (cs ++ cs') = countedAmount cs + countedAmount cs' := by
  simp [countedAmount]

/-- The counted reservations of two lists add up. -/
theorem countedReserved_append (cs cs' : List CapacityContribution) :
    countedReserved (cs ++ cs') = countedReserved cs + countedReserved cs' := by
  simp [countedReserved]

/-- Of the claims of a key, exactly the winner's amounts are counted. -/
theorem Settled.sums {usable : List LedgerClaim} {s : Settlement} (h : Settled usable s) :
    countedAmount (s.winner :: s.dropped) = s.winner.amount.toNat ∧
      countedReserved (s.winner :: s.dropped) = s.winner.reserved.toNat := by
  have hdropped : s.dropped.filter CapacityContribution.counted = [] :=
    List.filter_eq_nil_iff.2 fun c hc => by simp [h.dropped c hc]
  constructor
  · simp [countedAmount, h.counted, hdropped]
  · simp [countedReserved, h.counted, hdropped]

/-- A slot joins the breakdown of the domain that wins it. -/
theorem Spread.addSlot (h : Spread done f) :
    Spread (done ++ [slot]) (f.addSlot policy resource slot) := by
  have hstep : SlotAdded f (f.addSlot policy resource slot) slot := addSlot_added
  have hworse := hstep.worsens.worse
  have hsum : ((done ++ [slot]).map Slot.amount).sum = (done.map Slot.amount).sum +
      slot.amount := by
    simp
  -- an entry that the pass does not touch
  have hold : ∀ e ∈ f.domains.entries,
      e.2.status.severity ≤ (f.addSlot policy resource slot).status.severity ∧
        countedAmount e.2.contributions ≤ ((done ++ [slot]).map Slot.amount).sum ∧
        countedReserved e.2.contributions ≤ countedAmount e.2.contributions := by
    intro e he
    have hamount := h.amount e he
    exact ⟨(h.status e he).trans hworse, by omega, h.reserved e he⟩
  have hall : ∀ e ∈ (f.addSlot policy resource slot).domains.entries,
      e.2.status.severity ≤ (f.addSlot policy resource slot).status.severity ∧
        countedAmount e.2.contributions ≤ ((done ++ [slot]).map Slot.amount).sum ∧
        countedReserved e.2.contributions ≤ countedAmount e.2.contributions := by
    cases hs : settle slot.usable with
    | none =>
      have hsame : (f.addSlot policy resource slot).domains = f.domains := by
        simp [ResourceFold.addSlot, ResourceFold.addUncounted, hs]
      rwa [hsame]
    | some s =>
      have hsettled := settle_settled hs
      have hamount : slot.amount = s.winner.amount.toNat := by simp [Slot.amount, hs]
      have hreserved := UInt64.le_iff_toNat_le.1 hsettled.reserved
      intro e he
      have hfind := OrderedMap.find?_eq_some.2 he
      have hdomains : (f.addSlot policy resource slot).domains =
          f.domains.insert s.winner.domain { (f.domains.find? s.winner.domain).getD {} with
            resource, domain := s.winner.domain
            contributions := ((f.domains.find? s.winner.domain).getD {}).contributions ++
              s.winner :: s.dropped
            status := (f.addSlot policy resource slot).status
            reasons := (f.addSlot policy resource slot).reasons } := by
        simp only [ResourceFold.addSlot, hs, ResourceFold.addDomain, checkTotal_domains,
          addCommitted_domains, addTotal_domains]
        rfl
      rw [hdomains, OrderedMap.find?_insert] at hfind
      split at hfind
      · rw [Option.some.injEq] at hfind
        rw [← hfind]
        dsimp only
        have hprior : countedAmount ((f.domains.find? s.winner.domain).getD {}).contributions ≤
            (done.map Slot.amount).sum ∧
            countedReserved ((f.domains.find? s.winner.domain).getD {}).contributions ≤
              countedAmount ((f.domains.find? s.winner.domain).getD {}).contributions := by
          cases hp : f.domains.find? s.winner.domain with
          | none => exact ⟨Nat.zero_le _, le_rfl⟩
          | some prior =>
            have hmem := OrderedMap.find?_eq_some.1 hp
            exact ⟨h.amount _ hmem, h.reserved _ hmem⟩
        rw [countedAmount_append, countedReserved_append, hsettled.sums.1, hsettled.sums.2]
        exact ⟨le_rfl, by omega, by omega⟩
      · exact hold e (OrderedMap.find?_eq_some.1 hfind)
  exact ⟨fun e he => (hall e he).1, fun e he => (hall e he).2.1, fun e he => (hall e he).2.2⟩

/-- Where the aggregates are usable, so are their breakdowns. -/
theorem byDomain_usable {ledger : CapacityLedger}
    (h : ∀ a ∈ ledger.byResource, a.status.isUsable = true) :
    ∀ a ∈ ledger.byDomain, a.status.isUsable = true := by
  intro a ha
  simp only [CapacityLedger.byDomain, List.mem_flatMap, List.mem_map] at ha
  obtain ⟨resource, hresource, e, he, rfl⟩ := ha
  have hspread : Spread (ledger.slots resource) (ledger.freezeResource resource) :=
    freezeResource_induction
      ⟨by simp [OrderedMap.empty], by simp [OrderedMap.empty], by simp [OrderedMap.empty]⟩
      fun _ _ _ h => h.addSlot
  have htallied := @freezeResource_tallied ledger resource
  have husable := h _ (List.mem_map.2 ⟨resource, hresource, rfl⟩)
  rw [CapacityStatus.isUsable_iff] at husable ⊢
  -- the status of the fold is no worse than that of the aggregate
  have hfold : (ledger.freezeResource resource).status.severity ≤ 1 :=
    finish_worse.trans husable
  have hfits : ((ledger.slots resource).map Slot.amount).sum < 2 ^ 64 := by
    by_contra hge
    exact absurd ((htallied.overflow (not_lt.1 hge)).trans hfold) (by decide)
  have hamount := hspread.amount e he
  have hreserved := hspread.reserved e he
  obtain ⟨total, reserved, htotals, ht, hr⟩ := @domainTotals_of_fits e.2.contributions 0 0
    (by simpa using hamount.trans_lt hfits)
    (by simpa using (hreserved.trans hamount).trans_lt hfits)
  have hle : ¬ total < reserved := by
    rw [UInt64.lt_iff_toNat_lt, ht, hr]
    simp only [UInt64.toNat_zero, zero_add]
    omega
  unfold finishDomain
  simp only [htotals, Bool.false_eq_true, if_false, if_neg hle]
  exact (hspread.status e he).trans hfold

end Spread

section Suppressed
variable {ledger : CapacityLedger}

/-- The resource of a suppressed claim has no usable aggregate. -/
theorem suppressed_unusable {e : LedgerEntry} (he : e ∈ ledger.entries)
    (hs : e.suppressed.isSome = true) : ∃ a ∈ ledger.byResource, a.status.isUsable = false := by
  refine ⟨_, List.mem_map.2 ⟨e.claim.resource, mem_canonicalise.2 (List.mem_map_of_mem he), rfl⟩,
    ?_⟩
  have hentry : e ∈ (entriesOf ledger.entries e.claim.resource).filter fun x =>
      x.claim.exclusivity = e.claim.exclusivity := by
    simp [entriesOf, he]
  have hslot : Slot.ofEntries ((entriesOf ledger.entries e.claim.resource).filter fun x =>
      x.claim.exclusivity = e.claim.exclusivity) ∈ ledger.slots e.claim.resource := by
    rw [slots_eq]
    exact List.mem_map.2 ⟨_, mem_slotKeys (List.mem_filter.1 hentry).1, rfl⟩
  have hsome : (Slot.ofEntries ((entriesOf ledger.entries e.claim.resource).filter fun x =>
      x.claim.exclusivity = e.claim.exclusivity)).uncounted ≠ [] := by
    obtain ⟨reason, hreason⟩ := Option.isSome_iff_exists.1 hs
    refine List.ne_nil_of_mem (a := e.claim.contribution false reason) ?_
    exact List.mem_filterMap.2 ⟨e, hentry, by rw [hreason]; rfl⟩
  have hfold : CapacityStatus.incomplete.severity ≤
      (ledger.freezeResource e.claim.resource).status.severity := foldl_incomplete hslot hsome
  have hworse : CapacityStatus.incomplete.severity ≤ ((ledger.freezeResource
      e.claim.resource).finish e.claim.resource).status.severity :=
    hfold.trans finish_worse
  rw [Bool.eq_false_iff, Ne, CapacityStatus.isUsable_iff]
  intro husable
  exact absurd (hworse.trans husable) (by decide)

end Suppressed

end PodFabric
