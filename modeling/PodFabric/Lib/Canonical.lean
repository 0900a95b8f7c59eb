import PodFabric.Lib.Order

/-!
# Canonical lists

Sorting and removing duplicates turns a list into a representative of its set of elements
(`canonicalise`): two lists with the same elements have the same canonical form, whatever order
and multiplicity they had. Sorting by a key (`sortOn`) keeps multiplicities and is determined by
the multiset of elements when the key separates them.
-/

namespace PodFabric

open List

section Sorting
variable {α β : Type} [LinearOrder β]

/-- Sorts by a key. Elements with equal keys keep their relative order. -/
def sortOn (key : α → β) (l : List α) : List α :=
  l.insertionSort fun a b => key a ≤ key b

variable {key : α → β} {l l' : List α} {a : α}

/-- Sorting rearranges. -/
theorem sortOn_perm (key : α → β) (l : List α) : sortOn key l ~ l :=
  List.perm_insertionSort _ l

/-- Sorting keeps the elements. -/
@[simp] theorem mem_sortOn {a : α} : a ∈ sortOn key l ↔ a ∈ l :=
  (sortOn_perm key l).mem_iff

/-- Sorting keeps the length. -/
@[simp] theorem length_sortOn : (sortOn key l).length = l.length :=
  (sortOn_perm key l).length_eq

/-- The key is nondecreasing along a sorted list. -/
theorem sortOn_pairwise (key : α → β) (l : List α) :
    (sortOn key l).Pairwise fun a b => key a ≤ key b := by
  have : IsTrans α fun a b => key a ≤ key b := ⟨fun _ _ _ h h' => le_trans h h'⟩
  have : Std.Total fun a b : α => key a ≤ key b := ⟨fun a b => le_total (key a) (key b)⟩
  exact List.pairwise_insertionSort _ l

/-- A list that is already in key order is left alone. -/
theorem sortOn_eq_self (h : l.Pairwise fun a b => key a ≤ key b) : sortOn key l = l :=
  List.Pairwise.insertionSort_eq h

/-- Sorting by a key that separates the elements forgets the order they came in. -/
theorem sortOn_congr (hp : l ~ l') (inj : ∀ a ∈ l, ∀ b ∈ l, key a = key b → a = b) :
    sortOn key l = sortOn key l' := by
  refine List.Perm.eq_of_pairwise (fun a b ha hb h h' => ?_) (sortOn_pairwise key l)
    (sortOn_pairwise key l') (((sortOn_perm key l).trans hp).trans (sortOn_perm key l').symm)
  exact inj a (mem_sortOn.1 ha) b (hp.mem_iff.2 (mem_sortOn.1 hb)) (le_antisymm h h')

/-- Elements that the key tells apart may come in any order. -/
theorem sortOn_distinct (hp : l ~ l') (hkeys : (l.map key).Nodup) : sortOn key l = sortOn key l' :=
  sortOn_congr hp fun _ ha _ hb => List.inj_on_of_nodup_map hkeys ha hb

/-- Sorting commutes with a map that keeps the key. -/
theorem map_sortOn {α' : Type} (key : α → β) (key' : α' → β) (g : α → α')
    (hkey : ∀ a, key' (g a) = key a) : (sortOn key l).map g = sortOn key' (l.map g) :=
  List.map_insertionSort _ _ _ _ fun a _ b _ => by rw [hkey, hkey]

/-- A first element that nothing precedes stays first. -/
theorem sortOn_cons (h : ∀ b ∈ l, key a ≤ key b) : sortOn key (a :: l) = a :: sortOn key l :=
  List.insertionSort_cons_of_forall_rel _ h

/-- A sorted list is sorted already. -/
@[simp] theorem sortOn_sortOn : sortOn key (sortOn key l) = sortOn key l :=
  sortOn_eq_self (sortOn_pairwise key l)

/-- What is not above anything is inserted in front. -/
theorem orderedInsert_first (h : ∀ b ∈ l, key a ≤ key b) :
    l.orderedInsert (fun a b => key a ≤ key b) a = a :: l := by
  cases l with
  | nil => rfl
  | cons b l => exact List.orderedInsert_cons_of_le _ _ (h b List.mem_cons_self)

/-- Filtering commutes with inserting into a sorted list. -/
theorem filter_orderedInsert (p : α → Bool) (hl : l.Pairwise fun a b => key a ≤ key b) :
    (l.orderedInsert (fun a b => key a ≤ key b) a).filter p =
      if p a then (l.filter p).orderedInsert (fun a b => key a ≤ key b) a else l.filter p := by
  induction l with
  | nil => cases hp : p a <;> simp [hp]
  | cons b l ih =>
    obtain ⟨hb, hl⟩ := List.pairwise_cons.1 hl
    by_cases hle : key a ≤ key b
    · have hfirst : ∀ c ∈ (b :: l).filter p, key a ≤ key c := by
        intro c hc
        rcases List.mem_cons.1 (List.mem_filter.1 hc).1 with rfl | hc
        · exact hle
        · exact hle.trans (hb c hc)
      rw [List.orderedInsert_cons_of_le (fun a b => key a ≤ key b) _ hle,
        orderedInsert_first hfirst, List.filter_cons]
    · rw [List.orderedInsert_of_not_le (fun a b => key a ≤ key b) _ hle, List.filter_cons,
        List.filter_cons, ih hl]
      split
      · split
        · rw [List.orderedInsert_of_not_le (fun a b => key a ≤ key b) _ hle]
        · rfl
      · rfl

/-- Sorting keeps its order within any part of the list. -/
theorem filter_sortOn (p : α → Bool) : (sortOn key l).filter p = sortOn key (l.filter p) := by
  induction l with
  | nil => rfl
  | cons a l ih =>
    have hsort : sortOn key (a :: l) =
        (sortOn key l).orderedInsert (fun a b => key a ≤ key b) a := rfl
    rw [hsort, filter_orderedInsert p (sortOn_pairwise key l), ih, List.filter_cons]
    split
    · rfl
    · rfl

/-- Sorted lists are the same when they have the same elements of each key, in the same order.
Induction on the first list: both begin with an element of the lowest key. -/
theorem eq_of_filter {s s' : List α} (hs : s.Pairwise fun a b => key a ≤ key b)
    (hs' : s'.Pairwise fun a b => key a ≤ key b)
    (h : ∀ k, (s.filter fun a => key a = k) = s'.filter fun a => key a = k) : s = s' := by
  have hmem {s s' : List α}
      (h : ∀ k, (s.filter fun a => key a = k) = s'.filter fun a => key a = k) :
      ∀ a ∈ s, a ∈ s' := by
    intro a ha
    have hin : a ∈ s.filter fun b => key b = key a := List.mem_filter.2 ⟨ha, by simp⟩
    rw [h] at hin
    exact (List.mem_filter.1 hin).1
  induction s generalizing s' with
  | nil => exact (List.eq_nil_iff_forall_not_mem.2 fun a ha =>
      List.not_mem_nil (hmem (fun k => (h k).symm) a ha)).symm
  | cons a s ih =>
    cases s' with
    | nil => exact absurd (hmem h a List.mem_cons_self) List.not_mem_nil
    | cons a' s' =>
      obtain ⟨hfirst, hrest⟩ := List.pairwise_cons.1 hs
      obtain ⟨hfirst', hrest'⟩ := List.pairwise_cons.1 hs'
      have hkey : key a = key a' := by
        refine le_antisymm ?_ ?_
        · rcases List.mem_cons.1 (hmem (fun k => (h k).symm) a' List.mem_cons_self) with rfl | hin
          · exact le_refl _
          · exact hfirst a' hin
        · rcases List.mem_cons.1 (hmem h a List.mem_cons_self) with rfl | hin
          · exact le_refl _
          · exact hfirst' a hin
      have hhead := h (key a)
      rw [List.filter_cons_of_pos (by simp), List.filter_cons_of_pos (by simp [hkey]),
        List.cons.injEq] at hhead
      obtain rfl := hhead.1
      refine congrArg (a :: ·) (ih hrest hrest' fun k => ?_)
      have hk := h k
      rw [List.filter_cons, List.filter_cons] at hk
      split at hk
      · exact (List.cons.inj hk).2
      · exact hk

/-- Sorting depends on the elements of each key alone, and on their order among themselves. -/
theorem sortOn_eq_of_filter
    (h : ∀ k, (l.filter fun a => key a = k) = l'.filter fun a => key a = k) :
    sortOn key l = sortOn key l' :=
  eq_of_filter (sortOn_pairwise key l) (sortOn_pairwise key l') fun k => by
    rw [filter_sortOn, filter_sortOn, h]

end Sorting

section Canonical
variable {α : Type} [LinearOrder α]

/-- Removes adjacent repetitions, as `std::unique` followed by `erase` does. -/
def unique : List α → List α
  | [] => []
  | [a] => [a]
  | a :: b :: l => if a = b then unique (b :: l) else a :: unique (b :: l)

/-- Sorts a list by its elements. -/
abbrev sorted (l : List α) : List α := sortOn id l

/-- Sorts a list and removes repetitions. -/
def canonicalise (l : List α) : List α := unique (sorted l)

/-- Dropping repetitions keeps the elements. -/
theorem mem_unique : ∀ {l : List α} {a : α}, a ∈ unique l ↔ a ∈ l
  | [], _ => Iff.rfl
  | [_], _ => Iff.rfl
  | b :: c :: l, a => by
    unfold unique
    split
    · next h => rw [mem_unique, h]; simp
    · simp only [List.mem_cons, mem_unique]

/-- Removing adjacent repetitions from a sorted list leaves a strictly increasing one. -/
theorem unique_pairwise : ∀ {l : List α}, l.Pairwise (· ≤ ·) → (unique l).Pairwise (· < ·)
  | [], _ => .nil
  | [a], _ => List.pairwise_singleton _ a
  | a :: b :: l, h => by
    have htail := (List.pairwise_cons.1 h).2
    unfold unique
    split
    · exact unique_pairwise htail
    · next hab =>
      refine List.pairwise_cons.2 ⟨fun c hc => ?_, unique_pairwise htail⟩
      have hle : a ≤ b := (List.pairwise_cons.1 h).1 b (by simp)
      have hbc : b ≤ c := by
        rcases List.mem_cons.1 (mem_unique.1 hc) with rfl | hc
        · exact le_refl _
        · exact (List.pairwise_cons.1 htail).1 c hc
      exact lt_of_lt_of_le (lt_of_le_of_ne hle hab) hbc

variable {l l' : List α}

/-- The canonical list has the elements of the list. -/
@[simp] theorem mem_canonicalise {a : α} : a ∈ canonicalise l ↔ a ∈ l := by
  rw [canonicalise, mem_unique, mem_sortOn]

/-- The canonical list is strictly ascending. -/
theorem canonicalise_pairwise (l : List α) : (canonicalise l).Pairwise (· < ·) :=
  unique_pairwise (sortOn_pairwise id l)

/-- The canonical list repeats nothing. -/
theorem canonicalise_nodup (l : List α) : (canonicalise l).Nodup :=
  (canonicalise_pairwise l).imp fun h => ne_of_lt h

/-- A canonical list is determined by its elements. -/
theorem canonicalise_eq_of_mem_iff (h : ∀ a, a ∈ l ↔ a ∈ l') :
    canonicalise l = canonicalise l' :=
  List.Perm.eq_of_pairwise (fun _ _ _ _ h h' => absurd h (lt_asymm h')) (canonicalise_pairwise l)
    (canonicalise_pairwise l')
    ((List.perm_ext_iff_of_nodup (canonicalise_nodup l) (canonicalise_nodup l')).2 fun a => by
      rw [mem_canonicalise, mem_canonicalise, h])

/-- A list and a rearrangement of it have the same canonical list. -/
theorem canonicalise_perm (h : l ~ l') : canonicalise l = canonicalise l' :=
  canonicalise_eq_of_mem_iff fun _ => h.mem_iff

/-- A strictly increasing list is its own canonical form. -/
theorem canonicalise_eq_self (h : l.Pairwise (· < ·)) : canonicalise l = l := by
  refine List.Perm.eq_of_pairwise (fun _ _ _ _ h h' => absurd h (lt_asymm h'))
    (canonicalise_pairwise l) h ?_
  refine (List.perm_ext_iff_of_nodup (canonicalise_nodup l) (h.imp fun h => ne_of_lt h)).2 ?_
  exact fun _ => mem_canonicalise

/-- The canonical list of no elements. -/
@[simp] theorem canonicalise_nil : canonicalise ([] : List α) = [] := rfl

/-- Only the empty list has an empty canonical list. -/
theorem canonicalise_eq_nil : canonicalise l = [] ↔ l = [] := by
  simp only [List.eq_nil_iff_forall_not_mem, mem_canonicalise]

end Canonical

/-! ## Lookups -/

section Lookups
variable {α κ : Type} [DecidableEq κ] {key : α → κ} {l l' : List α}

/-- An element is found by its key if no other one has that key. -/
theorem find?_key_eq {a : α} {k : κ} (hkeys : (l.map key).Nodup) (ha : a ∈ l) (hk : key a = k) :
    l.find? (fun b => key b = k) = some a := by
  have hsome : (l.find? fun b => key b = k).isSome = true :=
    List.find?_isSome.2 ⟨a, ha, by simpa using hk⟩
  obtain ⟨b, hb⟩ := Option.isSome_iff_exists.1 hsome
  have hkey : key b = k := by simpa using List.find?_some hb
  rw [hb, List.inj_on_of_nodup_map hkeys (List.mem_of_find?_eq_some hb) ha (hkey.trans hk.symm)]

/-- A lookup by a key that tells the elements apart does not depend on their order. -/
theorem find?_perm (hp : l ~ l') (hkeys : (l.map key).Nodup) (k : κ) :
    l.find? (fun a => key a = k) = l'.find? fun a => key a = k := by
  cases hfind : l.find? fun a => key a = k with
  | none =>
    symm
    rw [List.find?_eq_none] at hfind ⊢
    exact fun a ha => hfind a (hp.mem_iff.2 ha)
  | some a =>
    have hmem := hp.mem_iff.1 (List.mem_of_find?_eq_some hfind)
    exact (find?_key_eq ((hp.map key).nodup_iff.1 hkeys) hmem
      (by simpa using List.find?_some hfind)).symm

/-- The elements of a key do not depend on the order where the key tells the elements apart. -/
theorem filter_key_perm (hp : l ~ l') (hkeys : (l.map key).Nodup) (k : κ) :
    (l.filter fun a => key a = k) = l'.filter fun a => key a = k := by
  have hall (l : List α) : l.Pairwise fun _ _ => True := List.pairwise_of_forall fun _ _ => trivial
  refine List.Perm.eq_of_pairwise (fun a b ha hb _ _ => ?_) (hall _) (hall _) (hp.filter _)
  simp only [List.mem_filter, decide_eq_true_eq] at ha hb
  exact List.inj_on_of_nodup_map hkeys ha.1 (hp.mem_iff.2 hb.1) (ha.2.trans hb.2.symm)

/-- With distinct keys the last element of a key is the first one. -/
theorem findRev?_eq_find? (hkeys : (l.map key).Nodup) (k : κ) :
    l.findRev? (fun a => key a = k) = l.find? fun a => key a = k := by
  rw [List.findRev?_eq_find?_reverse]
  exact (find?_perm l.reverse_perm.symm hkeys k).symm

end Lookups

/-! ## Grouping -/

/-- Taking a list apart by the keys of its elements loses nothing. -/
theorem groups_perm {α κ : Type} [DecidableEq κ] (key : α → κ) : ∀ {keys : List κ} {l : List α},
    keys.Nodup → (∀ x ∈ l, key x ∈ keys) →
      (keys.flatMap fun k => l.filter fun x => key x = k) ~ l
  | [], l, _, hc => by
    cases l with
    | nil => exact .nil
    | cons x l => exact absurd (hc x List.mem_cons_self) List.not_mem_nil
  | k :: keys, l, hn, hc => by
    obtain ⟨hk, hn⟩ := List.nodup_cons.1 hn
    have hrest : (keys.flatMap fun k' => l.filter fun x => key x = k') =
        keys.flatMap fun k' => (l.filter fun x => ¬ key x = k).filter fun x => key x = k' := by
      refine List.flatMap_congr fun k' hk' => ?_
      rw [List.filter_filter]
      refine List.filter_congr fun x _ => ?_
      by_cases hx : key x = k'
      · have hne : k' ≠ k := fun h => hk (h ▸ hk')
        simp [hx, hne]
      · simp [hx]
    have hcover : ∀ x ∈ l.filter (fun x => ¬ key x = k), key x ∈ keys := by
      intro x hx
      obtain ⟨hx, hne⟩ := List.mem_filter.1 hx
      exact (List.mem_cons.1 (hc x hx)).resolve_left (by simpa using hne)
    rw [List.flatMap_cons, hrest]
    refine ((groups_perm key hn hcover).append_left _).trans ?_
    simpa using List.filter_append_perm (fun x => decide (key x = k)) l

end PodFabric
