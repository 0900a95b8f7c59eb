import PodFabric.Lib.Canonical

/-!
# Ordered maps

A finite map whose entries are kept in key order, each key once. The order is a field of the
structure, so two maps with the same lookups are equal (`OrderedMap.ext_find`).
-/

namespace PodFabric

/-- A finite map in key order (`std::map`). -/
structure OrderedMap (κ ν : Type) [LinearOrder κ] where
  entries : List (κ × ν) := []
  ordered : entries.Pairwise fun a b => a.1 < b.1 := by simp

namespace OrderedMap

section Basic
variable {κ ν : Type} [LinearOrder κ]

/-- Maps with the same entries are equal. -/
theorem ext_entries : ∀ {m m' : OrderedMap κ ν}, m.entries = m'.entries → m = m'
  | ⟨_, _⟩, ⟨_, _⟩, rfl => rfl

instance [DecidableEq ν] : DecidableEq (OrderedMap κ ν) := fun m m' =>
  decidable_of_iff (m.entries = m'.entries) ⟨ext_entries, fun h => h ▸ rfl⟩

/-- The map without entries. -/
def empty : OrderedMap κ ν := {}

instance : Inhabited (OrderedMap κ ν) := ⟨empty⟩

/-- The value of a key. -/
def find? (m : OrderedMap κ ν) (k : κ) : Option ν :=
  (m.entries.find? fun e => e.1 = k).map Prod.snd

/-- Sets the value of a key. -/
def insert (m : OrderedMap κ ν) (k : κ) (v : ν) : OrderedMap κ ν where
  entries := m.entries.filter (fun e => e.1 < k) ++ (k, v) :: m.entries.filter fun e => k < e.1
  ordered := by
    refine List.pairwise_append.2 ⟨m.ordered.filter _, ?_, ?_⟩
    · exact List.pairwise_cons.2 ⟨by simp, m.ordered.filter _⟩
    · rintro a ha b hb
      simp only [List.mem_filter, decide_eq_true_eq] at ha
      rcases List.mem_cons.1 hb with rfl | hb
      · exact ha.2
      · simp only [List.mem_filter, decide_eq_true_eq] at hb
        exact ha.2.trans hb.2

/-- Removes a key. -/
def erase (m : OrderedMap κ ν) (k : κ) : OrderedMap κ ν where
  entries := m.entries.filter fun e => e.1 ≠ k
  ordered := m.ordered.filter _

/-- The map of a list of entries; of entries with one key the last is kept. -/
def ofList (l : List (κ × ν)) : OrderedMap κ ν :=
  l.foldl (fun m e => m.insert e.1 e.2) empty

/-- The keys, in ascending order. -/
def keys (m : OrderedMap κ ν) : List κ := m.entries.map Prod.fst

end Basic

section Lemmas
variable {κ ν : Type} [LinearOrder κ] {m m' : OrderedMap κ ν} {k k' : κ} {v v' : ν}

/-- No key is bound twice. -/
theorem nodup_keys (m : OrderedMap κ ν) : m.keys.Nodup :=
  List.pairwise_map.2 (m.ordered.imp fun h => ne_of_lt h)

/-- Two entries of one key are the same entry. -/
theorem entry_unique (h : (k, v) ∈ m.entries) (h' : (k, v') ∈ m.entries) : v = v' :=
  congrArg Prod.snd (List.inj_on_of_nodup_map m.nodup_keys h h' rfl)

/-- A key is bound to a value exactly when the pair is an entry. -/
theorem find?_eq_some : m.find? k = some v ↔ (k, v) ∈ m.entries := by
  unfold find?
  constructor
  · intro h
    obtain ⟨⟨k', v'⟩, hf, rfl⟩ := Option.map_eq_some_iff.1 h
    have hk : k' = k := by simpa using List.find?_some hf
    exact hk ▸ List.mem_of_find?_eq_some hf
  · intro h
    cases hf : m.entries.find? (fun e => e.1 = k) with
    | none => exact absurd (List.find?_eq_none.1 hf _ h) (by simp)
    | some e =>
      have hk : e.1 = k := by simpa using List.find?_some hf
      have he : (k, e.2) ∈ m.entries := hk ▸ List.mem_of_find?_eq_some hf
      exact congrArg some (entry_unique he h)

/-- A map is determined by its lookups. -/
theorem ext_find (h : ∀ k, m.find? k = m'.find? k) : m = m' := by
  have hmem : ∀ e, e ∈ m.entries ↔ e ∈ m'.entries := fun e => by
    rw [← find?_eq_some, h, find?_eq_some]
  refine ext_entries (List.Perm.eq_of_pairwise (fun a b _ _ h h' => absurd h (lt_asymm h'))
    m.ordered m'.ordered ?_)
  exact (List.perm_ext_iff_of_nodup m.nodup_keys.of_map m'.nodup_keys.of_map).2 hmem

/-- The empty map binds nothing. -/
@[simp] theorem find?_empty : (empty : OrderedMap κ ν).find? k = none := rfl

/-- An insertion binds its key and no other. -/
theorem find?_insert (m : OrderedMap κ ν) (k k' : κ) (v : ν) :
    (m.insert k v).find? k' = if k' = k then some v else m.find? k' := by
  have hmem : ∀ w, (k', w) ∈ (m.insert k v).entries ↔
      (k' = k ∧ w = v) ∨ (k' ≠ k ∧ (k', w) ∈ m.entries) := fun w => by
    simp only [insert, List.mem_append, List.mem_cons, List.mem_filter, decide_eq_true_eq,
      Prod.mk.injEq]
    rcases lt_trichotomy k' k with h | h | h
    · simp [h, h.ne, h.not_gt]
    · simp [h]
    · simp [h, h.ne', h.not_gt]
  ext w
  rw [find?_eq_some, hmem]
  split
  · next h => simp [h, eq_comm]
  · next h => simp [h, find?_eq_some]

/-- An inserted key is bound to its value. -/
@[simp] theorem find?_insert_self : (m.insert k v).find? k = some v := by
  rw [find?_insert, if_pos rfl]

/-- An erasure unbinds its key and no other. -/
theorem find?_erase (m : OrderedMap κ ν) (k k' : κ) :
    (m.erase k).find? k' = if k' = k then none else m.find? k' := by
  ext w
  rw [find?_eq_some]
  simp only [erase, List.mem_filter, decide_eq_true_eq]
  split
  · next h => simp [h]
  · next h => simp [h, find?_eq_some]

/-- An erased key is not bound. -/
@[simp] theorem find?_erase_self : (m.erase k).find? k = none := by
  rw [find?_erase, if_pos rfl]

/-- Setting a key to the value it has changes nothing. -/
theorem insert_eq_self (h : m.find? k = some v) : m.insert k v = m := by
  refine ext_find fun k' => ?_
  rw [find?_insert]
  split
  · next hk => rw [hk, h]
  · rfl

/-- Removing a key that is not there changes nothing. -/
theorem erase_eq_self (h : m.find? k = none) : m.erase k = m := by
  refine ext_find fun k' => ?_
  rw [find?_erase]
  split
  · next hk => rw [hk, h]
  · rfl

/-- The value of a key in the map of a list of entries with distinct keys, laid over another. -/
theorem find?_insertAll : ∀ {l : List (κ × ν)} {m : OrderedMap κ ν}, (l.map Prod.fst).Nodup →
    (l.foldl (fun m e => m.insert e.1 e.2) m).find? k =
      ((l.find? fun e => e.1 = k).map Prod.snd).or (m.find? k)
  | [], m, _ => rfl
  | e :: l, m, h => by
    obtain ⟨hnew, h⟩ := List.nodup_cons.1 h
    rw [List.foldl_cons, find?_insertAll h, find?_insert]
    by_cases hk : e.1 = k
    · have hnone : l.find? (fun e => e.1 = k) = none := by
        refine List.find?_eq_none.2 fun e' he' => ?_
        have hne : e'.1 ≠ k := fun h' => hnew (hk.trans h'.symm ▸ List.mem_map_of_mem he')
        simpa using hne
      simp [hnone, hk]
    · have hk' : ¬ k = e.1 := fun h' => hk h'.symm
      simp [hk, hk']

/-- A map is the map of its entries. -/
@[simp] theorem ofList_entries : ofList m.entries = m := by
  refine ext_find fun k => ?_
  unfold ofList
  rw [find?_insertAll m.nodup_keys, find?_empty, Option.or_none]
  rfl

end Lemmas

end OrderedMap

end PodFabric
