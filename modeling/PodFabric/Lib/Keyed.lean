import PodFabric.Lib.Canonical

/-!
# Lists ascending by a key

A list that ascends by a key is determined by what is found under each key, and so is everything
that is gathered from it in order. Two such lists are compared key by key (`flatMap_eq`).
-/

namespace PodFabric

/-- The keys of the elements ascend. -/
def Ascending {α κ : Type} [LinearOrder κ] (key : α → κ) (l : List α) : Prop :=
  (l.map key).Pairwise (· < ·)

instance {α κ : Type} [LinearOrder κ] (key : α → κ) (l : List α) : Decidable (Ascending key l) :=
  inferInstanceAs (Decidable (List.Pairwise _ _))

namespace Ascending
variable {α α' β κ : Type} [LinearOrder κ] {key : α → κ} {key' : α' → κ} {a : α} {k : κ}
  {l l₂ : List α} {l' : List α'} {g : α → List β} {g' : α' → List β}

/-- The keys of an ascending list are distinct. -/
theorem nodup (h : Ascending key l) : (l.map key).Nodup :=
  h.imp fun hlt => ne_of_lt hlt

/-- The rest of an ascending list is ascending. -/
theorem tail (h : Ascending key (a :: l)) : Ascending key l := (List.pairwise_cons.1 h).2

/-- The first key of an ascending list is below all others. -/
theorem head_lt (h : Ascending key (a :: l)) : ∀ b ∈ l, key a < key b := fun _ hb =>
  (List.pairwise_cons.1 h).1 _ (List.mem_map_of_mem hb)

/-- An element is found under its key. -/
theorem find? (h : Ascending key l) (ha : a ∈ l) : l.find? (fun b => key b = key a) = some a :=
  find?_key_eq h.nodup ha rfl

/-- Sorting a list of distinct keys makes it ascend. -/
theorem of_sortOn (h : (l.map key).Nodup) : Ascending key (sortOn key l) := by
  have hnodup : ((sortOn key l).map key).Nodup := ((sortOn_perm key l).map key).nodup_iff.2 h
  rw [Ascending, List.pairwise_map]
  exact (sortOn_pairwise key l).imp₂ (fun _ _ hle hne => lt_of_le_of_ne hle hne)
    (List.pairwise_map.1 hnodup)

/-- A map that keeps the keys keeps the list ascending. -/
theorem of_map {f : α → α} (hf : ∀ a, key (f a) = key a) (h : Ascending key l) :
    Ascending key (l.map f) := by
  rw [Ascending, List.map_map, show key ∘ f = key from funext hf]
  exact h

/-- What is gathered in order, read off what is found under the keys. -/
theorem flatMap_keys (g : α → List β) {keys : List κ} (hkeys : keys.Pairwise (· < ·))
    (h : Ascending key l) (hin : ∀ a ∈ l, key a ∈ keys) :
    l.flatMap g = keys.flatMap fun k => (l.find? fun a => key a = k).elim [] g := by
  induction keys generalizing l with
  | nil =>
    have hnil : l = [] := List.eq_nil_iff_forall_not_mem.2 fun a ha => List.not_mem_nil (hin a ha)
    rw [hnil]
    rfl
  | cons k keys ih =>
    obtain ⟨hfirst, hkeys⟩ := List.pairwise_cons.1 hkeys
    cases l with
    | nil => simp
    | cons a l =>
      by_cases hak : key a = k
      · have hrest : ∀ b ∈ l, key b ∈ keys := by
          intro b hb
          rcases List.mem_cons.1 (hin b (List.mem_cons_of_mem a hb)) with hbk | hb'
          · exact absurd (hak.trans hbk.symm) (ne_of_lt (h.head_lt b hb))
          · exact hb'
        rw [List.flatMap_cons, List.flatMap_cons, ih hkeys h.tail hrest, List.find?_cons_of_pos
          (by simpa using hak)]
        refine congrArg (g a ++ ·) (List.flatMap_congr fun k' hk' => ?_)
        rw [List.find?_cons_of_neg]
        simpa [hak] using ne_of_lt (hfirst k' hk')
      · have hrest : ∀ b ∈ a :: l, key b ∈ keys := by
          have ha : key a ∈ keys := (List.mem_cons.1 (hin a List.mem_cons_self)).resolve_left hak
          intro b hb
          refine (List.mem_cons.1 (hin b hb)).resolve_left fun hbk => ?_
          rcases List.mem_cons.1 hb with rfl | hb
          · exact hak hbk
          · exact lt_asymm (hfirst _ ha) (hbk ▸ h.head_lt b hb)
        have hnone : (a :: l).find? (fun b => key b = k) = none :=
          List.find?_eq_none.2 fun b hb => by
            simpa using ne_of_gt (hfirst _ (hrest b hb))
        rw [ih hkeys h hrest, List.flatMap_cons, hnone]
        rfl

/-- Two lists of which the same is gathered under each key. -/
theorem flatMap_eq (h : Ascending key l) (h' : Ascending key' l')
    (heq : ∀ k, (l.find? fun a => key a = k).elim [] g =
      (l'.find? fun a => key' a = k).elim [] g') : l.flatMap g = l'.flatMap g' := by
  let keys := canonicalise (l.map key ++ l'.map key')
  have hkeys : keys.Pairwise (· < ·) := canonicalise_pairwise _
  rw [h.flatMap_keys g hkeys fun a ha =>
      mem_canonicalise.2 (List.mem_append_left _ (List.mem_map_of_mem ha)),
    h'.flatMap_keys g' hkeys fun a ha =>
      mem_canonicalise.2 (List.mem_append_right _ (List.mem_map_of_mem ha))]
  exact List.flatMap_congr fun k _ => heq k

/-- Two lists of which the same is kept under each key. -/
theorem filterMap_eq {f : α → Option β} {f' : α' → Option β} (h : Ascending key l)
    (h' : Ascending key' l') (heq : ∀ k, (l.find? fun a => key a = k).bind f =
      (l'.find? fun a => key' a = k).bind f') : l.filterMap f = l'.filterMap f' := by
  rw [List.filterMap_eq_flatMap_toList, List.filterMap_eq_flatMap_toList]
  refine h.flatMap_eq h' fun k => ?_
  have hk := congrArg Option.toList (heq k)
  cases hfind : l.find? fun a => key a = k <;> cases hfind' : l'.find? fun a => key' a = k <;>
    simp [hfind, hfind'] at hk ⊢ <;> exact hk

/-- Ascending lists that answer every filtered look-up alike have the same filtered elements. -/
theorem filter_eq {P : α → Bool} (h : Ascending key l) (h₂ : Ascending key l₂)
    (heq : ∀ k, (l.find? fun a => key a = k).filter P = (l₂.find? fun a => key a = k).filter P) :
    l.filter P = l₂.filter P := by
  have hfilter (l : List α) : l.filter P = l.filterMap fun a => (some a).filter P := by
    induction l with
    | nil => rfl
    | cons a l ih => cases hP : P a <;> simp [hP, ih, Option.filter]
  rw [hfilter, hfilter]
  refine h.filterMap_eq h₂ fun k => ?_
  have hk := heq k
  cases hfind : l.find? fun a => key a = k <;> cases hfind₂ : l₂.find? fun a => key a = k <;>
    simp [hfind, hfind₂] at hk ⊢ <;> exact hk

/-- Two lists in which the same is found under each key. -/
theorem ext (h : Ascending key l) (h₂ : Ascending key l₂)
    (heq : ∀ k, (l.find? fun a => key a = k) = l₂.find? fun a => key a = k) : l = l₂ := by
  rw [← List.filter_true l, ← List.filter_true l₂]
  exact h.filter_eq h₂ fun k => by rw [heq k]

/-- The elements made for ascending keys. -/
theorem of_keys {f : κ → α} (hf : ∀ k, key (f k) = k) {keys : List κ}
    (hkeys : keys.Pairwise (· < ·)) : Ascending key (keys.map f) := by
  have hid : (keys.map f).map key = keys := by
    rw [List.map_map]
    conv_rhs => rw [← List.map_id keys]
    exact List.map_congr_left fun k _ => hf k
  rw [Ascending, hid]
  exact hkeys

/-- What is found among the elements made for some keys. -/
theorem find?_keys {f : κ → α} (hf : ∀ k, key (f k) = k) (keys : List κ) (k : κ) :
    (keys.map f).find? (fun a => key a = k) = if k ∈ keys then some (f k) else none := by
  induction keys with
  | nil => rfl
  | cons k' keys ih =>
    rw [List.map_cons]
    by_cases hk : k' = k
    · rw [List.find?_cons_of_pos (by simp [hf, hk])]
      simp [hk]
    · rw [List.find?_cons_of_neg (by simp [hf, hk]), ih]
      simp [show k ≠ k' from fun h => hk h.symm]

end Ascending

/-- What is gathered from a single element of a list. -/
theorem flatMap_single {α β : Type} [DecidableEq α] {a : α} {b : List β} {l : List α}
    (h : l.Nodup) : (l.flatMap fun x => if x = a then b else []) = if a ∈ l then b else [] := by
  induction l with
  | nil => rfl
  | cons x l ih =>
    obtain ⟨hx, hl⟩ := List.nodup_cons.1 h
    rw [List.flatMap_cons, ih hl]
    by_cases hxa : x = a
    · subst hxa
      simp [hx]
    · simp [hxa, show a ≠ x from fun h => hxa h.symm]

end PodFabric
