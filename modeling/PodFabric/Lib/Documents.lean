import PodFabric.Lib.Pieces

/-!
# Documents

A document is made of lines, each closed by a separator. The lines fall into groups, a head with the
lines under it, and the groups into sections, each with its own keyword. All of it is read back from
the document (`joinLines_inj`, `groups_inj`, `sections_inj`).
-/

namespace PodFabric

/-! ## Lines -/

section Lines
variable {α : Type} {sep : α} {lines lines' : List (List α)}

/-- Lines one after the other, each with the separator at its end. -/
def joinLines (sep : α) (lines : List (List α)) : List α := lines.flatMap fun line => line ++ [sep]

/-- No lines join to the empty text. -/
@[simp] theorem joinLines_nil : joinLines sep [] = [] := rfl

/-- The first line stands in front, closed by its separator. -/
@[simp] theorem joinLines_cons {line : List α} :
    joinLines sep (line :: lines) = line ++ sep :: joinLines sep lines := by
  simp [joinLines]

/-- Joined documents stand one behind the other. -/
@[simp] theorem joinLines_append :
    joinLines sep (lines ++ lines') = joinLines sep lines ++ joinLines sep lines' :=
  List.flatMap_append

/-- Lines without the separator can be read back from the joined text. -/
theorem joinLines_inj (hlines : ∀ line ∈ lines, sep ∉ line) (hlines' : ∀ line ∈ lines', sep ∉ line)
    (h : joinLines sep lines = joinLines sep lines') : lines = lines' := by
  induction lines generalizing lines' with
  | nil =>
    cases lines' with
    | nil => rfl
    | cons line' lines' => simp at h
  | cons line lines ih =>
    cases lines' with
    | nil => simp at h
    | cons line' lines' =>
      rw [List.forall_mem_cons] at hlines hlines'
      rw [joinLines_cons, joinLines_cons] at h
      obtain ⟨rfl, hrest⟩ := piece_inj_sep hlines.1 hlines'.1 h
      rw [ih hlines.2 hlines'.2 hrest]

end Lines

/-! ## Groups and sections -/

section Groups
variable {α β γ κ : Type}

/-- A list of groups, each a head with what is under it, is read back from their elements. -/
theorem groups_inj {under : α → Prop} {groups groups' : List (α × List α)}
    (hgroups : ∀ group ∈ groups, ¬ under group.1 ∧ ∀ a ∈ group.2, under a)
    (hgroups' : ∀ group ∈ groups', ¬ under group.1 ∧ ∀ a ∈ group.2, under a)
    (h : groups.flatMap (fun group => group.1 :: group.2) =
      groups'.flatMap fun group => group.1 :: group.2) : groups = groups' := by
  -- what follows a group begins with a head
  have hhead : ∀ groups : List (α × List α),
      (∀ group ∈ groups, ¬ under group.1 ∧ ∀ a ∈ group.2, under a) →
        ∀ a ∈ (groups.flatMap fun group => group.1 :: group.2).head?, ¬ under a := by
    intro groups hgroups a ha
    cases groups with
    | nil => cases ha
    | cons group groups =>
      rw [List.flatMap_cons, List.cons_append, List.head?_cons] at ha
      obtain rfl := Option.some.inj ha
      exact (hgroups group List.mem_cons_self).1
  induction groups generalizing groups' with
  | nil =>
    cases groups' with
    | nil => rfl
    | cons group' groups' => simp at h
  | cons group groups ih =>
    cases groups' with
    | nil => simp at h
    | cons group' groups' =>
      rw [List.forall_mem_cons] at hgroups hgroups'
      rw [List.flatMap_cons, List.flatMap_cons, List.cons_append, List.cons_append,
        List.cons.injEq] at h
      obtain ⟨hunder, hrest⟩ := run_inj hgroups.1.2 hgroups'.1.2 (hhead groups hgroups.2)
        (hhead groups' hgroups'.2) h.2
      rw [Prod.ext h.1 hunder, ih hgroups.2 hgroups'.2 hrest]

/-- Sections with different keywords are read back from their elements. -/
theorem sections_inj {keyword : α → κ} {parts parts' : List (κ × List α)}
    (hkeys : parts.map Prod.fst = parts'.map Prod.fst) (hnodup : (parts.map Prod.fst).Nodup)
    (hparts : ∀ part ∈ parts, ∀ a ∈ part.2, keyword a = part.1)
    (hparts' : ∀ part ∈ parts', ∀ a ∈ part.2, keyword a = part.1)
    (h : parts.flatMap Prod.snd = parts'.flatMap Prod.snd) : parts = parts' := by
  induction parts generalizing parts' with
  | nil =>
    cases parts' with
    | nil => rfl
    | cons part' parts' => cases hkeys
  | cons part parts ih =>
    cases parts' with
    | nil => cases hkeys
    | cons part' parts' =>
      rw [List.map_cons, List.map_cons, List.cons.injEq] at hkeys
      rw [List.map_cons, List.nodup_cons] at hnodup
      rw [List.forall_mem_cons] at hparts hparts'
      -- the other sections have other keywords
      have hother : ∀ parts : List (κ × List α), part.1 ∉ parts.map Prod.fst →
          (∀ part ∈ parts, ∀ a ∈ part.2, keyword a = part.1) →
            ∀ a ∈ (parts.flatMap Prod.snd).head?, keyword a ≠ part.1 := by
        intro parts hnot hparts a ha hkey
        obtain ⟨other, hin, hmem⟩ := List.mem_flatMap.1 (List.mem_of_head? ha)
        refine hnot (List.mem_map.2 ⟨other, hin, ?_⟩)
        rw [← hparts other hin a hmem, hkey]
      have hfirst : ∀ a ∈ part'.2, keyword a = part.1 := fun a ha =>
        (hparts'.1 a ha).trans hkeys.1.symm
      obtain ⟨hsame, hrest⟩ := run_inj hparts.1 hfirst (hother parts hnodup.1 hparts.2)
        (hother parts' (hkeys.2 ▸ hnodup.1) hparts'.2) h
      rw [Prod.ext hkeys.1 hsame, ih hkeys.2 hnodup.2 hparts.2 hparts'.2 hrest]

/-- What a view tells of the elements it tells of a list of them. -/
theorem map_eq_of_view {view : α → β} {told : α → γ} {l l' : List α}
    (htold : ∀ a ∈ l, ∀ b ∈ l', view a = view b → told a = told b) (h : l.map view = l'.map view) :
    l.map told = l'.map told := by
  induction l generalizing l' with
  | nil =>
    cases l' with
    | nil => rfl
    | cons b l' => cases h
  | cons a l ih =>
    cases l' with
    | nil => cases h
    | cons b l' =>
      rw [List.map_cons, List.map_cons, List.cons.injEq] at h
      have hrest : ∀ a ∈ l, ∀ b ∈ l', view a = view b → told a = told b := fun a ha b hb =>
        htold a (List.mem_cons_of_mem _ ha) b (List.mem_cons_of_mem _ hb)
      rw [List.map_cons, List.map_cons, htold a List.mem_cons_self b List.mem_cons_self h.1,
        ih hrest h.2]

end Groups

end PodFabric
