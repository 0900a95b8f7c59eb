import Mathlib.Data.List.DropRight
import Mathlib.Data.List.TakeWhile

/-!
# Words

A list is read as words that are set apart by blanks. A word knows where it begins, so that the
words of a list and of its parts can be told apart (`words_append_blank`), and a stretch from one
word to another is a part of the list (`words_within`).
-/

namespace PodFabric

/-- A word of a list: where it begins, and its letters. -/
structure Word (α : Type) where
  start : ℕ
  letters : List α
  deriving DecidableEq

namespace Word
variable {α : Type}

/-- The position after the word. -/
def stop (w : Word α) : ℕ := w.start + w.letters.length

/-- A letter in front of some words joins the first of them if it stands right before it. -/
def extend (position : ℕ) (a : α) : List (Word α) → List (Word α)
  | [] => [⟨position, [a]⟩]
  | w :: ws =>
    if w.start = position + 1 then ⟨position, a :: w.letters⟩ :: ws else ⟨position, [a]⟩ :: w :: ws

end Word

/-- The words of a list that begins at a position. -/
def words {α : Type} (blank : α → Bool) : ℕ → List α → List (Word α)
  | _, [] => []
  | position, a :: l =>
    if blank a then words blank (position + 1) l
    else Word.extend position a (words blank (position + 1) l)

section Words
variable {α : Type} {blank : α → Bool} {position : ℕ} {a b : α} {l l' letters : List α} {w : Word α}

/-- An empty line has no words. -/
@[simp] theorem words_nil : words blank position [] = [] := rfl

/-- A leading blank is skipped. -/
theorem words_blank (h : blank a = true) :
    words blank position (a :: l) = words blank (position + 1) l := by
  rw [words, if_pos h]

/-- A leading letter begins a word or extends the one that follows it. -/
theorem words_letter (h : blank a = false) :
    words blank position (a :: l) = Word.extend position a (words blank (position + 1) l) := by
  rw [words, if_neg (by simp [h])]

/-- The words begin at the position or behind it. -/
theorem words_start : ∀ {l : List α} {position : ℕ}, ∀ w ∈ words blank position l, position ≤ w.start
  | [], _, w, hw => by cases hw
  | a :: l, position, w, hw => by
    have hrest := @words_start l (position + 1)
    cases hblank : blank a with
    | true =>
      rw [words_blank hblank] at hw
      exact Nat.le_of_succ_le (hrest w hw)
    | false =>
      rw [words_letter hblank] at hw
      cases hwords : words blank (position + 1) l with
      | nil =>
        rw [hwords, Word.extend, List.mem_singleton] at hw
        rw [hw]
      | cons first rest =>
        rw [hwords] at hrest hw
        simp only [Word.extend] at hw
        split at hw
        · rcases List.mem_cons.1 hw with rfl | hw
          · exact Nat.le_refl _
          · exact Nat.le_of_succ_le (hrest w (List.mem_cons_of_mem _ hw))
        · rcases List.mem_cons.1 hw with rfl | hw
          · exact Nat.le_refl _
          · exact Nat.le_of_succ_le (hrest w hw)

/-- A letter does not reach over a blank. -/
theorem Word.extend_append {ws ws' : List (Word α)} (h : ∀ w ∈ ws', position + 1 < w.start) :
    extend position a (ws ++ ws') = extend position a ws ++ ws' := by
  cases ws with
  | cons w ws =>
    simp only [List.cons_append, extend]
    split <;> rfl
  | nil =>
    cases ws' with
    | nil => rfl
    | cons w ws' =>
      have hfar := h w List.mem_cons_self
      simp only [List.nil_append, extend]
      rw [if_neg (by omega)]
      rfl

/-- A blank sets the words before it apart from those behind it. -/
theorem words_append_blank (hb : blank b = true) : ∀ {l : List α} {position : ℕ},
    words blank position (l ++ b :: l') =
      words blank position l ++ words blank (position + l.length + 1) l'
  | [], position => by simp [words_blank hb]
  | a :: l, position => by
    have hrest := @words_append_blank hb l (position + 1)
    have hposition : position + 1 + l.length + 1 = position + (a :: l).length + 1 := by
      simp only [List.length_cons]
      omega
    rw [hposition] at hrest
    cases hblank : blank a with
    | true => rw [List.cons_append, words_blank hblank, words_blank hblank, hrest]
    | false =>
      rw [List.cons_append, words_letter hblank, words_letter hblank, hrest]
      refine Word.extend_append fun w hw => ?_
      have hstart := words_start w hw
      simp only [List.length_cons] at hstart
      omega

/-- Letters without a blank are one word. -/
theorem words_letters : ∀ {letters : List α} {position : ℕ}, letters ≠ [] →
    (∀ a ∈ letters, blank a = false) → words blank position letters = [⟨position, letters⟩]
  | [], _, hne, _ => absurd rfl hne
  | [a], position, _, hletters => by
    rw [words_letter (hletters a List.mem_cons_self)]
    rfl
  | a :: b :: letters, position, _, hletters => by
    rw [List.forall_mem_cons] at hletters
    rw [words_letter hletters.1, words_letters (List.cons_ne_nil _ _) hletters.2, Word.extend,
      if_pos rfl]

/-- A list without letters has no words. -/
theorem words_blanks : ∀ {l : List α} {position : ℕ}, (∀ a ∈ l, blank a = true) →
    words blank position l = []
  | [], _, _ => rfl
  | a :: l, position, hl => by
    rw [List.forall_mem_cons] at hl
    rw [words_blank hl.1, words_blanks hl.2]

/-- Letters up to the next blank are the first word. -/
theorem words_letters_append (hne : letters ≠ []) (hletters : ∀ a ∈ letters, blank a = false)
    (hrest : ∀ b ∈ l.head?, blank b = true) :
    words blank position (letters ++ l) =
      ⟨position, letters⟩ :: words blank (position + letters.length) l := by
  cases l with
  | nil => rw [List.append_nil, words_letters hne hletters, words_nil]
  | cons b l =>
    have hb : blank b = true := hrest b rfl
    rw [words_append_blank hb, words_letters hne hletters, words_blank hb, List.singleton_append]

/-- The first word of a list is the run of letters behind its leading blanks. -/
theorem words_run (l : List α) (position : ℕ) :
    words blank position l =
      if (l.dropWhile blank).takeWhile (fun a => !blank a) = [] then []
      else ⟨position + (l.takeWhile blank).length, (l.dropWhile blank).takeWhile fun a => !blank a⟩ ::
        words blank (position + (l.takeWhile blank).length +
          ((l.dropWhile blank).takeWhile fun a => !blank a).length)
          ((l.dropWhile blank).dropWhile fun a => !blank a) := by
  induction l generalizing position with
  | nil => rfl
  | cons a l ih =>
    cases hblank : blank a with
    | true =>
      have hshift : position + ((a :: l).takeWhile blank).length =
          position + 1 + (l.takeWhile blank).length := by
        simp only [List.takeWhile_cons, hblank, if_true, List.length_cons]
        omega
      rw [words_blank hblank, ih, hshift, List.dropWhile_cons_of_pos hblank]
    | false =>
      have hnot : ¬ blank a = true := by simp [hblank]
      have hne : (a :: l).takeWhile (fun a => !blank a) ≠ [] := by simp [hblank]
      have hparts : (a :: l).takeWhile (fun a => !blank a) ++ (a :: l).dropWhile (fun a => !blank a) =
          a :: l := List.takeWhile_append_dropWhile
      rw [List.takeWhile_cons_of_neg hnot, List.dropWhile_cons_of_neg hnot, List.length_nil,
        Nat.add_zero, if_neg hne]
      refine (congrArg (words blank position) hparts.symm).trans
        (words_letters_append hne (fun b hb => ?_) fun b hb => ?_)
      · simpa using List.mem_takeWhile_imp hb
      · have hhead := List.head?_dropWhile_not (fun a => !blank a) (a :: l)
        rw [Option.mem_def.1 hb] at hhead
        simpa using hhead

/-- What a word of a list is: a part of it, not empty and without blanks. -/
structure Word.In (blank : α → Bool) (position : ℕ) (l : List α) (w : Word α) : Prop where
  start : position ≤ w.start
  stop : w.stop ≤ position + l.length
  nonempty : w.letters ≠ []
  letters : ∀ a ∈ w.letters, blank a = false
  part : (l.drop (w.start - position)).take w.letters.length = w.letters

/-- A word of the rest of a line is a word of the line. -/
theorem Word.In.cons (h : w.In blank (position + 1) l) : w.In blank position (a :: l) := by
  obtain ⟨hstart, hstop, hne, hletters, hpart⟩ := h
  refine ⟨by omega, ?_, hne, hletters, ?_⟩
  · simp only [List.length_cons]
    omega
  · rw [show w.start - position = (w.start - (position + 1)) + 1 by omega]
    exact hpart

/-- Every word found is a word of the line. Induction on the line. -/
theorem words_within : ∀ {l : List α} {position : ℕ}, ∀ w ∈ words blank position l,
    w.In blank position l
  | [], _, w, hw => by cases hw
  | a :: l, position, w, hw => by
    have hrest := @words_within l (position + 1)
    cases hblank : blank a with
    | true =>
      rw [words_blank hblank] at hw
      exact (hrest w hw).cons
    | false =>
      rw [words_letter hblank] at hw
      have hsingle : (⟨position, [a]⟩ : Word α).In blank position (a :: l) := by
        refine ⟨Nat.le_refl _, ?_, List.cons_ne_nil _ _, by simpa using hblank, by simp⟩
        simp [Word.stop]
      cases hwords : words blank (position + 1) l with
      | nil =>
        rw [hwords, Word.extend, List.mem_singleton] at hw
        exact hw ▸ hsingle
      | cons first rest =>
        rw [hwords] at hrest hw
        simp only [Word.extend] at hw
        split at hw
        · next hfirst =>
          rcases List.mem_cons.1 hw with rfl | hw
          · obtain ⟨-, hstop, -, hletters, hpart⟩ := hrest first List.mem_cons_self
            rw [hfirst, Nat.sub_self, List.drop_zero] at hpart
            refine ⟨Nat.le_refl _, ?_, List.cons_ne_nil _ _, ?_, ?_⟩
            · simp only [Word.stop, List.length_cons] at hstop ⊢
              omega
            · exact List.forall_mem_cons.2 ⟨hblank, hletters⟩
            · simp [hpart]
          · exact (hrest w (List.mem_cons_of_mem _ hw)).cons
        · rcases List.mem_cons.1 hw with rfl | hw
          · exact hsingle
          · exact (hrest w hw).cons

/-! ## Joined words -/

/-- The words of a line that joins words are these. -/
theorem words_intercalate (hb : blank b = true) : ∀ {fields : List (List α)} {position : ℕ},
    (∀ field ∈ fields, field ≠ [] ∧ ∀ a ∈ field, blank a = false) →
      (words blank position ([b].intercalate fields)).map Word.letters = fields
  | [], _, _ => rfl
  | [field], position, h => by
    obtain ⟨hne, hletters⟩ := h field List.mem_cons_self
    rw [List.intercalate_singleton, words_letters hne hletters]
    rfl
  | field :: next :: fields, position, h => by
    obtain ⟨hne, hletters⟩ := h field List.mem_cons_self
    have hrest := @words_intercalate hb (next :: fields) (position + field.length + 1)
      fun field hfield => h field (List.mem_cons_of_mem _ hfield)
    rw [List.intercalate_cons_cons, List.append_assoc, List.singleton_append, words_append_blank hb,
      words_letters hne hletters, List.map_append, hrest]
    rfl

/-! ## The span of the words -/

/-- A letter in front begins a word. -/
theorem words_cons_start (h : blank a = false) :
    ∃ w ws, words blank position (a :: l) = w :: ws ∧ w.start = position := by
  rw [words_letter h]
  cases words blank (position + 1) l with
  | nil => exact ⟨_, _, rfl, rfl⟩
  | cons w ws =>
    simp only [Word.extend]
    split
    · exact ⟨_, _, rfl, rfl⟩
    · exact ⟨_, _, rfl, rfl⟩

/-- Behind a letter there is a word. -/
theorem Word.extend_ne_nil {ws : List (Word α)} : extend position a ws ≠ [] := by
  cases ws with
  | nil => exact List.cons_ne_nil _ _
  | cons w ws =>
    simp only [extend]
    split
    · exact List.cons_ne_nil _ _
    · exact List.cons_ne_nil _ _

/-- A letter at the end is the last one of the last word. -/
theorem words_concat_stop (h : blank a = false) : ∀ {l : List α} {position : ℕ},
    ∃ ws w, words blank position (l ++ [a]) = ws ++ [w] ∧ w.stop = position + l.length + 1
  | [], position => ⟨[], ⟨position, [a]⟩, words_letter h, rfl⟩
  | c :: l, position => by
    obtain ⟨ws, w, hwords, hstop⟩ := @words_concat_stop h l (position + 1)
    have hlength : position + (c :: l).length + 1 = position + 1 + l.length + 1 := by
      simp only [List.length_cons]
      omega
    rw [hlength, ← hstop, List.cons_append]
    cases hc : blank c with
    | true => exact ⟨ws, w, by rw [words_blank hc, hwords], rfl⟩
    | false =>
      rw [words_letter hc, hwords]
      cases ws with
      | nil =>
        rw [List.nil_append, Word.extend]
        split
        · next hnext =>
          refine ⟨[], _, rfl, ?_⟩
          simp only [Word.stop, List.length_cons]
          omega
        · exact ⟨[⟨position, [c]⟩], w, rfl, rfl⟩
      | cons first ws =>
        rw [List.cons_append, Word.extend]
        split
        · exact ⟨_ :: ws, w, rfl, rfl⟩
        · exact ⟨_ :: first :: ws, w, rfl, rfl⟩

/-- A list without the blanks at its ends. -/
def trim (blank : α → Bool) (l : List α) : List α := (l.dropWhile blank).rdropWhile blank

/-- Leading blanks only move the positions. -/
theorem words_blanks_append : ∀ {blanks : List α} {position : ℕ}, (∀ a ∈ blanks, blank a = true) →
    words blank position (blanks ++ l) = words blank (position + blanks.length) l
  | [], _, _ => rfl
  | b :: blanks, position, h => by
    rw [List.forall_mem_cons] at h
    rw [List.cons_append, words_blank h.1, words_blanks_append h.2, List.length_cons,
      Nat.add_right_comm, Nat.add_assoc]

/-- Trailing blanks change nothing. -/
theorem words_append_blanks {blanks : List α} (h : ∀ a ∈ blanks, blank a = true) :
    words blank position (l ++ blanks) = words blank position l := by
  cases blanks with
  | nil => rw [List.append_nil]
  | cons b blanks =>
    rw [List.forall_mem_cons] at h
    rw [words_append_blank h.1, words_blanks h.2, List.append_nil]

/-- The blanks at the ends of a list do not matter for its words. -/
theorem words_trim (l : List α) (position : ℕ) :
    words blank position l = words blank (position + (l.takeWhile blank).length) (trim blank l) ∧
      l = l.takeWhile blank ++ trim blank l ++ (l.dropWhile blank).rtakeWhile blank := by
  have hcut : l = l.takeWhile blank ++ trim blank l ++ (l.dropWhile blank).rtakeWhile blank := by
    rw [List.append_assoc, trim, List.rdropWhile_append_rtakeWhile, List.takeWhile_append_dropWhile]
  refine ⟨?_, hcut⟩
  have hfront : ∀ a ∈ l.takeWhile blank, blank a = true := fun a ha => List.mem_takeWhile_imp ha
  have hback : ∀ a ∈ (l.dropWhile blank).rtakeWhile blank, blank a = true :=
    fun a ha => List.mem_rtakeWhile_imp ha
  calc words blank position l =
      words blank position (l.takeWhile blank ++ (trim blank l ++
          (l.dropWhile blank).rtakeWhile blank)) := by rw [← List.append_assoc, ← hcut]
    _ = _ := by rw [words_blanks_append hfront, words_append_blanks hback]

/-- What is left of a list without the blanks at its ends begins and ends with a letter. -/
theorem trim_ends (hne : trim blank l ≠ []) :
    (∃ a l', trim blank l = a :: l' ∧ blank a = false) ∧
      ∃ l' a, trim blank l = l' ++ [a] ∧ blank a = false := by
  constructor
  · obtain ⟨a, l', htrim⟩ := List.exists_cons_of_ne_nil hne
    refine ⟨a, l', htrim, ?_⟩
    obtain ⟨rest, hrest⟩ := List.rdropWhile_prefix blank (l.dropWhile blank)
    have hhead := List.head?_dropWhile_not blank l
    change trim blank l ++ rest = _ at hrest
    rw [← hrest, htrim] at hhead
    exact hhead
  · have hlast := List.rdropWhile_last_not blank (l.dropWhile blank) hne
    refine ⟨(trim blank l).dropLast, (trim blank l).getLast hne,
      (List.dropLast_append_getLast hne).symm, ?_⟩
    exact Bool.eq_false_iff.2 hlast

/-- A list without words is blank. -/
theorem trim_eq_nil (h : words blank position l = []) : trim blank l = [] := by
  by_contra hne
  obtain ⟨⟨a, l', htrim, ha⟩, -⟩ := trim_ends hne
  rw [(words_trim l position).1, htrim, words_letter ha] at h
  exact Word.extend_ne_nil h

/-- The words of a list span what is left of it without the blanks at its ends. -/
theorem words_span {first last : Word α} (hfirst : (words blank position l).head? = some first)
    (hlast : (words blank position l).getLast? = some last) :
    first.start < last.stop ∧
      (l.drop (first.start - position)).take (last.stop - first.start) = trim blank l := by
  obtain ⟨hwords, hcut⟩ := @words_trim α blank l position
  have hne : trim blank l ≠ [] := fun h => by
    rw [hwords, h, words_nil] at hfirst
    cases hfirst
  obtain ⟨⟨a, l', hfront, ha⟩, l'', z, hback, hz⟩ := trim_ends hne
  have hstart : first.start = position + (l.takeWhile blank).length := by
    obtain ⟨w, ws, hw, hstart⟩ := @words_cons_start _ blank
      (position + (l.takeWhile blank).length) a l' ha
    rw [hwords, hfront, hw, List.head?_cons, Option.some.injEq] at hfirst
    rw [← hfirst, hstart]
  have hstop : last.stop = position + (l.takeWhile blank).length + (trim blank l).length := by
    obtain ⟨ws, w, hw, hstop⟩ := @words_concat_stop _ blank z hz l''
      (position + (l.takeWhile blank).length)
    rw [hwords, hback, hw, List.getLast?_concat, Option.some.injEq] at hlast
    rw [← hlast, hstop, hback, List.length_append, List.length_singleton, Nat.add_assoc]
  have hlength : 0 < (trim blank l).length := List.length_pos_of_ne_nil hne
  refine ⟨by omega, ?_⟩
  rw [hstop, hstart, Nat.add_sub_cancel_left, Nat.add_sub_cancel_left]
  have hrest : l.drop (l.takeWhile blank).length =
      trim blank l ++ (l.dropWhile blank).rtakeWhile blank := by
    calc l.drop (l.takeWhile blank).length =
        (l.takeWhile blank ++ (trim blank l ++ (l.dropWhile blank).rtakeWhile blank)).drop
            (l.takeWhile blank).length := by rw [← List.append_assoc, ← hcut]
      _ = _ := List.drop_left
  rw [hrest, List.take_left]

end Words

end PodFabric
