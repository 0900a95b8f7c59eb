import PodFabric.Proof.Parsing
import PodFabric.Proof.TextFields

/-!
# Printed lines are read back

A line is printed as fields that are joined by blanks, and its words are these fields. Free text at
the end of a line is read back without the blanks at its ends (`reread`).
-/

namespace PodFabric

/-- The bytes of a printed line, without its newline. -/
abbrev lineOf (fields : List Text) : Text := [32].intercalate fields

/-- What is read back of a free text. -/
def reread (t : Text) : Text := trim isBlank (escapeText t)

section Fields
variable {fields front : List Text} {t d view : Text} {tokens : List Token} {i position : ℕ}

/-- A plain field holds no blank. -/
theorem Plain.letters (h : Plain t) : ∀ c ∈ t, isBlank c = false := by
  intro c hc
  have hlt := h.2 c hc
  rw [isBlank, Bool.or_eq_false_iff, decide_eq_false_iff_not, decide_eq_false_iff_not]
  constructor
  · rintro rfl
    exact absurd hlt (by decide)
  · rintro rfl
    exact absurd hlt (by decide)

/-- The words of a printed line are its fields. -/
theorem letters_lineOf (h : ∀ f ∈ fields, Plain f) :
    (words isBlank position (lineOf fields)).map Word.letters = fields :=
  words_intercalate rfl fun f hf => ⟨(h f hf).1, (h f hf).letters⟩

/-- Two groups of fields make one line. -/
theorem lineOf_append (hne : front ≠ []) (hfields : fields ≠ []) :
    lineOf (front ++ fields) = lineOf front ++ 32 :: lineOf fields := by
  induction front with
  | nil => exact absurd rfl hne
  | cons f front ih =>
    cases front with
    | nil =>
      obtain ⟨g, rest, rfl⟩ := List.exists_cons_of_ne_nil hfields
      simp [lineOf]
    | cons g front =>
      have hrest := ih (List.cons_ne_nil _ _)
      simp only [lineOf, List.cons_append, List.intercalate_cons_cons] at hrest ⊢
      rw [hrest]
      simp

/-- What stands behind the words of a line is read back from the place of the first of its own
words. -/
theorem restOfLine_append {ws : List Token} :
    restOfLine (view ++ t) (ws ++ words isBlank view.length t) ws.length = .ok
      (trim isBlank t) := by
  rw [restOfLine]
  cases hwords : words isBlank view.length t with
  | nil => rw [trim_eq_nil hwords, if_pos (by simp)]; rfl
  | cons first rest =>
    obtain ⟨last, hlast⟩ : ∃ last, (words isBlank view.length t).getLast? = some last := by
      rw [hwords]
      exact ⟨_, List.getLast?_eq_some_getLast (List.cons_ne_nil _ _)⟩
    have hhead : (words isBlank view.length t).head? = some first := by rw [hwords]; rfl
    obtain ⟨hlt, hspan⟩ := words_span hhead hlast
    have hfirst := words_within first (hwords ▸ List.mem_cons_self)
    have hwithin := words_within last (List.mem_of_getLast? hlast)
    rw [hwords] at hlast
    have hget : (ws ++ first :: rest)[ws.length]? = some first := by simp
    have hend : (ws ++ first :: rest).getLast? = some last := by
      rw [List.getLast?_append, hlast]
      rfl
    have hstart := hfirst.start
    have hstop := hwithin.stop
    rw [if_neg (by simp), hget, hend]
    change (if last.stop ≤ first.start then _ else _) = _
    rw [if_neg (by omega), viewBetween, if_pos ⟨by omega, by rw [List.length_append]; exact hstop⟩,
      List.drop_append, List.drop_eq_nil_of_le hstart, List.nil_append, hspan]

/-- A line with free text begins with the words of its fields, and the free text is read back. -/
theorem words_free (hplain : ∀ f ∈ front, Plain f) (hne : front ≠ []) :
    ∃ more, (words isBlank 0 (lineOf (front ++ freeField d))).map Word.letters = front ++ more ∧
      restOfLine (lineOf (front ++ freeField d)) (words isBlank 0 (lineOf (front ++ freeField d)))
        front.length = .ok (reread d) := by
  have hlength : (words isBlank 0 (lineOf front)).length = front.length := by
    rw [← List.length_map Word.letters, letters_lineOf hplain]
  rw [freeField]
  split
  · next hempty =>
    rw [List.isEmpty_iff] at hempty
    refine ⟨[], by rw [List.append_nil, letters_lineOf hplain], ?_⟩
    rw [List.append_nil, restOfLine, if_pos (by omega), hempty]
    rfl
  · have hline : lineOf (front ++ [escapeText d]) = lineOf front ++ [32] ++ escapeText d := by
      rw [lineOf_append hne (List.cons_ne_nil _ _)]
      simp [lineOf]
    have hwords : words isBlank 0 (lineOf (front ++ [escapeText d])) =
        words isBlank 0 (lineOf front) ++
          words isBlank (lineOf front ++ [32]).length (escapeText d) := by
      rw [hline, List.append_assoc, List.singleton_append, words_append_blank rfl,
        List.length_append, Nat.zero_add]
      rfl
    refine ⟨(words isBlank (lineOf front ++ [32]).length (escapeText d)).map Word.letters, ?_, ?_⟩
    · rw [hwords, List.map_append, letters_lineOf hplain]
    · rw [hwords, hline, ← hlength]
      exact restOfLine_append

end Fields

/-! ## Accesses -/

section Accesses
variable {α : Type} {parse : Text → Result α} {tokens : List Token} {fields : List Text}
    {i needed : ℕ}
  {a : α} {word message : Text} {prov : Provenance}

/-- The token at a place of a line. -/
theorem tokenAt_eq_ok {t : Text} :
    tokenAt tokens i = .ok t ↔ (tokens.map Word.letters)[i]? = some t := by
  rw [tokenAt, List.getElem?_map]
  cases tokens[i]? with
  | none => simp
  | some w => simp

/-- A field is read when its token is there and parses. -/
theorem readField_eq_ok : readField parse tokens i = .ok a ↔
    ∃ t, (tokens.map Word.letters)[i]? = some t ∧ parse t = .ok a := by
  simp only [readField, bind_eq_ok, tokenAt_eq_ok, Result.lift_eq_ok]

/-- A keyword is found when it stands there and enough follows. -/
theorem keyword_eq_ok {u : Unit} : keyword tokens i word needed message = .ok u ↔
    i + needed ≤ tokens.length ∧ (tokens.map Word.letters)[i]? = some word := by
  rw [keyword]
  split
  · next h => simp [h, bind_eq_ok, tokenAt_eq_ok]
  · next h => simp [h]

/-- A provenance is read back from its fields, without its detail. -/
theorem parseProv_eq_ok (h : (tokens.map Word.letters).drop i = prov.fields ++ fields)
    {prov' : Provenance} : parseProv tokens i = .ok prov' ↔ prov' = { prov with detail := [] } := by
  have hget : ∀ k, (tokens.map Word.letters)[i + k]? = (prov.fields ++ fields)[k]? := fun k => by
    rw [← h, List.getElem?_drop]
  have h0 : (tokens.map Word.letters)[i]? = some prov.quality.toText := hget 0
  have h1 : (tokens.map Word.letters)[i + 1]? = some prov.klass.toText := hget 1
  have h2 : (tokens.map Word.letters)[i + 2]? = some prov.source.toText := hget 2
  have h3 : (tokens.map Word.letters)[i + 3]? = some (decimal prov.sourceSequence.toNat) := hget 3
  have hlength : i + 4 ≤ tokens.length := by
    have hlt := (List.getElem?_eq_some_iff.1 h3).1
    rw [List.length_map] at hlt
    omega
  simp only [parseProv, readOptionalId, bind_eq_ok, ensure_eq_ok, readField_eq_ok, h0, h1, h2, h3,
    Option.some.injEq, exists_eq_left', blankToEmpty_toText, parse_optional_eq_ok,
    parseQuality_toText, parseClass_toText, parseU64_decimal, Except.ok.injEq, pure_eq_ok, hlength,
    true_and, exists_const, exists_eq_left]
  exact eq_comm

end Accesses

end PodFabric
