import PodFabric.Proof.TextRecords

/-!
# The lines of a document

A rendered snapshot falls into the lines of its records (`cuts_toText`). If it is read at all, its
records are what the parser makes of these lines one after the other (`fold_of_read`).
-/

namespace PodFabric

/-! ## Cutting a text into lines -/

/-- The text ends with a newline, and these are the lines it is cut into. -/
def Cuts (t : Text) (lines : List Text) : Prop :=
  ∀ rest : Text, (t ++ rest).splitOn 10 = lines ++ rest.splitOn 10

section Cuts
variable {t t' d : Text} {lines lines' fields : List Text}

/-- The empty text has no lines. -/
theorem Cuts.nil : Cuts [] [] := fun _ => rfl

/-- The lines of two texts, one behind the other. -/
theorem Cuts.append (h : Cuts t lines) (h' : Cuts t' lines') : Cuts (t ++ t') (lines ++ lines') :=
  fun rest => by rw [List.append_assoc, h, h', List.append_assoc]

/-- The lines of a list of texts. -/
theorem Cuts.flatMap {α : Type} {f : α → Text} {g : α → List Text} (h : ∀ a, Cuts (f a) (g a)) :
    ∀ {l : List α}, Cuts (l.flatMap f) (l.flatMap g)
  | [] => .nil
  | a :: l => by
    rw [List.flatMap_cons, List.flatMap_cons]
    exact (h a).append (Cuts.flatMap h)

/-- A line that holds newlines itself is cut into more than one. -/
theorem cuts_textLine (fields : List Text) : Cuts (textLine fields)
    ((lineOf fields).splitOn 10) := by
  intro rest
  rw [textLine, List.append_assoc, List.singleton_append, List.splitOn_append_cons_self]

/-- A line without a line end is one line. -/
theorem cuts_inline (h : Inline (lineOf fields)) : Cuts (textLine fields) [lineOf fields] := by
  have hcut := cuts_textLine fields
  rwa [List.splitOn_eq_singleton fun hmem => (h 10 hmem).1 rfl] at hcut

/-- Plain fields make one line. -/
theorem cuts_plain (h : ∀ f ∈ fields, Plain f) : Cuts (textLine fields) [lineOf fields] :=
  cuts_inline (inline_lineOf fun f hf => (h f hf).inline)

/-- A line of free text is one line, or none. -/
theorem cuts_freeLine (h : Plain d) : Cuts (freeLine d t) (freeLines d t) := by
  rw [freeLine, freeLines]
  split
  · exact .nil
  · refine cuts_inline (inline_lineOf fun f hf => ?_)
    rcases List.mem_cons.1 hf with rfl | hf
    · exact h.inline
    · rw [List.mem_singleton.1 hf]
      exact inline_escapeText t

end Cuts

/-! ## The lines of the records -/

/-- The lines of a rack, as they are read. -/
def MemberRecord.lines (m : MemberRecord) : List Text := (lineOf m.fields).splitOn 10 ++ m.tailLines

/-- The lines of a list whose elements have a line each. -/
theorem cuts_listed {α : Type} {f : α → List Text} (h : ∀ a, Cuts (textLine (f a)) [lineOf (f a)])
    (l : List α) : Cuts (l.flatMap fun a => textLine (f a)) (l.map fun a => lineOf (f a)) := by
  rw [← List.flatMap_singleton' (l.map _), List.flatMap_map]
  exact Cuts.flatMap h

/-- The fields of a listed identifier are plain. -/
theorem plain_listed {tag : IdTag} {w : Text} (hw : Plain w) (id : BasicId tag) :
    ∀ f ∈ [w, id.toText], Plain f := by
  simp [hw, Plain.ident]

/-- The text of a rack is cut into its lines. -/
theorem MemberRecord.cuts (m : MemberRecord) : Cuts m.toLines m.lines := by
  rw [MemberRecord.toLines, MemberRecord.lines, MemberRecord.tailLines]
  simp only [← List.append_assoc]
  refine (((cuts_textLine _).append (cuts_freeLine ?_)).append ?_).append ?_ |>.append ?_
  · exact plain_iff.2 (by rfl)
  · exact cuts_listed (fun id => cuts_plain (plain_listed (plain_iff.2 (by rfl)) id)) _
  · exact cuts_listed (fun port => cuts_plain (plain_listed (plain_iff.2 (by rfl)) port)) _
  · exact cuts_listed (fun claim => cuts_inline (inline_free claim.plain_fields)) _

/-- The text of a link is cut into its lines. -/
theorem LinkRecord.cuts (l : LinkRecord) : Cuts l.toLines l.lines :=
  (cuts_plain l.plain_fields).append (cuts_freeLine (plain_iff.2 (by rfl)))

/-- The text of a domain is cut into its lines. -/
theorem FailureDomainRecord.cuts (d : FailureDomainRecord) : Cuts d.toLines d.lines := by
  refine ((cuts_inline (inline_free d.plain_fields)).append (cuts_freeLine ?_)).append ?_
  · exact plain_iff.2 (by rfl)
  · exact cuts_listed (fun rack => cuts_plain (plain_listed (plain_iff.2 (by rfl)) rack)) _

/-- The text of an obligation is cut into its lines. -/
theorem Obligation.cuts (o : Obligation) : Cuts o.toLines o.lines := by
  refine (((cuts_inline (inline_free o.plain_fields)).append (cuts_freeLine ?_)).append ?_).append
    ?_
  · exact plain_iff.2 (by rfl)
  · exact cuts_listed (fun rack => cuts_plain (plain_listed (plain_iff.2 (by rfl)) rack)) _
  · exact cuts_listed (fun requirement => cuts_plain requirement.plain_fields) _

/-- The lines of a route, as they are read. -/
def RouteEvidence.lines (r : RouteEvidence) : List Text :=
  lineOf r.fields :: freeLines "+desc" r.provenance.detail ++
    r.path.zipIdx.map fun hop => lineOf [text "+hop", hop.1.toText,
      decimal (r.pathGenerations.getD hop.2 {}).value.toNat]

/-- The fields of a route are plain. -/
theorem RouteEvidence.plain_fields (r : RouteEvidence) : ∀ f ∈ r.fields, Plain f := by
  simp only [RouteEvidence.fields, List.forall_mem_append, List.forall_mem_cons, List.not_mem_nil,
    false_imp_iff, implies_true, and_true, Plain.ident, Plain.decimal,
      Plain.decimalInt, Plain.toHex,
    r.state.plain, true_and]
  refine ⟨?_, r.provenance.plain_fields⟩
  and_intros <;> exact plain_iff.2 (by rfl)

/-- The text of a route is cut into its lines. -/
theorem RouteEvidence.cuts (r : RouteEvidence) : Cuts r.toLines r.lines := by
  refine ((cuts_plain r.plain_fields).append (cuts_freeLine (plain_iff.2 (by rfl)))).append ?_
  refine cuts_listed (fun hop => cuts_plain fun f hf => ?_) _
  simp only [List.mem_cons, List.not_mem_nil, or_false] at hf
  rcases hf with rfl | rfl | rfl
  · exact plain_iff.2 (by rfl)
  · exact Plain.ident _
  · exact Plain.decimal _

/-! ## The whole document -/

namespace PodSnapshot

/-- The lines of the header behind the first one. -/
def headLines (s : PodSnapshot) : List Text :=
  [lineOf [text "schema", if s.schema.isEmpty then snapshotSchema else s.schema],
    lineOf [text "pod", s.pod.toText], lineOf [text "observed-at", decimalInt s.observedAt.toInt],
    lineOf (text "prov" :: s.provenance.fields)] ++ freeLines "+detail" s.provenance.detail

/-- The lines between the first one and the end marker. -/
def bodyLines (s : PodSnapshot) : List Text :=
  s.headLines ++ s.members.flatMap MemberRecord.lines ++ s.links.flatMap LinkRecord.lines ++
    s.routes.flatMap RouteEvidence.lines ++ s.domains.flatMap FailureDomainRecord.lines ++
    s.obligations.flatMap Obligation.lines

/-- The header is cut into its lines. -/
theorem cuts_headerLines {s : PodSnapshot} (h : s.schema = snapshotSchema) :
    Cuts s.headerLines (textSchema :: s.headLines) := by
  have hschema : Plain textSchema ∧ Plain snapshotSchema :=
    ⟨plain_iff.2 (by rfl), plain_iff.2 (by rfl)⟩
  have hwords : Plain (text "schema") ∧ Plain (text "pod") ∧ Plain (text "observed-at") ∧
      Plain (text "prov") ∧ Plain (text "+detail") := by
    and_intros <;> exact plain_iff.2 (by rfl)
  have hname : (if s.schema.isEmpty then snapshotSchema else s.schema) = snapshotSchema := by
    rw [h]
    exact ite_self _
  rw [headerLines, headLines, hname]
  refine (((((cuts_plain ?_).append (cuts_plain ?_)).append (cuts_plain ?_)).append
    (cuts_plain ?_)).append (cuts_plain ?_)).append (cuts_freeLine hwords.2.2.2.2)
  · simp [hschema]
  · simp [hwords, hschema]
  · simp [hwords, Plain.ident]
  · simp [hwords, Plain.decimalInt]
  · exact List.forall_mem_cons.2 ⟨hwords.2.2.2.1, s.provenance.plain_fields⟩

/-- The text of a snapshot is cut into its lines. -/
theorem cuts_toText {s : PodSnapshot} (h : s.schema = snapshotSchema) :
    Cuts s.toText (textSchema :: s.bodyLines ++ [text "end"]) := by
  have hend : Cuts (textLine [text "end"]) [text "end"] :=
    cuts_plain (by simpa using (plain_iff.2 (by rfl) : Plain (text "end")))
  exact ((((((cuts_headerLines h).append (Cuts.flatMap MemberRecord.cuts)).append
    (Cuts.flatMap LinkRecord.cuts)).append (Cuts.flatMap RouteEvidence.cuts)).append
    (Cuts.flatMap FailureDomainRecord.cuts)).append (Cuts.flatMap Obligation.cuts)).append hend

end PodSnapshot

/-! ## Reading the lines -/

section Reading
variable {p q : TextParser} {line : Text} {lines : List Text} {number : ℕ} {seen : Bool}

/-- The limits that each line is held to. -/
def Fits (number : ℕ) (line : Text) : Prop :=
  number ≤ maxLines ∧ line.length ≤ maxLineBytes ∧ isValidUtf8 line = true

/-- The parser behind the first line of a document. -/
def TextParser.opened : TextParser := { snapshot := { schema := snapshotSchema } }

/-- The first line is within the limits. -/
theorem fits_textSchema : Fits 1 textSchema := by
  unfold Fits
  decide +kernel

/-- The end marker is within the limits when its number is. -/
theorem fits_end : Fits number (text "end") ↔ number ≤ maxLines := by
  have hend : (text "end").length ≤ maxLineBytes ∧ isValidUtf8 (text "end") = true := by
    decide +kernel
  exact ⟨fun h => h.1, fun h => ⟨h, hend⟩⟩

section Lines
variable {view w : Text} {fields : List Text} {effect : LineEffect}

/-- A line of words is read by its first word. -/
theorem readLine_eq {sawHeader : Bool} (h : (words isBlank 0 view).map Word.letters = w :: fields) :
    p.readLine sawHeader number view = .ok effect ↔ Fits number view ∧
      (if sawHeader = false then w = textSchema ∧
          .proceed { p with snapshot := { p.snapshot with schema := snapshotSchema } } true = effect
        else if w = text "end" then .finish = effect
        else ∃ q, p.handleLine view (words isBlank 0 view) = .ok q ∧ .proceed q true = effect) := by
  have hne : (words isBlank 0 view).isEmpty = false := by
    cases hwords : words isBlank 0 view with
    | nil => rw [hwords] at h; cases h
    | cons => rfl
  have hfirst : tokenAt (words isBlank 0 view) 0 = .ok w := tokenAt_eq_ok.2 (by rw [h]; rfl)
  simp only [TextParser.readLine, bind_eq_ok, ensure_eq_ok, exists_const, splitTokens_eq,
    Except.ok.injEq, exists_eq_left', hne, Bool.false_eq_true, if_false, hfirst, Fits, and_assoc]
  cases sawHeader with
  | false =>
    simp only [Bool.not_false, if_true, bind_eq_ok, ensure_eq_ok, exists_const, pure_eq_ok]
  | true =>
    by_cases hw : w = text "end"
    · simp [hw]
    · simp only [Bool.not_true, Bool.false_eq_true, if_false, hw, bind_eq_ok, pure_eq_ok,
        Bool.true_eq_false]

/-- The first line opens the document. -/
theorem readLine_header : TextParser.readLine {} false 1 (dropReturn textSchema) =
    .ok (.proceed .opened true) := by
  have hplain : ∀ f ∈ [textSchema], Plain f := by
    simpa using (plain_iff.2 (by rfl) : Plain textSchema)
  have hwords : (words isBlank 0 textSchema).map Word.letters = [textSchema] :=
    letters_lineOf hplain
  rw [dropReturn_inline (hplain _ List.mem_cons_self).inline, readLine_eq hwords]
  exact ⟨fits_textSchema, rfl, rfl⟩

/-- The end marker ends the document. -/
theorem readLine_end : p.readLine true number (dropReturn (text "end")) = .ok effect ↔
    number ≤ maxLines ∧ .finish = effect := by
  have hplain : ∀ f ∈ [text "end"], Plain f := by
    simpa using (plain_iff.2 (by rfl) : Plain (text "end"))
  have hwords : (words isBlank 0 (text "end")).map Word.letters = [text "end"] :=
    letters_lineOf hplain
  rw [dropReturn_inline (hplain _ List.mem_cons_self).inline, readLine_eq hwords, fits_end]
  simp

/-- A line behind the header that is not an end marker is taken. -/
theorem readLine_proceed : p.readLine true number (dropReturn line) = .ok (.proceed q seen) ↔
    Fits number (dropReturn line) ∧ p.take line = .ok q ∧ true = seen ∧
      ((words isBlank 0 (dropReturn line)).map Word.letters).head? ≠ some (text "end") := by
  cases hwords : words isBlank 0 (dropReturn line) with
  | nil =>
    rw [TextParser.take, if_pos hwords]
    simp only [TextParser.readLine, bind_eq_ok, ensure_eq_ok, exists_const, splitTokens_eq, hwords,
      Except.ok.injEq, exists_eq_left', List.isEmpty_nil, if_true, pure_eq_ok, Fits, and_assoc,
      LineEffect.proceed.injEq]
    simp
  | cons first ws =>
    have hletters : (words isBlank 0 (dropReturn line)).map Word.letters =
        first.letters :: ws.map Word.letters := by rw [hwords]; rfl
    have hne : words isBlank 0 (dropReturn line) ≠ [] := by
      rw [hwords]
      exact List.cons_ne_nil _ _
    rw [readLine_eq hletters, TextParser.take, if_neg hne, if_neg Bool.noConfusion,
      ← hwords, hletters]
    by_cases hend : first.letters = text "end"
    · simp [hend]
    · simp [hend]

end Lines

/-- A document that is read ends with its own end marker. -/
theorem parseLines_body {parsed : Parsed}
    (h : TextParser.parseLines number true p (lines ++ [text "end", []]) = .ok parsed) :
    lines.foldlM TextParser.take p = .ok parsed.parser := by
  induction lines generalizing number p with
  | nil =>
    rw [List.nil_append, TextParser.parseLines, bind_eq_ok] at h
    obtain ⟨effect, hline, h⟩ := h
    obtain ⟨-, rfl⟩ := readLine_end.1 hline
    have hparsed : (⟨p, true, true⟩ : Parsed) = parsed := Except.ok.inj h
    rw [← hparsed]
    rfl
  | cons line lines ih =>
    rw [List.cons_append, TextParser.parseLines, bind_eq_ok] at h
    obtain ⟨effect, hline, h⟩ := h
    cases effect with
    | proceed q seen =>
      obtain ⟨-, htake, rfl, -⟩ := readLine_proceed.1 hline
      rw [List.foldlM_cons, htake]
      exact ih h
    | finish =>
      -- the document's own end marker would follow this one
      change TextParser.finishLines true p (lines ++ [text "end", []]) = .ok parsed at h
      have hcontent : (lines ++ [text "end", []]).all (fun line => line.all isPadding) = false := by
        rw [List.all_append]
        exact Bool.and_eq_false_imp.2 fun _ => by decide
      rw [TextParser.finishLines, if_neg (by simp), hcontent] at h
      cases h

/-- Lines that keep to the limits and are no end markers are taken one after the other. -/
theorem parseLines_of_body (hcount : number + lines.length + 1 ≤ maxLines)
    (hlines : ∀ line ∈ lines, line.length ≤ maxLineBytes ∧ isValidUtf8 line = true ∧ Inline line ∧
      ((words isBlank 0 line).map Word.letters).head? ≠ some (text "end"))
    (h : lines.foldlM TextParser.take p = .ok q) :
    TextParser.parseLines number true p (lines ++ [text "end", []]) = .ok ⟨q, true, true⟩ := by
  induction lines generalizing number p with
  | nil =>
    have hend : p.readLine true (number + 1) (dropReturn (text "end")) = .ok .finish :=
      readLine_end.2 ⟨hcount, rfl⟩
    rw [List.nil_append, TextParser.parseLines, hend]
    cases h
    rfl
  | cons line lines ih =>
    rw [List.foldlM_cons, bind_eq_ok] at h
    obtain ⟨next, htake, hrest⟩ := h
    rw [List.forall_mem_cons] at hlines
    obtain ⟨⟨hlength, hutf8, hline, hnot⟩, hlines⟩ := hlines
    rw [List.length_cons] at hcount
    have hread : p.readLine true (number + 1) (dropReturn line) = .ok (.proceed next true) := by
      rw [readLine_proceed, dropReturn_inline hline]
      exact ⟨⟨by omega, hlength, hutf8⟩, htake, rfl, hnot⟩
    rw [List.cons_append, TextParser.parseLines, hread]
    exact ih (by omega) hlines hrest

end Reading

section Document
variable {s s' : PodSnapshot} {q : TextParser}

/-- The lines of a snapshot's text, the last one empty. -/
theorem PodSnapshot.splitOn_toText (h : s.schema = snapshotSchema) :
    s.toText.splitOn 10 = textSchema :: (s.bodyLines ++ [text "end", []]) := by
  have hcut := PodSnapshot.cuts_toText h []
  rw [List.append_nil, List.splitOn_nil] at hcut
  rw [hcut]
  simp

/-- If a rendered snapshot is read, it is what the parser makes of the lines of its records. -/
theorem fold_of_read (hschema : s.schema = snapshotSchema)
    (h : snapshotFromText s.toText = .ok s') :
    ∃ q, s.bodyLines.foldlM TextParser.take .opened = .ok q ∧ q.snapshot = s' := by
  rw [snapshotFromText_eq, PodSnapshot.splitOn_toText hschema, bind_eq_ok] at h
  obtain ⟨parsed, hlines, h⟩ := h
  rw [TextParser.parseLines, readLine_header] at hlines
  simp only [bind_eq_ok, ensure_eq_ok, exists_const, pure_eq_ok] at h
  obtain ⟨-, -, rfl⟩ := h
  exact ⟨parsed.parser, parseLines_body hlines, rfl⟩

/-- A rendered snapshot whose lines keep to the limits is read if the parser takes them. -/
theorem read_of_fold (hschema : s.schema = snapshotSchema)
    (hcount : s.bodyLines.length + 2 ≤ maxLines)
    (hlines : ∀ line ∈ s.bodyLines, line.length ≤ maxLineBytes ∧ isValidUtf8 line = true ∧
      Inline line ∧ ((words isBlank 0 line).map Word.letters).head? ≠ some (text "end"))
    (h : s.bodyLines.foldlM TextParser.take .opened = .ok q) :
    snapshotFromText s.toText = .ok q.snapshot := by
  rw [snapshotFromText_eq, PodSnapshot.splitOn_toText hschema, TextParser.parseLines,
    readLine_header]
  change (TextParser.parseLines 1 true .opened (s.bodyLines ++ [text "end", []]) >>= _) = _
  rw [parseLines_of_body (by omega) hlines h]
  rfl

end Document

end PodFabric
