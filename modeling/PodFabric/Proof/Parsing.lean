import PodFabric.Codec.TextParser
import PodFabric.Lib.Ends

/-!
# Parsing ends with a value or a status

Each access of the text parser is in range, but for one: behind an end marker on a last line without
a newline the cursor stands outside the text, and the exception of the `substr` there escapes
(`snapshotFromText_reports_iff`).
-/

namespace PodFabric

/-- The operation returns a value that satisfies `Q`, or a status. -/
abbrev Answers {α : Type} (Q : α → Prop) (x : Outcome α) : Prop :=
  Ends (fun fault => ∃ s, fault = .status s) Q x

/-! ## Tokens -/

section Tokens
variable {view : Text} {p : UInt8 → Bool} {fuel i : ℕ}

/-- A byte within the text is read. -/
theorem byteAt_eq (h : i < view.length) : byteAt view i = .ok view[i] := by
  rw [byteAt, List.getElem?_eq_getElem h]

/-- The inner loops stop behind the bytes that satisfy the test. -/
theorem skipWhile_eq (hi : i ≤ view.length) (hfuel : view.length - i < fuel) :
    skipWhile p view fuel i = .ok (i + ((view.drop i).takeWhile p).length) := by
  induction fuel generalizing i with
  | zero => omega
  | succ fuel ih =>
    rw [skipWhile]
    by_cases hlt : i < view.length
    · rw [if_pos hlt, byteAt_eq hlt, List.drop_eq_getElem_cons hlt]
      cases hp : p view[i] with
      | true =>
        have hrest := @ih (i + 1) hlt (by omega)
        rw [List.takeWhile_cons_of_pos hp, List.length_cons, ← Nat.add_assoc, Nat.add_right_comm]
        simpa [bind, Except.bind, hp] using hrest
      | false =>
        rw [List.takeWhile_cons_of_neg (by simp [hp])]
        simp [bind, Except.bind, hp, pure, Except.pure]
    · have hend : view.drop i = [] := List.drop_eq_nil_of_le (by omega)
      rw [if_neg hlt, hend]
      rfl

/-- A part that begins within the text is taken. -/
theorem substr_eq {n : ℕ} (h : i ≤ view.length) : substr view i n = .ok ((view.drop i).take n) :=
  if_pos h

/-- Each round of the loop takes one word off the view. -/
theorem splitFrom_eq (hi : i ≤ view.length) (hfuel : view.length - i < fuel) :
    splitFrom view fuel i = .ok (words isBlank i (view.drop i)) := by
  induction fuel generalizing i with
  | zero => omega
  | succ fuel ih =>
    rw [splitFrom]
    by_cases hlt : i < view.length
    · obtain ⟨blanks, rest, hblanks, hrest, hcut⟩ : ∃ blanks rest,
          (view.drop i).takeWhile isBlank = blanks ∧ (view.drop i).dropWhile isBlank = rest ∧
            blanks ++ rest = view.drop i := ⟨_, _, rfl, rfl, List.takeWhile_append_dropWhile⟩
      obtain ⟨letters, behind, hletters, hbehind, hcut'⟩ : ∃ letters behind,
          rest.takeWhile (fun c => !isBlank c) = letters ∧
            rest.dropWhile (fun c => !isBlank c) = behind ∧ letters ++ behind = rest :=
        ⟨_, _, rfl, rfl, List.takeWhile_append_dropWhile⟩
      have hstart : view.drop (i + blanks.length) = rest := by
        rw [← List.drop_drop, ← hcut, List.drop_left]
      have hstop : view.drop (i + blanks.length + letters.length) = behind := by
        rw [← List.drop_drop, hstart, ← hcut', List.drop_left]
      have hlength : i + blanks.length + rest.length = view.length := by
        have hsum := congrArg List.length hcut
        simp only [List.length_append, List.length_drop] at hsum
        omega
      have hlength' : letters.length + behind.length = rest.length := by
        rw [← hcut', List.length_append]
      have hinner := @skipWhile_eq view isBlank (view.length + 1) i hi (by omega)
      have houter := @skipWhile_eq view (fun c => !isBlank c) (view.length + 1) (i + blanks.length)
        (by omega) (by omega)
      rw [hblanks] at hinner
      rw [hstart, hletters] at houter
      simp only [if_pos hlt, hinner, houter, bind, Except.bind]
      rw [words_run, hblanks, hrest, hletters, hbehind]
      cases hword : letters with
      | nil =>
        have hnone : rest = [] := by
          cases hc : rest with
          | nil => rfl
          | cons c rest' =>
            have hhead := List.head?_dropWhile_not isBlank (view.drop i)
            rw [hrest, hc, List.head?_cons] at hhead
            rw [hc, List.takeWhile_cons_of_pos (by simp [hhead]), hword] at hletters
            cases hletters
        rw [hnone, List.length_nil] at hlength
        have hend := @ih (i + blanks.length) (by omega) (by omega)
        rw [hstart, hnone] at hend
        rw [if_pos rfl, List.length_nil, Nat.add_zero, if_neg (Nat.lt_irrefl _), hend]
        rfl
      | cons c letters' =>
        have hlong : 0 < letters.length := by
          rw [hword]
          exact Nat.succ_pos _
        have hnext := @ih (i + blanks.length + letters.length) (by omega) (by omega)
        rw [hstop] at hnext
        have hview : (view.drop (i + blanks.length)).take
            (i + blanks.length + letters.length - (i + blanks.length)) = letters := by
          rw [hstart, ← hcut', Nat.add_sub_cancel_left, List.take_left]
        rw [← hword, if_neg (List.ne_nil_of_length_pos hlong), if_pos (by omega),
          substr_eq (by omega), hview, hnext]
        rfl
    · have hend : view.drop i = [] := List.drop_eq_nil_of_le (by omega)
      rw [if_neg hlt, hend]
      rfl

/-- The tokens of a line are its words. -/
theorem splitTokens_eq : splitTokens view = .ok (words isBlank 0 view) :=
  splitFrom_eq (Nat.zero_le _) (by omega)

end Tokens

/-! ## Fields -/

section Fields
variable {α β : Type} {Q : β → Prop} {f : α → Outcome β} {k : Unit → Outcome β} {cond : Prop}
  [Decidable cond] {s : Status} {view word message : Text} {tokens : List Token} {i needed : ℕ}

/-- A reported error is an answer. -/
theorem settles_status : Answers Q (.error (.status s)) := ⟨s, rfl⟩

/-- A check answers, or what follows it does. -/
theorem settles_ensure (h : cond → Answers Q (k ())) :
    Answers Q (ensure cond (.status s) >>= k) := by
  rw [ensure]
  split
  · exact h ‹_›
  · exact settles_status

/-- A token within the line is read. -/
theorem tokenAt_eq (h : i < tokens.length) : tokenAt tokens i = .ok (tokens[i]).letters := by
  rw [tokenAt, List.getElem?_eq_getElem h]

/-- Reading a token within the line answers. -/
theorem settles_tokenAt {f : Text → Outcome β} (hi : i < tokens.length)
    (h : Answers Q (f (tokens[i]).letters)) : Answers Q (tokenAt tokens i >>= f) := by
  rw [tokenAt_eq hi]
  exact h

/-- Reading a field within the line answers. -/
theorem settles_field {parse : Text → Result α} (hi : i < tokens.length) :
    Answers (fun _ => True) (readField parse tokens i) := by
  rw [readField, tokenAt_eq hi]
  change Answers (fun _ => True) (parse (tokens[i]).letters).lift
  cases parse (tokens[i]).letters with
  | ok a => trivial
  | error s => exact settles_status

/-- Reading a field within the line answers, or what follows it does. -/
theorem settles_readField {parse : Text → Result α} (hi : i < tokens.length)
    (h : ∀ a, Answers Q (f a)) : Answers Q (readField parse tokens i >>= f) :=
  (settles_field hi).bind fun a _ => h a

/-- Looking for a keyword answers: the check of the length stands in front of the reading. -/
theorem settles_keyword (hneeded : 0 < needed) (h : Answers Q (k ())) :
    Answers Q (keyword tokens i word needed message >>= k) := by
  rw [keyword]
  split
  · have hi : i < tokens.length := by omega
    rw [tokenAt_eq hi]
    exact settles_ensure fun _ => h
  · exact settles_status

/-- Reading a provenance answers. -/
theorem settles_parseProv {f : Provenance → Outcome β} (h : ∀ a, Answers Q (f a)) :
    Answers Q (parseProv tokens i >>= f) := by
  have hprov : Answers (fun _ => True) (parseProv tokens i) := by
    refine settles_ensure fun hlength => ?_
    refine settles_readField (by omega) fun quality => ?_
    refine settles_readField (by omega) fun klass => ?_
    refine settles_readField (by omega) fun source => ?_
    exact settles_readField (by omega) fun sequence => trivial
  exact hprov.bind fun a _ => h a

/-- The view from one token to another does not leave the line they are parts of. -/
theorem settles_restOfLine {f : Text → Outcome β} (hparts : ∀ w ∈ tokens, w.stop ≤ view.length)
    (h : ∀ a, Answers Q (f a)) : Answers Q (restOfLine view tokens i >>= f) := by
  rw [restOfLine]
  split
  · exact h []
  · next hi =>
    have hlt : i < tokens.length := by omega
    have hne : tokens ≠ [] := List.ne_nil_of_length_pos (by omega)
    rw [List.getElem?_eq_getElem hlt, List.getLast?_eq_some_getLast hne]
    change Answers Q ((if (tokens.getLast hne).stop ≤ (tokens[i]).start then _ else _) >>= f)
    split
    · exact h []
    · next hspan =>
      have hstop := hparts _ (List.getLast_mem hne)
      rw [viewBetween, if_pos ⟨by omega, hstop⟩]
      exact h _

/-- Reading a detail answers when the tokens are within the line. -/
theorem settles_readDetail {f : Provenance → Outcome β} {provenance : Provenance}
    (hparts : ∀ w ∈ tokens, w.stop ≤ view.length) (h : ∀ a, Answers Q (f a)) :
    Answers Q (TextParser.readDetail view tokens i provenance >>= f) := by
  rw [TextParser.readDetail]
  split
  · have hdetail : Answers (fun _ => True) (restOfLine view tokens i >>= fun detail =>
        (Pure.pure { provenance with detail } : Outcome Provenance)) :=
      settles_restOfLine hparts fun _ => trivial
    exact hdetail.bind fun a _ => h a
  · exact h _

/-- Changing the last element answers when there is one. -/
theorem settles_modifyBack {l : List α} {f : α → α} {k : List α → Outcome β} (hne : l ≠ [])
    (h : ∀ l', l' ≠ [] → Answers Q (k l')) : Answers Q (modifyBack l f >>= k) := by
  rw [modifyBack, List.getLast?_eq_some_getLast hne]
  exact h _ (by simp)

end Fields

/-! ## Records -/

namespace TextParser

/-- The vector of the current record is not empty. -/
def Backed (p : TextParser) : Prop :=
  match p.current with
  | .member => p.snapshot.members ≠ []
  | .link => p.snapshot.links ≠ []
  | .route => p.snapshot.routes ≠ []
  | .domain => p.snapshot.domains ≠ []
  | .obligation => p.snapshot.obligations ≠ []
  | .none | .snapshot => True

variable {p : TextParser} {view directive rest : Text} {tokens : List Token}

/-- A member line answers. -/
theorem parseMember_settles : Answers Backed (p.parseMember tokens) := by
  refine settles_ensure fun _ => settles_ensure fun hlength => ?_
  repeat first
    | refine settles_readField (by omega) fun _ => ?_
    | refine settles_keyword (by omega) ?_
    | refine settles_parseProv fun _ => ?_
  exact settles_ensure fun _ => List.append_ne_nil_of_right_ne_nil _ (List.cons_ne_nil _ _)

/-- A link line answers. -/
theorem parseLink_settles : Answers Backed (p.parseLink tokens) := by
  refine settles_ensure fun _ => settles_ensure fun hlength => ?_
  repeat first
    | refine settles_readField (by omega) fun _ => ?_
    | refine settles_keyword (by omega) ?_
    | refine settles_parseProv fun _ => ?_
  exact settles_ensure fun _ => List.append_ne_nil_of_right_ne_nil _ (List.cons_ne_nil _ _)

/-- A route line answers. -/
theorem parseRoute_settles : Answers Backed (p.parseRoute tokens) := by
  refine settles_ensure fun _ => settles_ensure fun hlength => ?_
  repeat first
    | refine settles_readField (by omega) fun _ => ?_
    | refine settles_keyword (by omega) ?_
    | refine settles_parseProv fun _ => ?_
  exact settles_ensure fun _ => List.append_ne_nil_of_right_ne_nil _ (List.cons_ne_nil _ _)

/-- A domain line answers. -/
theorem parseDomain_settles (hparts : ∀ w ∈ tokens, w.stop ≤ view.length) :
    Answers Backed (p.parseDomain view tokens) := by
  refine settles_ensure fun _ => settles_ensure fun hlength => ?_
  repeat first
    | refine settles_readField (by omega) fun _ => ?_
    | refine settles_keyword (by omega) ?_
    | refine settles_parseProv fun _ => ?_
  exact settles_readDetail hparts fun _ =>
    List.append_ne_nil_of_right_ne_nil _ (List.cons_ne_nil _ _)

/-- An obligation line answers. -/
theorem parseObligation_settles (hparts : ∀ w ∈ tokens, w.stop ≤ view.length) :
    Answers Backed (p.parseObligation view tokens) := by
  refine settles_ensure fun _ => settles_ensure fun hlength => ?_
  repeat first
    | refine settles_readField (by omega) fun _ => ?_
    | refine settles_keyword (by omega) ?_
    | refine settles_ensure fun _ => ?_
    | refine settles_parseProv fun _ => ?_
  exact settles_readDetail hparts fun _ =>
    List.append_ne_nil_of_right_ne_nil _ (List.cons_ne_nil _ _)

/-- Changing the rack read last answers. -/
theorem withMember_settles {f : MemberRecord → MemberRecord} (hp : p.Backed)
    (hcurrent : p.current = .member) : Answers Backed (p.withMember f) := by
  rw [Backed, hcurrent] at hp
  refine settles_modifyBack hp fun l hne => ?_
  change Backed { p with snapshot := { p.snapshot with members := l } }
  rw [Backed, hcurrent]
  exact hne

/-- Changing the link read last answers. -/
theorem withLink_settles {f : LinkRecord → LinkRecord} (hp : p.Backed)
    (hcurrent : p.current = .link) : Answers Backed (p.withLink f) := by
  rw [Backed, hcurrent] at hp
  refine settles_modifyBack hp fun l hne => ?_
  change Backed { p with snapshot := { p.snapshot with links := l } }
  rw [Backed, hcurrent]
  exact hne

/-- Changing the route read last answers. -/
theorem withRoute_settles {f : RouteEvidence → RouteEvidence} (hp : p.Backed)
    (hcurrent : p.current = .route) : Answers Backed (p.withRoute f) := by
  rw [Backed, hcurrent] at hp
  refine settles_modifyBack hp fun l hne => ?_
  change Backed { p with snapshot := { p.snapshot with routes := l } }
  rw [Backed, hcurrent]
  exact hne

/-- Changing the domain read last answers. -/
theorem withDomain_settles {f : FailureDomainRecord → FailureDomainRecord} (hp : p.Backed)
    (hcurrent : p.current = .domain) : Answers Backed (p.withDomain f) := by
  rw [Backed, hcurrent] at hp
  refine settles_modifyBack hp fun l hne => ?_
  change Backed { p with snapshot := { p.snapshot with domains := l } }
  rw [Backed, hcurrent]
  exact hne

/-- Changing the obligation read last answers. -/
theorem withObligation_settles {f : Obligation → Obligation} (hp : p.Backed)
    (hcurrent : p.current = .obligation) : Answers Backed (p.withObligation f) := by
  rw [Backed, hcurrent] at hp
  refine settles_modifyBack hp fun l hne => ?_
  change Backed { p with snapshot := { p.snapshot with obligations := l } }
  rw [Backed, hcurrent]
  exact hne

/-- A line of free text answers. -/
theorem parseFree_settles (hp : p.Backed) : Answers Backed (p.parseFree directive rest) := by
  rw [parseFree]
  refine Ends.ite (fun _ => ?_) fun _ => ?_
  · cases hcurrent : p.current with
    | snapshot => exact trivial
    | _ => exact hp
  · cases hcurrent : p.current with
    | none | snapshot => exact hp
    | member => exact withMember_settles hp hcurrent
    | link => exact withLink_settles hp hcurrent
    | route => exact withRoute_settles hp hcurrent
    | domain => exact withDomain_settles hp hcurrent
    | obligation => exact withObligation_settles hp hcurrent

/-- A line that lists an identifier answers. -/
theorem parseListed_settles {tag : IdTag} {Q : TextParser → Prop} {message : Text}
    {f : BasicId tag → Outcome TextParser} (h : ∀ a, Answers Q (f a)) :
    Answers Q (parseListed tokens message >>= f) := by
  have hlisted : Answers (fun _ => True) (parseListed tokens message : Outcome (BasicId tag)) :=
    settles_ensure fun hlength => settles_field (by omega)
  exact hlisted.bind fun a _ => h a

/-- A capacity line answers. -/
theorem parseCapacity_settles (hp : p.Backed) (hcurrent : p.current = .member)
    (hparts : ∀ w ∈ tokens, w.stop ≤ view.length) :
    Answers Backed (p.parseCapacity view tokens) := by
  refine settles_ensure fun hlength => ?_
  refine settles_readField (by omega) fun resource => ?_
  refine settles_readField (by omega) fun exclusivity => ?_
  refine settles_readField (by omega) fun amount => ?_
  refine settles_readField (by omega) fun reserved => ?_
  refine settles_readField (by omega) fun domain => ?_
  refine settles_parseProv fun provenance => settles_readDetail hparts fun provenance => ?_
  exact withMember_settles hp hcurrent

/-- A hop line answers. -/
theorem parseHop_settles (hp : p.Backed) (hcurrent : p.current = .route) :
    Answers Backed (p.parseHop tokens) := by
  refine settles_ensure fun hlength => ?_
  refine settles_readField (by omega) fun rack => ?_
  refine settles_readField (by omega) fun generation => ?_
  exact withRoute_settles hp hcurrent

/-- A requirement line answers. -/
theorem parseRequire_settles (hp : p.Backed) (hcurrent : p.current = .obligation) :
    Answers Backed (p.parseRequire tokens) := by
  refine settles_ensure fun hlength => ?_
  refine settles_readField (by omega) fun resource => ?_
  refine settles_readField (by omega) fun minimum => ?_
  refine settles_readField (by omega) fun marginPercent => ?_
  exact withObligation_settles hp hcurrent

/-- A line that extends the last record answers. -/
theorem parseContinuation_settles (hp : p.Backed)
    (hparts : ∀ w ∈ tokens, w.stop ≤ view.length) :
    Answers Backed (p.parseContinuation view directive tokens) := by
  rw [parseContinuation]
  refine Ends.ite (fun _ => settles_status) fun _ => ?_
  refine Ends.ite (fun _ => settles_restOfLine hparts fun _ => parseFree_settles hp) fun _ => ?_
  refine Ends.ite (fun h => parseListed_settles fun _ => withMember_settles hp h.1) fun _ => ?_
  refine Ends.ite (fun h => parseListed_settles fun _ => withMember_settles hp h.1) fun _ => ?_
  refine Ends.ite (fun h => parseCapacity_settles hp h.1 hparts) fun _ => ?_
  refine Ends.ite (fun h => parseHop_settles hp h.1) fun _ => ?_
  refine Ends.ite (fun h => parseListed_settles fun _ => withDomain_settles hp h.1) fun _ => ?_
  refine Ends.ite (fun h => parseListed_settles fun _ => withObligation_settles hp h.1) fun _ => ?_
  exact Ends.ite (fun h => parseRequire_settles hp h.1) fun _ => settles_status

/-- A line is read from its words, each of which is a part of it. -/
theorem handleLine_settles (hp : p.Backed) (hne : tokens ≠ [])
    (hletters : ∀ w ∈ tokens, w.letters ≠ []) (hparts : ∀ w ∈ tokens, w.stop ≤ view.length) :
    Answers Backed (p.handleLine view tokens) := by
  have hlength : 0 < tokens.length := List.length_pos_of_ne_nil hne
  refine settles_tokenAt hlength ?_
  refine Ends.ite (fun _ => ?_) fun _ => ?_
  · exact settles_ensure fun hlength => settles_readField (by omega) fun pod => hp
  refine Ends.ite (fun _ => ?_) fun _ => ?_
  · exact settles_ensure fun hlength => settles_tokenAt (by omega) hp
  refine Ends.ite (fun _ => ?_) fun _ => ?_
  · exact settles_ensure fun hlength => settles_readField (by omega) fun observedAt => hp
  refine Ends.ite (fun _ => parseMember_settles) fun _ => ?_
  refine Ends.ite (fun _ => parseLink_settles) fun _ => ?_
  refine Ends.ite (fun _ => parseRoute_settles) fun _ => ?_
  refine Ends.ite (fun _ => parseDomain_settles hparts) fun _ => ?_
  refine Ends.ite (fun _ => parseObligation_settles hparts) fun _ => ?_
  refine Ends.ite (fun _ => settles_parseProv fun provenance => trivial) fun _ => ?_
  rw [byteAt_eq (List.length_pos_of_ne_nil (hletters _ (List.getElem_mem hlength)))]
  exact Ends.ite (fun _ => parseContinuation_settles hp hparts) fun _ => settles_status

/-- A parser that a line leaves behind. -/
def Backs : LineEffect → Prop
  | .proceed p _ => p.Backed
  | .finish => True

/-- Every line answers. -/
theorem readLine_settles {sawHeader : Bool} {number : ℕ} (hp : p.Backed) :
    Answers Backs (p.readLine sawHeader number view) := by
  refine settles_ensure fun _ => settles_ensure fun _ => settles_ensure fun _ => ?_
  rw [splitTokens_eq]
  change Answers Backs (if (words isBlank 0 view).isEmpty = true then _ else _)
  refine Ends.ite (fun _ => hp) fun hne => ?_
  rw [List.isEmpty_iff] at hne
  have hwords := @words_within _ isBlank view 0
  have hparts : ∀ w ∈ words isBlank 0 view, w.stop ≤ view.length := fun w hw => by
    simpa using (hwords w hw).stop
  refine settles_tokenAt (List.length_pos_of_ne_nil hne) ?_
  refine Ends.ite (fun _ => settles_ensure fun _ => hp) fun _ => ?_
  refine Ends.ite (fun _ => trivial) fun _ => ?_
  exact (handleLine_settles hp hne (fun w hw => (hwords w hw).nonempty) hparts).bind fun p hp => hp

end TextParser

/-! ## The loop -/

section Loop
variable {t : Text} {cursor number fuel : ℕ} {sawHeader : Bool} {p : TextParser}

namespace TextParser

/-- Behind an end marker only padding may follow, and a line of its own at least. -/
def finishLines (sawHeader : Bool) (p : TextParser) (rest : List Text) : Outcome Parsed :=
  if rest = [] then .error .thrown
  else do
    ensure (rest.all fun line => line.all isPadding)
      (.status ⟨.invalid, "content follows the end marker"⟩)
    return ⟨p, sawHeader, true⟩

/-- The loop over the lines themselves, without cursor. -/
def parseLines : ℕ → Bool → TextParser → List Text → Outcome Parsed
  | _, sawHeader, p, [] => .ok ⟨p, sawHeader, false⟩
  | number, sawHeader, p, line :: rest => do
    match ← p.readLine sawHeader (number + 1) (dropReturn line) with
    | .proceed p sawHeader => parseLines (number + 1) sawHeader p rest
    | .finish => finishLines sawHeader p rest

/-- The line at the cursor ends before the next newline, or with the text. -/
theorem lineEnd_cases : ((10 : UInt8) ∉ t.drop cursor ∧
      lineEnd t cursor = cursor + (t.drop cursor).length) ∨
    ∃ line rest, t.drop cursor = line ++ 10 :: rest ∧ (10 : UInt8) ∉ line ∧
      lineEnd t cursor = cursor + line.length := by
  have hspan : ∀ {l : Text}, (10 : UInt8) ∉ l → l.findIdx (· = 10) = l.length := fun hl => by
    refine List.findIdx_eq_length_of_false fun c hc => ?_
    simp only [decide_eq_false_iff_not]
    rintro rfl
    exact hl hc
  rw [lineEnd]
  by_cases hnewline : (10 : UInt8) ∈ t.drop cursor
  · obtain ⟨line, rest, hcut, hline⟩ := List.eq_append_cons_of_mem hnewline
    refine .inr ⟨line, rest, hcut, hline, ?_⟩
    rw [hcut, List.findIdx_append, hspan hline, if_neg (Nat.lt_irrefl _)]
    simp [List.findIdx_cons]
  · exact .inl ⟨hnewline, by rw [hspan hnewline]⟩

/-- What stands behind the end marker is padding when each of its lines is. -/
theorem all_isPadding_splitOn (l : Text) :
    ((l.splitOn 10).all fun line => line.all isPadding) = l.all isPadding := by
  induction l with
  | nil => rfl
  | cons c l ih =>
    rw [List.splitOn_cons_eq_if_modifyHead, List.all_cons, ← ih]
    split
    · next hc =>
      rw [eq_of_beq hc]
      rfl
    · cases hlines : l.splitOn 10 with
      | nil => exact absurd hlines (List.splitOn_ne_nil _ _)
      | cons line lines =>
        rw [List.modifyHead_cons, List.all_cons, List.all_cons, List.all_cons, Bool.and_assoc]

/-- The cursor moves from line to line, and the fuel lasts to the end of the text. -/
theorem loop_eq (hcursor : cursor ≤ t.length) (hfuel : t.length - cursor < fuel) :
    loop t fuel cursor number sawHeader p =
      parseLines number sawHeader p ((t.drop cursor).splitOn 10) := by
  induction fuel generalizing cursor number sawHeader p with
  | zero => omega
  | succ fuel ih =>
    have hdrop : (t.drop cursor).length = t.length - cursor := List.length_drop
    rw [loop, if_pos hcursor, substr_eq hcursor]
    rcases @lineEnd_cases t cursor with ⟨hline, hend⟩ | ⟨line, rest, hcut, hline, hend⟩
    · have hview : (t.drop cursor).take (lineEnd t cursor - cursor) = t.drop cursor := by
        rw [hend, Nat.add_sub_cancel_left, List.take_length]
      have hlast : lineEnd t cursor = t.length := by omega
      rw [hview, List.splitOn_eq_singleton hline, parseLines]
      change (readLine p sawHeader (number + 1) (dropReturn (t.drop cursor)) >>= _) = _
      refine bind_congr fun effect => ?_
      cases effect with
      | proceed p sawHeader => exact if_pos hlast
      | finish =>
        change (substr t (lineEnd t cursor + 1) t.length >>= _) = _
        rw [substr, if_neg (by omega)]
        rfl
    · have hview : (t.drop cursor).take (lineEnd t cursor - cursor) = line := by
        rw [hend, Nat.add_sub_cancel_left, hcut, List.take_left]
      have hbehind : t.drop (lineEnd t cursor + 1) = rest := by
        rw [hend, Nat.add_assoc, ← List.drop_drop, hcut, ← List.drop_drop, List.drop_left]
        rfl
      have hlength : line.length + (rest.length + 1) = t.length - cursor := by
        rw [← hdrop, hcut, List.length_append, List.length_cons]
      rw [hview, hcut, List.splitOn_append_cons_self_of_not_mem hline, parseLines]
      change (readLine p sawHeader (number + 1) (dropReturn line) >>= _) = _
      refine bind_congr fun effect => ?_
      cases effect with
      | proceed p sawHeader =>
        have hnext := @ih (lineEnd t cursor + 1) (number + 1) sawHeader p (by omega) (by omega)
        rw [hbehind] at hnext
        exact (if_neg (by omega)).trans hnext
      | finish =>
        change (substr t (lineEnd t cursor + 1) t.length >>= _) = _
        rw [substr_eq (by omega), hbehind, List.take_of_length_le (by omega)]
        change _ = finishLines sawHeader p (rest.splitOn 10)
        rw [finishLines, if_neg (List.splitOn_ne_nil _ _), all_isPadding_splitOn]
        rfl

/-- The lines are read one after the other, and none of them is an end marker. -/
inductive Reads : ℕ → Bool → TextParser → List Text → Bool → TextParser → Prop
  | nil {number : ℕ} {sawHeader : Bool} {p : TextParser} : Reads number sawHeader p [] sawHeader p
  | cons {number : ℕ} {sawHeader seen seen' : Bool} {p q q' : TextParser} {line : Text}
      {lines : List Text}
      (line_eq : p.readLine sawHeader (number + 1) (dropReturn line) = .ok (.proceed q seen))
      (rest : Reads (number + 1) seen q lines seen' q') :
      Reads number sawHeader p (line :: lines) seen' q'

/-- The parser comes to an end marker on the last of the lines. -/
def OpenEnd (number : ℕ) (sawHeader : Bool) (p : TextParser) (lines : List Text) : Prop :=
  ∃ front last seen q, lines = front ++ [last] ∧ Reads number sawHeader p front seen q ∧
    q.readLine seen (number + front.length + 1) (dropReturn last) = .ok .finish

variable {lines : List Text}

/-- A document with an open end is not answered: the exception is thrown. -/
theorem parseLines_openEnd (h : OpenEnd number sawHeader p lines) :
    parseLines number sawHeader p lines = .error .thrown := by
  obtain ⟨front, last, seen, q, rfl, hreads, hlast⟩ := h
  induction hreads with
  | nil =>
    rw [List.nil_append, parseLines]
    rw [List.length_nil, Nat.add_zero] at hlast
    rw [hlast]
    rfl
  | cons line_eq rest ih =>
    rw [List.cons_append, parseLines, line_eq]
    refine ih ?_
    rw [List.length_cons] at hlast
    rwa [Nat.add_right_comm _ 1, Nat.add_assoc _ _ 1]

/-- The lines are answered unless the document has an open end. Induction on the lines. -/
theorem parseLines_settles (hp : p.Backed) :
    Answers (fun _ => True) (parseLines number sawHeader p lines) ∨
      OpenEnd number sawHeader p lines := by
  induction lines generalizing number sawHeader p with
  | nil => exact .inl trivial
  | cons line rest ih =>
    have hline : Answers Backs (p.readLine sawHeader (number + 1) (dropReturn line)) :=
      readLine_settles hp
    rw [parseLines]
    cases hread : p.readLine sawHeader (number + 1) (dropReturn line) with
    | error fault => exact .inl (hline.of_error hread)
    | ok effect =>
      have hbacks := hline.of_ok hread
      cases effect with
      | proceed q seen =>
        refine (@ih (number + 1) seen q hbacks).imp id fun hopen => ?_
        obtain ⟨front, last, seen', q', rfl, hreads, hlast⟩ := hopen
        refine ⟨line :: front, last, seen', q', rfl, .cons hread hreads, ?_⟩
        rwa [List.length_cons, ← Nat.add_assoc, Nat.add_right_comm number]
      | finish =>
        cases rest with
        | nil => exact .inr ⟨[], line, sawHeader, p, rfl, .nil, hread⟩
        | cons next rest =>
          have hfinish : Answers (fun _ => True) (finishLines sawHeader p (next :: rest)) := by
            rw [finishLines, if_neg (List.cons_ne_nil _ _)]
            exact settles_ensure fun _ => trivial
          exact .inl hfinish

end TextParser
end Loop

/-! ## Documents -/

/-- The last line of the text has no newline and is an end marker, to which the parser comes: it
reads the lines in front of it, and none of them ends the document. -/
def Unterminated (t : Text) : Prop := TextParser.OpenEnd 0 false {} (t.splitOn 10)

/-- Parsing a text: its lines, then the checks of the whole. -/
theorem snapshotFromText_eq (t : Text) : snapshotFromText t = (do
    let parsed ← TextParser.parseLines 0 false {} (t.splitOn 10)
    ensure (parsed.sawHeader = true) (.status ⟨.invalid, "text document has no header line"⟩)
    ensure (parsed.sawEnd = true) (.status ⟨.incomplete, "text document has no end marker"⟩)
    return parsed.parser.snapshot) := by
  rw [snapshotFromText, TextParser.loop_eq (Nat.zero_le _) (by omega)]
  rfl

/-- Every text is read as a snapshot or refused with a status, unless it is unterminated: then the
exception of the `substr` behind its end marker escapes. -/
theorem snapshotFromText_settles_iff (t : Text) :
    ((∃ s, snapshotFromText t = .ok s) ∨ ∃ status, snapshotFromText t = .error (.status status)) ↔
      ¬ Unterminated t := by
  rw [snapshotFromText_eq]
  constructor
  · intro h hopen
    rw [TextParser.parseLines_openEnd hopen] at h
    rcases h with ⟨s, h⟩ | ⟨status, h⟩ <;> cases h
  · intro hclosed
    have hbacked : TextParser.Backed {} := trivial
    have hlines : Answers (fun _ => True) (TextParser.parseLines 0 false {} (t.splitOn 10)) :=
      (TextParser.parseLines_settles hbacked).resolve_right hclosed
    have hsettles : Answers (fun _ => True) (TextParser.parseLines 0 false {} (t.splitOn 10) >>=
        fun parsed => do
          ensure (parsed.sawHeader = true)
            (.status ⟨.invalid, "text document has no header line"⟩)
          ensure (parsed.sawEnd = true)
            (.status ⟨.incomplete, "text document has no end marker"⟩)
          return parsed.parser.snapshot) :=
      hlines.bind fun _ _ => settles_ensure fun _ => settles_ensure fun _ => trivial
    obtain ⟨-, herror⟩ := ends_iff.1 hsettles
    rw [← snapshotFromText_eq] at herror ⊢
    cases hread : snapshotFromText t with
    | ok s => exact .inl ⟨s, rfl⟩
    | error fault =>
      obtain ⟨status, rfl⟩ := herror fault hread
      exact .inr ⟨status, rfl⟩

/-- A document whose end marker is its last line, without a newline, makes the parser throw. -/
theorem open_end_throws : ¬ ∀ t : Text, (∃ s, snapshotFromText t = .ok s) ∨
    ∃ status, snapshotFromText t = .error (.status status) := by
  intro h
  have hthrown : snapshotFromText (text "podfabric.text/1\nend") = .error .thrown := by
    decide +kernel
  rcases h (text "podfabric.text/1\nend") with ⟨s, h⟩ | ⟨status, h⟩ <;> rw
    [hthrown] at h <;> cases h

end PodFabric
