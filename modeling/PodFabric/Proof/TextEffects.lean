import PodFabric.Proof.TextDocument

/-!
# What lines do to the records

What the parser does with a line is told by its first word (`Brings`): a line that begins with the
name of a record or a claim adds one, and no other line does. The lines of the first kind are
therefore counted by what is read from them (`foldlM_weight`).
-/

namespace PodFabric

/-- The first words of the lines that add a record or a claim. -/
def recordWords : List Text :=
  [text "member", text "link", text "fdom", text "obligation", text "+capacity"]

namespace TextParser

/-- What a line with a given first word does to the records. -/
inductive Brings (p : TextParser) : Text → TextParser → Prop
  | member {m : MemberRecord} (capacity : m.capacity = []) :
    Brings p (text "member") (p.addMember m)
  | link (l : LinkRecord) : Brings p (text "link") (p.addLink l)
  | domain (d : FailureDomainRecord) : Brings p (text "fdom") (p.addDomain d)
  | obligation (o : Obligation) : Brings p (text "obligation") (p.addObligation o)
  | claim {front : List MemberRecord} {m : MemberRecord} (claim : CapacityClaim)
      (current : p.current = .member) (members : p.snapshot.members = front ++ [m]) :
      Brings p (text "+capacity") { p with snapshot := { p.snapshot with
        members := front ++ [{ m with capacity := m.capacity ++ [claim] }] } }
  | within {w : Text} {front : List MemberRecord} {m m' : MemberRecord} (word : w ∉ recordWords)
      (members : p.snapshot.members = front ++ [m]) (rack : m'.rack = m.rack)
      (capacity : m'.capacity = m.capacity) :
      Brings p w { p with snapshot := { p.snapshot with members := front ++ [m'] } }
  | header {w : Text} {q : TextParser} (word : w ∉ recordWords)
      (members : q.snapshot.members = p.snapshot.members)
      (links : q.snapshot.links = p.snapshot.links) (routes : q.snapshot.routes = p.snapshot.routes)
      (domains : q.snapshot.domains = p.snapshot.domains)
      (obligations : q.snapshot.obligations = p.snapshot.obligations)
      (current : q.current = p.current ∨ q.current = .snapshot) : Brings p w q
  | elsewhere {w : Text} {q : TextParser} (word : w ∉ recordWords)
      (current : p.current ≠ .member ∧ p.current ≠ .snapshot)
      (members : q.snapshot.members = p.snapshot.members)
      (links : q.snapshot.links.length = p.snapshot.links.length)
      (routes : q.snapshot.routes.length = p.snapshot.routes.length)
      (domains : q.snapshot.domains.length = p.snapshot.domains.length)
      (obligations : q.snapshot.obligations.length = p.snapshot.obligations.length) : Brings p w q

variable {p q : TextParser} {view w rest : Text} {tokens : List Token}

/-- A member line brings a record. -/
theorem parseMember_brings :
    Ends (fun _ => True) (Brings p (text "member")) (p.parseMember tokens) := by
  repeat refine Ends.skip fun _ => ?_
  exact .member rfl

/-- A link line brings a record. -/
theorem parseLink_brings : Ends (fun _ => True) (Brings p (text "link")) (p.parseLink tokens) := by
  repeat refine Ends.skip fun _ => ?_
  exact .link _

/-- A domain line brings a record. -/
theorem parseDomain_brings :
    Ends (fun _ => True) (Brings p (text "fdom")) (p.parseDomain view tokens) := by
  repeat refine Ends.skip fun _ => ?_
  exact .domain _

/-- An obligation line brings a record. -/
theorem parseObligation_brings :
    Ends (fun _ => True) (Brings p (text "obligation")) (p.parseObligation view tokens) := by
  repeat refine Ends.skip fun _ => ?_
  exact .obligation _

/-- Only the last element is changed. -/
theorem modifyBack_ends {α : Type} {l : List α} {f : α → α} : Ends (fun _ => True)
    (fun l' => ∃ front a, l = front ++ [a] ∧ l' = front ++ [f a]) (modifyBack l f) := by
  rw [modifyBack]
  cases hlast : l.getLast? with
  | none => trivial
  | some a =>
    obtain ⟨front, rfl⟩ := List.getLast?_eq_some_iff.1 hlast
    exact ⟨front, a, rfl, by rw [List.dropLast_concat]⟩

/-- A change of the last member that keeps its rack and its claims. -/
theorem withMember_brings {f : MemberRecord → MemberRecord} (hw : w ∉ recordWords)
    (hf : ∀ m, (f m).rack = m.rack ∧ (f m).capacity = m.capacity) :
    Ends (fun _ => True) (Brings p w) (p.withMember f) := by
  refine modifyBack_ends.bind fun l' hl' => ?_
  obtain ⟨front, m, hmembers, rfl⟩ := hl'
  exact .within hw hmembers (hf m).1 (hf m).2

/-- Changing the link read last brings no record. -/
theorem withLink_brings {f : LinkRecord → LinkRecord} (hw : w ∉ recordWords)
    (hcurrent : p.current = .link) : Ends (fun _ => True) (Brings p w) (p.withLink f) := by
  refine modifyBack_ends.bind fun l' hl' => ?_
  obtain ⟨front, l, hlinks, rfl⟩ := hl'
  exact .elsewhere hw (by simp [hcurrent]) rfl (by simp [hlinks]) rfl rfl rfl

/-- Changing the route read last brings no record. -/
theorem withRoute_brings {f : RouteEvidence → RouteEvidence} (hw : w ∉ recordWords)
    (hcurrent : p.current = .route) : Ends (fun _ => True) (Brings p w) (p.withRoute f) := by
  refine modifyBack_ends.bind fun l' hl' => ?_
  obtain ⟨front, r, hroutes, rfl⟩ := hl'
  exact .elsewhere hw (by simp [hcurrent]) rfl rfl (by simp [hroutes]) rfl rfl

/-- Changing the domain read last brings no record. -/
theorem withDomain_brings {f : FailureDomainRecord → FailureDomainRecord} (hw : w ∉ recordWords)
    (hcurrent : p.current = .domain) : Ends (fun _ => True) (Brings p w) (p.withDomain f) := by
  refine modifyBack_ends.bind fun l' hl' => ?_
  obtain ⟨front, d, hdomains, rfl⟩ := hl'
  exact .elsewhere hw (by simp [hcurrent]) rfl rfl rfl (by simp [hdomains]) rfl

/-- Changing the obligation read last brings no record. -/
theorem withObligation_brings {f : Obligation → Obligation} (hw : w ∉ recordWords)
    (hcurrent : p.current = .obligation) :
    Ends (fun _ => True) (Brings p w) (p.withObligation f) := by
  refine modifyBack_ends.bind fun l' hl' => ?_
  obtain ⟨front, o, hobligations, rfl⟩ := hl'
  exact .elsewhere hw (by simp [hcurrent]) rfl rfl rfl rfl (by simp [hobligations])

/-- Changing nothing brings no record. -/
theorem Brings.same (hw : w ∉ recordWords) : Brings p w p :=
  .header hw rfl rfl rfl rfl rfl (.inl rfl)

/-- A line of free text brings no record. -/
theorem parseFree_brings (hw : w ∉ recordWords) :
    Ends (fun _ => True) (Brings p w) (p.parseFree view rest) := by
  rw [parseFree]
  refine Ends.ite (fun _ => ?_) fun _ => ?_
  · cases hcurrent : p.current with
    | snapshot => exact .header hw rfl rfl rfl rfl rfl (.inr rfl)
    | _ => exact .same hw
  · cases hcurrent : p.current with
    | none | snapshot => exact .same hw
    | member => exact withMember_brings hw fun m => ⟨rfl, rfl⟩
    | link => exact withLink_brings hw hcurrent
    | route => exact withRoute_brings hw hcurrent
    | domain => exact withDomain_brings hw hcurrent
    | obligation => exact withObligation_brings hw hcurrent

/-- A line that extends the last record brings none. -/
theorem parseContinuation_brings :
    Ends (fun _ => True) (Brings p w) (p.parseContinuation view w tokens) := by
  rw [parseContinuation]
  refine Ends.ite (fun _ => trivial) fun _ => ?_
  refine Ends.ite (fun h => Ends.skip fun _ => parseFree_brings ?_) fun _ => ?_
  · rcases h with rfl | rfl <;> decide
  refine Ends.ite (fun h => Ends.skip fun _ => withMember_brings ?_ fun m => ⟨rfl, rfl⟩) fun _ => ?_
  · rw [h.2]; decide
  refine Ends.ite (fun h => Ends.skip fun _ => withMember_brings ?_ fun m => ⟨rfl, rfl⟩) fun _ => ?_
  · rw [h.2]; decide
  refine Ends.ite (fun h => ?_) fun _ => ?_
  · obtain ⟨hcurrent, rfl⟩ := h
    iterate 8 refine Ends.skip fun _ => ?_
    refine modifyBack_ends.bind fun l' hl' => ?_
    obtain ⟨front, m, hmembers, rfl⟩ := hl'
    exact .claim _ hcurrent hmembers
  refine Ends.ite (fun h => ?_) fun _ => ?_
  · iterate 3 refine Ends.skip fun _ => ?_
    exact withRoute_brings (by rw [h.2]; decide) h.1
  refine Ends.ite (fun h => Ends.skip fun _ => withDomain_brings ?_ h.1) fun _ => ?_
  · rw [h.2]; decide
  refine Ends.ite (fun h => Ends.skip fun _ => withObligation_brings ?_ h.1) fun _ => ?_
  · rw [h.2]; decide
  refine Ends.ite (fun h => ?_) fun _ => trivial
  · iterate 4 refine Ends.skip fun _ => ?_
    exact withObligation_brings (by rw [h.2]; decide) h.1

/-- A check in front of a computation. -/
theorem ends_ensure {α : Type} {Q : α → Prop} {cond : Prop} [Decidable cond] {fault : Fault}
    {k : Unit → Outcome α} (h : cond → Ends (fun _ => True) Q (k ())) :
    Ends (fun _ => True) Q (ensure cond fault >>= k) := by
  rw [ensure]
  split
  · exact h ‹_›
  · trivial

/-- No route line has as many tokens as it needs and no more than it may have. -/
theorem parseRoute_refuses :
    Ends (fun _ => True) (fun _ => False) (p.parseRoute tokens) := by
  refine Ends.skip fun _ => ends_ensure fun hneeded => ?_
  iterate 15 refine Ends.skip fun _ => ?_
  refine ends_ensure fun hallowed => ?_
  omega

/-- A line brings a record when its first word opens one. -/
theorem handleLine_brings (h : (tokens.map Word.letters)[0]? = some w) :
    Ends (fun _ => True) (Brings p w) (p.handleLine view tokens) := by
  rw [handleLine, handleLine_eq h]
  refine Ends.ite (fun h => ?_) fun _ => ?_
  · refine Ends.skip fun _ => Ends.skip fun _ => .header ?_ rfl rfl rfl rfl rfl (.inl rfl)
    rw [h]; decide
  refine Ends.ite (fun h => ?_) fun _ => ?_
  · refine Ends.skip fun _ => Ends.skip fun _ => .header ?_ rfl rfl rfl rfl rfl (.inl rfl)
    rw [h]; decide
  refine Ends.ite (fun h => ?_) fun _ => ?_
  · refine Ends.skip fun _ => Ends.skip fun _ => .header ?_ rfl rfl rfl rfl rfl (.inl rfl)
    rw [h]; decide
  refine Ends.ite (fun h => h ▸ parseMember_brings) fun _ => ?_
  refine Ends.ite (fun h => h ▸ parseLink_brings) fun _ => ?_
  refine Ends.ite (fun h => parseRoute_refuses.mono fun _ h => h.elim) fun _ => ?_
  refine Ends.ite (fun h => h ▸ parseDomain_brings) fun _ => ?_
  refine Ends.ite (fun h => h ▸ parseObligation_brings) fun _ => ?_
  refine Ends.ite (fun h => Ends.skip fun _ => .header ?_ rfl rfl rfl rfl rfl (.inr rfl)) fun _ =>
    ?_
  · rw [h]; decide
  exact Ends.skip fun _ => Ends.ite (fun _ => parseContinuation_brings) fun _ => trivial

end TextParser

/-! ## Counting records -/

/-- The records and claims of a snapshot, without its routes. -/
def PodSnapshot.weight (s : PodSnapshot) : ℕ :=
  s.members.length + s.links.length + s.domains.length + s.obligations.length +
    (s.members.map fun m => m.capacity.length).sum

/-- The first word of a line. -/
def firstWord (line : Text) : Option Text :=
  ((words isBlank 0 (dropReturn line)).map Word.letters).head?

/-- The line begins a record or a claim. -/
def opensRecord (line : Text) : Bool := (firstWord line).any fun w => w ∈ recordWords

section Counting
variable {p q : TextParser} {line w : Text} {lines fields : List Text}

open TextParser in
/-- A record makes the snapshot heavier by one. -/
theorem TextParser.Brings.weight (h : p.Brings w q) :
    q.snapshot.weight = p.snapshot.weight + if w ∈ recordWords then 1 else 0 := by
  cases h with
  | member capacity =>
    simp [PodSnapshot.weight, addMember, capacity, recordWords]
    omega
  | link l =>
    simp [PodSnapshot.weight, addLink, recordWords]
    omega
  | domain d =>
    simp [PodSnapshot.weight, addDomain, recordWords]
    omega
  | obligation o =>
    simp [PodSnapshot.weight, addObligation, recordWords]
    omega
  | claim claim current members =>
    simp [PodSnapshot.weight, members, recordWords]
    omega
  | within word members rack capacity => simp [PodSnapshot.weight, members, word, capacity]
  | header word members links routes domains obligations current =>
    simp [PodSnapshot.weight, members, links, domains, obligations, word]
  | elsewhere word current members links routes domains obligations =>
    simp [PodSnapshot.weight, members, links, domains, obligations, word]

/-- A line that is taken is without words, or does what its first word says. -/
theorem take_brings (h : p.take line = .ok q) :
    (firstWord line = none ∧ q = p) ∨ ∃ w, firstWord line = some w ∧ p.Brings w q := by
  rw [TextParser.take] at h
  rw [firstWord]
  cases hwords : words isBlank 0 (dropReturn line) with
  | nil =>
    rw [if_pos hwords] at h
    exact .inl ⟨rfl, (Except.ok.inj h).symm⟩
  | cons first ws =>
    rw [if_neg (by rw [hwords]; exact List.cons_ne_nil _ _)] at h
    have hfirst : ((words isBlank 0 (dropReturn line)).map Word.letters)[0]? =
        some first.letters := by rw [hwords]; rfl
    exact .inr ⟨first.letters, rfl, (TextParser.handleLine_brings hfirst).of_ok h⟩

/-- No line adds a route. -/
theorem TextParser.Brings.routes (h : p.Brings w q) :
    q.snapshot.routes.length = p.snapshot.routes.length := by
  cases h with
  | header word members links routes => rw [routes]
  | elsewhere word current members links routes => exact routes
  | _ => rfl

/-- No line adds a route. Induction on the lines. -/
theorem foldlM_routes (h : lines.foldlM TextParser.take p = .ok q) :
    q.snapshot.routes.length = p.snapshot.routes.length := by
  induction lines generalizing p with
  | nil =>
    cases h
    rfl
  | cons line lines ih =>
    rw [List.foldlM_cons, bind_eq_ok] at h
    obtain ⟨next, htake, hrest⟩ := h
    rw [ih hrest]
    rcases take_brings htake with ⟨-, rfl⟩ | ⟨w, -, hbrings⟩
    · rfl
    · exact hbrings.routes

/-- The lines that begin records are counted by the records they leave behind. -/
theorem foldlM_weight (h : lines.foldlM TextParser.take p = .ok q) :
    q.snapshot.weight = p.snapshot.weight + lines.countP opensRecord := by
  induction lines generalizing p with
  | nil =>
    cases h
    rfl
  | cons line lines ih =>
    rw [List.foldlM_cons, bind_eq_ok] at h
    obtain ⟨next, htake, hrest⟩ := h
    have hnext : next.snapshot.weight = p.snapshot.weight + if opensRecord line then 1 else 0 := by
      rcases take_brings htake with ⟨hnone, rfl⟩ | ⟨w, hw, hbrings⟩
      · simp [opensRecord, hnone]
      · simp [opensRecord, hw, hbrings.weight]
    rw [ih hrest, hnext, List.countP_cons, Nat.add_assoc, Nat.add_comm (ite _ _ _)]

/-- The first word of a line. -/
theorem firstWord_inline (hline : Inline line)
    (h : (words isBlank 0 line).map Word.letters = w :: fields) : firstWord line = some w := by
  rw [firstWord, dropReturn_inline hline, h]
  rfl

/-- A line opens a record when its first word does. -/
theorem opensRecord_inline (hline : Inline line)
    (h : (words isBlank 0 line).map Word.letters = w :: fields) :
    opensRecord line = decide (w ∈ recordWords) := by
  rw [opensRecord, firstWord_inline hline h]
  rfl

/-- A line of printed fields begins with the first of them. -/
theorem opensRecord_plain (h : ∀ f ∈ w :: fields, Plain f) :
    opensRecord (lineOf (w :: fields)) = decide (w ∈ recordWords) :=
  opensRecord_inline (inline_lineOf fun f hf => (h f hf).inline) (letters_lineOf h)

/-- Free text behind plain fields opens no record. -/
theorem opensRecord_free {d : Text} (h : ∀ f ∈ w :: fields, Plain f) :
    opensRecord (lineOf (w :: fields ++ freeField d)) = decide (w ∈ recordWords) := by
  obtain ⟨more, hwords, -⟩ := words_free (d := d) h (List.cons_ne_nil _ _)
  exact opensRecord_inline (inline_free h) hwords

/-- Lines of free text open no record. -/
theorem countP_freeLines {t : Text} (hw : Plain w) (hrecord : w ∉ recordWords) :
    (freeLines w t).countP opensRecord = 0 := by
  rw [freeLines]
  split
  · rfl
  · next ht =>
    have hline := @opensRecord_free w [] t (by simpa using hw)
    rw [freeField, if_neg ht] at hline
    simp only [List.countP_singleton, List.cons_append, List.nil_append] at hline ⊢
    rw [hline]
    simp [hrecord]

/-- The lines of a list begin records all or none. -/
theorem countP_listed {α : Type} {f : α → List Text} {l : List α}
    (h : ∀ a, opensRecord (lineOf (f a)) = decide (w ∈ recordWords)) :
    (l.map fun a => lineOf (f a)).countP opensRecord = if w ∈ recordWords then l.length else 0 := by
  induction l with
  | nil => simp
  | cons a l ih =>
    rw [List.map_cons, List.countP_cons, ih, h]
    by_cases hw : w ∈ recordWords
    · simp [hw]
    · simp [hw]

end Counting

end PodFabric
