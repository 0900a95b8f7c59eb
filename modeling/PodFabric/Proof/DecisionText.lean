import PodFabric.Proof.Reasons

/-!
# The text of a decision

The fingerprint of a decision is taken of a text in which its dependencies and reasons stand one
behind the other, each after a bar. The text is read back up to the reasons that quote a descriptor
revision: a revision may spell the border between two of them (`joint`). A record is told apart from
all others by its text just when it quotes one revision at most, and none that falls into two in
their order (`decision_text_iff`).
-/

namespace PodFabric

open List

/-! ## Entries -/

/-- A dependency as it stands in the text of a decision. -/
def DepKey.entry (dep : DepKey) : Text := 124 :: (dep.kind.toText ++ 61 :: dep.subject)

/-- A reason as it stands in the text of a decision. -/
def Reason.entry (reason : Reason) : Text := 124 :: (reason.code.toText ++ 61 :: reason.detail)

/-- The dependencies as the decision's text lists them. -/
def depsText (deps : List DepKey) : Text := deps.flatMap DepKey.entry

/-- The reasons as the decision's text lists them. -/
def reasonsText (reasons : List Reason) : Text := reasons.flatMap Reason.entry

/-- What the text of a decision tells. -/
structure SameDecision (record record' : DecisionRecord) : Prop where
  id : record.id = record'.id
  kind : record.kind = record'.kind
  status : record.status = record'.status
  deps : record.deps = record'.deps
  reasons : record.reasons = record'.reasons

section Tags

/-- Reason codes have different names. -/
theorem reasonCode_injective : Function.Injective ReasonCode.toText := by
  intro a b h
  have hnodup : (((List.range 40).map ReasonCode.ofNat).map ReasonCode.toText).Nodup := by
    decide +kernel
  have hall (code : ReasonCode) : code ∈ (List.range 40).map ReasonCode.ofNat := by
    cases code <;> decide
  exact List.inj_on_of_nodup_map hnodup (hall a) (hall b) h

/-- Kinds of dependencies have different names. -/
theorem depKind_injective : Function.Injective DepKind.toText := by
  intro a b h
  have hnodup : (((List.range 10).map DepKind.ofNat).map DepKind.toText).Nodup := by decide +kernel
  have hall (kind : DepKind) : kind ∈ (List.range 10).map DepKind.ofNat := by
    cases kind <;> decide
  exact List.inj_on_of_nodup_map hnodup (hall a) (hall b) h

/-- Codes have different names. -/
theorem code_injective : Function.Injective Code.toText := by
  intro a b h
  have hnodup : (((List.range 16).map Code.ofNat).map Code.toText).Nodup := by decide +kernel
  have hall (code : Code) : code ∈ (List.range 16).map Code.ofNat := by
    cases code <;> decide
  exact List.inj_on_of_nodup_map hnodup (hall a) (hall b) h

/-- A dependency does not begin like a reason. -/
theorem kind_ne_code (kind : DepKind) (code : ReasonCode) : kind.toText ≠ code.toText := by
  have htable : ∀ i : Fin 10, ∀ j : Fin 40,
      (DepKind.ofNat i).toText ≠ (ReasonCode.ofNat j).toText := by decide +kernel
  have hkind : ∃ i : Fin 10, DepKind.ofNat i = kind := by
    cases kind <;> decide
  have hcode : ∃ j : Fin 40, ReasonCode.ofNat j = code := by
    cases code <;> decide
  obtain ⟨i, rfl⟩ := hkind
  obtain ⟨j, rfl⟩ := hcode
  exact htable i j

/-- The name of a kind of dependency holds no `=` and no bar. -/
theorem kind_tag (kind : DepKind) : 61 ∉ kind.toText ∧ 124 ∉ kind.toText := by
  cases kind <;> decide

/-- The name of a reason code holds no `=` and no bar. -/
theorem code_tag (code : ReasonCode) : 61 ∉ code.toText ∧ 124 ∉ code.toText := by
  cases code <;> decide

/-- The name of a code holds no bar. -/
theorem status_tag (code : Code) : 124 ∉ code.toText := by
  cases code <;> decide

end Tags

section Entries
variable {deps deps' : List DepKey} {reasons reasons' : List Reason}
    {record record' : DecisionRecord}
  {t t' : Text}

/-- No reasons have an empty text. -/
@[simp] theorem reasonsText_nil : reasonsText [] = [] := rfl

/-- The text of reasons: the first one's, then the others'. -/
@[simp] theorem reasonsText_cons {reason : Reason} :
    reasonsText (reason :: reasons) = reason.entry ++ reasonsText reasons := rfl

/-- The texts of two lists of reasons stand one behind the other. -/
@[simp] theorem reasonsText_append :
    reasonsText (reasons ++ reasons') = reasonsText reasons ++ reasonsText reasons' :=
  List.flatMap_append

/-- The text of a decision, part by part. -/
theorem decisionText_eq : decisionText record = record.id.token ++ 124 :: (record.kind.toText ++
    124 :: (record.status.toText ++ (depsText record.deps ++ reasonsText record.reasons))) := by
  have hdeps : (record.deps.flatMap fun dep => [124] ++ dep.kind.toText ++ [61] ++ dep.subject) =
      depsText record.deps := List.flatMap_congr fun dep _ => by simp [DepKey.entry]
  have hreasons : (record.reasons.flatMap fun reason =>
      [124] ++ reason.code.toText ++ [61] ++ reason.detail) = reasonsText record.reasons :=
    List.flatMap_congr fun reason _ => by simp [Reason.entry]
  rw [decisionText, hdeps, hreasons]
  simp

/-- The text of reasons begins with a bar, if it begins. -/
theorem reasonsText_head : ∀ c ∈ (reasonsText reasons).head?, c = 124 := by
  intro c hc
  cases reasons with
  | nil => cases hc
  | cons reason reasons => exact (Option.some.inj hc).symm

/-- The text behind the status begins with a bar, if it begins. -/
theorem entriesText_head : ∀ c ∈ (depsText deps ++ reasonsText reasons).head?, c = 124 := by
  intro c hc
  cases deps with
  | nil => exact reasonsText_head c hc
  | cons dep deps => exact (Option.some.inj hc).symm

/-- Entries with the same text have the same tag. -/
theorem entry_tag {tag tag' body body' : Text} (htag : 61 ∉ tag) (htag' : 61 ∉ tag')
    (h : 124 :: (tag ++ 61 :: body) ++ t = 124 :: (tag' ++ 61 :: body') ++ t') :
    tag = tag' ∧ body ++ t = body' ++ t' := by
  have htext := List.tail_eq_of_cons_eq h
  simp only [List.append_eq, List.append_assoc, List.cons_append] at htext
  exact piece_inj_sep htag htag' htext

/-- The dependencies are read back from the text. -/
theorem depsText_inj (hdeps : ∀ dep ∈ deps, dep.Named) (hdeps' : ∀ dep ∈ deps', dep.Named)
    (h : depsText deps ++ reasonsText reasons = depsText deps' ++ reasonsText reasons') :
    deps = deps' ∧ reasonsText reasons = reasonsText reasons' := by
  -- a dependency is not read as a reason
  have hapart {dep : DepKey} {reasons : List Reason} {rest : Text}
      (h : reasonsText reasons = dep.entry ++ rest) : False := by
    cases reasons with
    | nil => cases h
    | cons reason reasons =>
      obtain ⟨htag, -⟩ := entry_tag (code_tag reason.code).1 (kind_tag dep.kind).1 h
      exact kind_ne_code _ _ htag.symm
  induction deps generalizing deps' with
  | nil =>
    cases deps' with
    | nil => exact ⟨rfl, h⟩
    | cons dep' deps' =>
      rw [depsText, depsText, List.flatMap_nil, List.nil_append, List.flatMap_cons,
        List.append_assoc] at h
      exact (hapart h).elim
  | cons dep deps ih =>
    rw [List.forall_mem_cons] at hdeps
    cases deps' with
    | nil =>
      rw [depsText, depsText, List.flatMap_nil, List.nil_append, List.flatMap_cons,
        List.append_assoc] at h
      exact (hapart h.symm).elim
    | cons dep' deps' =>
      rw [List.forall_mem_cons] at hdeps'
      rw [depsText, depsText, List.flatMap_cons, List.flatMap_cons, List.append_assoc,
        List.append_assoc] at h
      obtain ⟨htag, hrest⟩ := entry_tag (kind_tag dep.kind).1 (kind_tag dep'.kind).1 h
      obtain ⟨hsubject, hrest⟩ := piece_inj (unbarred_ident hdeps.1) (unbarred_ident hdeps'.1)
        entriesText_head entriesText_head hrest
      obtain ⟨rfl, hreasons⟩ := ih hdeps.2 hdeps'.2 hrest
      exact ⟨congrArg (· :: deps) (DepKey.ext (depKind_injective htag) hsubject), hreasons⟩

/-- Everything but the reasons is read back from the text. -/
theorem decisionText_front (hnamed : ∀ dep ∈ record.deps, dep.Named)
    (hnamed' : ∀ dep ∈ record'.deps, dep.Named) :
    decisionText record = decisionText record' ↔ record.id = record'.id ∧
      record.kind = record'.kind ∧ record.status = record'.status ∧ record.deps = record'.deps ∧
        reasonsText record.reasons = reasonsText record'.reasons := by
  rw [decisionText_eq, decisionText_eq]
  constructor
  · intro h
    have hkind (kind : DecisionKind) : 124 ∉ kind.toText := by
      cases kind <;> decide
    obtain ⟨hid, h⟩ := piece_inj_sep (unbarred_token _) (unbarred_token _) h
    obtain ⟨hkind, h⟩ := piece_inj_sep (hkind _) (hkind _) h
    obtain ⟨hstatus, h⟩ := piece_inj (status_tag _) (status_tag _) entriesText_head
      entriesText_head h
    obtain ⟨hdeps, hreasons⟩ := depsText_inj hnamed hnamed' h
    exact ⟨BasicId.token_injective hid, DecisionSubject.kind_injective hkind,
      code_injective hstatus,
      hdeps, hreasons⟩
  · rintro ⟨hid, hkind, hstatus, hdeps, hreasons⟩
    rw [hid, hkind, hstatus, hdeps, hreasons]

end Entries

/-! ## Reasons that quote a revision -/

/-- The border between two reasons that quote a revision. -/
def joint : Text := schemaClosing ++ 124 :: (ReasonCode.schemaUnsupported.toText ++
    61 :: schemaOpening)

/-- The revision that reads as several of them. -/
def joined (schema : Text) : List Text → Text
  | [] => schema
  | next :: rest => schema ++ joint ++ joined next rest

/-- A revision that reads as two, in the order of the reasons that quote them. -/
def Divisible (schema : Text) : Prop :=
  ∃ first second, first ≠ [] ∧ second ≠ [] ∧ schema = first ++ joint ++ second ∧
    schemaReason first < schemaReason second

/-- Reasons that are told apart from all others by their text. -/
structure Telling (reasons : List Reason) : Prop where
  one : QuotesOne reasons
  whole : ∀ schema, schemaReason schema ∈ reasons → ¬ Divisible schema

section Quoted
variable {schema schema' : Text} {schemas : List Text} {reason reason' : Reason}
  {reasons reasons' : List Reason} {t t' : Text}

/-- Joined schemas are not empty when the first one is not. -/
theorem joined_ne_nil (h : schema ≠ []) : joined schema schemas ≠ [] := by
  cases schemas with
  | nil => exact h
  | cons next rest => simp [joined, h]

/-- Joined revisions read as the reasons that quote them. -/
theorem entry_joined : (schemaReason (joined schema schemas)).entry =
    reasonsText ((schema :: schemas).map schemaReason) := by
  induction schemas generalizing schema with
  | nil => simp [joined]
  | cons next rest ih =>
    rw [List.map_cons, reasonsText_cons, ← ih]
    simp [joined, joint, Reason.entry, schemaReason]

/-- A text is not above one that goes on from it. -/
theorem le_append_text : t ≤ t ++ t' := by
  refine not_lt.1 fun h => ?_
  induction t with
  | nil => cases h
  | cons c t ih =>
    cases h with
    | rel hlt => exact lt_irrefl c hlt
    | cons h => exact ih h

/-- Reasons of one code are ordered by their details. -/
theorem schemaReason_le_iff : schemaReason schema ≤ schemaReason schema' ↔
    (schemaReason schema).detail ≤ (schemaReason schema').detail := by
  change (schemaReason schema).key ≤ (schemaReason schema').key ↔ _
  rw [Reason.key, Reason.key, Prod.Lex.toLex_le_toLex']
  constructor
  · rintro ⟨-, h⟩
    exact h rfl
  · intro h
    exact ⟨le_rfl, fun _ => h⟩

/-- A reason that quotes one schema is not above one that quotes more behind it. -/
theorem le_joined : schemaReason schema ≤ schemaReason (joined schema schemas) := by
  rw [schemaReason_le_iff]
  cases schemas with
  | nil => exact le_rfl
  | cons next rest =>
    have hstart : (schemaReason (joined schema (next :: rest))).detail =
        (schemaReason schema).detail ++ (124 :: (ReasonCode.schemaUnsupported.toText ++
          61 :: (schemaReason (joined next rest)).detail)) := by
      simp [joined, joint, schemaReason]
    rw [hstart]
    exact le_append_text

/-- Several revisions in order are joined to a divisible one. -/
theorem divisible_joined {next : Text} {rest : List Text} (hschema : schema ≠ [])
    (hnext : next ≠ [])
    (h : schemaReason schema < schemaReason next) : Divisible (joined schema (next :: rest)) :=
  ⟨schema, joined next rest, hschema, joined_ne_nil hnext, rfl, h.trans_le le_joined⟩

/-! ## Stock phrases at the end -/

/-- A stock reason's entry holds no bar but its first. -/
theorem Reason.Stock.entry_unbarred (h : reason.Stock) :
    124 ∉ reason.code.toText ++ 61 :: reason.detail := by
  simp only [List.mem_append, List.mem_cons, not_or]
  exact ⟨(code_tag _).2, by decide, h.unbarred⟩

/-- No text ends in the closing of a schema reason when a stock reason is its last. -/
theorem Reason.Stock.not_closing (h : reason.Stock) : ¬ schemaClosing <:+ t ++ reason.entry := by
  intro hclosing
  have hentry := suffix_of_not_mem (by decide) hclosing
  exact h.ending (suffix_of_not_mem (by decide) hentry)

/-- Stock phrases are read back from the end, up to a message about a revision. -/
theorem stock_end_inj (ht : schemaClosing <:+ t) (ht' : schemaClosing <:+ t')
    (hstock : ∀ reason ∈ reasons, reason.Stock) (hstock' : ∀ reason ∈ reasons', reason.Stock)
    (h : t ++ reasonsText reasons = t' ++ reasonsText reasons') : t = t' ∧ reasons = reasons' := by
  induction reasons using List.reverseRecOn generalizing reasons' with
  | nil =>
    rcases List.eq_nil_or_concat' reasons' with rfl | ⟨front', last', rfl⟩
    · exact ⟨by simpa using h, rfl⟩
    · rw [reasonsText_nil, List.append_nil, reasonsText_append, reasonsText_cons, reasonsText_nil,
        List.append_nil, ← List.append_assoc] at h
      exact absurd (h ▸ ht) (hstock' last' (by simp)).not_closing
  | append_singleton front last ih =>
    rcases List.eq_nil_or_concat' reasons' with rfl | ⟨front', last', rfl⟩
    · rw [reasonsText_nil, List.append_nil, reasonsText_append, reasonsText_cons, reasonsText_nil,
        List.append_nil, ← List.append_assoc] at h
      exact absurd (h ▸ ht') (hstock last (by simp)).not_closing
    · rw [List.forall_mem_append, List.forall_mem_singleton] at hstock hstock'
      simp only [reasonsText_append, reasonsText_cons, reasonsText_nil, List.append_nil] at h
      rw [← List.append_assoc, ← List.append_assoc] at h
      obtain ⟨hfront, hlast⟩ := last_piece_inj hstock.2.entry_unbarred hstock'.2.entry_unbarred h
      obtain ⟨hcode, hdetail⟩ := piece_inj_sep (code_tag _).1 (code_tag _).1 hlast
      obtain ⟨rfl, rfl⟩ := ih hstock.1 hstock'.1 hfront
      have hreason : last = last' := Reason.ext (reasonCode_injective hcode) hdetail
      exact ⟨rfl, by rw [hreason]⟩

end Quoted

/-! ## Reasons in order -/

/-- The place of the reasons that quote a revision among all reasons. -/
def schemaPlace : ℕ := ReasonCode.schemaUnsupported.ctorIdx

/-- Sorted reasons: those that quote a revision stand together, between stock phrases. -/
structure Quoting (reasons front : List Reason) (schemas : List Text) (behind : List Reason) :
    Prop where
  eq : reasons = front ++ (schemas.map schemaReason ++ behind)
  front : ∀ reason ∈ front, reason.Stock ∧ reason.code.ctorIdx < schemaPlace
  nonempty : ∀ schema ∈ schemas, schema ≠ []
  behind : ∀ reason ∈ behind, reason.Stock ∧ schemaPlace < reason.code.ctorIdx

section Order
variable {schema : Text} {schemas : List Text} {reason reason' : Reason}
  {reasons reasons' front behind : List Reason}

/-- Reasons are ordered by the places of their codes first. -/
theorem lt_of_place (h : reason.code.ctorIdx < reason'.code.ctorIdx) : reason < reason' := by
  change reason.key < reason'.key
  rw [Reason.key, Reason.key, Prod.Lex.toLex_lt_toLex]
  exact .inl h

/-- A smaller reason has no later place. -/
theorem place_le_of_lt (h : reason < reason') : reason.code.ctorIdx ≤ reason'.code.ctorIdx := by
  by_contra hcon
  exact lt_asymm h (lt_of_place (not_le.1 hcon))

/-- A stock reason does not have the place of the schema reasons. -/
theorem place_ne (h : reason.Stock) : reason.code.ctorIdx ≠ schemaPlace := fun hplace =>
  h.code (Function.LeftInverse.injective ReasonCode.ofNat_ctorIdx hplace)

/-- Sorted reasons fall into those before, those that quote a revision and those behind. -/
theorem exists_quoting (hsorted : reasons.Pairwise (· < ·))
    (hcomposable : ∀ reason ∈ reasons, reason.Composable) :
    ∃ front schemas behind, Quoting reasons front schemas behind := by
  induction reasons with
  | nil => exact ⟨[], [], [], rfl, by simp, by simp, by simp⟩
  | cons reason reasons ih =>
    rw [List.pairwise_cons] at hsorted
    rw [List.forall_mem_cons] at hcomposable
    obtain ⟨front, schemas, behind, heq, hfront, hnonempty, hbehind⟩ := ih hsorted.2 hcomposable.2
    -- what stands behind this reason is not before it
    have hplaces : ∀ other ∈ reasons, reason.code.ctorIdx ≤ other.code.ctorIdx :=
      fun other hother =>
      place_le_of_lt (hsorted.1 other hother)
    have hnone (hplace : schemaPlace ≤ reason.code.ctorIdx) : front = [] := by
      refine List.eq_nil_iff_forall_not_mem.2 fun other hother => ?_
      have hbefore := (hfront other hother).2
      have hlater := hplaces other (heq ▸ List.mem_append_left _ hother)
      omega
    cases hcomposable.1 with
    | stock hstock =>
      rcases lt_or_gt_of_ne (place_ne hstock) with hbefore | hlater
      · exact ⟨reason :: front, schemas, behind, by rw [heq, List.cons_append],
          List.forall_mem_cons.2 ⟨⟨hstock, hbefore⟩, hfront⟩, hnonempty, hbehind⟩
      · obtain rfl := hnone hlater.le
        have hschemas : schemas = [] := by
          refine List.eq_nil_iff_forall_not_mem.2 fun schema hschema => ?_
          have hle := hplaces (schemaReason schema)
            (heq ▸ List.mem_append_right _ (List.mem_append_left _ (List.mem_map_of_mem hschema)))
          exact absurd hlater (not_lt.2 hle)
        subst hschemas
        refine ⟨[], [], reason :: behind, ?_, by simp, by simp,
          List.forall_mem_cons.2 ⟨⟨hstock, hlater⟩, hbehind⟩⟩
        rw [heq]
        rfl
    | @schema schema hschema =>
      obtain rfl := hnone le_rfl
      exact ⟨[], schema :: schemas, behind, by rw [heq]; rfl, by simp,
        List.forall_mem_cons.2 ⟨hschema, hnonempty⟩, hbehind⟩

/-- The schema reasons of a list are those of the schemas it quotes. -/
theorem Quoting.mem (h : Quoting reasons front schemas behind) :
    schemaReason schema ∈ reasons ↔ schema ∈ schemas := by
  rw [h.eq, List.mem_append, List.mem_append, List.mem_map]
  constructor
  · rintro (hin | ⟨other, hother, hsame⟩ | hin)
    · exact absurd rfl (h.front _ hin).1.ne_schema
    · exact schemaReason_injective hsame ▸ hother
    · exact absurd rfl (h.behind _ hin).1.ne_schema
  · exact fun hin => .inr (.inl ⟨schema, hin, rfl⟩)

/-- Reasons that begin with a quoted revision have nothing before it. -/
theorem Quoting.head (h : Quoting (schemaReason schema :: reasons) front schemas behind) :
    ∃ rest, schemas = schema :: rest ∧ reasons = rest.map schemaReason ++ behind := by
  have heq := h.eq
  cases front with
  | cons first front =>
    rw [List.cons_append, List.cons.injEq] at heq
    exact absurd heq.1.symm (h.front first List.mem_cons_self).1.ne_schema
  | nil =>
    cases schemas with
    | nil =>
      rw [List.nil_append, List.map_nil, List.nil_append] at heq
      exact absurd rfl (h.behind _ (heq ▸ List.mem_cons_self)).1.ne_schema
    | cons first rest =>
      rw [List.nil_append, List.map_cons, List.cons_append, List.cons.injEq] at heq
      exact ⟨rest, by rw [schemaReason_injective heq.1], heq.2⟩

/-- Other revisions in order may take the place of those that are quoted. -/
theorem Quoting.replace {schemas' : List Text} (h : Quoting reasons front schemas behind)
    (hsorted : reasons.Pairwise (· < ·)) (hnonempty : ∀ schema ∈ schemas', schema ≠ [])
    (horder : (schemas'.map schemaReason).Pairwise (· < ·)) :
    (front ++ (schemas'.map schemaReason ++ behind)).Pairwise (· < ·) ∧
      ∀ reason ∈ front ++ (schemas'.map schemaReason ++ behind), reason.Composable := by
  rw [h.eq, List.pairwise_append, List.pairwise_append] at hsorted
  have hquoted : ∀ reason ∈ schemas'.map schemaReason, reason.code.ctorIdx = schemaPlace ∧
      reason.Composable := by
    intro reason hin
    obtain ⟨schema, hschema, rfl⟩ := List.mem_map.1 hin
    exact ⟨rfl, .schema (hnonempty schema hschema)⟩
  constructor
  · rw [List.pairwise_append, List.pairwise_append]
    refine ⟨hsorted.1, ⟨horder, hsorted.2.1.2.1, fun reason hin other hother => ?_⟩,
      fun reason hin other hother => ?_⟩
    · exact lt_of_place ((hquoted reason hin).1 ▸ (h.behind other hother).2)
    · rcases List.mem_append.1 hother with hother | hother
      · exact lt_of_place ((hquoted other hother).1 ▸ (h.front reason hin).2)
      · exact hsorted.2.2 reason hin other (List.mem_append_right _ hother)
  · intro reason hin
    rcases List.mem_append.1 hin with hin | hin
    · exact .stock (h.front reason hin).1
    rcases List.mem_append.1 hin with hin | hin
    · exact (hquoted reason hin).2
    · exact .stock (h.behind reason hin).1

end Order

/-! ## Reading the reasons back -/

section Reading
variable {reasons reasons' : List Reason} {record record' : DecisionRecord}

/-- The rest of reasons that quote at most one schema quote at most one. -/
theorem QuotesOne.tail {reason : Reason} (h : QuotesOne (reason :: reasons)) : QuotesOne reasons :=
  fun schema schema' hin hin' => h schema schema' (List.mem_cons_of_mem _ hin)
    (List.mem_cons_of_mem _ hin')

/-- Where one revision is quoted at most, the first that is quoted stands alone. -/
theorem alone_of_quotesOne {schema : Text} {rest : List Text} {behind : List Reason}
    (hsorted : (schemaReason schema :: (rest.map schemaReason ++ behind)).Pairwise (· < ·))
    (hone : QuotesOne (schemaReason schema :: (rest.map schemaReason ++ behind))) : rest = [] := by
  refine List.eq_nil_iff_forall_not_mem.2 fun other hother => ?_
  have hin : schemaReason other ∈ rest.map schemaReason ++ behind :=
    List.mem_append_left _ (List.mem_map_of_mem hother)
  have hsame := hone schema other List.mem_cons_self (List.mem_cons_of_mem _ hin)
  exact absurd ((List.pairwise_cons.1 hsorted).1 _ hin) (hsame ▸ lt_irrefl _)

/-- A quoted revision is read back if it is alone, and not divisible or read by itself again. -/
theorem quoted_inj {schema schema' : Text} (hsorted :
    (schemaReason schema :: reasons).Pairwise (· < ·))
    (hsorted' : (schemaReason schema' :: reasons').Pairwise (· < ·))
    (hcomposable : ∀ reason ∈ schemaReason schema :: reasons, reason.Composable)
    (hcomposable' : ∀ reason ∈ schemaReason schema' :: reasons', reason.Composable)
    (hone : QuotesOne (schemaReason schema :: reasons))
    (hwhole : ¬ Divisible schema ∨ QuotesOne (schemaReason schema' :: reasons'))
    (h : reasonsText (schemaReason schema :: reasons) =
      reasonsText (schemaReason schema' :: reasons')) :
    schemaReason schema :: reasons = schemaReason schema' :: reasons' := by
  obtain ⟨front, schemas, behind, hquoting⟩ := exists_quoting hsorted hcomposable
  obtain ⟨rest, rfl, rfl⟩ := hquoting.head
  obtain ⟨front', schemas', behind', hquoting'⟩ := exists_quoting hsorted' hcomposable'
  obtain ⟨rest', rfl, rfl⟩ := hquoting'.head
  obtain rfl := alone_of_quotesOne hsorted hone
  have hclosing {schema : Text} : schemaClosing <:+ (schemaReason schema).entry := by
    refine ⟨124 :: (ReasonCode.schemaUnsupported.toText ++ 61 :: (schemaOpening ++ schema)), ?_⟩
    simp [Reason.entry, schemaReason]
  have htext : (schemaReason schema).entry ++ reasonsText behind =
      (schemaReason (joined schema' rest')).entry ++ reasonsText behind' := by
    rw [entry_joined, ← reasonsText_append]
    exact h
  obtain ⟨hentry, rfl⟩ := stock_end_inj hclosing hclosing (fun r hr => (hquoting.behind r hr).1)
    (fun r hr => (hquoting'.behind r hr).1) htext
  have hschema : schema = joined schema' rest' :=
    schemaReason_injective (Reason.ext rfl (piece_inj_sep (code_tag _).1 (code_tag _).1
      (List.tail_eq_of_cons_eq hentry)).2)
  cases rest' with
  | nil => rw [hschema]; rfl
  | cons next rest' =>
    rcases hwhole with hwhole | hone'
    swap
    · cases alone_of_quotesOne hsorted' hone'
    refine absurd ?_ hwhole
    rw [hschema]
    have hin : schemaReason next ∈ (next :: rest').map schemaReason ++ behind :=
      List.mem_append_left _ (List.mem_map_of_mem List.mem_cons_self)
    exact divisible_joined (hquoting'.nonempty _ List.mem_cons_self)
      (hquoting'.nonempty _ (List.mem_cons_of_mem _ List.mem_cons_self))
      ((List.pairwise_cons.1 hsorted').1 _ hin)

/-- Reasons are read back from the text if they quote one revision at most, which is not divisible
or is read as one again. -/
theorem reasonsText_inj (hsorted : reasons.Pairwise (· < ·)) (hsorted' : reasons'.Pairwise (· < ·))
    (hcomposable : ∀ reason ∈ reasons, reason.Composable)
    (hcomposable' : ∀ reason ∈ reasons', reason.Composable) (hone : QuotesOne reasons)
    (hwhole : (∀ schema, schemaReason schema ∈ reasons → ¬ Divisible schema) ∨ QuotesOne reasons')
    (h : reasonsText reasons = reasonsText reasons') : reasons = reasons' := by
  induction reasons generalizing reasons' with
  | nil =>
    cases reasons' with
    | nil => rfl
    | cons reason' reasons' => cases h
  | cons reason reasons ih =>
    cases reasons' with
    | nil => cases h
    | cons reason' reasons' =>
      obtain ⟨hcode, hrest⟩ := entry_tag (code_tag reason.code).1 (code_tag reason'.code).1 h
      have hcode := reasonCode_injective hcode
      cases hcomposable reason List.mem_cons_self with
      | stock hstock =>
        cases hcomposable' reason' List.mem_cons_self with
        | stock hstock' =>
          obtain ⟨hdetail, hreasons⟩ := piece_inj hstock.unbarred hstock'.unbarred
            reasonsText_head reasonsText_head hrest
          obtain rfl := Reason.ext hcode hdetail
          have hwhole' : (∀ schema, schemaReason schema ∈ reasons → ¬ Divisible schema) ∨
              QuotesOne reasons' :=
            hwhole.imp (fun h schema hin => h schema (List.mem_cons_of_mem _ hin)) QuotesOne.tail
          exact congrArg (reason :: ·) (ih hsorted.of_cons hsorted'.of_cons
            (fun r hr => hcomposable r (List.mem_cons_of_mem _ hr))
            (fun r hr => hcomposable' r (List.mem_cons_of_mem _ hr)) hone.tail hwhole' hreasons)
        | schema => exact absurd hcode hstock.code
      | @schema schema hschema =>
        cases hcomposable' reason' List.mem_cons_self with
        | stock hstock' => exact absurd hcode.symm hstock'.code
        | @schema schema' hschema' =>
          exact quoted_inj hsorted hsorted' hcomposable hcomposable' hone
            (hwhole.imp_left fun h => h schema List.mem_cons_self) h

/-- Several revisions are quoted like one that joins them. -/
theorem Telling.one_of_inj (hsorted : reasons.Pairwise (· < ·))
    (hcomposable : ∀ reason ∈ reasons, reason.Composable)
    (hinj : ∀ reasons', reasons'.Pairwise (· < ·) → (∀ reason ∈ reasons', reason.Composable) →
      reasonsText reasons = reasonsText reasons' → reasons = reasons') : QuotesOne reasons := by
  intro schema schema' hin hin'
  obtain ⟨front, schemas, behind, hquoting⟩ := exists_quoting hsorted hcomposable
  rw [hquoting.mem] at hin hin'
  cases schemas with
  | nil => cases hin
  | cons first rest =>
    have hjoined : ∀ schema ∈ [joined first rest], schema ≠ [] :=
      List.forall_mem_singleton.2 (joined_ne_nil (hquoting.nonempty first List.mem_cons_self))
    obtain ⟨hsorted', hcomposable'⟩ := hquoting.replace hsorted hjoined
      (List.pairwise_singleton _ _)
    have htext : reasonsText reasons =
        reasonsText (front ++ ([joined first rest].map schemaReason ++ behind)) := by
      rw [hquoting.eq]
      simp only [reasonsText_append, ← entry_joined, List.map_singleton, reasonsText_cons,
        reasonsText_nil, List.append_nil]
    have hsame := congrArg List.length (hinj _ hsorted' hcomposable' htext)
    rw [hquoting.eq] at hsame
    simp only [List.length_append, List.length_map, List.length_cons, List.length_nil] at hsame
    obtain rfl : rest = [] := List.length_eq_zero_iff.1 (by omega)
    rw [List.mem_singleton] at hin hin'
    exact hin.trans hin'.symm

/-- A divisible revision is quoted like the two it falls into. -/
theorem Telling.whole_of_inj (hsorted : reasons.Pairwise (· < ·))
    (hcomposable : ∀ reason ∈ reasons, reason.Composable)
    (hone : QuotesOne reasons)
    (hinj : ∀ reasons', reasons'.Pairwise (· < ·) → (∀ reason ∈ reasons', reason.Composable) →
      reasonsText reasons = reasonsText reasons' → reasons = reasons') :
    ∀ schema, schemaReason schema ∈ reasons → ¬ Divisible schema := by
  rintro _ hin ⟨first, second, hfirst, hsecond, rfl, hlt⟩
  obtain ⟨front, schemas, behind, hquoting⟩ := exists_quoting hsorted hcomposable
  have halone : schemas = [first ++ joint ++ second] := by
    have hnodup : (schemas.map schemaReason).Nodup := by
      rw [hquoting.eq, List.pairwise_append, List.pairwise_append] at hsorted
      exact hsorted.2.1.1.imp fun h => h.ne
    cases schemas with
    | nil => exact absurd (hquoting.mem.1 hin) List.not_mem_nil
    | cons schema rest =>
      obtain rfl := hone schema _ (hquoting.mem.2 List.mem_cons_self) hin
      have hrest : rest = [] := by
        refine List.eq_nil_iff_forall_not_mem.2 fun other hother => ?_
        obtain rfl := hone other _ (hquoting.mem.2 (List.mem_cons_of_mem _ hother)) hin
        exact (List.nodup_cons.1 hnodup).1 (List.mem_map_of_mem hother)
      rw [hrest]
  subst halone
  obtain ⟨hsorted', hcomposable'⟩ := @Quoting.replace _ _ _ _ [first, second] hquoting hsorted
    (by simp [hfirst, hsecond]) (by simpa using hlt)
  have htext : reasonsText reasons =
      reasonsText (front ++ ([first, second].map schemaReason ++ behind)) := by
    have hjoined := @entry_joined first [second]
    rw [hquoting.eq]
    simp only [reasonsText_append, ← hjoined, List.map_singleton, reasonsText_cons, reasonsText_nil,
      List.append_nil, joined]
  have hsame := congrArg List.length (hinj _ hsorted' hcomposable' htext)
  rw [hquoting.eq] at hsame
  simp only [List.length_append, List.length_map, List.length_cons, List.length_nil] at hsame
  omega

end Reading

/-- **Decision text.** The text of a canonical record belongs to no other one just when its reasons
quote one descriptor revision at most, and none that falls into two in their order. -/
theorem decision_text_iff {record : DecisionRecord} (h : record.Canonical) :
    (∀ record' : DecisionRecord, record'.Canonical → decisionText record = decisionText record' →
      SameDecision record record') ↔ Telling record.reasons := by
  constructor
  · intro hsame
    have hinj : ∀ reasons', reasons'.Pairwise (· < ·) → (∀ reason ∈ reasons', reason.Composable) →
        reasonsText record.reasons = reasonsText reasons' → record.reasons = reasons' := by
      intro reasons' hsorted' hcomposable' htext
      have hcanonical : DecisionRecord.Canonical { record with reasons := reasons' } :=
        ⟨h.deps, h.named, hsorted', hcomposable'⟩
      exact (hsame _ hcanonical ((decisionText_front h.named hcanonical.named).2
        ⟨rfl, rfl, rfl, rfl, htext⟩)).reasons
    have hone := Telling.one_of_inj h.reasons h.composable hinj
    exact ⟨hone, Telling.whole_of_inj h.reasons h.composable hone hinj⟩
  · intro htelling record' h' htext
    obtain ⟨hid, hkind, hstatus, hdeps, hreasons⟩ := (decisionText_front h.named h'.named).1 htext
    exact ⟨hid, hkind, hstatus, hdeps,
      reasonsText_inj h.reasons h'.reasons h.composable h'.composable htelling.one
        (.inl htelling.whole) hreasons⟩

namespace Sample

/-- The sample pod, but its racks report descriptor revisions the pod does not know: two of them,
and one that spells the border between the two. -/
def revised : CompositionRequest where
  snapshot := { snapshot with
    members := [{ member rackA ⟨1⟩ with rnfSchema := "rnf/7" },
      { member rackB ⟨1⟩ with rnfSchema := "rnf/8" },
      { member ⟨rackA.token ++ rackB.token, .inr (by decide)⟩ ⟨1⟩ with
        rnfSchema := joined "rnf/7" ["rnf/8"] }] }

/-- A decision that quotes both revisions, and one that quotes the one that spells their border. -/
def both : DecisionRecord where
  reasons := [schemaReason "rnf/7", schemaReason "rnf/8"]

/-- A record with one reason, which quotes two revisions and the border between them. -/
def bordered : DecisionRecord where
  reasons := [schemaReason (joined "rnf/7" ["rnf/8"])]

end Sample

/-- Of the decisions on racks with revisions that the pod does not know, the one that quotes a plain
revision is told apart by its text, and the one that quotes the border between two is not. -/
theorem revised_told_apart : ∃ st, compose Sample.revised = .ok st ∧
    (∃ record ∈ st.decisions, schemaReason "rnf/7" ∈ record.reasons ∧
      ∀ record' : DecisionRecord, record'.Canonical → decisionText record = decisionText record' →
        SameDecision record record') ∧
    ∃ record ∈ st.decisions, schemaReason (joined "rnf/7" ["rnf/8"]) ∈ record.reasons ∧
      ¬ ∀ record' : DecisionRecord, record'.Canonical → decisionText record = decisionText record' →
        SameDecision record record' := by
  have hrun : (compose Sample.revised).toOption.map (fun st =>
      (st.decisions.any fun record => decide (schemaReason "rnf/7" ∈ record.reasons)) &&
        st.decisions.any fun record =>
          decide (schemaReason (joined "rnf/7" ["rnf/8"]) ∈ record.reasons)) = some true := by
    decide +kernel
  obtain ⟨st, hst, hview⟩ := composed_of_map hrun
  rw [Bool.and_eq_true, List.any_eq_true, List.any_eq_true] at hview
  obtain ⟨⟨record, hrecord, hquotes⟩, record', hrecord', hquotes'⟩ := hview
  have hquotes := of_decide_eq_true hquotes
  have hquotes' := of_decide_eq_true hquotes'
  obtain ⟨hcanonical, htold⟩ := composed_told hst record hrecord
  obtain ⟨hcanonical', -⟩ := composed_told hst record' hrecord'
  refine ⟨st, hst, ⟨record, hrecord, hquotes, (decision_text_iff hcanonical).2 ⟨htold.one, ?_⟩⟩,
    record', hrecord', hquotes', fun hsame => ?_⟩
  · rintro schema hschema ⟨first, second, -, -, hdivided, -⟩
    -- a revision that falls into two is longer than the words between them
    have hlength := congrArg List.length
      ((htold.one _ _ hquotes hschema).trans hdivided)
    rw [List.length_append, List.length_append] at hlength
    have hjoint : (text "rnf/7").length < joint.length := by decide +kernel
    omega
  · have hwhole := ((decision_text_iff hcanonical').1 hsame).whole _ hquotes'
    exact hwhole ⟨"rnf/7", "rnf/8", by decide, by decide, rfl, by decide +kernel⟩

/-- Reasons that compositions give make two different canonical records with one text. -/
theorem border_collides : ¬ ∀ record record' : DecisionRecord, record.Canonical →
    record'.Canonical →
    (∀ reason ∈ record.reasons ++ record'.reasons, ∃ request st, compose request = .ok st ∧
      ∃ decision ∈ st.decisions, reason ∈ decision.reasons) →
    decisionText record = decisionText record' → SameDecision record record' := by
  intro hclaim
  have hrun : (compose Sample.revised).toOption.map (fun st =>
      (Sample.both.reasons ++ Sample.bordered.reasons).all fun reason =>
        st.decisions.any fun decision => decide (reason ∈ decision.reasons)) = some true := by
    decide +kernel
  obtain ⟨st, hst, hview⟩ := composed_of_map hrun
  have hgiven : ∀ reason ∈ Sample.both.reasons ++ Sample.bordered.reasons, ∃ request st,
      compose request = .ok st ∧ ∃ decision ∈ st.decisions, reason ∈ decision.reasons := by
    intro reason hin
    obtain ⟨decision, hdecision, hreason⟩ := List.any_eq_true.1
      (List.all_eq_true.1 hview reason hin)
    exact ⟨_, st, hst, decision, hdecision, of_decide_eq_true hreason⟩
  have hboth : Sample.both.Canonical := by
    refine ⟨.nil, by simp [Sample.both], by decide +kernel, ?_⟩
    exact List.forall_mem_cons.2 ⟨.schema (by decide),
      List.forall_mem_singleton.2 (.schema (by decide))⟩
  have hbordered : Sample.bordered.Canonical := by
    refine ⟨.nil, by simp [Sample.bordered], by decide +kernel, ?_⟩
    exact List.forall_mem_singleton.2 (.schema (by decide))
  have hsame := hclaim _ _ hboth hbordered hgiven (by decide +kernel)
  exact absurd hsame.reasons (by decide +kernel)

end PodFabric
