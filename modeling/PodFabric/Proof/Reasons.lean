import PodFabric.Lib.Pieces
import PodFabric.Proof.Decisions
import PodFabric.Proof.Isolation
import PodFabric.Proof.Recovery
import PodFabric.Proof.TextFields

/-!
# The reasons of a composed state

Almost every reason of a composition is a stock phrase: it has no bar in it and does not end like
the message about a descriptor revision. That message quotes the revision that the evidence gives,
and no list of reasons quotes more than one (`Told`). So it is for every decision of a composed
state (`composed_told`), whose dependencies are spelled in the alphabet of identifiers.
-/

namespace PodFabric

open List

/-! ## Reasons -/

/-- What stands in front of the revision in the reason that quotes one. -/
def schemaOpening : Text := "Rack Network Fabric descriptor revision '"

/-- What stands behind the revision in the reason that quotes one. -/
def schemaClosing : Text := "' is not accepted by this pod"

/-- The reason that quotes a descriptor revision. -/
def schemaReason (schema : Text) : Reason :=
  ⟨.schemaUnsupported, schemaOpening ++ schema ++ schemaClosing⟩

/-- A reason whose detail is a stock phrase. -/
structure Reason.Stock (reason : Reason) : Prop where
  code : reason.code ≠ .schemaUnsupported
  unbarred : 124 ∉ reason.detail
  ending : ¬ schemaClosing <:+ reason.detail

instance (reason : Reason) : Decidable reason.Stock :=
  decidable_of_iff (reason.code ≠ .schemaUnsupported ∧ 124 ∉ reason.detail ∧
    ¬ schemaClosing <:+ reason.detail) ⟨fun ⟨h, h', h''⟩ => ⟨h, h', h''⟩, fun h => ⟨h.1, h.2, h.3⟩⟩

/-- A reason that a composition may give. -/
inductive Reason.Composable : Reason → Prop
  | stock {reason : Reason} (h : reason.Stock) : Composable reason
  | schema {schema : Text} (h : schema ≠ []) : Composable (schemaReason schema)

/-- The reasons quote one descriptor revision at most. -/
def QuotesOne (reasons : List Reason) : Prop :=
  ∀ schema schema', schemaReason schema ∈ reasons → schemaReason schema' ∈ reasons →
    schema = schema'

/-- Reasons that a composition may give together. -/
structure Told (reasons : List Reason) : Prop where
  composable : ∀ reason ∈ reasons, reason.Composable
  one : QuotesOne reasons

section Reasons
variable {reason : Reason} {reasons more : List Reason} {schema : Text}

/-- The reasons of different revisions differ. -/
theorem schemaReason_injective {schema schema' : Text}
    (h : schemaReason schema = schemaReason schema') : schema = schema' := by
  have hdetail := congrArg Reason.detail h
  exact List.append_cancel_left (List.append_cancel_right hdetail)

/-- A stock reason quotes no revision. -/
theorem Reason.Stock.ne_schema (h : reason.Stock) : reason ≠ schemaReason schema := by
  rintro rfl
  exact h.code rfl

/-- Stock reasons are told. -/
theorem Told.stock (h : ∀ reason ∈ reasons, reason.Stock) : Told reasons :=
  ⟨fun reason hin => .stock (h reason hin), fun _ _ hin => absurd rfl (h _ hin).ne_schema⟩

/-- A single composable reason is told. -/
theorem Told.single (h : reason.Composable) : Told [reason] := by
  refine ⟨fun other hother => List.mem_singleton.1 hother ▸ h, fun schema schema' hin hin' => ?_⟩
  rw [List.mem_singleton] at hin hin'
  exact schemaReason_injective (hin.trans hin'.symm)

/-- Some of the reasons that are told are told. -/
theorem Told.subset (h : Told reasons) (hsub : more ⊆ reasons) : Told more :=
  ⟨fun reason hin => h.composable reason (hsub hin), fun schema schema' hin hin' =>
    h.one schema schema' (hsub hin) (hsub hin')⟩

/-- Stock phrases may be added. -/
theorem Told.append (h : Told reasons) (hmore : ∀ reason ∈ more, reason.Stock) :
    Told (reasons ++ more) := by
  have hschema {schema : Text} (hin : schemaReason schema ∈ reasons ++ more) :
      schemaReason schema ∈ reasons := by
    rcases List.mem_append.1 hin with hin | hin
    · exact hin
    · exact absurd rfl (hmore _ hin).ne_schema
  refine ⟨fun reason hin => ?_, fun schema schema' hin hin' =>
    h.one schema schema' (hschema hin) (hschema hin')⟩
  rcases List.mem_append.1 hin with hin | hin
  · exact h.composable reason hin
  · exact .stock (hmore reason hin)

/-- Reasons are told in any order. -/
theorem Told.canonicalise (h : Told reasons) : Told (canonicalise reasons) :=
  h.subset fun _ => mem_canonicalise.1

/-! ## Phrases -/

/-- A phrase with an ending of its own. -/
theorem Reason.Stock.of_last {code : ReasonCode} {detail : Text} (hcode : code ≠ .schemaUnsupported)
    (hbar : 124 ∉ detail) (hlast : detail.getLast? ≠ some 100) : Reason.Stock ⟨code, detail⟩ := by
  refine ⟨hcode, hbar, ?_⟩
  rintro ⟨front, hfront⟩
  have hending : schemaClosing.getLast? = some 100 := by decide
  have hfront : front ++ schemaClosing = detail := hfront
  rw [← hfront, List.getLast?_append, hending] at hlast
  exact hlast rfl

/-- No number holds a bar. -/
theorem unbarred_decimal (n : ℕ) : 124 ∉ decimal n := by
  intro hin
  have hdigit := (decimal_spec n).2.1 _ hin
  exact absurd hdigit.2 (by decide)

/-- Identifier bytes hold no bar. -/
theorem unbarred_ident {t : Text} (h : t.all DecisionSubject.isIdByte = true) : 124 ∉ t := by
  intro hin
  have hbar : DecisionSubject.isIdByte 124 = false := by decide
  rw [List.all_eq_true.1 h _ hin] at hbar
  cases hbar

/-- No identifier holds a bar. -/
theorem unbarred_token {tag : IdTag} (id : BasicId tag) : 124 ∉ id.token :=
  unbarred_ident (DecisionSubject.idBytes id)

end Reasons

/-! ## Members -/

/-- The reasons of a rack: a descriptor revision is quoted of an unsupported rack only. -/
structure MemberVerdict.Told (verdict : MemberVerdict) : Prop where
  told : PodFabric.Told verdict.reasons
  quoted : ∀ schema, schemaReason schema ∈ verdict.reasons → verdict.status = .unsupported

section Members
variable {policy : Policy} {evaluatedAt : Nanos} {rack : RackId} {record : MemberRecord}
  {records : List MemberRecord} {expectation : Option MemberExpectation} {work : MemberWork}
  {status : MemberStatus} {reason : Reason} {verdict : MemberVerdict} {request : CompositionRequest}

/-- A verdict with stock reasons is told. -/
theorem MemberVerdict.Told.stock (h : ∀ reason ∈ verdict.reasons, reason.Stock) : verdict.Told :=
  ⟨.stock h, fun _ hin => absurd rfl (h _ hin).ne_schema⟩

/-- A rejection for a stock reason is told. -/
theorem reject_told (hwork : work.verdict.reasons = []) (h : reason.Stock) :
    (work.reject status reason).verdict.Told := by
  refine .stock fun other hother => ?_
  rw [MemberWork.reject, hwork, List.nil_append, List.mem_singleton] at hother
  exact hother ▸ h

/-- The reason of evidence that is not fresh is a stock one. -/
theorem freshness_stock {observed : Nanos} (h :
    freshness policy evaluatedAt observed = some reason) :
    reason.Stock := by
  unfold freshness at h
  split at h
  · cases h
  · split at h
    · obtain rfl := Option.some.inj h
      decide
    · split at h
      · obtain rfl := Option.some.inj h
        decide
      · cases h

/-- The reason of a generation that does not fit is a stock one. -/
theorem checkGeneration_stock (h : checkGeneration record expectation = .error (status, reason)) :
    reason.Stock := by
  unfold checkGeneration at h
  split at h
  · cases h
  split at h
  · next expected hbehind =>
    cases h
    refine .of_last (by decide) ?_ ?_
    · simp only [List.mem_append, not_or]
      exact ⟨⟨⟨by decide, unbarred_decimal _⟩, by decide⟩, unbarred_decimal _⟩
    · obtain ⟨hne, hdigits, -⟩ := decimal_spec expected.generation.value.toNat
      rw [List.getLast?_append_of_ne_nil _ hne, List.getLast?_eq_some_getLast hne]
      intro hlast
      have hdigit := hdigits _ (Option.some.inj hlast ▸ List.getLast_mem hne)
      exact absurd hdigit.2 (by decide)
  · split at h
    · split at h
      · cases h
        decide
      · cases h
    · cases h

/-- The reasons of an established rack are stock ones. -/
theorem establish_stock (hwork : work.verdict.reasons = []) :
    ∀ reason ∈ (work.establish record).verdict.reasons, reason.Stock := by
  have hhealth : ∀ health, ∀ reason ∈ healthReasons health, reason.Stock := by
    intro health
    cases health <;> decide
  have hadmin : ∀ admin, ∀ reason ∈ adminReasons admin, reason.Stock := by
    intro admin
    cases admin <;> decide
  intro reason hin
  rw [MemberWork.establish, hwork, List.nil_append] at hin
  rcases List.mem_append.1 hin with hin | hin
  · exact hhealth _ reason hin
  · exact hadmin _ reason hin

/-- The verdict on a record is told. -/
theorem judgeRecord_told (hschema : record.rnfSchema ≠ []) (hwork : work.verdict.reasons = []) :
    (judgeRecord policy evaluatedAt record work).verdict.Told := by
  unfold judgeRecord
  dsimp only
  split
  · next reason hfresh => exact reject_told hwork (freshness_stock hfresh)
  split
  · -- the message quotes the revision of the record
    have hquote : (⟨.schemaUnsupported, text "Rack Network Fabric descriptor revision '" ++
        record.rnfSchema ++ text "' is not accepted by this pod"⟩ : Reason) =
          schemaReason record.rnfSchema := rfl
    refine ⟨?_, fun _ _ => rfl⟩
    rw [MemberWork.reject, hwork, List.nil_append, hquote]
    exact .single (.schema hschema)
  split
  · exact reject_told hwork (by decide)
  split
  · exact reject_told hwork (by decide)
  split
  · next status reason hgeneration => exact reject_told hwork (checkGeneration_stock hgeneration)
  split
  · exact reject_told hwork (by decide)
  split
  · exact reject_told hwork (by decide)
  · exact .stock (establish_stock hwork)

/-- The verdict on a rack is told. -/
theorem evaluateMember_told (hschema : ∀ record, records = [record] → record.rnfSchema ≠ []) :
    (evaluateMember policy evaluatedAt rack records expectation).verdict.Told := by
  unfold evaluateMember
  dsimp only
  split
  · exact reject_told rfl (by decide)
  · exact judgeRecord_told (hschema _ rfl) rfl
  · exact reject_told rfl (by decide)

/-- The only record of a rack is among those that are checked. -/
theorem mem_firstRecords {members : List MemberRecord} {racks : List RackId} (hnew : rack ∉ racks)
    (honly : (members.filter fun member => member.rack = rack) = [record]) :
    record ∈ firstRecords racks members := by
  have hrecord : record ∈ members.filter fun member => member.rack = rack :=
    honly ▸ List.mem_singleton_self record
  simp only [List.mem_filter, decide_eq_true_eq] at hrecord
  obtain ⟨first, hfirst, hrack⟩ := firstRecords_covers record hrecord.1 (hrecord.2 ▸ hnew)
  have hin : first ∈ members.filter fun member => member.rack = rack := by
    simp [(firstRecords_sub first hfirst).1, hrack, hrecord.2]
  rw [honly, List.mem_singleton] at hin
  exact hin ▸ hfirst

/-- The verdict on every covered rack is told. -/
theorem memberWork_told (h : SnapshotValid request.snapshot request.policy) :
    (memberWork request rack).verdict.Told := by
  refine evaluateMember_told fun record honly => ?_
  have hvalid := h.members record (mem_firstRecords List.not_mem_nil honly)
  unfold MemberRecord.validate at hvalid
  obtain ⟨_, -, hvalid⟩ := bind_eq_ok.1 hvalid
  obtain ⟨_, -, hvalid⟩ := bind_eq_ok.1 hvalid
  obtain ⟨_, hschema, -⟩ := bind_eq_ok.1 hvalid
  exact ensure_eq_ok.1 hschema

/-- An overlap leaves a verdict told. -/
theorem noteOverlap_told {domains : List DomainWork} (h : work.verdict.Told) :
    (noteOverlap domains work).verdict.Told := by
  have hmore : ∀ reason ∈ (overlapGroups domains work).map fun _ => (⟨.domainOverlap,
      "the rack belongs to more than one failure domain of the same kind"⟩ : Reason),
        reason.Stock := by
    intro reason hin
    obtain ⟨_, -, rfl⟩ := List.mem_map.1 hin
    decide
  refine ⟨h.told.append hmore, fun schema hin => ?_⟩
  rcases List.mem_append.1 hin with hin | hin
  · exact h.quoted schema hin
  · exact absurd rfl (hmore _ hin).ne_schema

/-- The verdicts on the racks are told. -/
theorem PassesOf.members_told {p : Passes} (h : PassesOf request p)
    (hvalid : SnapshotValid request.snapshot request.policy) :
    ∀ work ∈ p.findings.members, work.verdict.Told := by
  intro work hwork
  rw [h.members] at hwork
  obtain ⟨initial, hinitial, rfl⟩ := List.mem_map.1 hwork
  obtain ⟨rack, -, rfl⟩ := List.mem_map.1 hinitial
  exact noteOverlap_told (memberWork_told hvalid)

end Members

/-! ## Domains -/

section Domains
variable {members : List MemberWork} {domains : List DomainWork} {work : DomainWork}
  {request : CompositionRequest} {p : Passes} {id : DomainId}

/-- The reason about a listed rack is a stock one. -/
theorem listedReason_stock {rack : RackId} {reason : Reason}
    (h : listedReason members id rack = some reason) : reason.Stock := by
  unfold listedReason at h
  split at h
  · obtain rfl := Option.some.inj h
    decide
  split at h
  · obtain rfl := Option.some.inj h
    decide
  split at h
  · obtain rfl := Option.some.inj h
    decide
  · cases h

/-- The reason about a declaring rack is a stock one. -/
theorem declaringReason_stock {declared : List RackId} {member : MemberWork} {reason : Reason}
    (h : declaringReason declared id member = some reason) : reason.Stock := by
  unfold declaringReason at h
  split at h
  · obtain rfl := Option.some.inj h
    decide
  · cases h

/-- The reasons of a checked domain are stock ones. -/
theorem checkDomain_stock : ∀ reason ∈ (checkDomain members work).verdict.reasons,
    reason.Stock := by
  have hreasons : ∀ reason ∈ (if work.implicit then [(⟨.evidenceMissing,
      "the failure domain is referenced but never declared"⟩ : Reason)] else []) ++
        work.declared.filterMap (listedReason members work.id) ++
          members.filterMap (declaringReason work.declared work.id), reason.Stock := by
    intro reason hin
    simp only [List.mem_append, List.mem_filterMap] at hin
    rcases hin with (hin | ⟨_, -, hlisted⟩) | ⟨_, -, hdeclaring⟩
    · split at hin
      · obtain rfl := List.mem_singleton.1 hin
        decide
      · cases hin
    · exact listedReason_stock hlisted
    · exact declaringReason_stock hdeclaring
  have hconclude {reasons more : List Reason} (hreasons : ∀ reason ∈ reasons, reason.Stock)
      (hmore : ∀ reason ∈ more, reason.Stock) : ∀ reason ∈ reasons ++ more, reason.Stock := by
    intro reason hin
    rcases List.mem_append.1 hin with hin | hin
    · exact hreasons reason hin
    · exact hmore reason hin
  unfold checkDomain
  dsimp only
  split
  · exact hconclude hreasons (by simp)
  split
  · exact hconclude hreasons (by decide)
  split
  · exact hconclude hreasons (by decide)
  split
  · next himplicit =>
    rw [if_pos himplicit] at hreasons
    exact hconclude hreasons (by simp)
  · next himplicit =>
    rw [if_neg himplicit] at hreasons
    exact hconclude hreasons (by simp)

/-- Marking an overlap adds stock reasons only. -/
theorem markOverlap_stock (h : ∀ reason ∈ work.verdict.reasons, reason.Stock) :
    ∀ reason ∈ (markOverlap domains members work).verdict.reasons, reason.Stock := by
  unfold markOverlap
  dsimp only
  split
  · exact h
  · intro reason hin
    rcases List.mem_append.1 hin with hin | hin
    · exact h reason hin
    · obtain ⟨_, -, rfl⟩ := List.mem_map.1 hin
      decide

/-- The reasons of the domains are stock ones. -/
theorem PassesOf.domains_stock (h : PassesOf request p) :
    ∀ work ∈ p.findings.domains, ∀ reason ∈ work.verdict.reasons, reason.Stock := by
  intro work hwork
  rw [h.domains] at hwork
  obtain ⟨checked, hchecked, rfl⟩ := List.mem_map.1 hwork
  obtain ⟨id, -, rfl⟩ := List.mem_map.1 hchecked
  exact markOverlap_stock checkDomain_stock

end Domains

/-! ## Capacity -/

section Capacity
variable {policy : Policy} {resource : ResourceClass} {slots : List Slot}
    {entries : List LedgerEntry}
  {ledger : CapacityLedger} {request : CompositionRequest} {p : Passes}

/-- The suppressed claims of a ledger are suppressed with stock phrases. -/
def StockEntries (entries : List LedgerEntry) : Prop :=
  ∀ e ∈ entries, ∀ reason ∈ e.suppressed, reason.Stock

/-- The notes of a slot of stock entries are stock ones. -/
theorem notes_stock (h : StockEntries entries) :
    ∀ reason ∈ (Slot.ofEntries entries).notes, reason.Stock := by
  intro reason hin
  rcases List.mem_append.1 hin with hin | hin
  · obtain ⟨c, hc, rfl⟩ := List.mem_map.1 hin
    obtain ⟨e, he, hsuppressed⟩ := List.mem_filterMap.1 hc
    obtain ⟨reason, hreason, rfl⟩ := Option.map_eq_some_iff.1 hsuppressed
    exact h e he reason hreason
  · have hsettlement : ∀ conflict, (settlementReason conflict).Stock := by decide
    unfold settle at hin
    split at hin
    · cases hin
    · rw [Option.elim_some, List.map_map] at hin
      obtain ⟨_, -, rfl⟩ := List.mem_map.1 hin
      exact hsettlement _

/-- The loop over the slots adds their notes only. -/
theorem foldSlots_stock (h : ∀ slot ∈ slots, ∀ reason ∈ slot.notes, reason.Stock) :
    ∀ reason ∈ (foldSlots policy resource slots).reasons, reason.Stock := by
  intro reason hin
  rcases (foldSlots_notes.2 reason).1 hin with ⟨slot, hslot, hnote⟩ | ⟨rfl, -⟩
  · exact h slot hslot reason hnote
  · decide

/-- The notes of all slots are stock ones. -/
theorem slots_stock (h : StockEntries ledger.entries) :
    ∀ slot ∈ ledger.slots resource, ∀ reason ∈ slot.notes, reason.Stock := by
  intro slot hslot
  obtain ⟨key, -, rfl⟩ := List.mem_map.1 hslot
  exact notes_stock fun e he => h e (List.mem_filter.1 (List.mem_filter.1 he).1).1

/-- The reasons of the pod's aggregates are stock ones. -/
theorem byResource_stock (h : StockEntries ledger.entries) :
    ∀ a ∈ ledger.byResource, ∀ reason ∈ a.reasons, reason.Stock := by
  intro a ha
  obtain ⟨resource, -, rfl⟩ := List.mem_map.1 ha
  have hfold : ∀ reason ∈ (ledger.freezeResource resource).reasons, reason.Stock :=
    foldSlots_stock (slots_stock h)
  intro reason hin
  unfold ResourceFold.finish at hin
  rw [mem_canonicalise] at hin
  split at hin
  · rcases List.mem_append.1 hin with hin | hin
    · exact hfold reason hin
    · obtain rfl := List.mem_singleton.1 hin
      decide
  · exact hfold reason hin

/-- The reasons of the domains' aggregates are stock ones. -/
theorem byDomain_stock (h : StockEntries ledger.entries) :
    ∀ a ∈ ledger.byDomain, ∀ reason ∈ a.reasons, reason.Stock := by
  intro a ha reason hin
  rw [byDomain_eq] at ha
  obtain ⟨resource, -, ha⟩ := List.mem_flatMap.1 ha
  obtain ⟨domain, -, rfl⟩ := List.mem_map.1 ha
  have hin : reason ∈ canonicalise (domainAggregate ledger.policy resource (ledger.slots resource)
      domain).reasons := hin
  rw [mem_canonicalise] at hin
  exact foldSlots_stock (fun slot hslot =>
    slots_stock h slot ((List.rdropWhile_prefix _ _).subset hslot)) reason hin

/-- The entries of racks are stock entries. -/
theorem memberEntries_stock (works : List MemberWork) :
    StockEntries (works.flatMap memberEntries) := by
  intro e he reason hreason
  obtain ⟨work, -, he⟩ := List.mem_flatMap.1 he
  unfold memberEntries at he
  split at he
  · cases he
  obtain ⟨claim, -, rfl⟩ := List.mem_map.1 he
  unfold ledgerEntry at hreason
  dsimp only at hreason
  split at hreason
  · obtain rfl := Option.some.inj hreason
    decide
  split at hreason
  · obtain rfl := Option.some.inj hreason
    decide
  split at hreason
  · obtain rfl := Option.some.inj hreason
    decide
  · cases hreason

/-- The reasons of all aggregates are stock ones. -/
theorem PassesOf.capacity_stock (h : PassesOf request p) :
    ∀ a ∈ p.findings.capacity ++ p.domainCapacity, ∀ reason ∈ a.reasons, reason.Stock := by
  obtain ⟨ledger, hledger, hcapacity, hdomain⟩ := h.ledger
  obtain ⟨-, hentries⟩ := recordAll_eq_ok hledger
  have hstock : StockEntries ledger.entries := hentries ▸ memberEntries_stock _
  intro a ha
  rw [hcapacity, hdomain] at ha
  rcases List.mem_append.1 ha with ha | ha
  · exact byResource_stock hstock a ha
  · exact byDomain_stock hstock a ha

end Capacity

/-! ## Pairs -/

section Pairs
variable {ev : Evidence} {link : LinkRecord} {route : RouteEvidence} {f : PairFold}
    {o : LinkOutcome}
  {verdict verdict' : ConnectivityVerdict} {work work' : PairWork} {request : CompositionRequest}
  {p : Passes}

/-- The reason about a cited route is a stock one. -/
theorem citedRoute_stock {status : LinkStatus} {reason : Reason}
    (h : citedRoute ev link = some (status, reason)) : reason.Stock := by
  unfold citedRoute at h
  split at h
  · cases h
  split at h
  · cases h
    decide
  split at h
  · cases h
    decide
  split at h
  · cases h
    decide
  · cases h

/-- The reason a domain leaves to a link is a stock one. -/
theorem domainFate_stock {status : LinkStatus} {capacity : UInt64} {reason : Reason}
    (h : domainFate ev link = some (status, capacity, reason)) : reason.Stock := by
  unfold domainFate at h
  split at h
  · cases h
  split at h
  · cases h
  split at h
  · cases h
    decide
  split at h
  · cases h
    decide
  · cases h

/-- The reasons of a link are stock ones. -/
theorem classifyLink_stock : ∀ reason ∈ (classifyLink ev link).reasons, reason.Stock := by
  have hone {reason : Reason} (h : reason.Stock) : ∀ other ∈ [reason], other.Stock := by
    intro other hin
    exact List.mem_singleton.1 hin ▸ h
  unfold classifyLink
  dsimp only
  split
  · split
    · exact hone (by decide)
    split
    · exact hone (by decide)
    split
    · exact hone (by decide)
    split
    · exact hone (by decide)
    split
    · exact hone (by decide)
    split
    · exact hone (by decide)
    split
    · next hfresh => exact hone (freshness_stock hfresh)
    split
    · next hcited => exact hone (citedRoute_stock hcited)
    split
    · next hfate => exact hone (domainFate_stock hfate)
    split
    · exact hone (by decide)
    · simp
  · exact hone (by decide)

/-- The reason of hops is a stock one. -/
theorem classifyHops_stock {hops : List (RackId × RackGeneration)} {status : LinkStatus}
    {reason : Reason} (h : classifyHops ev hops = some (status, reason)) : reason.Stock := by
  induction hops with
  | nil => cases h
  | cons hop hops ih =>
    unfold classifyHops at h
    split at h
    · cases h
      decide
    split at h
    · cases h
      decide
    split at h
    · cases h
      decide
    split at h
    · cases h
      decide
    · exact ih h

/-- The reasons of a route are stock ones. -/
theorem classifyRoute_stock : ∀ reason ∈ (classifyRoute ev route).reasons, reason.Stock := by
  have hone {reason : Reason} (h : reason.Stock) : ∀ other ∈ [reason], other.Stock := by
    intro other hin
    exact List.mem_singleton.1 hin ▸ h
  unfold classifyRoute
  dsimp only
  split
  · exact hone (by decide)
  split
  · exact hone (by decide)
  split
  · next hfresh => exact hone (freshness_stock hfresh)
  split
  · next hhops => exact hone (classifyHops_stock hhops)
  · simp

/-- A status leaves the reasons. -/
theorem addStatus_reasons {status : LinkStatus} : (f.addStatus status).reasons = f.reasons := by
  cases status <;> rfl

/-- A link keeps the reasons stock ones. -/
theorem addLink_stock (hf : ∀ reason ∈ f.reasons, reason.Stock)
    (ho : ∀ reason ∈ o.reasons, reason.Stock) : ∀ reason ∈ (f.addLink o).reasons, reason.Stock := by
  have hboth : ∀ reason ∈ f.reasons ++ o.reasons, reason.Stock := List.forall_mem_append.2 ⟨hf, ho⟩
  unfold PairFold.addLink
  dsimp only
  split
  · split
    · rwa [addStatus_reasons]
    · rw [addStatus_reasons]
      exact List.forall_mem_append.2 ⟨hboth, by decide⟩
  · rwa [addStatus_reasons]

/-- A route keeps the reasons stock ones. -/
theorem addRoute_stock (hf : ∀ reason ∈ f.reasons, reason.Stock)
    (ho : ∀ reason ∈ o.reasons, reason.Stock) :
      ∀ reason ∈ (f.addRoute o).reasons, reason.Stock := by
  have hboth : ∀ reason ∈ f.reasons ++ o.reasons, reason.Stock := List.forall_mem_append.2 ⟨hf, ho⟩
  unfold PairFold.addRoute
  dsimp only
  split
  · rwa [addStatus_reasons]
  · rwa [addStatus_reasons]

/-- A loop over outcomes with stock phrases gathers stock phrases. -/
theorem foldl_stock {step : PairFold → LinkOutcome → PairFold}
    (hstep : ∀ {f o}, (∀ reason ∈ f.reasons, reason.Stock) → (∀ reason ∈ o.reasons, reason.Stock) →
      ∀ reason ∈ (step f o).reasons, reason.Stock) {os : List LinkOutcome} {f : PairFold}
    (hf : ∀ reason ∈ f.reasons, reason.Stock) (hos : ∀ o ∈ os, ∀ reason ∈ o.reasons, reason.Stock) :
    ∀ reason ∈ (os.foldl step f).reasons, reason.Stock := by
  induction os generalizing f with
  | nil => exact hf
  | cons o os ih =>
    rw [List.forall_mem_cons] at hos
    exact ih (hstep hf hos.1) hos.2

/-- The reasons of a pair's paths are stock ones. -/
theorem pairFold_stock : ∀ reason ∈ (pairFold ev work).reasons, reason.Stock := by
  refine foldl_stock addRoute_stock (foldl_stock addLink_stock (by simp) ?_) ?_
  · intro o ho
    obtain ⟨link, -, rfl⟩ := List.mem_map.1 ho
    exact classifyLink_stock
  · intro o ho
    obtain ⟨route, -, rfl⟩ := List.mem_map.1 ho
    exact classifyRoute_stock

/-- Concluding a pair adds stock reasons only. -/
theorem conclude_stock (hf : ∀ reason ∈ f.reasons, reason.Stock)
    (h : f.conclude verdict = .ok verdict') : ∀ reason ∈ verdict'.reasons, reason.Stock := by
  unfold PairFold.conclude at h
  split at h
  · cases h
    exact List.forall_mem_append.2 ⟨hf, by decide⟩
  split at h
  · split at h
    · cases h
    · cases h
      exact hf
  split at h
  · cases h
    exact hf
  · cases h
    exact List.forall_mem_append.2 ⟨hf, by decide⟩

/-- The reasons of the pairs are stock ones. -/
theorem PassesOf.pairs_stock (h : PassesOf request p) :
    ∀ work ∈ p.findings.pairs, ∀ reason ∈ work.verdict.reasons, reason.Stock := by
  intro work hwork
  obtain ⟨key, -, hjudge⟩ := mapM_mem h.pairs work hwork
  unfold judgePair at hjudge
  obtain ⟨verdict, hverdict, hjudge⟩ := bind_eq_ok.1 hjudge
  rw [pure_eq_ok] at hjudge
  subst hjudge
  exact conclude_stock pairFold_stock hverdict

end Pairs

/-! ## Obligations -/

section Obligations
variable {ev : PodEvidence} {obligation : Obligation} {request : CompositionRequest} {p : Passes}

/-- A phrase that quotes a token. -/
theorem quoted_stock {tag : IdTag} {code : ReasonCode} {before after : Text} {id : BasicId tag}
    (hcode : code ≠ .schemaUnsupported) (hbefore : 124 ∉ before) (hafter : 124 ∉ after)
    (hne : after ≠ []) (hlast : after.getLast? ≠ some 100) :
    Reason.Stock ⟨code, before ++ id.token ++ after⟩ := by
  refine .of_last hcode ?_ ?_
  · simp only [List.mem_append, not_or]
    exact ⟨⟨hbefore, unbarred_token id⟩, hafter⟩
  · rwa [List.getLast?_append_of_ne_nil _ hne]

/-- The findings on a requirement are stock ones. -/
theorem requirementFindings_stock {requirement : CapacityRequirement} :
    ∀ finding ∈ requirementFindings ev requirement, finding.2.Stock := by
  have hone {status : ObligationStatus} {reason : Reason} (h : reason.Stock) :
      ∀ finding ∈ [(status, reason)], finding.2.Stock := by
    intro finding hin
    exact List.mem_singleton.1 hin ▸ h
  unfold requirementFindings
  dsimp only
  split
  · exact hone (quoted_stock (by decide) (by decide) (by decide) (by decide) (by decide))
  split
  · exact hone (quoted_stock (by decide) (by decide) (by decide) (by decide) (by decide))
  split
  · exact hone (by decide)
  split
  · exact hone (by decide)
  split
  · exact hone (quoted_stock (by decide) (by decide) (by decide) (by decide) (by decide))
  split
  · exact hone (quoted_stock (by decide) (by decide) (by decide) (by decide) (by decide))
  · simp

/-- The findings on diversity are stock ones. -/
theorem diversityFindings_stock :
    ∀ finding ∈ (diversityFindings ev obligation).1, finding.2.Stock := by
  refine List.forall_mem_append.2 ⟨?_, ?_⟩
  · split
    · exact List.forall_mem_singleton.2 (by decide)
    · simp
  · split
    · refine List.forall_mem_singleton.2 (.of_last (by decide) ?_ ?_)
      · simp only [List.mem_append, not_or]
        exact ⟨⟨by decide, unbarred_decimal _⟩, by decide⟩
      · rw [List.getLast?_append_of_ne_nil _ (by decide)]
        decide
    · simp

/-- The findings on maintenance are stock ones. -/
theorem maintenanceFindings_stock :
    ∀ finding ∈ maintenanceFindings ev obligation, finding.2.Stock := by
  refine List.forall_mem_append.2 ⟨?_, ?_⟩
  · split
    · exact List.forall_mem_singleton.2 (by decide)
    · simp
  · split
    · exact List.forall_mem_singleton.2 (by decide)
    split
    · exact List.forall_mem_singleton.2 (by decide)
    · simp

/-- The message about a protected rack ends in a mark, a blank and words of its own. -/
theorem unestablished_stock {rack : RackId} : (protectedRackFinding.unestablished
    rack).2.Stock := by
  have hcode : ReasonCode.memberFenced ≠ .schemaUnsupported := by decide
  refine ⟨hcode, ?_, fun hending => ?_⟩
  · have hbars : 124 ∉ text "protected rack '" ++ rack.token ++ text "' is not established" := by
      simp only [List.mem_append, not_or]
      exact ⟨⟨by decide, unbarred_token rack⟩, by decide⟩
    exact hbars
  · have hmark : text " is not accepted by this pod" <:+ schemaClosing := ⟨[39], by decide⟩
    have hafter : text "' is not established" = 39 :: text " is not established" := by decide
    have hending : schemaClosing <:+
        (text "protected rack '" ++ rack.token) ++ text "' is not established" := hending
    rw [hafter] at hending
    have hshort := suffix_of_not_mem (by decide) (hmark.trans hending)
    exact absurd hshort (by decide)

/-- The findings on protected paths are stock ones. -/
theorem pathFindings_stock : ∀ finding ∈ pathFindings ev obligation, finding.2.Stock := by
  refine List.forall_mem_append.2 ⟨?_, ?_⟩
  · intro finding hin
    obtain ⟨rack, -, hin⟩ := List.mem_flatMap.1 hin
    unfold protectedRackFinding at hin
    split at hin
    · split at hin
      · cases hin
      · exact List.mem_singleton.1 hin ▸ unestablished_stock
    · exact List.mem_singleton.1 hin ▸ unestablished_stock
  · intro finding hin
    obtain ⟨pair, -, hin⟩ := List.mem_flatMap.1 hin
    unfold protectedPairFinding at hin
    split at hin
    · obtain rfl := List.mem_singleton.1 hin
      decide
    split at hin
    · cases hin
    all_goals
      obtain rfl := List.mem_singleton.1 hin
      decide

/-- The findings on an obligation are stock ones. -/
theorem obligationFindings_stock :
    ∀ finding ∈ (obligationFindings ev obligation).1, finding.2.Stock := by
  unfold obligationFindings
  split
  · split
    · exact List.forall_mem_singleton.2 (by decide)
    · intro finding hin
      obtain ⟨requirement, -, hin⟩ := List.mem_flatMap.1 hin
      exact requirementFindings_stock finding hin
  · split
    · exact List.forall_mem_singleton.2 (by decide)
    split
    · exact List.forall_mem_singleton.2 (by decide)
    · exact diversityFindings_stock
  · split
    · exact List.forall_mem_singleton.2 (by decide)
    · exact pathFindings_stock
  · dsimp only
    split
    · exact List.forall_mem_singleton.2 (by decide)
    split
    · exact List.forall_mem_singleton.2 (by decide)
    · exact maintenanceFindings_stock

/-- The reasons of the obligations are stock ones. -/
theorem PassesOf.obligations_stock (h : PassesOf request p) :
    ∀ verdict ∈ p.findings.obligations, ∀ reason ∈ verdict.reasons, reason.Stock := by
  intro verdict hverdict reason hin
  rw [h.obligations] at hverdict
  obtain ⟨obligation, -, rfl⟩ := List.mem_map.1 hverdict
  obtain ⟨finding, hfinding, rfl⟩ := List.mem_map.1 (mem_canonicalise.1 hin)
  exact obligationFindings_stock finding hfinding

end Obligations

/-! ## The pod -/

/-- The reasons that carry the authority so far: a descriptor revision is quoted only once the
status is as bad as that of an unsupported rack. -/
structure AuthorityFold.Told (f : AuthorityFold) : Prop where
  told : PodFabric.Told f.2
  quoted : ∀ schema, schemaReason schema ∈ f.2 → Code.severity .unsupported ≤ f.1.severity

section Pod
variable {f : AuthorityFold} {code : Code} {reasons : List Reason} {fd : Findings}
  {request : CompositionRequest} {p : Passes}

/-- The reasons of degradation are stock ones. -/
theorem degradations_stock : ∀ reason ∈ degradations fd, reason.Stock := by
  have hone {c : Prop} [Decidable c] {reason : Reason} (h : reason.Stock) :
      ∀ other ∈ (if c then [reason] else []), other.Stock := by
    split
    · exact List.forall_mem_singleton.2 h
    · simp
  unfold degradations
  refine List.forall_mem_append.2 ⟨List.forall_mem_append.2 ⟨List.forall_mem_append.2
    ⟨List.forall_mem_append.2 ⟨?_, ?_⟩, ?_⟩, ?_⟩, ?_⟩
  · exact hone (by decide)
  · exact hone (by decide)
  · exact hone (by decide)
  · exact hone (by decide)
  · exact hone (by decide)

/-- A reason that quotes a revision is taken over once at most: what is no worse than an unsupported
rack is passed over afterwards. -/
theorem AuthorityFold.Told.raise (h : f.Told) (hreasons : PodFabric.Told reasons)
    (hquoted : ∀ schema, schemaReason schema ∈ reasons → code = .unsupported) :
    (f.raise code reasons).Told := by
  unfold AuthorityFold.raise
  split
  · next hworse =>
    have hkeeps (schema : Text) (hin : schemaReason schema ∈ f.2) :
        Code.severity .unsupported ≤ code.severity := (h.quoted schema hin).trans hworse.le
    cases hfirst : reasons.head? with
    | none =>
      rw [Option.toList_none, List.append_nil]
      exact ⟨h.told, hkeeps⟩
    | some reason =>
      have hmem : reason ∈ reasons := List.mem_of_mem_head? hfirst
      rw [Option.toList_some]
      cases hreasons.composable reason hmem with
      | stock hstock =>
        refine ⟨h.told.append (List.forall_mem_singleton.2 hstock), fun schema hin => ?_⟩
        rcases List.mem_append.1 hin with hin | hin
        · exact hkeeps schema hin
        · exact absurd (List.mem_singleton.1 hin).symm hstock.ne_schema
      | @schema schema hschema =>
        obtain rfl := hquoted schema hmem
        have hnone (schema' : Text) : schemaReason schema' ∉ f.2 := fun hin =>
          absurd (h.quoted schema' hin) (not_le.2 hworse)
        have honly (schema' : Text) (hin : schemaReason schema' ∈ f.2 ++ [schemaReason schema]) :
            schema' = schema := by
          rcases List.mem_append.1 hin with hin | hin
          · exact absurd hin (hnone schema')
          · exact schemaReason_injective (List.mem_singleton.1 hin)
        refine ⟨⟨?_, fun schema' schema'' hin hin' => ?_⟩, fun _ _ => le_rfl⟩
        · exact List.forall_mem_append.2 ⟨h.told.composable,
            List.forall_mem_singleton.2 (.schema hschema)⟩
        · exact (honly schema' hin).trans (honly schema'' hin').symm
  · exact h

/-- Joining stock reasons keeps the authority told. -/
theorem AuthorityFold.Told.join (h : f.Told) (hreasons : ∀ reason ∈ reasons, reason.Stock) :
    (f.join code reasons).Told := by
  refine ⟨h.told.append hreasons, fun schema hin => ?_⟩
  rcases List.mem_append.1 hin with hin | hin
  · exact (h.quoted schema hin).trans (le_severity_join_left f code reasons)
  · exact absurd rfl (hreasons _ hin).ne_schema

/-- Joining stock reasons under a condition keeps the authority told. -/
theorem AuthorityFold.Told.joinIf {c : Prop} [Decidable c] (h : f.Told)
    (hreasons : ∀ reason ∈ reasons, reason.Stock) :
    AuthorityFold.Told (if c then f.join code reasons else f) := by
  split
  · exact h.join hreasons
  · exact h

/-- A loop over verdicts keeps the reasons told. -/
theorem AuthorityFold.Told.foldl {α : Type} {codeOf : α → Code} {reasonsOf : α → List Reason}
    {l : List α} (h : f.Told) (hl : ∀ a ∈ l, PodFabric.Told (reasonsOf a) ∧
      ∀ schema, schemaReason schema ∈ reasonsOf a → codeOf a = .unsupported) :
    (l.foldl (fun f a => f.raise (codeOf a) (reasonsOf a)) f).Told := by
  induction l generalizing f with
  | nil => exact h
  | cons a l ih =>
    rw [List.forall_mem_cons] at hl
    exact ih (h.raise hl.1.1 hl.1.2) hl.2

/-- Raising over a list with stock reasons keeps the authority told. Induction on the list. -/
theorem AuthorityFold.Told.foldl_stock {α : Type} {reasonsOf : α → List Reason} {l : List α}
    (codeOf : α → Code) (h : f.Told) (hl : ∀ a ∈ l, ∀ reason ∈ reasonsOf a, reason.Stock) :
    (l.foldl (fun f a => f.raise (codeOf a) (reasonsOf a)) f).Told :=
  h.foldl fun a ha => ⟨.stock (hl a ha), fun _ hin => absurd rfl (hl a ha _ hin).ne_schema⟩

/-- What the verdicts leave to the authority is told. -/
theorem PassesOf.verdictAuthority_told (h : PassesOf request p)
    (hvalid : SnapshotValid request.snapshot request.policy) :
      (verdictAuthority p.findings).Told := by
  have hstart : AuthorityFold.Told (.ok, []) := ⟨.stock (by simp), by simp⟩
  have hmembers := hstart.foldl (fun work hwork =>
    have htold := h.members_told hvalid work hwork
    ⟨htold.told, fun schema hin => congrArg MemberStatus.outcome (htold.quoted schema hin)⟩)
  have hdomains := hmembers.foldl_stock (fun work : DomainWork => work.verdict.status.outcome)
    h.domains_stock
  have hcapacity := hdomains.foldl_stock (fun a : CapacityAggregate => a.status.outcome)
    fun a ha => h.capacity_stock a (List.mem_append_left _ ha)
  exact hcapacity.foldl_stock _ h.obligations_stock

/-- The detail of a token's verdict makes a stock reason. -/
theorem validateToken_stock {token : AuthorityToken} {check : AuthorityCheck} {code : ReasonCode}
    (hcode : code ≠ .schemaUnsupported) : Reason.Stock
      ⟨code, (validateToken token check).detail⟩ := by
  have hphrase : 124 ∉ (validateToken token check).detail ∧
      ¬ schemaClosing <:+ (validateToken token check).detail := by
    unfold validateToken
    split_ifs <;> decide
  exact ⟨hcode, hphrase.1, hphrase.2⟩

/-- The reasons of tokens are stock ones. -/
theorem tokenReasons_stock : ∀ reason ∈ tokenReasons fd, reason.Stock := by
  intro reason hin
  obtain ⟨⟨token, verdict⟩, hinvalid, hin⟩ := List.mem_flatMap.1 hin
  obtain ⟨token', -, hverdict⟩ := List.mem_map.1 (List.mem_filter.1 hinvalid).1
  obtain ⟨rfl, rfl⟩ := Prod.mk.inj hverdict
  rcases List.mem_cons.1 hin with rfl | hin
  · exact validateToken_stock (by decide)
  · split at hin
    · obtain rfl := List.mem_singleton.1 hin
      exact validateToken_stock (by decide)
    · cases hin

/-- The reasons of the authority are told. -/
theorem PassesOf.authority_told (h : PassesOf request p)
    (hvalid : SnapshotValid request.snapshot request.policy) :
    Told (podAuthority p.findings).reasons := by
  have hverdicts := h.verdictAuthority_told hvalid
  have hstate : (stateAuthority p.findings).Told := by
    unfold stateAuthority
    refine .joinIf (.joinIf ?_ (by decide)) (by decide)
    split
    · exact hverdicts.join (by decide)
    · exact hverdicts.join (by simp)
    · exact hverdicts
  have hfinal : (finalAuthority p.findings).Told := by
    unfold finalAuthority
    exact .joinIf (hstate.join tokenReasons_stock) (by decide)
  exact hfinal.told.canonicalise

end Pod

/-! ## Decisions -/

/-- A dependency whose subject is spelled in the alphabet of identifiers. -/
def DepKey.Named (dep : DepKey) : Prop := dep.subject.all DecisionSubject.isIdByte = true

instance (dep : DepKey) : Decidable dep.Named := inferInstanceAs (Decidable (_ = true))

/-- A record in canonical form: sorted without repetitions, with dependencies on what has a name and
reasons that a composition may give. -/
structure DecisionRecord.Canonical (record : DecisionRecord) : Prop where
  deps : record.deps.Pairwise (· < ·)
  named : ∀ dep ∈ record.deps, dep.Named
  reasons : record.reasons.Pairwise (· < ·)
  composable : ∀ reason ∈ record.reasons, reason.Composable

section Decisions
variable {request : CompositionRequest} {p : Passes} {e : Emission} {st : PodState}

/-- A number makes a name. -/
theorem named_decimal {kind : DepKind} (n : ℕ) : DepKey.Named ⟨kind, decimal n⟩ := by
  refine List.all_eq_true.2 fun c hc => ?_
  obtain ⟨hlow, hhigh⟩ := (decimal_spec n).2.1 c hc
  have hdigit : (48 ≤ c && c ≤ 57) = true := by
    rw [Bool.and_eq_true, decide_eq_true_eq, decide_eq_true_eq]
    exact ⟨UInt8.le_iff_toNat_le.2 hlow, UInt8.le_iff_toNat_le.2 hhigh⟩
  simp [DecisionSubject.isIdByte, isLowerAlnum, hdigit]

/-- Hexadecimal digits are identifier bytes. -/
theorem idBytes_hexBytes (bytes : List UInt8) :
    (hexBytes bytes).all DecisionSubject.isIdByte = true := by
  have hall : ∀ k : Fin 256, DecisionSubject.isIdByte (hexDigit (UInt8.ofFin k >>> 4)) = true ∧
      DecisionSubject.isIdByte (hexDigit (UInt8.ofFin k &&& 0x0F)) = true := by
    decide +kernel
  refine List.all_eq_true.2 fun c hc => ?_
  obtain ⟨b, -, hc⟩ := List.mem_flatMap.1 hc
  simp only [List.mem_cons, List.not_mem_nil, or_false] at hc
  rcases hc with rfl | rfl
  · exact (hall b.toFin).1
  · exact (hall b.toFin).2

/-- An incarnation makes a name. -/
theorem named_incarnation {kind : DepKind} (i : Incarnation) : DepKey.Named ⟨kind, i.toText⟩ := by
  have hdash : [45].all DecisionSubject.isIdByte = true := by decide
  simp only [DepKey.Named, Incarnation.toText, Uuid.toText, List.all_append,
    idBytes_hexBytes, hdash,
    Bool.and_self]

/-- The dependencies on contributions are named. -/
theorem named_contributions {a : CapacityAggregate} : ∀ dep ∈ contributionKeys a, dep.Named := by
  intro dep hdep
  obtain ⟨c, -, rfl⟩ := List.mem_map.1 hdep
  exact DecisionSubject.idBytes c.owner

/-- The dependencies on racks are named. -/
theorem named_members (racks : List RackId) : ∀ dep ∈ racks.map memberKey, dep.Named := by
  intro dep hdep
  obtain ⟨rack, -, rfl⟩ := List.mem_map.1 hdep
  exact DecisionSubject.idBytes rack

/-- The dependencies of the parts are named. -/
theorem partEmissions_named {fd : Findings} {domainCapacity : List CapacityAggregate}
    (he : e ∈ partEmissions fd domainCapacity) : ∀ dep ∈ e.record.deps, dep.Named := by
  simp only [partEmissions, List.mem_append, List.mem_map] at he
  rcases he with ((((⟨work, -, rfl⟩ | ⟨work, -, rfl⟩) | ⟨a, -, rfl⟩) | ⟨a, -, rfl⟩) |
    ⟨work, -, rfl⟩) | ⟨o, -, rfl⟩
  · exact List.forall_mem_singleton.2 (DecisionSubject.idBytes work.rack)
  · exact List.forall_mem_cons.2 ⟨DecisionSubject.idBytes work.id, named_members _⟩
  · exact named_contributions
  · exact List.forall_mem_cons.2 ⟨DecisionSubject.idBytes a.domain, named_contributions⟩
  · refine List.forall_mem_append.2 ⟨List.forall_mem_append.2 ⟨?_, ?_⟩, ?_⟩
    · exact List.forall_mem_cons.2 ⟨DecisionSubject.idBytes _,
        List.forall_mem_singleton.2 (DecisionSubject.idBytes _)⟩
    · exact List.forall_mem_map.2 fun link _ => DecisionSubject.idBytes link.id
    · exact List.forall_mem_map.2 fun route _ => DecisionSubject.idBytes route.ref
  · refine List.forall_mem_cons.2 ⟨DecisionSubject.idBytes o.id,
      List.forall_mem_append.2 ⟨List.forall_mem_append.2 ⟨?_, named_members _⟩, ?_⟩⟩
    · exact List.forall_mem_map.2 fun requirement _ => DecisionSubject.idBytes _
    · exact List.forall_mem_map.2 fun pair _ => DecisionSubject.idBytes _

/-- The dependencies of all decisions are named. -/
theorem emissions_named (he : e ∈ p.emissions) : ∀ dep ∈ e.record.deps, dep.Named := by
  rcases List.mem_append.1 he with he | he
  · exact partEmissions_named he
  simp only [List.mem_cons, List.not_mem_nil, or_false] at he
  rcases he with rfl | rfl
  · have hlifecycle : ∀ l : LifecycleState, DepKey.Named ⟨.lifecycle, l.toText⟩ := by
      intro l
      cases l <;> decide
    refine List.forall_mem_append.2 ⟨?_, ?_⟩
    · exact List.forall_mem_map.2 fun record _ => DecisionSubject.idBytes _
    · exact List.forall_mem_cons.2 ⟨named_decimal _, List.forall_mem_singleton.2 (hlifecycle _)⟩
  · refine List.forall_mem_append.2 ⟨List.forall_mem_append.2 ⟨List.forall_mem_append.2
      ⟨?_, ?_⟩, ?_⟩, ?_⟩
    · exact List.forall_mem_cons.2 ⟨DecisionSubject.idBytes _, List.forall_mem_cons.2
        ⟨named_decimal _, List.forall_mem_singleton.2 (named_incarnation _)⟩⟩
    · exact List.forall_mem_map.2 fun work _ => DecisionSubject.idBytes work.rack
    · exact List.forall_mem_map.2 fun token _ => DecisionSubject.idBytes token.lease
    · exact List.forall_mem_map.2 fun lease _ => DecisionSubject.idBytes lease

/-- The reasons of all decisions are told. -/
theorem PassesOf.emissions_told (h : PassesOf request p)
    (hvalid : SnapshotValid request.snapshot request.policy) (he : e ∈ p.emissions) :
    Told e.record.reasons := by
  rcases List.mem_append.1 he with he | he
  · simp only [partEmissions, List.mem_append, List.mem_map] at he
    rcases he with ((((⟨work, hwork, rfl⟩ | ⟨work, hwork, rfl⟩) | ⟨a, ha, rfl⟩) | ⟨a, ha, rfl⟩) |
      ⟨work, hwork, rfl⟩) | ⟨o, -, rfl⟩
    · exact (h.members_told hvalid work hwork).told
    · exact .stock (h.domains_stock work hwork)
    · exact .stock (h.capacity_stock a (List.mem_append_left _ ha))
    · exact .stock (h.capacity_stock a (List.mem_append_right _ ha))
    · exact .stock (h.pairs_stock work hwork)
    · refine .stock fun reason hin => ?_
      simp only [obligationDecision] at hin
      cases hfind : p.findings.obligations.find? fun candidate => candidate.id = o.id with
      | none =>
        rw [hfind] at hin
        cases hin
      | some verdict =>
        rw [hfind] at hin
        exact h.obligations_stock verdict (List.mem_of_find?_eq_some hfind) reason hin
  · simp only [List.mem_cons, List.not_mem_nil, or_false] at he
    rcases he with rfl | rfl
    · exact .stock degradations_stock
    · exact h.authority_told hvalid

/-- The decisions of a composed state are canonical, and their reasons are told. -/
theorem composed_told (h : compose request = .ok st) :
    ∀ record ∈ st.decisions, record.Canonical ∧ Told record.reasons := by
  obtain ⟨hvalid, -⟩ := validate_request_iff.1 (compose_eq_ok.1 h).1
  obtain ⟨p, -, hof, rfl⟩ := compose_passesOf h
  intro record hrecord
  obtain ⟨e, he, rfl⟩ := List.mem_map.1 (finalise_decisions.mem_iff.1 hrecord)
  have htold := (hof.emissions_told hvalid he).canonicalise
  refine ⟨⟨canonicalise_pairwise _, fun dep hdep => ?_, canonicalise_pairwise _, htold.composable⟩,
    htold⟩
  exact emissions_named he dep (mem_canonicalise.1 hdep)

end Decisions

end PodFabric
