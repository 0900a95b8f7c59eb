import PodFabric.Engine.Composer

/-!
# Decision dependencies

The index over the decisions of the last composition, the plan of decisions that can change when
some inputs do (a closure over the edges of the index), and the report that compares the plan with
the decisions of the next composition.
-/

namespace PodFabric

/-! ## The index -/

/-- Index over the decisions of one composition: the decisions that depend on a key, and the
decisions themselves. -/
structure DecisionIndex where
  edges : OrderedMap DepKey (List DecisionId) := .empty
  records : OrderedMap DecisionId DecisionRecord := .empty
  deriving DecidableEq, Inhabited

namespace DecisionIndex

/-- Enters a decision under one of its dependencies. -/
def addEdge (id : DecisionId) (edges : OrderedMap DepKey (List DecisionId)) (dep : DepKey) :
    OrderedMap DepKey (List DecisionId) :=
  let bucket := (edges.find? dep).getD []
  if id ∈ bucket then edges else edges.insert dep (sorted (bucket ++ [id]))

/-- Enters a decision (`publish`). -/
def publish (index : DecisionIndex) (record : DecisionRecord) : DecisionIndex :=
  let deps := canonicalise record.deps
  { edges := deps.foldl (addEdge record.id) index.edges
    records := index.records.insert record.id { record with deps } }

/-- The index of the decisions of a state. -/
def ofDecisions (decisions : List DecisionRecord) : DecisionIndex :=
  decisions.foldl publish {}

/-- No decision is published. -/
def isEmpty (index : DecisionIndex) : Bool := index.records.entries.isEmpty

/-- The published record of a decision (`find`). -/
def find (index : DecisionIndex) (id : DecisionId) : Option DecisionRecord :=
  index.records.find? id

/-- The decisions that depend on a key. -/
def dependentsOf (index : DecisionIndex) (key : DepKey) : List DecisionId :=
  (index.edges.find? key).getD []

/-- The identities of all published decisions, in order (`all_ids`). -/
def allIds (index : DecisionIndex) : List DecisionId := index.records.keys

end DecisionIndex

/-! ## Plans -/

/-- The decisions that must be recomputed after some inputs changed, in order. -/
structure RevalidationPlan where
  recompute : List DecisionId := []
  closureSteps : ℕ := 0
  deriving DecidableEq, Inhabited

/-- The decision is to be recomputed (`contains`). -/
def RevalidationPlan.contains (plan : RevalidationPlan) (id : DecisionId) : Bool :=
  plan.recompute.contains id

/-- Visits the decisions not visited yet; new ones join the end of the queue. -/
def visit (visited queue : List DecisionId) : List DecisionId → List DecisionId × List DecisionId
  | [] => (visited, queue)
  | id :: rest =>
    if id ∈ visited then visit visited queue rest
    else visit (id :: visited) (queue ++ [id]) rest

namespace DecisionIndex
variable (index : DecisionIndex)

/-- The loop over the queue, for at most `fuel` decisions: those visited, and the number of steps
taken. -/
def close : ℕ → List DecisionId → List DecisionId → ℕ → List DecisionId × ℕ
  | 0, visited, _, steps => (visited, steps)
  | _ + 1, visited, [], steps => (visited, steps)
  | fuel + 1, visited, current :: queue, steps =>
    let next := visit visited queue (index.dependentsOf ⟨.decision, current.token⟩)
    close fuel next.1 next.2 (steps + 1)

/-- The occurrences of decisions under the keys. -/
def occurrences : List DecisionId := index.edges.entries.flatMap Prod.snd

/-- The closure of the decisions that depend on a changed key (`plan`). Every decision is queued
at most once, so the size of the index is enough fuel. -/
def plan (changed : List DepKey) : RevalidationPlan :=
  let start := visit [] [] (changed.flatMap index.dependentsOf)
  let closed := index.close index.occurrences.length start.1 start.2 0
  { recompute := sorted closed.1, closureSteps := closed.2 }

end DecisionIndex

/-! ## Reports -/

/-- Outcome of applying a plan to a freshly composed state. -/
structure RevalidationReport where
  plan : RevalidationPlan := {}
  totalDecisions : ℕ := 0
  recomputedChanged : List DecisionId := []
  recomputedUnchanged : List DecisionId := []
  changedOutsidePlan : List DecisionId := []
  addedOutsidePlan : List DecisionId := []
  removedOutsidePlan : List DecisionId := []
  deriving DecidableEq, Inhabited

/-- Nothing changed that was not predicted (`sound`). -/
def RevalidationReport.sound (report : RevalidationReport) : Bool :=
  report.changedOutsidePlan.isEmpty && report.addedOutsidePlan.isEmpty &&
    report.removedOutsidePlan.isEmpty

/-- The first ids of a list (`describe_ids`). -/
def describeIds (ids : List DecisionId) : Text :=
  (text ", ").intercalate ((ids.take 8).map BasicId.token) ++
    if 8 < ids.length then text ", ..." else []

/-- The ids that were not predicted, if there are any. -/
def describeUnpredicted (label : Text) (ids : List DecisionId) : Text :=
  if ids.isEmpty then [] else label ++ describeIds ids ++ text "]"

/-- The report as it is logged (`describe`). -/
def RevalidationReport.describe (report : RevalidationReport) : Text :=
  text "plan=" ++ decimal report.plan.recompute.length ++
    text " total=" ++ decimal report.totalDecisions ++
    text " changed-in-plan=" ++ decimal report.recomputedChanged.length ++
    text " unchanged-in-plan=" ++ decimal report.recomputedUnchanged.length ++
    describeUnpredicted " UNPREDICTED-CHANGE=[" report.changedOutsidePlan ++
    describeUnpredicted " UNPREDICTED-ADD=[" report.addedOutsidePlan ++
    describeUnpredicted " UNPREDICTED-REMOVE=[" report.removedOutsidePlan

/-- The plan a report is made with: the whole document if nothing was published before. -/
def revalidationPlan (before : DecisionIndex) (after : PodState) (changed : List DepKey) :
    RevalidationPlan :=
  if before.isEmpty then { recompute := sorted (after.decisions.map DecisionRecord.id) }
  else before.plan changed

/-- The ids of the new decisions that are new or whose fingerprint moved or stayed, and that are
in the plan or outside of it. -/
def comparedIds (before : DecisionIndex) (after : PodState)
    (keep : DecisionRecord → Option DecisionRecord → Bool) : List DecisionId :=
  sorted ((after.decisions.filter fun record => keep record (before.find record.id)).map
    DecisionRecord.id)

/-- Compares the published decisions with a freshly composed state (`revalidate`). -/
def revalidate (before : DecisionIndex) (after : PodState) (changed : List DepKey) :
    RevalidationReport :=
  let plan := revalidationPlan before after changed
  let moved (record : DecisionRecord) (previous : Option DecisionRecord) : Bool :=
    previous.any fun old => old.fingerprint ≠ record.fingerprint
  let kept (record : DecisionRecord) (previous : Option DecisionRecord) : Bool :=
    previous.any fun old => old.fingerprint = record.fingerprint
  { plan
    totalDecisions := after.decisions.length
    recomputedChanged := comparedIds before after fun record previous =>
      moved record previous && plan.contains record.id
    recomputedUnchanged := comparedIds before after fun record previous =>
      kept record previous && plan.contains record.id
    changedOutsidePlan := comparedIds before after fun record previous =>
      moved record previous && !plan.contains record.id
    addedOutsidePlan := comparedIds before after fun record previous =>
      previous.isNone && !plan.contains record.id
    removedOutsidePlan := sorted (before.allIds.filter fun id =>
      !after.decisions.any (fun record => record.id = id) && !plan.contains id) }

/-! ## Changed keys -/

/-- The last item of each identity. -/
def lastByIdentity {α ι : Type} [DecidableEq ι] (identity : α → ι) (items : List α) (key : ι) :
    Option α :=
  items.findRev? fun item => identity item = key

/-- The identities whose item moved, appeared or went away (`diff_collection`). -/
def diffCollection {α ι : Type} [DecidableEq α] [LinearOrder ι] (kind : DepKind)
    (token : ι → Text) (identity : α → ι) (before after : List α) : List DepKey :=
  ((canonicalise (before.map identity ++ after.map identity)).filter fun key =>
    lastByIdentity identity before key ≠ lastByIdentity identity after key).map fun key =>
      ⟨kind, token key⟩

/-- Every dependency key whose evidence differs between two snapshots
(`snapshot_change_keys`). -/
def snapshotChangeKeys (before after : PodSnapshot) : List DepKey :=
  canonicalise
    (diffCollection .member BasicId.token MemberRecord.rack before.members after.members ++
      diffCollection .link BasicId.token LinkRecord.id before.links after.links ++
      diffCollection .route BasicId.token RouteEvidence.ref before.routes after.routes ++
      diffCollection .domain BasicId.token FailureDomainRecord.id before.domains after.domains ++
      diffCollection .obligation BasicId.token Obligation.id before.obligations
        after.obligations)

/-- Every dependency key whose authority differs between two token sets
(`token_change_keys`). -/
def tokenChangeKeys (before : List AuthorityToken) (beforeRevoked : List LeaseId)
    (after : List AuthorityToken) (afterRevoked : List LeaseId) : List DepKey :=
  ((canonicalise (before.map AuthorityToken.lease ++ after.map AuthorityToken.lease ++
      beforeRevoked ++ afterRevoked)).filter fun lease =>
    lastByIdentity AuthorityToken.lease before lease ≠
        lastByIdentity AuthorityToken.lease after lease ∨
      (decide (lease ∈ beforeRevoked) ≠ decide (lease ∈ afterRevoked))).map fun lease =>
    ⟨.token, lease.token⟩

/-- Every dependency key that differs between two expectation sets
(`membership_change_keys`). -/
def membershipChangeKeys (before after : List MemberExpectation) : List DepKey :=
  diffCollection .member BasicId.token MemberExpectation.rack before after

end PodFabric
