import PodFabric.Engine.Dependency
import PodFabric.Lib.Worklist

/-!
# Plans are closures

The plan for some changed keys holds the decisions that depend on them, directly or through other
decisions, and no others. The edges of an index are the dependencies of the decisions it was built
from (`mem_dependentsOf`), and the loop over the queue is a search along them (`close_exact`).
-/

namespace PodFabric

/-! ## Edges -/

section Edges
variable {id id' : DecisionId} {edges : OrderedMap DepKey (List DecisionId)} {key : DepKey}

/-- One dependency adds the decision to one bucket. -/
theorem mem_addEdge {dep : DepKey} :
    id' ∈ ((DecisionIndex.addEdge id edges dep).find? key).getD [] ↔
      id' ∈ (edges.find? key).getD [] ∨ id' = id ∧ key = dep := by
  rw [DecisionIndex.addEdge]
  split
  · next hheld =>
    constructor
    · exact .inl
    · rintro (h | ⟨rfl, rfl⟩)
      · exact h
      · exact hheld
  · rw [OrderedMap.find?_insert]
    split
    · next hkey =>
      subst hkey
      simp [sorted]
    · next hkey =>
      have hne : key ≠ dep := fun h => hkey h
      simp [hne]

/-- The edges after a record's dependencies were added. -/
theorem mem_addEdges {deps : List DepKey} :
    id' ∈ ((deps.foldl (DecisionIndex.addEdge id) edges).find? key).getD [] ↔
      id' ∈ (edges.find? key).getD [] ∨ id' = id ∧ key ∈ deps := by
  induction deps generalizing edges with
  | nil => simp
  | cons dep deps ih =>
    rw [List.foldl_cons, ih, mem_addEdge, List.mem_cons]
    constructor
    · rintro ((h | ⟨hid, hkey⟩) | ⟨hid, hkey⟩)
      · exact .inl h
      · exact .inr ⟨hid, .inl hkey⟩
      · exact .inr ⟨hid, .inr hkey⟩
    · rintro (h | ⟨hid, hkey | hkey⟩)
      · exact .inl (.inl h)
      · exact .inl (.inr ⟨hid, hkey⟩)
      · exact .inr ⟨hid, hkey⟩

/-- The dependents of a key are the decisions that were published with it. -/
theorem mem_dependentsOf {decisions : List DecisionRecord} :
    id ∈ (DecisionIndex.ofDecisions decisions).dependentsOf key ↔
      ∃ record ∈ decisions, record.id = id ∧ key ∈ record.deps := by
  have hfold : ∀ index : DecisionIndex,
      id ∈ (decisions.foldl DecisionIndex.publish index).dependentsOf key ↔
        id ∈ index.dependentsOf key ∨ ∃ record ∈ decisions, record.id = id ∧ key ∈ record.deps := by
    induction decisions with
    | nil => simp
    | cons record decisions ih =>
      intro index
      have hpublish : id ∈ (index.publish record).dependentsOf key ↔
          id ∈ index.dependentsOf key ∨ id = record.id ∧ key ∈ record.deps := by
        have hedges := @mem_addEdges record.id id index.edges key (canonicalise record.deps)
        rwa [mem_canonicalise] at hedges
      rw [List.foldl_cons, ih, hpublish]
      simp only [List.mem_cons, exists_eq_or_imp, eq_comm (a := id), or_assoc]
  have hempty : id ∉ ({} : DecisionIndex).dependentsOf key := List.not_mem_nil
  rw [DecisionIndex.ofDecisions, hfold]
  simp [hempty]

end Edges

/-! ## The search -/

/-- A decision that depends on a changed key. -/
def DependsOnChanged (decisions : List DecisionRecord) (changed : List DepKey) (id : DecisionId) :
    Prop :=
  ∃ record ∈ decisions, record.id = id ∧ ∃ key ∈ changed, key ∈ record.deps

/-- The second decision depends on the first one. -/
def DependsOn (decisions : List DecisionRecord) (id id' : DecisionId) : Prop :=
  ∃ record ∈ decisions, record.id = id' ∧ (⟨.decision, id.token⟩ : DepKey) ∈ record.deps

section Search
variable {decisions : List DecisionRecord} {changed : List DepKey} {id : DecisionId}
  {visited queue items : List DecisionId} {fuel steps : ℕ}

/-- Visiting takes the items that are new, in order. -/
theorem visit_fresh : ∃ fresh, Fresh visited items fresh ∧
    visit visited queue items = (fresh.reverse ++ visited, queue ++ fresh) := by
  induction items generalizing visited queue with
  | nil => exact ⟨[], ⟨List.nodup_nil, by simp⟩, by simp [visit]⟩
  | cons id items ih =>
    rw [visit]
    split
    · next hvisited =>
      obtain ⟨fresh, hfresh, hvisit⟩ := @ih visited queue
      refine ⟨fresh, ⟨hfresh.nodup, fun a => ?_⟩, hvisit⟩
      rw [hfresh.mem, List.mem_cons]
      constructor
      · rintro ⟨ha, hnew⟩
        exact ⟨.inr ha, hnew⟩
      · rintro ⟨rfl | ha, hnew⟩
        · exact absurd hvisited hnew
        · exact ⟨ha, hnew⟩
    · next hvisited =>
      obtain ⟨fresh, hfresh, hvisit⟩ := @ih (id :: visited) (queue ++ [id])
      have hid : id ∉ fresh := fun h => ((hfresh.mem id).1 h).2 List.mem_cons_self
      refine ⟨id :: fresh, ⟨List.nodup_cons.2 ⟨hid, hfresh.nodup⟩, fun a => ?_⟩, ?_⟩
      · rw [List.mem_cons, List.mem_cons, hfresh.mem, List.mem_cons, not_or]
        constructor
        · rintro (rfl | ⟨ha, hne, hnew⟩)
          · exact ⟨.inl rfl, hvisited⟩
          · exact ⟨.inr ha, hnew⟩
        · rintro ⟨rfl | ha, hnew⟩
          · exact .inl rfl
          · by_cases hne : a = id
            · exact .inl hne
            · exact .inr ⟨ha, hne, hnew⟩
      · rw [hvisit, List.reverse_cons, List.append_assoc, List.append_assoc]
        rfl

/-- The dependents of a key occur in the index. -/
theorem mem_occurrences {index : DecisionIndex} {key : DepKey} (h : id ∈ index.dependentsOf key) :
    id ∈ index.occurrences := by
  rw [DecisionIndex.dependentsOf] at h
  cases hbucket : index.edges.find? key with
  | none =>
    rw [hbucket] at h
    cases h
  | some bucket =>
    rw [hbucket] at h
    exact List.mem_flatMap.2 ⟨(key, bucket), OrderedMap.find?_eq_some.1 hbucket, h⟩

/-- The index answers which decisions depend on a decision. -/
theorem dependsOn_iff {id' : DecisionId} :
    id' ∈ (DecisionIndex.ofDecisions decisions).dependentsOf ⟨.decision, id.token⟩ ↔
      DependsOn decisions id id' :=
  mem_dependentsOf

/-- The index answers which decisions depend on what changed. -/
theorem dependsOnChanged_iff :
    id ∈ changed.flatMap (DecisionIndex.ofDecisions decisions).dependentsOf ↔
      DependsOnChanged decisions changed id := by
  simp only [List.mem_flatMap, mem_dependentsOf, DependsOnChanged]
  constructor
  · rintro ⟨key, hkey, record, hrecord, hid, hdep⟩
    exact ⟨record, hrecord, hid, key, hkey, hdep⟩
  · rintro ⟨record, hrecord, hid, key, hkey, hdep⟩
    exact ⟨key, hkey, record, hrecord, hid, hdep⟩

/-- What can be reached occurs in the index. -/
theorem reached_occurrences
    (h : Reachable (DependsOnChanged decisions changed) (DependsOn decisions) id) :
    id ∈ (DecisionIndex.ofDecisions decisions).occurrences := by
  cases h with
  | root h =>
    obtain ⟨record, hrecord, hid, key, -, hdep⟩ := h
    exact mem_occurrences (mem_dependentsOf.2 ⟨record, hrecord, hid, hdep⟩)
  | step _ h => exact mem_occurrences (dependsOn_iff.2 h)

/-- The loop empties the queue within the occurrences of decisions, and then stops. -/
theorem close_exact (h : Worklist (DependsOnChanged decisions changed) (DependsOn decisions) visited
      queue steps)
    (hfuel : (DecisionIndex.ofDecisions decisions).occurrences.length ≤ fuel + steps) :
    ∃ v n, Worklist (DependsOnChanged decisions changed) (DependsOn decisions) v [] n ∧
      ∀ more, (DecisionIndex.ofDecisions decisions).close (fuel + more) visited queue steps =
        (v, n) := by
  have hends : ∀ fuel', (DecisionIndex.ofDecisions decisions).close fuel' visited [] steps =
      (visited, steps) := by
    intro fuel'
    cases fuel' <;> rfl
  induction fuel generalizing visited queue steps with
  | zero =>
    have hsteps := h.steps_le fun a ha => reached_occurrences ha
    obtain rfl : queue = [] := List.length_eq_zero_iff.1 (by omega)
    exact ⟨visited, steps, h, fun more => hends _⟩
  | succ fuel ih =>
    cases queue with
    | nil => exact ⟨visited, steps, h, fun more => hends _⟩
    | cons current queue =>
      obtain ⟨fresh, hfresh, hvisit⟩ := @visit_fresh visited queue
        ((DecisionIndex.ofDecisions decisions).dependentsOf ⟨.decision, current.token⟩)
      obtain ⟨v, n, hdone, hclose⟩ := ih (h.step (fun b => dependsOn_iff) hfresh) (by omega)
        (fun fuel' => by cases fuel' <;> rfl)
      refine ⟨v, n, hdone, fun more => ?_⟩
      rw [Nat.succ_add, DecisionIndex.close, hvisit]
      exact hclose more

end Search

/-- For any decisions and any changed keys the loop ends, and the plan lists in order the least set
of decisions that holds those depending on a changed key and, with each decision, those depending
on it; it takes one step for each of them. -/
theorem plan_exact (decisions : List DecisionRecord) (changed : List DepKey) :
    let index := DecisionIndex.ofDecisions decisions
    let start := visit [] [] (changed.flatMap index.dependentsOf)
    let plan := index.plan changed
    (∀ more, sorted (index.close (index.occurrences.length + more) start.1 start.2 0).1 =
      plan.recompute) ∧
    plan.recompute.Pairwise (· < ·) ∧
    IsClosed (DependsOnChanged decisions changed) (DependsOn decisions) (· ∈ plan.recompute) ∧
    (∀ S, IsClosed (DependsOnChanged decisions changed) (DependsOn decisions) S →
      ∀ id ∈ plan.recompute, S id) ∧
    plan.closureSteps = plan.recompute.length := by
  intro index start plan
  obtain ⟨fresh, hfresh, hstart⟩ := @visit_fresh [] [] (changed.flatMap index.dependentsOf)
  have hsearch : Worklist (DependsOnChanged decisions changed) (DependsOn decisions) fresh.reverse
      fresh 0 := .start (fun a => @dependsOnChanged_iff decisions changed a) hfresh
  obtain ⟨v, n, hdone, hclose⟩ := @close_exact _ _ _ _
    (DecisionIndex.ofDecisions decisions).occurrences.length _ hsearch (Nat.le_refl _)
  obtain ⟨hexact, hcount⟩ := hdone.exact
  have hstart : start = (fresh.reverse, fresh) := by
    rw [show start = visit [] [] _ from rfl, hstart]
    simp
  have hplan : plan = { recompute := sorted v, closureSteps := n } := by
    have hclosed := hclose 0
    rw [show plan = { recompute := sorted (index.close index.occurrences.length start.1 start.2 0).1
                      closureSteps := (index.close index.occurrences.length start.1 start.2 0).2 }
      from rfl, hstart]
    rw [Nat.add_zero] at hclosed
    rw [hclosed]
  have hmem : ∀ id, id ∈ plan.recompute ↔
      Reachable (DependsOnChanged decisions changed) (DependsOn decisions) id := by
    intro id
    rw [hplan]
    exact mem_sortOn.trans (hexact id)
  refine ⟨fun more => ?_, ?_, ?_, ?_, ?_⟩
  · rw [hstart, hplan]
    exact congrArg (fun r => sorted r.1) (hclose more)
  · rw [hplan]
    have hnodup : (sorted v).Nodup := (sortOn_perm _ v).nodup_iff.2 hdone.nodup
    exact ((sortOn_pairwise _ v).and hnodup).imp fun h => lt_of_le_of_ne h.1 h.2
  · have hclosed := @Reachable.isClosed _ (DependsOnChanged decisions changed) (DependsOn decisions)
    refine ⟨fun a ha => (hmem a).2 (hclosed.roots a ha), fun a b ha hb => (hmem b).2 ?_⟩
    exact hclosed.next a b ((hmem a).1 ha) hb
  · exact fun S hS id hid => Reachable.least hS ((hmem id).1 hid)
  · rw [hplan]
    change n = (sorted v).length
    rw [hcount]
    exact (sortOn_perm _ v).length_eq.symm

end PodFabric
