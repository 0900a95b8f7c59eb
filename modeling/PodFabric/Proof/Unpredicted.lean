import PodFabric.Proof.Aftermath
import PodFabric.Proof.Plans
import PodFabric.Proof.Undisturbed

/-!
# What a plan misses

The plan of a round follows the keys that decisions are published under, and a decision reads more
than it is published under. A decision that changes outside of the plan has read a record that
moved and leads to it under no published key, or a record that has aged meanwhile; one on the pod as
a whole may have read what the controller publishes no key for (`unpredicted_explained`).
-/

namespace PodFabric

/-! ## The index of a round -/

section Index
variable {decisions : List DecisionRecord} {id : DecisionId} {changed changed' : List DepKey}
  {old : DecisionRecord}

/-- What is found under an identity is the last decision of it. -/
theorem find_ofDecisions : (DecisionIndex.ofDecisions decisions).find id =
    (decisions.findRev? fun record => record.id = id).map fun record =>
      { record with deps := canonicalise record.deps } := by
  rw [List.findRev?_eq_find?_reverse]
  induction decisions using List.reverseRecOn with
  | nil => rfl
  | append_singleton decisions record ih =>
    rw [DecisionIndex.ofDecisions, List.foldl_concat, DecisionIndex.find, DecisionIndex.publish,
      OrderedMap.find?_insert, List.reverse_append, List.reverse_singleton, List.singleton_append,
      List.find?_cons]
    by_cases hid : record.id = id
    · rw [if_pos hid.symm, decide_eq_true hid]
      rfl
    · rw [if_neg fun h => hid h.symm, decide_eq_false hid]
      exact ih

/-- With distinct identities every decision is found. -/
theorem find_of_mem (hunique : (decisions.map DecisionRecord.id).Nodup) {record : DecisionRecord}
    (hrecord : record ∈ decisions) : (DecisionIndex.ofDecisions decisions).find record.id =
      some { record with deps := canonicalise record.deps } := by
  rw [find_ofDecisions, findRev?_eq_find? hunique, find?_key_eq hunique hrecord rfl]
  rfl

/-- The identities of an index are those of its decisions. -/
theorem mem_allIds : id ∈ (DecisionIndex.ofDecisions decisions).allIds ↔
    id ∈ decisions.map DecisionRecord.id := by
  have hfind : id ∈ (DecisionIndex.ofDecisions decisions).allIds ↔
      (DecisionIndex.ofDecisions decisions).find id ≠ none := by
    rw [DecisionIndex.allIds, DecisionIndex.find, OrderedMap.keys, Option.ne_none_iff_exists',
      List.mem_map]
    constructor
    · rintro ⟨⟨id, old⟩, hentry, rfl⟩
      exact ⟨old, OrderedMap.find?_eq_some.2 hentry⟩
    · rintro ⟨old, hold⟩
      exact ⟨(id, old), OrderedMap.find?_eq_some.1 hold, rfl⟩
  rw [hfind, find_ofDecisions, List.findRev?_eq_find?_reverse, Ne, Option.map_eq_none_iff,
    List.find?_eq_none]
  simp [List.mem_map]

/-- The index of some decision is not empty. -/
theorem isEmpty_ofDecisions (h : decisions ≠ []) :
    (DecisionIndex.ofDecisions decisions).isEmpty = false := by
  obtain ⟨record, hrecord⟩ := List.exists_mem_of_ne_nil _ h
  have hid := mem_allIds.2 (List.mem_map_of_mem (f := DecisionRecord.id) hrecord)
  rw [DecisionIndex.allIds, OrderedMap.keys] at hid
  obtain ⟨entry, hentry, -⟩ := List.mem_map.1 hid
  rw [DecisionIndex.isEmpty, List.isEmpty_eq_false_iff_exists_mem]
  exact ⟨entry, hentry⟩

/-- A plan holds what can be reached from the changed keys. -/
theorem mem_plan : id ∈ ((DecisionIndex.ofDecisions decisions).plan changed).recompute ↔
    Reachable (DependsOnChanged decisions changed) (DependsOn decisions) id := by
  obtain ⟨fresh, hfresh, hstart⟩ := @visit_fresh [] []
    (changed.flatMap (DecisionIndex.ofDecisions decisions).dependentsOf)
  have hsearch : Worklist (DependsOnChanged decisions changed) (DependsOn decisions) fresh.reverse
      fresh 0 := .start (fun a => @dependsOnChanged_iff decisions changed a) hfresh
  obtain ⟨visited, steps, hdone, hclose⟩ := close_exact hsearch (Nat.le_refl _)
  have hclosed := hclose 0
  rw [Nat.add_zero] at hclosed
  rw [DecisionIndex.plan, hstart]
  change id ∈ sorted ((DecisionIndex.ofDecisions decisions).close _ (fresh.reverse ++ [])
    ([] ++ fresh) 0).1 ↔ _
  rw [List.append_nil, List.nil_append, hclosed, sorted, mem_sortOn]
  exact hdone.exact.1 id

/-- More keys make for a larger plan. -/
theorem plan_mono (hsub : changed ⊆ changed')
    (h : id ∈ ((DecisionIndex.ofDecisions decisions).plan changed).recompute) :
    id ∈ ((DecisionIndex.ofDecisions decisions).plan changed').recompute := by
  rw [mem_plan] at h ⊢
  induction h with
  | root hroot =>
    obtain ⟨record, hrecord, hid, key, hkey, hdep⟩ := hroot
    exact .root ⟨record, hrecord, hid, key, hsub hkey, hdep⟩
  | step _ hnext ih => exact .step ih hnext

end Index

/-! ## What moves between two rounds -/

/-- The record under a key is not the same in two snapshots. -/
inductive RecordMoved (snapshot snapshot' : PodSnapshot) : DepKey → Prop
  | member {rack : RackId} (h : (snapshot'.members.find? fun m => m.rack = rack) ≠
      snapshot.members.find? fun m => m.rack = rack) :
      RecordMoved snapshot snapshot' (memberKey rack)
  | link {id : LinkId} (h : (snapshot'.links.find? fun l => l.id = id) ≠
      snapshot.links.find? fun l => l.id = id) : RecordMoved snapshot snapshot' (linkKey id)
  | route {ref : RouteRef} (h : (snapshot'.routes.find? fun r => r.ref = ref) ≠
      snapshot.routes.find? fun r => r.ref = ref) : RecordMoved snapshot snapshot' (routeKey ref)
  | domain {id : DomainId} (h : (snapshot'.domains.find? fun d => d.id = id) ≠
      snapshot.domains.find? fun d => d.id = id) : RecordMoved snapshot snapshot' (domainKey id)
  | obligation {id : ObligationId} (h : (snapshot'.obligations.find? fun o => o.id = id) ≠
      snapshot.obligations.find? fun o => o.id = id) :
      RecordMoved snapshot snapshot' (obligationKey id)

/-- The record under a key was fresh in the first round and is not in the second, or it was too old
or too far ahead and is so no longer, or for another reason. -/
inductive RecordAged (request request' : CompositionRequest) : DepKey → Prop
  | member {m : MemberRecord} (hm : m ∈ request'.snapshot.members)
      (h : request'.freshness m.observedAt ≠ request.freshness m.observedAt) :
      RecordAged request request' (memberKey m.rack)
  | link {l : LinkRecord} (hl : l ∈ request'.snapshot.links)
      (h : request'.freshness l.observedAt ≠ request.freshness l.observedAt) :
      RecordAged request request' (linkKey l.id)
  | route {r : RouteEvidence} (hr : r ∈ request'.snapshot.routes)
      (h : request'.freshness r.observedAt ≠ request.freshness r.observedAt) :
      RecordAged request request' (routeKey r.ref)

section Moves
variable {request request' : CompositionRequest} {snapshot snapshot' : PodSnapshot} {key : DepKey}

/-- Keys whose records neither moved nor aged are calm. -/
theorem calm_of_still : Calm request request' fun key =>
    ¬ RecordMoved request.snapshot request'.snapshot key ∧ ¬ RecordAged request request' key where
  member h := by_contra fun hne => h.1 (.member hne)
  link h := by_contra fun hne => h.1 (.link hne)
  route h := by_contra fun hne => h.1 (.route hne)
  domain h := by_contra fun hne => h.1 (.domain hne)
  obligation h := by_contra fun hne => h.1 (.obligation hne)
  memberTime _ hm h := by_contra fun hne => h.2 (.member hm hne)
  linkTime _ hl h := by_contra fun hne => h.2 (.link hl hne)
  routeTime _ hr h := by_contra fun hne => h.2 (.route hr hne)

/-- What moved between two collections is among the changed keys. -/
theorem mem_diffCollection {α ι : Type} [DecidableEq α] [LinearOrder ι] {kind : DepKind}
    {token : ι → Text} {identity : α → ι} {before after : List α} {k : ι}
    (hbefore : Ascending identity before) (hafter : Ascending identity after)
    (hmoved : (after.find? fun a => identity a = k) ≠ before.find? fun a => identity a = k) :
    (⟨kind, token k⟩ : DepKey) ∈ diffCollection kind token identity before after := by
  refine List.mem_map.2 ⟨k, List.mem_filter.2 ⟨?_, ?_⟩, rfl⟩
  · rw [mem_canonicalise, List.mem_append, List.mem_map, List.mem_map]
    by_contra hnone
    rw [not_or, not_exists, not_exists] at hnone
    refine hmoved ?_
    rw [List.find?_eq_none.2 fun a ha hk => hnone.2 a ⟨ha, of_decide_eq_true hk⟩,
      List.find?_eq_none.2 fun a ha hk => hnone.1 a ⟨ha, of_decide_eq_true hk⟩]
  · rw [lastByIdentity, lastByIdentity, findRev?_eq_find? hbefore.nodup,
      findRev?_eq_find? hafter.nodup]
    exact decide_eq_true hmoved.symm

/-- A record that moved has its key among the changed ones. -/
theorem mem_snapshotChangeKeys (hascends : snapshot.Ascends) (hascends' : snapshot'.Ascends)
    (hmoved : RecordMoved snapshot snapshot' key) :
    key ∈ snapshotChangeKeys snapshot snapshot' := by
  rw [snapshotChangeKeys, mem_canonicalise]
  simp only [List.mem_append]
  cases hmoved with
  | member h =>
    exact .inl (.inl (.inl (.inl (mem_diffCollection hascends.members hascends'.members h))))
  | link h => exact .inl (.inl (.inl (.inr (mem_diffCollection hascends.links hascends'.links h))))
  | route h => exact .inl (.inl (.inr (mem_diffCollection hascends.routes hascends'.routes h)))
  | domain h => exact .inl (.inr (mem_diffCollection hascends.domains hascends'.domains h))
  | obligation h => exact .inr (mem_diffCollection hascends.obligations hascends'.obligations h)

/-- Evidence in canonical form ascends, if it describes no rack twice, and so does the evidence of a
round, with the overrides laid over it. -/
theorem SnapshotValid.request_ascends {policy : Policy} {c : PodController} {env : Env}
    (h : SnapshotValid snapshot policy) (hracks : (snapshot.members.map MemberRecord.rack).Nodup) :
    (c.request env snapshot.canonicalise).snapshot.Ascends where
  members := .of_map (fun _ => rfl) (.of_map (fun _ => rfl) (.of_sortOn hracks))
  links := .of_sortOn h.linkIds
  routes := .of_sortOn h.routeRefs
  domains := .of_map (fun _ => rfl) (.of_sortOn h.domainIds)
  obligations := .of_map (fun _ => rfl) (.of_sortOn h.obligationIds)

end Moves

/-! ## What a report finds -/

/-- The ids that a report finds outside of its plan. -/
def RevalidationReport.unpredicted (report : RevalidationReport) : List DecisionId :=
  report.changedOutsidePlan ++ report.addedOutsidePlan ++ report.removedOutsidePlan

section Report
variable {request request' : CompositionRequest} {p p' : Passes} {id : DecisionId}
  {s : DecisionSubject} {record : DecisionRecord} {changed : List DepKey}

/-- The decision on a subject, as it is published. -/
theorem mem_decisions (hp : PassesOf request p)
    (hvalid : SnapshotValid request.snapshot request.policy) :
    record ∈ p.draft.finalise.decisions ↔ ∃ s emitted, p.recordOf s = some emitted ∧
      emitted.id = s.id ∧ emitted.canonicalise.seal = record := by
  rw [finalise_decisions.mem_iff, List.mem_map]
  constructor
  · rintro ⟨e, he, rfl⟩
    exact ⟨e.subject, e.record, (hp.mem_emissions hvalid).1 ⟨e, he, rfl, rfl⟩, emissions_id he, rfl⟩
  · rintro ⟨s, emitted, hrecord, -, rfl⟩
    obtain ⟨e, he, -, rfl⟩ := (hp.mem_emissions hvalid).2 hrecord
    exact ⟨e, he, rfl⟩

/-- The lifecycle is decided on in every round. -/
theorem decisions_ne_nil : p.draft.finalise.decisions ≠ [] := by
  intro hnil
  have hlength := (@finalise_decisions p).length_eq
  rw [hnil] at hlength
  simp [Passes.emissions] at hlength

/-- The identities that a comparison selects. -/
theorem mem_comparedIds {before : DecisionIndex} {after : PodState}
    {keep : DecisionRecord → Option DecisionRecord → Bool} :
    id ∈ comparedIds before after keep ↔ ∃ record ∈ after.decisions,
      keep record (before.find record.id) = true ∧ record.id = id := by
  rw [comparedIds, sorted, mem_sortOn, List.mem_map]
  simp only [List.mem_filter, and_assoc]

/-- What a report finds outside of its plan is a decision on a subject of which the record is no
longer the same. -/
theorem of_mem_unpredicted (hp : PassesOf request p)
    (hvalid : SnapshotValid request.snapshot request.policy) (hp' : PassesOf request' p')
    (hvalid' : SnapshotValid request'.snapshot request'.policy)
    (hunique : (p.draft.finalise.decisions.map DecisionRecord.id).Nodup)
    (hid : id ∈ (revalidate (.ofDecisions p.draft.finalise.decisions) p'.draft.finalise
      changed).unpredicted) :
    id ∉ ((DecisionIndex.ofDecisions p.draft.finalise.decisions).plan changed).recompute ∧
      ∃ s, s.id = id ∧ p'.recordOf s ≠ p.recordOf s := by
  have hplan : revalidationPlan (.ofDecisions p.draft.finalise.decisions) p'.draft.finalise
      changed = (DecisionIndex.ofDecisions p.draft.finalise.decisions).plan changed := by
    rw [revalidationPlan, isEmpty_ofDecisions decisions_ne_nil, if_neg Bool.false_ne_true]
  have hkept {record emitted : DecisionRecord} {s : DecisionSubject} (hsame : p'.recordOf s =
      p.recordOf s) (hrecord : p'.recordOf s = some emitted) (hs : emitted.id = s.id)
      (hseal : emitted.canonicalise.seal = record) :
      (DecisionIndex.ofDecisions p.draft.finalise.decisions).find record.id =
        some { record with deps := canonicalise record.deps } :=
    find_of_mem hunique ((mem_decisions hp hvalid).2 ⟨s, emitted, hsame ▸ hrecord, hs, hseal⟩)
  simp only [RevalidationReport.unpredicted, List.mem_append, revalidate, hplan] at hid
  rcases hid with (hid | hid) | hid
  · -- the fingerprint moved
    obtain ⟨record, hrecord, hkeep, rfl⟩ := mem_comparedIds.1 hid
    rw [Bool.and_eq_true, Option.any_eq_true] at hkeep
    obtain ⟨⟨old, hold, hmoved⟩, hout⟩ := hkeep
    obtain ⟨s, emitted, hemitted, hs, hseal⟩ := (mem_decisions hp' hvalid').1 hrecord
    refine ⟨by simpa [RevalidationPlan.contains] using hout, s, ?_, fun hsame => ?_⟩
    · rw [← hs, ← hseal]
      rfl
    · rw [hkept hsame hemitted hs hseal, Option.some.injEq] at hold
      rw [← hold] at hmoved
      exact of_decide_eq_true hmoved rfl
  · -- the decision is new
    obtain ⟨record, hrecord, hkeep, rfl⟩ := mem_comparedIds.1 hid
    rw [Bool.and_eq_true] at hkeep
    obtain ⟨hnone, hout⟩ := hkeep
    obtain ⟨s, emitted, hemitted, hs, hseal⟩ := (mem_decisions hp' hvalid').1 hrecord
    refine ⟨by simpa [RevalidationPlan.contains] using hout, s, ?_, fun hsame => ?_⟩
    · rw [← hs, ← hseal]
      rfl
    · rw [hkept hsame hemitted hs hseal] at hnone
      cases hnone
  · -- the decision is gone
    rw [sorted, mem_sortOn, List.mem_filter, Bool.and_eq_true] at hid
    obtain ⟨hbefore, hgone, hout⟩ := hid
    obtain ⟨record, hrecord, rfl⟩ := List.mem_map.1 (mem_allIds.1 hbefore)
    obtain ⟨s, emitted, hemitted, hs, hseal⟩ := (mem_decisions hp hvalid).1 hrecord
    refine ⟨by simpa [RevalidationPlan.contains] using hout, s, ?_, fun hsame => ?_⟩
    · rw [← hs, ← hseal]
      rfl
    · have hafter := (mem_decisions hp' hvalid').2 ⟨s, emitted, hsame.trans hemitted, hs, hseal⟩
      rw [Bool.not_eq_true', List.any_eq_false] at hgone
      exact hgone record hafter (decide_eq_true rfl)

/-- A decision on the pod as a whole that is not in the plan is not published under a key that
changed: neither has the epoch advanced nor the lifecycle moved. -/
theorem pod_outside (hp : PassesOf request p)
    (hvalid : SnapshotValid request.snapshot request.policy)
    (hpod : s = .lifecycle ∨ s = .authority)
    (hout : s.id ∉ ((DecisionIndex.ofDecisions p.draft.finalise.decisions).plan
      changed).recompute) :
    ⟨.epoch, decimal p.findings.epoch.value.toNat⟩ ∉ changed ∧
      ⟨.lifecycle, p.findings.context.lifecycle.toText⟩ ∉ changed := by
  have hpublished {s : DecisionSubject} {emitted : DecisionRecord} {key : DepKey}
      (hrecord : p.recordOf s = some emitted) (hid : emitted.id = s.id)
      (hkey : key ∈ emitted.deps) :
      ∃ record ∈ p.draft.finalise.decisions, record.id = s.id ∧ key ∈ record.deps :=
    ⟨_, (mem_decisions hp hvalid).2 ⟨s, emitted, hrecord, hid, rfl⟩, hid, mem_canonicalise.2 hkey⟩
  have hlifecycle : DecisionSubject.lifecycle.id ∉
      ((DecisionIndex.ofDecisions p.draft.finalise.decisions).plan changed).recompute := by
    rcases hpod with rfl | rfl
    · exact hout
    · intro hin
      refine hout (mem_plan.2 (.step (mem_plan.1 hin) ?_))
      exact hpublished rfl rfl (List.mem_append_left _ (List.mem_append_left _
        (List.mem_append_left _ List.mem_cons_self)))
  constructor <;> intro hkey <;> refine hlifecycle (mem_plan.2 (.root ?_))
  · obtain ⟨record, hrecord, hid, hdep⟩ := @hpublished .lifecycle _
      ⟨.epoch, decimal p.findings.epoch.value.toNat⟩ rfl rfl
      (List.mem_append_right _ List.mem_cons_self)
    exact ⟨record, hrecord, hid, _, hkey, hdep⟩
  · obtain ⟨record, hrecord, hid, hdep⟩ := @hpublished .lifecycle _
      ⟨.lifecycle, p.findings.context.lifecycle.toText⟩ rfl rfl
      (List.mem_append_right _ (List.mem_cons_of_mem _ List.mem_cons_self))
    exact ⟨record, hrecord, hid, _, hkey, hdep⟩

end Report

/-! ## Why a plan misses a decision -/

/-- What the decisions on the pod as a whole read and no key is published for: that the first round
has not advanced the epoch, the flags of recovery, the tokens with the verdicts on them, and the
leases revoked. -/
structure SameKeyless (p p' : Passes) : Prop where
  kept : p.findings.epoch = p.findings.context.epoch
  recovered : p'.findings.context.recoveredFromStore = p.findings.context.recoveredFromStore
  ambiguous : p'.findings.context.ambiguousCommit = p.findings.context.ambiguousCommit
  granted : p'.findings.context.grantedTokens = p.findings.context.grantedTokens
  revoked : p'.findings.context.revokedTokens = p.findings.context.revokedTokens
  verdicts : ∀ token ∈ p.findings.context.grantedTokens,
    validateToken token (tokenCheck p'.findings) = validateToken token (tokenCheck p.findings)

/-- Why the decision on a subject changes outside of the plan: it reads a record that moved, from
which no published keys lead to it; it reads a record that has aged; or it is on the pod as a whole
and what no key is published for is not the same. -/
inductive Unforeseen (request request' : CompositionRequest) (p p' : Passes)
    (s : DecisionSubject) : Prop
  | unnamed (key : DepKey)
      (reads : Reads request.snapshot s key ∨ Reads request'.snapshot s key)
      (moved : RecordMoved request.snapshot request'.snapshot key)
      (unnamed : s.id ∉
        ((DecisionIndex.ofDecisions p.draft.finalise.decisions).plan [key]).recompute)
  | aged (key : DepKey) (reads : Reads request.snapshot s key ∨ Reads request'.snapshot s key)
      (aged : RecordAged request request' key)
  | keyless (whole : s = .lifecycle ∨ s = .authority) (differs : ¬ SameKeyless p p')

section Rounds
variable {w : World} {env : Env} {evidence : PodSnapshot} {report : PodController.ApplyReport}
  {request : CompositionRequest} {st : PodState} {c : PodController} {composed : PodState}

/-- A round that is reported has compared its decisions with those of the index, by the keys that
changed. -/
theorem World.revalidated_of_applied (h : w.answer ⟨.apply evidence, env⟩ = .applied report) :
    report.revalidation = revalidate w.controller.index report.state
      (w.controller.changedKeys (w.controller.request env evidence) report.state
        (PodController.deriveExpectations report.state w.controller.expectations)
        (w.controller.survivingTokens env report.state)) := by
  obtain ⟨c, disk⟩ := w
  have hreport : (c.apply disk env evidence).result = .ok report := by
    unfold World.answer World.perform Reply.step at h
    dsimp only at h
    split at h
    · next report' hr => rw [hr, Answer.applied.inj h]
    · cases h
  cases apply_applied c disk env evidence with
  | refused _ _ _ _ error => rw [error] at hreport; cases hreport
  | unsaved _ _ _ _ _ error => rw [error] at hreport; cases hreport
  | published composed _ _ _ _ _ ok =>
    rw [ok, Except.ok.injEq] at hreport
    rw [← hreport]
    rfl

/-- The keys that changed since a round. -/
theorem Left.mem_changedKeys {derived : List MemberExpectation} {surviving : List AuthorityToken}
    (h : Left request st c) :
    (∀ key ∈ snapshotChangeKeys request.snapshot (c.request env evidence).snapshot,
      key ∈ c.changedKeys (c.request env evidence) composed derived surviving) ∧
    (⟨.epoch, decimal st.epoch.value.toNat⟩ ∉
      c.changedKeys (c.request env evidence) composed derived surviving →
        composed.epoch = c.epoch) ∧
    (⟨.lifecycle, request.context.lifecycle.toText⟩ ∉
      c.changedKeys (c.request env evidence) composed derived surviving →
        c.lifecycle = request.context.lifecycle) := by
  refine ⟨fun key hkey => ?_, fun hout => by_contra fun hne => hout ?_,
    fun hout => by_contra fun hne => hout ?_⟩ <;>
    rw [PodController.changedKeys] <;> simp only [List.mem_append]
  · rw [if_pos h.haveLastEvidence, h.lastEvidence]
    exact .inl (.inl (.inl (.inr hkey)))
  · have hmoved : c.epoch ≠ composed.epoch := fun heq => hne heq.symm
    rw [if_pos hmoved, h.epoch]
    exact .inl (.inr List.mem_cons_self)
  · have hmoved : c.contextLifecycle ≠ c.lifecycle := fun heq =>
      hne (heq.symm.trans h.contextLifecycle)
    rw [if_pos hmoved, h.contextLifecycle]
    exact .inr List.mem_cons_self

end Rounds

/-- **What a plan misses.** Of two rounds of a run, the second over evidence that is applied after
calls that publish nothing: each decision that changes, appears or goes away outside of the plan is
on a subject that reads a record which moved and leads to it under no published key, or a record
that has aged, or on the pod as a whole while what no key is published for has changed. -/
theorem unpredicted_explained {w : World} {first : Call} {between : List Call} {env : Env}
    {evidence : PodSnapshot} {request request' : CompositionRequest} {st : PodState}
    {report : PodController.ApplyReport} {p p' : Passes}
    (hfirst : w.published first = some st) (hasks : w.request first = some request)
    (hquiet : Quiet (w.next first) between)
    (hlast : ((w.next first).run between).answer ⟨.apply evidence, env⟩ = .applied report)
    (hasks' : ((w.next first).run between).request ⟨.apply evidence, env⟩ = some request')
    (hp : runPasses request = .ok p) (hp' : runPasses request' = .ok p')
    (hascends : request.snapshot.Ascends) (hascends' : request'.snapshot.Ascends)
    (hunique : (st.decisions.map DecisionRecord.id).Nodup) :
    ∀ id ∈ report.revalidation.unpredicted,
      ∃ s : DecisionSubject, s.id = id ∧ Unforeseen request request' p p' s := by
  obtain ⟨hcomposed, hleft⟩ := World.left_of_published hfirst hasks
  replace hleft := hleft.run hquiet
  have hcomposed' := World.composed_of_applied hlast
  have hrevalidated := World.revalidated_of_applied hlast
  have hasked : ((w.next first).run between).controller.request env evidence = request' :=
    Option.some.inj hasks'
  generalize ((w.next first).run between).controller = c at *
  obtain ⟨_, hruns, hof, rfl⟩ := compose_passesOf hcomposed
  obtain rfl := Except.ok.inj (hp.symm.trans hruns)
  rw [hasked] at hcomposed' hrevalidated
  obtain ⟨_, hruns', hof', hstate⟩ := compose_passesOf hcomposed'
  obtain rfl := Except.ok.inj (hp'.symm.trans hruns')
  have hvalid := (validate_request_iff.1 (compose_eq_ok.1 hcomposed).1).1
  have hvalid' := (validate_request_iff.1 (compose_eq_ok.1 hcomposed').1).1
  obtain ⟨hsnapshots, hepochs, hlifecycles⟩ := @Left.mem_changedKeys env evidence request
    p.draft.finalise c report.state (PodController.deriveExpectations report.state c.expectations)
    (c.survivingTokens env report.state) hleft
  rw [hasked] at hsnapshots hepochs hlifecycles
  have hsucceeds : Succeeds request p request' p' fun key =>
      ¬ RecordMoved request.snapshot request'.snapshot key ∧ ¬ RecordAged request request' key :=
    { composed := hcomposed, passes := hof, valid := hvalid, passes' := hof', valid' := hvalid'
      policy := by rw [← hasked]; exact hleft.policy
      expectations := by rw [← hasked]; exact hleft.expectations
      ascends := hascends, ascends' := hascends', calm := calm_of_still }
  intro id hid
  rw [hrevalidated, hleft.index, hstate] at hid
  obtain ⟨hout, s, rfl, hdiffers⟩ := of_mem_unpredicted hof hvalid hof' hvalid' hunique hid
  rw [← hstate] at hout
  refine ⟨s, rfl, by_contra fun hforeseen => hdiffers (hsucceeds.recordOf_calm ?_ ?_)⟩
  · intro hpod
    have hsame : SameKeyless p p' := by_contra fun hne => hforeseen (.keyless hpod hne)
    obtain ⟨hepoch, hlifecycle⟩ := pod_outside hof hvalid hpod hout
    have hepoch' : p'.findings.epoch = c.epoch := by
      rw [← hepochs hepoch, hstate]
      rfl
    have hadded : p'.findings.context.epoch = c.epoch ∧
        p'.findings.context.incarnation = c.incarnation ∧
        p'.findings.context.lifecycle = c.lifecycle := by
      rw [hof'.context, ← hasked]
      exact ⟨rfl, rfl, rfl⟩
    rw [hof.context] at hlifecycle
    exact {
      epoch := hepoch'.trans hleft.epoch
      kept := ⟨hsame.kept, hepoch'.trans hadded.1.symm⟩
      incarnation := by rw [hadded.2.1, hleft.incarnation, hof.context]
      lifecycle := by rw [hadded.2.2, hlifecycles hlifecycle, hof.context]
      recovered := hsame.recovered, ambiguous := hsame.ambiguous, granted := hsame.granted
      revoked := hsame.revoked, verdicts := hsame.verdicts }
  · intro key hreads
    refine ⟨fun hmoved => hforeseen (.unnamed key hreads hmoved fun hin => hout ?_),
      fun haged => hforeseen (.aged key hreads haged)⟩
    have hkey := hsnapshots key (mem_snapshotChangeKeys hascends hascends' hmoved)
    exact plan_mono (fun key' hkey' => by rwa [List.mem_singleton.1 hkey']) hin

namespace Sample

/-- The sample evidence, observed shortly before the round. -/
def freshEvidence : PodSnapshot :=
  { snapshot with members := snapshot.members.map fun m => { m with observedAt := 90 } }

/-- The same evidence after its time to live. -/
def expired : PodSnapshot := { freshEvidence with observedAt := 91 + request.policy.evidenceTtl }

/-- A round of the sample evidence, just observed. -/
def freshRound : Call := ⟨.apply freshEvidence, env⟩

/-- The report of an answer, if there is one. -/
def reported : Answer → Option PodController.ApplyReport
  | .applied report => some report
  | _ => none

end Sample

/-- Nothing but the time has moved, and both racks are stale outside of the plan. -/
theorem expired_explained : ∃ request request' p p' report,
    (((Sample.world false).next Sample.freshRound).run []).answer
      ⟨.apply Sample.expired, Sample.env⟩ = .applied report ∧
    (∀ s : DecisionSubject, s = .member Sample.rackA ∨ s = .member Sample.rackB →
      s.id ∈ report.revalidation.unpredicted) ∧
    ∀ id ∈ report.revalidation.unpredicted,
      ∃ s : DecisionSubject, s.id = id ∧ Unforeseen request request' p p' s := by
  have hfirst : ((Sample.world false).published Sample.freshRound).map (fun st =>
      decide (st.decisions.map DecisionRecord.id).Nodup) = some true := by decide +kernel
  have hlast : ((Sample.reported ((((Sample.world false).next Sample.freshRound).run []).answer
      ⟨.apply Sample.expired, Sample.env⟩)).map fun report =>
        decide (DecisionSubject.id (.member Sample.rackA) ∈ report.revalidation.unpredicted ∧
          DecisionSubject.id (.member Sample.rackB) ∈ report.revalidation.unpredicted)) =
      some true := by decide +kernel
  obtain ⟨st, hst, hunique⟩ := Option.map_eq_some_iff.1 hfirst
  obtain ⟨report, hreport, hmissed⟩ := Option.map_eq_some_iff.1 hlast
  have hanswer : (((Sample.world false).next Sample.freshRound).run []).answer
      ⟨.apply Sample.expired, Sample.env⟩ = .applied report := by
    cases hanswer : (((Sample.world false).next Sample.freshRound).run []).answer
        ⟨.apply Sample.expired, Sample.env⟩ with
    | applied report' => rw [hanswer] at hreport; rw [Option.some.inj hreport]
    | done | granted _ | failed _ => rw [hanswer] at hreport; cases hreport
  obtain ⟨hcomposed, -⟩ := World.left_of_published hst rfl
  obtain ⟨p, hp, -⟩ := compose_passesOf hcomposed
  obtain ⟨p', hp', -⟩ := compose_passesOf (World.composed_of_applied hanswer)
  obtain ⟨hmissedA, hmissedB⟩ := of_decide_eq_true hmissed
  refine ⟨_, _, p, p', report, hanswer, ?_, unpredicted_explained hst rfl ?_ hanswer rfl hp hp' ?_
    ?_ (of_decide_eq_true hunique)⟩
  · rintro s (rfl | rfl)
    · exact hmissedA
    · exact hmissedB
  · intro e he
    cases he
  · exact ⟨by decide +kernel, by decide +kernel, by decide +kernel, by decide +kernel,
      by decide +kernel⟩
  · exact ⟨by decide +kernel, by decide +kernel, by decide +kernel, by decide +kernel,
      by decide +kernel⟩

end PodFabric
