import PodFabric.Proof.Identity

/-!
# What a controller accumulates

The expectations that a controller records stay within the bound of its policy, and so do those that
its directory recovers to, since each round derives them from the racks it has covered
(`Sustained`). The tokens have a bound too, which the rounds check and minting does not: no round is
refused for what the controller has accumulated exactly as long as no token is granted on top of a
full list (`unwedged_iff`).
-/

namespace PodFabric

/-! ## Expectations -/

/-- Expectations that a context may hold: within the bound, named and not repeated. -/
structure Expectable (maxMembers : UInt32) (expectations : List MemberExpectation) : Prop where
  bound : expectations.length ≤ maxMembers.toNat
  racks : ∀ expectation ∈ expectations, expectation.rack.isNil = false
  unique : (expectations.map MemberExpectation.rack).Nodup

/-- No expectations are within every bound. -/
theorem Expectable.nil {maxMembers : UInt32} : Expectable maxMembers [] :=
  ⟨Nat.zero_le _, by simp, by simp⟩

section Derive
variable {request : CompositionRequest} {st : PodState} {previous : List MemberExpectation}

/-- The racks of the composed members are the covered ones, in some order. -/
theorem compose_racks (h : compose request = .ok st) :
    (st.members.map MemberVerdict.rack).Perm (coveredRacks request) ∧
      (coveredRacks request).length ≤ request.policy.maxMembers.toNat := by
  obtain ⟨p, -, hof, rfl⟩ := compose_passesOf h
  refine ⟨?_, hof.racks⟩
  have hverdicts : p.findings.members.map (fun work => work.verdict.canonicalise.rack) =
      p.findings.members.map MemberWork.rack := by
    refine List.map_congr_left fun work hwork => ?_
    obtain ⟨rack, -, rfl⟩ := hof.mem_members.1 hwork
    exact evaluateMember_keeps.verdictRack.trans evaluateMember_keeps.rack.symm
  have hsorted : p.draft.finalise.members.Perm
      (p.findings.members.map fun work => work.verdict.canonicalise) := by
    have hsort := (sortOn_perm MemberVerdict.rack
      (p.findings.members.map MemberWork.verdict)).map MemberVerdict.canonicalise
    rwa [List.map_map] at hsort
  have hperm := hsorted.map MemberVerdict.rack
  rw [List.map_map] at hperm
  exact (hof.map_rack ▸ hverdicts ▸ hperm :)

/-- A rack that a request covers has a name. -/
theorem covered_named (h : compose request = .ok st) {rack : RackId}
    (hrack : rack ∈ coveredRacks request) : rack.isNil = false := by
  obtain ⟨hsnapshot, hcontext⟩ := validate_request_iff.1 (compose_eq_ok.1 h).1
  rcases List.mem_append.1 (mem_canonicalise.1 hrack) with hin | hin
  · obtain ⟨member, hmember, rfl⟩ := List.mem_map.1 hin
    exact Bool.eq_false_iff.2 fun hnil =>
      hsnapshot.memberRacks member hmember (BasicId.isNil_iff.1 hnil)
  · obtain ⟨expectation, hexpectation, rfl⟩ := List.mem_map.1 hin
    exact hcontext.racks expectation hexpectation

/-- The racks of the expectations that verdicts leave behind are among those of the verdicts. -/
theorem derived_racks : ∀ {members : List MemberVerdict},
    ((members.filterMap (PodController.derivedExpectation previous)).map
      MemberExpectation.rack).Sublist (members.map MemberVerdict.rack)
  | [] => .slnil
  | m :: members => by
    rw [List.map_cons]
    cases he : PodController.derivedExpectation previous m with
    | none =>
      rw [List.filterMap_cons_none he]
      exact derived_racks.cons m.rack
    | some e =>
      rw [List.filterMap_cons_some he, List.map_cons, derivedExpectation_rack he]
      exact derived_racks.cons_cons m.rack

/-- A round leaves expectations that the next round may start from. -/
theorem compose_expectable (h : compose request = .ok st) :
    Expectable request.policy.maxMembers (PodController.deriveExpectations st previous) := by
  obtain ⟨hracks, hbound⟩ := compose_racks h
  have hsub := @derived_racks previous st.members
  have hperm := sortOn_perm id (st.members.filterMap (PodController.derivedExpectation previous))
  refine ⟨?_, fun expectation hexpectation => ?_, ?_⟩
  · calc (PodController.deriveExpectations st previous).length =
        (st.members.filterMap (PodController.derivedExpectation previous)).length :=
          length_sortOn
      _ ≤ st.members.length := List.length_filterMap_le _ _
      _ = (coveredRacks request).length := by simpa using hracks.length_eq
      _ ≤ request.policy.maxMembers.toNat := hbound
  · obtain ⟨m, hm, he⟩ := mem_deriveExpectations.1 hexpectation
    rw [derivedExpectation_rack he]
    exact covered_named h (compose_member h hm).1
  · have hnodup : (st.members.map MemberVerdict.rack).Nodup :=
      hracks.nodup_iff.2 (canonicalise_nodup _)
    exact (hperm.map MemberExpectation.rack).nodup_iff.2 (hnodup.sublist hsub)

end Derive

/-! ## Worlds -/

/-- The expectations in memory and those the directory recovers to are within bounds. -/
structure Sustained (w : World) : Prop where
  memory : Expectable w.controller.options.policy.maxMembers w.controller.expectations
  disk : w.disk.pod = .nil ∨ Expectable w.controller.options.policy.maxMembers w.disk.expectations

section Worlds
variable {c c' : PodController} {disk disk' record : DurableState} {env : Env}
  {result : Result Unit} {evidence : PodSnapshot} {w : World} {call : Call}

/-- A commit of bounded expectations keeps both within bounds. -/
theorem Sustained.persisted (h : Sustained ⟨c, disk⟩)
    (hp : Persisted c disk env record c' disk' result)
    (hrecord : Expectable c.options.policy.maxMembers record.expectations) :
      Sustained ⟨c', disk'⟩ := by
  have hexpectations : c'.expectations = c.expectations := congrArg Memory.expectations hp.memory_eq
  have hoptions := hp.untouched.options
  refine ⟨?_, ?_⟩
  · change Expectable c'.options.policy.maxMembers c'.expectations
    rw [hoptions, hexpectations]
    exact h.memory
  · change disk'.pod = .nil ∨ Expectable c'.options.policy.maxMembers disk'.expectations
    rw [hoptions]
    rcases hp.disk_cases with rfl | ⟨held, rfl⟩
    · exact h.disk
    · exact .inr hrecord

/-- Applying evidence keeps the bounds. -/
theorem Sustained.applied {reply : Reply PodController.ApplyReport} (h : Sustained ⟨c, disk⟩)
    (happlied : Applied c disk env evidence reply) :
    Sustained ⟨reply.controller, reply.disk⟩ := by
  cases happlied with
  | refused _ _ controller same =>
    rw [controller, same]
    exact h
  | unsaved composed _ _ hcompose persisted =>
    exact h.persisted persisted (compose_expectable hcompose)
  | published composed c' _ hcompose persisted controller =>
    have hbounded : Expectable c.options.policy.maxMembers
        (PodController.deriveExpectations composed c.expectations) := compose_expectable hcompose
    have hnext := h.persisted persisted hbounded
    rw [controller]
    refine ⟨?_, hnext.disk⟩
    rw [show (c'.published _ _ _ _).options = c.options from persisted.untouched.options]
    exact hbounded

/-- Saving an override keeps the bounds. -/
theorem Sustained.saved {reply : Reply Unit} (h : Sustained ⟨c, disk⟩)
    (hsaved : Saved c disk env reply) : Sustained ⟨reply.controller, reply.disk⟩ := by
  obtain ⟨result, persisted, -⟩ := hsaved
  exact h.persisted persisted h.memory

/-- Composing again after an override keeps the bounds. -/
theorem Sustained.recomposed {reply : Reply Unit} (h : Sustained ⟨c, disk⟩)
    (hrecomposed : Recomposed c disk env reply) : Sustained ⟨reply.controller, reply.disk⟩ := by
  cases hrecomposed with
  | composed _ round applied controller disk =>
    rw [controller, disk]
    exact h.applied applied
  | saved _ saved => exact h.saved saved

/-- The commit of a restart leaves the expectations. -/
theorem commitRestart_expectations {recovered : DurableState} :
    (c.commitRestart disk env recovered).controller.expectations = c.expectations := by
  unfold PodController.commitRestart
  dsimp only
  split <;> rfl

/-- Opening keeps the expectations, or takes over those of a record. -/
theorem open_expectations : (c.«open» disk env).controller.expectations = c.expectations ∨
    (disk.pod ≠ .nil ∧ (c.«open» disk env).controller.expectations = disk.expectations) := by
  unfold PodController.«open»
  split
  · exact .inl rfl
  split
  · exact .inl rfl
  split
  · exact .inl rfl
  · exact .inl rfl
  split
  swap
  · exact .inl rfl
  unfold PodController.openStore
  dsimp only
  split
  · exact .inl rfl
  split
  · exact .inl rfl
  next hrecord =>
  split
  · exact .inl rfl
  refine .inr ⟨hrecord, ?_⟩
  unfold PodController.recover
  dsimp only
  split
  · exact commitRestart_expectations
  split
  · rfl
  · exact commitRestart_expectations

/-- Opening leaves the expectations on disk, and the options. -/
theorem open_sameBeliefs : SameBeliefs disk (c.«open» disk env).disk ∧
    (c.«open» disk env).controller.options = c.options := by
  cases open_opened c disk env with
  | refused refusal =>
    rw [refusal.disk, refusal.controller]
    exact ⟨.refl, rfl⟩
  | failed _ reopened _ _ same => exact ⟨same, reopened.options⟩
  | fresh _ _ reopened _ _ _ same =>
    rw [same]
    exact ⟨.refl, reopened.options⟩
  | recovered _ _ reopened _ _ _ same => exact ⟨same, reopened.options⟩

/-- Every call keeps the expectations within bounds. -/
theorem Sustained.next (h : Sustained w) : Sustained (w.next call) := by
  obtain ⟨c, disk⟩ := w
  obtain ⟨op, env⟩ := call
  have hrefused {α : Type} {reply : Reply α} (hrefusal : Refusal c disk reply) :
      Sustained ⟨reply.controller, reply.disk⟩ := by
    rw [hrefusal.controller, hrefusal.disk]
    exact h
  cases op with
  | «open» =>
    obtain ⟨hsame, hoptions⟩ := @open_sameBeliefs c disk env
    change Sustained ⟨(c.«open» disk env).controller, (c.«open» disk env).disk⟩
    refine ⟨?_, ?_⟩
    · change Expectable (c.«open» disk env).controller.options.policy.maxMembers
        (c.«open» disk env).controller.expectations
      rw [hoptions]
      rcases @open_expectations c disk env with hkept | ⟨hrecord, hrecovered⟩
      · exact hkept ▸ h.memory
      · exact hrecovered ▸ h.disk.resolve_left hrecord
    · change (c.«open» disk env).disk.pod = .nil ∨
        Expectable (c.«open» disk env).controller.options.policy.maxMembers
          (c.«open» disk env).disk.expectations
      rw [hsame.pod, hsame.expectations, hoptions]
      exact h.disk
  | close =>
    obtain ⟨-, hexpectations, hoptions, -, hdisk⟩ := @close_standing c disk env
    change Sustained ⟨(c.close disk env).controller, (c.close disk env).disk⟩
    rw [hdisk]
    exact ⟨by rw [hexpectations, hoptions]; exact h.memory, by rw [hoptions]; exact h.disk⟩
  | restart => exact ⟨.nil, h.disk⟩
  | apply evidence => exact h.applied (apply_applied c disk env evidence)
  | setAdminState rack state =>
    rcases setAdminState_cases c disk env rack state with ⟨-, hrefusal⟩ | ⟨-, -, -, hr⟩
    · exact hrefused hrefusal
    · have hset : Sustained ⟨{ c with adminOverrides := c.adminOverrides.insert rack state },
        disk⟩ :=
        ⟨h.memory, h.disk⟩
      exact hset.recomposed hr
  | clearAdminState rack =>
    rcases clearAdminState_cases c disk env rack with ⟨-, hrefusal⟩ | ⟨-, -, hr⟩
    · exact hrefused hrefusal
    · have hcleared : Sustained ⟨{ c with adminOverrides := c.adminOverrides.erase rack }, disk⟩ :=
        ⟨h.memory, h.disk⟩
      exact hcleared.recomposed hr
  | retire =>
    rcases retire_cases c disk env with ⟨-, hrefusal⟩ | ⟨-, -, hsaved⟩
    · exact hrefused hrefusal
    · have hretiring : Sustained ⟨c.retiring, disk⟩ := ⟨h.memory, h.disk⟩
      exact hretiring.saved hsaved
  | mintAuthority scope subject lifetime =>
    cases mintAuthority_minted c disk env scope subject lifetime with
    | refused _ refusal => exact hrefused refusal
    | reached _ _ _ _ _ _ fencing _ _ c' persisted ends =>
      have hfenced : Sustained ⟨{ c with fencing }, disk⟩ := ⟨h.memory, h.disk⟩
      have hnext := hfenced.persisted persisted h.memory
      change Sustained ⟨(c.mintAuthority disk env scope subject lifetime).controller,
        (c.mintAuthority disk env scope subject lifetime).disk⟩
      rcases ends with ⟨_, -, hcontroller, -⟩ | ⟨-, hcontroller, -⟩ <;> rw [hcontroller]
      · exact hnext
      · exact ⟨hnext.memory, hnext.disk⟩
  | revokeAuthority lease =>
    rcases revokeAuthority_cases c disk env lease with
      ⟨-, hrefusal⟩ | ⟨-, -, -, _, c', persisted, ends⟩
    · exact hrefused hrefusal
    · have hrevoked : Sustained ⟨{ c with revoked := c.revoked ++ [lease] }, disk⟩ :=
        ⟨h.memory, h.disk⟩
      have hnext := hrevoked.persisted persisted h.memory
      change Sustained ⟨(c.revokeAuthority disk env lease).controller,
        (c.revokeAuthority disk env lease).disk⟩
      rcases ends with ⟨_, -, hcontroller, -⟩ | ⟨-, hcontroller, -⟩ <;> rw [hcontroller]
      · exact hnext
      · exact ⟨hnext.memory, hnext.disk⟩

/-! ## Tokens -/

/-- The call is granted a token. -/
def World.Grants (w : World) (call : Call) : Prop := ∃ token, w.answer call = .granted token

/-- Only a grant makes the list of the tokens longer, by one. -/
inductive TokensNext (w : World) (call : Call) : Prop
  | kept (notGranted : ¬ w.Grants call)
      (length : (w.next call).controller.tokens.length ≤ w.controller.tokens.length)
  | granted (granted : w.Grants call) (isOpen : (w.next call).controller.isOpen = true)
      (length : (w.next call).controller.tokens.length = w.controller.tokens.length + 1)

/-- A reply whose answers grant nothing grants nothing. -/
theorem Reply.not_granted {α : Type} {reply : Reply α} {answer : α → Answer}
    (h : ∀ value token, answer value ≠ .granted token) :
    ¬ ∃ token, (reply.step answer).2 = .granted token := by
  rintro ⟨token, htoken⟩
  unfold Reply.step at htoken
  dsimp only at htoken
  split at htoken
  · exact h _ token htoken
  · cases htoken

/-- Applying evidence adds no token. -/
theorem Applied.tokens {reply : Reply PodController.ApplyReport}
    (h : Applied c disk env evidence reply) :
    reply.controller.tokens.length ≤ c.tokens.length := by
  cases h with
  | refused _ _ controller => rw [controller]
  | unsaved _ _ _ _ persisted =>
    exact (congrArg (fun m => m.tokens.length) persisted.memory_eq).le
  | published composed c' _ _ _ controller =>
    rw [controller]
    calc (c.survivingTokens env composed).length
        ≤ (c.tokenVerdicts env composed).length := by
          rw [PodController.survivingTokens, List.length_map]
          exact List.length_filter_le _ _
      _ = c.tokens.length := by rw [PodController.tokenVerdicts, List.length_mapIdx]

/-- Saving an override leaves the tokens. -/
theorem Saved.tokens {reply : Reply Unit} (h : Saved c disk env reply) :
    reply.controller.tokens = c.tokens := by
  obtain ⟨result, persisted, -⟩ := h
  exact congrArg Memory.tokens persisted.memory_eq

/-- Composing again adds no token. -/
theorem Recomposed.tokens {reply : Reply Unit} (h : Recomposed c disk env reply) :
    reply.controller.tokens.length ≤ c.tokens.length := by
  cases h with
  | composed _ round applied controller =>
    rw [controller]
    exact applied.tokens
  | saved _ saved => exact (congrArg List.length saved.tokens).le

/-- What one call does to the number of tokens. -/
theorem World.tokensNext : TokensNext w call := by
  obtain ⟨c, disk⟩ := w
  obtain ⟨op, env⟩ := call
  cases op with
  | «open» =>
    refine .kept (Reply.not_granted fun _ _ => Answer.noConfusion) ?_
    change (c.«open» disk env).controller.tokens.length ≤ c.tokens.length
    rcases @open_begins c disk env with hsame | hbegins
    · rw [hsame]
    · rcases hbegins.tokens with htokens | htokens <;> rw [htokens]
      exact Nat.zero_le _
  | close =>
    exact .kept (Reply.not_granted fun _ _ => Answer.noConfusion)
      (congrArg List.length (@close_keeps c disk env).2.1).le
  | restart => exact .kept (fun ⟨_, htoken⟩ => Answer.noConfusion htoken) (Nat.zero_le _)
  | apply evidence =>
    exact .kept (Reply.not_granted fun _ _ => Answer.noConfusion)
      (apply_applied c disk env evidence).tokens
  | setAdminState rack state =>
    refine .kept (Reply.not_granted fun _ _ => Answer.noConfusion) ?_
    change (c.setAdminState disk env rack state).controller.tokens.length ≤ c.tokens.length
    rcases setAdminState_cases c disk env rack state with ⟨-, hrefusal⟩ | ⟨-, -, -, hr⟩
    · rw [hrefusal.controller]
    · exact hr.tokens
  | clearAdminState rack =>
    refine .kept (Reply.not_granted fun _ _ => Answer.noConfusion) ?_
    change (c.clearAdminState disk env rack).controller.tokens.length ≤ c.tokens.length
    rcases clearAdminState_cases c disk env rack with ⟨-, hrefusal⟩ | ⟨-, -, hr⟩
    · rw [hrefusal.controller]
    · exact hr.tokens
  | retire =>
    refine .kept (Reply.not_granted fun _ _ => Answer.noConfusion) ?_
    change (c.retire disk env).controller.tokens.length ≤ c.tokens.length
    rcases retire_cases c disk env with ⟨-, hrefusal⟩ | ⟨-, -, hsaved⟩
    · rw [hrefusal.controller]
    · rw [hsaved.tokens]
      exact Nat.zero_le _
  | mintAuthority scope subject lifetime =>
    have hanswer : World.answer ⟨c, disk⟩ ⟨.mintAuthority scope subject lifetime, env⟩ =
      ((c.mintAuthority disk env scope subject lifetime).step .granted).2 := rfl
    cases mintAuthority_minted c disk env scope subject lifetime with
    | refused _ refusal =>
      obtain ⟨status, hrefused⟩ := refusal.error
      refine .kept (fun ⟨token, htoken⟩ => ?_)
        (congrArg (fun c => c.tokens.length) refusal.controller).le
      rw [hanswer, Reply.step, hrefused] at htoken
      cases htoken
    | reached isOpen _ _ _ _ _ _ _ _ c' persisted ends =>
      have hsame : c'.tokens = c.tokens := congrArg Memory.tokens persisted.memory_eq
      rcases ends with ⟨status, -, hcontroller, hfailed⟩ | ⟨-, hcontroller, hgranted⟩
      · refine .kept (fun ⟨token, htoken⟩ => ?_) ?_
        · rw [hanswer, Reply.step, hfailed] at htoken
          cases htoken
        · change (c.mintAuthority disk env scope subject lifetime).controller.tokens.length ≤ _
          rw [hcontroller, hsame]
      · refine .granted ⟨_, by rw [hanswer, Reply.step, hgranted]⟩ ?_ ?_
        · change (c.mintAuthority disk env scope subject lifetime).controller.isOpen = true
          rw [hcontroller]
          exact persisted.untouched.isOpen.trans isOpen
        · change (c.mintAuthority disk env scope subject lifetime).controller.tokens.length = _
          rw [hcontroller, List.length_append, hsame]
          rfl
  | revokeAuthority lease =>
    refine .kept (Reply.not_granted fun _ _ => Answer.noConfusion) ?_
    change (c.revokeAuthority disk env lease).controller.tokens.length ≤ c.tokens.length
    rcases revokeAuthority_cases c disk env lease with
      ⟨-, hrefusal⟩ | ⟨-, -, -, _, c', persisted, ends⟩
    · rw [hrefusal.controller]
    · rcases ends with ⟨_, -, hcontroller, -⟩ | ⟨-, hcontroller, -⟩ <;> rw [hcontroller]
      · exact (congrArg (fun m => m.tokens.length) persisted.memory_eq).le
      · exact List.length_filter_le _ _

/-! ## Rounds over expected racks -/

/-- The operator's overrides change nothing that a snapshot is checked for. -/
theorem validateMembers_map {policy : Policy} {change : MemberRecord → MemberRecord}
    (hrack : ∀ member, (change member).rack = member.rack)
    (hcapacity : ∀ member, (change member).capacity = member.capacity)
    (hvalidate : ∀ member, (change member).validate policy = member.validate policy) :
    ∀ {racks : List RackId} {members : List MemberRecord},
      validateMembers policy racks (members.map change) = validateMembers policy racks members
  | _, [] => rfl
  | racks, member :: members => by
    rw [List.map_cons, validateMembers, validateMembers, hrack, hvalidate, hcapacity,
      validateMembers_map hrack hcapacity hvalidate, validateMembers_map hrack hcapacity hvalidate]

/-- Overrides do not decide whether a snapshot is accepted. -/
theorem effectiveSnapshot_validate {policy : Policy} {overrides : OrderedMap RackId AdminState} :
    (PodController.effectiveSnapshot overrides evidence).validate policy =
      evidence.validate policy := by
  have hmembers := @validateMembers_map policy
    (fun member => { member with admin := (overrides.find? member.rack).getD member.admin })
    (fun _ => rfl) (fun _ => rfl) (fun _ => rfl) [] evidence.members
  unfold PodSnapshot.validate PodController.effectiveSnapshot
  simp only [List.length_map]
  rw [hmembers]

/-- A request that names only racks that are expected covers no more than are expected. -/
theorem evaluateMembers_expected {request : CompositionRequest}
    (hbound : request.context.expectations.length ≤ request.policy.maxMembers.toNat)
    (hexpected : ∀ member ∈ request.snapshot.members,
      ∃ expectation ∈ request.context.expectations, expectation.rack = member.rack) :
    ∃ members, evaluateMembers request = .ok members := by
  have hsubset : coveredRacks request ⊆
      request.context.expectations.map MemberExpectation.rack := by
    intro rack hrack
    rcases List.mem_append.1 (mem_canonicalise.1 hrack) with hin | hin
    · obtain ⟨member, hmember, rfl⟩ := List.mem_map.1 hin
      obtain ⟨expectation, hexpectation, hsame⟩ := hexpected member hmember
      exact List.mem_map.2 ⟨expectation, hexpectation, hsame⟩
    · exact hin
  have hcount : (coveredRacks request).length ≤ request.policy.maxMembers.toNat := by
    have hle := (List.subperm_of_subset (canonicalise_nodup _) hsubset).length_le
    rw [List.length_map] at hle
    exact hle.trans hbound
  refine ⟨(coveredRacks request).map (memberWork request), ?_⟩
  unfold evaluateMembers
  exact bind_eq_ok.2 ⟨(), ensure_eq_ok.2 hcount, rfl⟩

/-- The context of an open controller passes the checks of a round, and evidence that is valid and
names only racks that are expected gets past them. -/
def World.Unwedged (w : World) : Prop :=
  w.controller.isOpen = true → ∀ (env : Env) (evidence : PodSnapshot),
    validateContext w.controller.options.policy (w.controller.request env evidence).context =
      .ok () ∧
    (evidence.validate w.controller.options.policy = .ok () →
      (∀ member ∈ evidence.members, ∃ expectation ∈ w.controller.expectations,
        expectation.rack = member.rack) →
      (w.controller.request env evidence).validate = .ok () ∧
      ∃ members, evaluateMembers (w.controller.request env evidence) = .ok members)

/-- A token is granted only while the list has room for it. -/
def World.Restrained (w : World) (call : Call) : Prop :=
  w.Grants call →
    w.controller.tokens.length < (w.controller.options.policy.maxMembers * 4).toNat

/-- The list of the tokens is within its bound. -/
def World.Roomy (w : World) : Prop :=
  w.controller.tokens.length ≤ (w.controller.options.policy.maxMembers * 4).toNat

/-- Bounded expectations and a bounded list of tokens do not stand in the way of a round. -/
theorem Sustained.unwedged (h : Sustained w) (htokens : w.Roomy) : w.Unwedged := by
  intro _ env evidence
  have hcontext : ContextValid (w.controller.request env evidence).context
      w.controller.options.policy :=
    ⟨h.memory.bound, htokens, h.memory.racks, h.memory.unique⟩
  refine ⟨validateContext_iff.2 hcontext, fun hvalid hexpected => ⟨?_, ?_⟩⟩
  · refine validate_request_iff.2 ⟨validate_snapshot_iff.1 ?_, hcontext⟩
    exact effectiveSnapshot_validate.trans hvalid
  · refine evaluateMembers_expected h.memory.bound fun member hmember => ?_
    obtain ⟨original, horiginal, rfl⟩ := List.mem_map.1 hmember
    exact hexpected original horiginal

end Worlds

/-- No call changes the bound on the members. -/
theorem World.next_maxMembers (w : World) (call : Call) :
    (w.next call).controller.options.policy.maxMembers =
      w.controller.options.policy.maxMembers := by
  by_cases hop : call.op.operates = true
  · rw [(World.steady hop).2]
  · obtain ⟨c, disk⟩ := w
    obtain ⟨op, env⟩ := call
    cases op with
    | «open» =>
      change (c.«open» disk env).controller.options.policy.maxMembers = _
      rw [open_sameBeliefs.2]
    | close =>
      change (c.close disk env).controller.options.policy.maxMembers = _
      rw [(@close_standing c disk env).2.2.1]
    | restart => rfl
    | apply _ | setAdminState _ _ | clearAdminState _ | retire | mintAuthority _ _ _
    | revokeAuthority _ => exact absurd rfl hop

/-- **The controller does not wedge itself.** In a run from a directory without a record, or with
one whose expectations are within bounds, the context of the controller passes the checks of a round
in every state, exactly if no token is granted on top of a full list. -/
theorem unwedged_iff {options : ControllerOptions} {disk : DurableState} {calls : List Call}
    (hdisk : disk.pod = .nil ∨ Expectable options.policy.maxMembers disk.expectations) :
    (∀ x ∈ (World.start options disk).trace calls, (x.1.next x.2).Unwedged) ↔
      ∀ x ∈ (World.start options disk).trace calls, x.1.Restrained x.2 := by
  have hsustained : ∀ x ∈ (World.start options disk).trace calls, Sustained x.1 :=
    (Run.trace_invariant ⟨.nil, hdisk⟩ fun x _ h => h.next).1
  constructor
  · intro h x hx hgrants
    cases @World.tokensNext x.1 x.2 with
    | kept notGranted => exact absurd hgrants notGranted
    | granted _ isOpen length =>
      have hvalid := (h x hx isOpen Sample.env {}).1
      have hbound := (validateContext_iff.1 hvalid).tokenBound
      change (x.1.next x.2).controller.tokens.length ≤ _ at hbound
      rw [length, World.next_maxMembers] at hbound
      exact hbound
  · intro h
    have hstep : ∀ x ∈ (World.start options disk).trace calls, x.1.Roomy →
        (x.1.next x.2).Roomy := by
      intro x hx hroomy
      unfold World.Roomy
      rw [World.next_maxMembers]
      cases @World.tokensNext x.1 x.2 with
      | kept _ length => exact length.trans hroomy
      | granted granted _ length =>
        rw [length]
        exact h x hx granted
    have hroomy := (Run.trace_invariant (show (World.start options disk).Roomy from Nat.zero_le _)
      hstep).1
    exact fun x hx => (hsustained x hx).next.unwedged (hstep x hx (hroomy x hx))

namespace Sample

/-- Options that let a single rack and four tokens in. -/
def narrow : ControllerOptions where
  pod := snapshot.pod
  policy := { maxMembers := 1 }

/-- An open controller that has been asked for five tokens. -/
def hoarding : List Call :=
  ⟨.«open», env⟩ :: List.replicate 5 ⟨.mintAuthority .pod .nil 10, env⟩

end Sample

/-- Four tokens are within the bound, and nothing is refused. -/
theorem four_tokens_unwedged :
    ((World.start Sample.narrow {}).run (Sample.hoarding.take 5)).controller.tokens.length = 4 ∧
      ∀ x ∈ (World.start Sample.narrow {}).trace (Sample.hoarding.take 5),
        (x.1.next x.2).Unwedged := by
  refine ⟨by decide +kernel, (unwedged_iff (.inl rfl)).2 fun x hx _ => ?_⟩
  have hshort : ∀ x ∈ (World.start Sample.narrow {}).trace (Sample.hoarding.take 5),
      x.1.controller.tokens.length < 4 ∧ x.1.controller.options.policy.maxMembers = 1 := by
    decide +kernel
  obtain ⟨hlength, hbound⟩ := hshort x hx
  rw [hbound]
  exact hlength

/-- A fifth token is granted, and no round gets past its checks any more. -/
theorem five_tokens_wedge : ¬ ∀ (options : ControllerOptions) (calls : List Call),
    (∀ x ∈ (World.start options {}).trace calls, (x.1.answer x.2).ok = true) →
    ∀ x ∈ (World.start options {}).trace calls, (x.1.next x.2).Unwedged := by
  intro hclaim
  have hok : ∀ x ∈ (World.start Sample.narrow {}).trace Sample.hoarding,
      (x.1.answer x.2).ok = true := by decide +kernel
  have hlast : ((World.start Sample.narrow {}).run (Sample.hoarding.take 5),
      ⟨.mintAuthority .pod .nil 10, Sample.env⟩) ∈
        (World.start Sample.narrow {}).trace Sample.hoarding := by
    simp [Sample.hoarding, List.replicate]
  have hopen : ((World.start Sample.narrow {}).run Sample.hoarding).controller.isOpen = true := by
    decide +kernel
  have hrefused : validateContext Sample.narrow.policy
      (((World.start Sample.narrow {}).run Sample.hoarding).controller.request Sample.env
        {}).context ≠ .ok () := by decide +kernel
  exact hrefused (hclaim Sample.narrow Sample.hoarding hok _ hlast hopen Sample.env {}).1

end PodFabric
