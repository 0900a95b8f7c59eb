import PodFabric.Control.Server
import PodFabric.Proof.Durable
import PodFabric.Proof.Recovery

/-!
# What a response tells of the pod

A response has its fields from several calls of the controller, and other threads may operate the pod
in between. The fields and the text describe one state as long as the other threads leave alone what
the response still shows of an earlier call, and the operation of the request itself changes nothing
that the response does not read again (`Undisturbed`, `response_describes`).
-/

namespace PodFabric

/-! ## Descriptions -/

/-- The fields of a state that a response repeats, but for the counts of its members. -/
def PodState.progress (st : PodState) : PodEpoch × LifecycleState × Digest :=
  (st.epoch, st.lifecycle, st.stateDigest)

/-- The counts of the members of a state that a response repeats. -/
def PodState.counts (st : PodState) : UInt32 × UInt32 × UInt32 × UInt32 :=
  (st.authority.establishedMembers, st.authority.fencedMembers, st.authority.staleMembers,
    st.authority.conflictingMembers)

/-- The response tells this of a pod: in its fields, in the counts of its members and in its
text. -/
structure Response.Tells (options : ServerOptions) (response : Response)
    (progress : PodEpoch × LifecycleState × Digest) (counts : UInt32 × UInt32 × UInt32 × UInt32)
    (described : Text) : Prop where
  progress : (response.epoch, response.lifecycle, response.stateDigest) = progress
  counts : (response.establishedMembers, response.fencedMembers, response.staleMembers,
    response.conflictingMembers) = counts
  text : (response.text, response.textTruncated) = boundedText described options.maxTextBytes

/-- All that the response tells of the pod is so in one state. -/
def Response.Describes (options : ServerOptions) (response : Response) (st : PodState) : Prop :=
  response.Tells options st.progress st.counts (st.toText true)

/-- The fields of a state that a response repeats. -/
def PodState.report (st : PodState) :
    (PodEpoch × LifecycleState × Digest) × UInt32 × UInt32 × UInt32 × UInt32 :=
  (st.progress, st.counts)

/-- The text of a state up to the name of its lifecycle. -/
def PodState.heading (st : PodState) : Text :=
  textLine [if st.schema.isEmpty then podStateSchema else st.schema] ++
  textLine ["pod", st.pod.toText] ++
  textLine ["epoch", decimal st.epoch.value.toNat] ++
  textLine ["incarnation", st.incarnation.toText] ++ text "lifecycle "

/-- What a retirement leaves of a state: all that a response repeats but the lifecycle, and the text
up to there. -/
def PodState.remains (st : PodState) :
    (PodEpoch × Digest × UInt32 × UInt32 × UInt32 × UInt32) × Text :=
  ((st.epoch, st.stateDigest, st.counts), st.heading)

namespace Request

/-- The calls that the request makes if its operation goes through. -/
def calls (request : Request) : ℕ :=
  match request.kind with
  | .mint | .revoke | .checkAuthority => 5
  | .apply | .retire => 6
  | .setAdmin => 7
  | _ => 4

/-- The calls of a request up to the operation after which the state is to be described. -/
def settling (request : Request) : ℕ :=
  match request.kind with
  | .setAdmin | .retire => 5
  | _ => 0

/-- The administrative change that the request asks for. -/
def change (request : Request) (env : Env) (w : World) : World :=
  w.next ⟨if request.clearAdmin then .clearAdminState request.rack
    else .setAdminState request.rack request.admin, env⟩

/-- The request has gone through: all its calls are made, and the response says so. -/
structure Succeeded (request : Request) (response : Response) (reads : List (Env × World)) :
    Prop where
  code : response.code = .ok
  calls : reads.length = request.calls

end Request

/-- Nothing comes between what a response to the request takes from one call of its thread and what
it shows beside it of another. The other threads keep the fields of the state from the first call
until the state is described: after a round, which reports its own state, only from then on, and in
an administrative change the epoch, the lifecycle and the digest only from where they are read again.
An administrative change leaves the counts of the members as they were first read; and a retirement
is told with so little of the text that it is cut off before the lifecycle. -/
def Undisturbed (options : ServerOptions) (request : Request) (thread : ℕ)
    (trace : List (Server × Turn Request Env)) : Prop :=
  match request.kind with
  | .apply => Pool.Keeps (handle options) (·.controller.state.report) thread 5 6 0 trace
  | .mint =>
    Pool.Keeps (handle options) (·.controller.state.report) thread 1 4 0 trace ∧
      Pool.Keeps (handle options) (·.controller.state.epoch) thread 4 5 0 trace
  | .setAdmin =>
    Pool.Keeps (handle options) (·.controller.state.counts) thread 1 7 0 trace ∧
      Pool.Keeps (handle options) (·.controller.state.progress) thread 6 7 0 trace ∧
      ∀ found ∈ (Pool.accesses thread trace)[4]?,
        (request.change found.1 found.2).controller.state.counts =
          found.2.controller.state.counts
  | .retire =>
    Pool.Keeps (handle options) (·.controller.state.remains) thread 1 6 0 trace ∧
      ∀ found ∈ (Pool.accesses thread trace)[3]?,
        options.maxTextBytes ≤ found.2.controller.state.heading.length
  | _ => Pool.Keeps (handle options) (·.controller.state.report) thread 1 4 0 trace

/-! ## Requests -/

section Requests
variable {options : ServerOptions} {request : Request} {response : Response} {st : PodState}
  {reads : List (Env × World)} {progress : PodEpoch × LifecycleState × Digest}
  {counts : UInt32 × UInt32 × UInt32 × UInt32} {t : Text}

/-- The state a round reports is the one it leaves. -/
theorem applied_state {c : PodController} {disk : DurableState} {env : Env} {evidence : PodSnapshot}
    {report : PodController.ApplyReport} (h : (c.apply disk env evidence).result = .ok report) :
    (c.apply disk env evidence).controller.state = report.state := by
  cases apply_applied c disk env evidence with
  | refused _ _ _ _ error => rw [error] at h; cases h
  | unsaved _ _ _ _ _ error => rw [error] at h; cases h
  | published composed c' _ _ _ controller ok =>
    rw [ok, Except.ok.injEq] at h
    rw [controller, ← h]
    rfl

/-- A token is minted by an open controller, and has its epoch. -/
theorem minted_epoch {c : PodController} {disk : DurableState} {env : Env} {scope : AuthorityScope}
    {subject : RackId} {lifetime : Nanos} {token : AuthorityToken}
    (h : (c.mintAuthority disk env scope subject lifetime).result = .ok token) :
    c.isOpen = true ∧ token.epoch = c.epoch := by
  cases mintAuthority_minted c disk env scope subject lifetime with
  | refused _ refusal =>
    obtain ⟨_, _, _, herror⟩ := refusal
    rw [herror] at h
    cases h
  | reached isOpen _ _ _ _ _ _ _ _ _ _ ends =>
    obtain ⟨_, _, _, herror⟩ | ⟨_, _, hok⟩ := ends
    · rw [herror] at h
      cases h
    · rw [hok, Except.ok.injEq] at h
      rw [← h]
      exact ⟨isOpen, rfl⟩

/-- A response with a text tells of what it was given. -/
theorem Response.withText_tells {described : Text} :
    (response.withText options described).Tells options
      (response.epoch, response.lifecycle, response.stateDigest)
      (response.establishedMembers, response.fencedMembers, response.staleMembers,
        response.conflictingMembers) described :=
  ⟨rfl, rfl, Prod.mk.eta⟩

/-- A response with a state tells of its progress. -/
theorem Response.Tells.withState (h : response.Tells options progress counts t) :
    (response.withState st).Tells options st.progress counts t :=
  ⟨rfl, h.counts, h.text⟩

/-- A response with counts tells of them. -/
theorem Response.Tells.withMembers (h : response.Tells options progress counts t) :
    (response.withMembers st.authority).Tells options progress st.counts t :=
  ⟨h.progress, rfl, h.text⟩

/-- A response with another text tells of that. -/
theorem Response.Tells.withText {described : Text} (h : response.Tells options progress counts t) :
    (response.withText options described).Tells options progress counts described :=
  ⟨h.progress, h.counts, Prod.mk.eta⟩

/-- A failed operation leaves the fields of the response. -/
theorem Response.failed_tells {fault : Fault} {failed : Response}
    (h : response.failed fault = .ok failed) (htells : response.Tells options progress counts t) :
    failed.Tells options progress counts t := by
  cases fault with
  | status status =>
    cases h
    exact ⟨htells.progress, htells.counts, htells.text⟩
  | _ => cases h

variable {answered : Response} {β : Type} {f : World → β} {left : World}

/-- A round answers with the state it leaves, and describes what it finds then. -/
theorem apply_tells (hkind : request.kind = .apply)
    (htells : response.Tells options progress counts t)
    (h : (handleKind options request response).after reads = some (.done (.ok answered))) :
    (∃ found, reads = [found]) ∨
    ∃ env w env' later, reads = [(env, w), (env', later)] ∧
      ((handleKind options request response).Kept f 5 6 4 left reads →
        f later = f (w.next ⟨.apply request.snapshot, env⟩)) ∧
      answered.Tells options
        (w.next ⟨.apply request.snapshot, env⟩).controller.state.progress
        (w.next ⟨.apply request.snapshot, env⟩).controller.state.counts
        (later.controller.state.toText true) := by
  rw [handleKind, hkind] at h ⊢
  obtain ⟨env, w, rest, rfl, hrest⟩ := Program.of_call h
  dsimp only at hrest
  split at hrest
  · exact .inl ⟨_, by rw [(Program.of_done hrest).1]⟩
  · next report hreport =>
    obtain ⟨env', later, rest, rfl, hrest⟩ := Program.of_call hrest
    obtain ⟨rfl, hanswer⟩ := Program.of_done hrest
    cases hanswer
    refine .inr ⟨env, w, env', later, rfl, ?_, ?_⟩
    · rintro ⟨-, hkept⟩
      dsimp only at hkept
      rw [hreport] at hkept
      exact hkept.1 le_rfl (by decide)
    have hstate : (w.next ⟨.apply request.snapshot, env⟩).controller.state = report.state :=
      applied_state hreport
    rw [hstate]
    have hreply : ({ response with
        message := report.outcome.toText
        outcome := report.outcome
        revalidation := report.detail
        revalidationSound := report.revalidation.sound } : Response).Tells options
          progress counts t :=
      ⟨htells.progress, htells.counts, htells.text⟩
    exact hreply.withState.withMembers.withText

/-- A grant answers with the epoch of its token. -/
theorem mint_tells (hkind : request.kind = .mint)
    (htells : response.Tells options progress counts t)
    (h : (handleKind options request response).after reads = some (.done (.ok answered))) :
    ∃ env w, reads = [(env, w)] ∧
      ((handleKind options request response).Kept f 4 5 4 left reads → f w = f left) ∧
      (answered.Tells options progress counts t ∨ w.controller.isOpen = true ∧
        answered.Tells options (w.controller.epoch, progress.2) counts t) := by
  rw [handleKind, hkind] at h ⊢
  obtain ⟨env, w, rest, rfl, hrest⟩ := Program.of_call h
  dsimp only at hrest
  split at hrest
  · obtain ⟨rfl, hanswer⟩ := Program.of_done hrest
    exact ⟨env, w, rfl, fun hkept => hkept.1 le_rfl (by decide),
      .inl (Response.failed_tells hanswer htells)⟩
  · next token htoken =>
    obtain ⟨rfl, hanswer⟩ := Program.of_done hrest
    cases hanswer
    have hprogress : (response.lifecycle, response.stateDigest) = progress.2 :=
      congrArg Prod.snd htells.progress
    obtain ⟨hopen, hepoch⟩ := minted_epoch htoken
    refine ⟨env, w, rfl, fun hkept => hkept.1 le_rfl (by decide),
      .inr ⟨hopen, ?_, htells.counts, htells.text⟩⟩
    rw [← hprogress, ← hepoch]

/-- An administrative change answers with the state it finds once it is made, but with the counts
that were read first. -/
theorem setAdmin_tells (hkind : request.kind = .setAdmin)
    (htells : response.Tells options progress counts t)
    (h : (handleKind options request response).after reads = some (.done (.ok answered))) :
    (∃ found, reads = [found]) ∨
    ∃ env w env' updated env'' later, reads = [(env, w), (env', updated), (env'', later)] ∧
      (∀ {β : Type} {f : World → β} {a : ℕ},
        (handleKind options request response).Kept f a 7 4 left reads →
          (a ≤ 4 → f w = f left) ∧ (a ≤ 5 → f updated = f (request.change env w)) ∧
            (a ≤ 6 → f later = f updated)) ∧
      answered.Tells options updated.controller.state.progress counts
        (later.controller.state.toText true) := by
  rw [handleKind, hkind] at h ⊢
  have hchange : ∃ env w rest, reads = (env, w) :: rest ∧ ∃ changed,
      (adminChanged options response changed).after rest = some (.done (.ok answered)) ∧
        ∀ {β : Type} {f : World → β} {a : ℕ},
          (handleKind options request response).Kept f a 7 4 left reads →
            (a ≤ 4 → f w = f left) ∧
              (adminChanged options response changed).Kept f a 7 5 (request.change env w) rest := by
    dsimp only at h
    split at h
    · next hclear =>
      obtain ⟨env, w, rest, rfl, hrest⟩ := Program.of_call h
      refine ⟨env, w, rest, rfl, _, hrest, fun {_ f a} hkept => ?_⟩
      rw [handleKind, hkind] at hkept
      dsimp only at hkept
      rw [if_pos hclear] at hkept
      refine ⟨fun ha => hkept.1 ha (by decide), ?_⟩
      unfold Request.change
      rw [if_pos hclear]
      exact hkept.2
    · next hset =>
      obtain ⟨env, w, rest, rfl, hrest⟩ := Program.of_call h
      refine ⟨env, w, rest, rfl, _, hrest, fun {_ f a} hkept => ?_⟩
      rw [handleKind, hkind] at hkept
      dsimp only at hkept
      rw [if_neg hset] at hkept
      refine ⟨fun ha => hkept.1 ha (by decide), ?_⟩
      unfold Request.change
      rw [if_neg hset]
      exact hkept.2
  obtain ⟨env, w, rest, rfl, changed, hrest, hkeeps⟩ := hchange
  cases changed with
  | error fault => exact .inl ⟨_, by rw [(Program.of_done hrest).1]⟩
  | ok =>
    obtain ⟨env', updated, rest, rfl, hrest'⟩ := Program.of_call hrest
    obtain ⟨env'', later, rest, rfl, hrest''⟩ := Program.of_call hrest'
    obtain ⟨rfl, hanswer⟩ := Program.of_done hrest''
    cases hanswer
    refine .inr ⟨env, w, env', updated, env'', later, rfl, fun {_ f a} hkept => ?_, ?_⟩
    · obtain ⟨hfound, hupdated, hlater, -⟩ := hkeeps (by rw [handleKind, hkind]; exact hkept)
      exact ⟨hfound, fun ha => hupdated ha (by decide), fun ha => hlater ha (by decide)⟩
    have hreply : ({ response with message := "ok" } : Response).Tells options progress counts t :=
      ⟨htells.progress, htells.counts, htells.text⟩
    exact hreply.withState.withText

/-- A retirement answers with the lifecycle it finds once it is made, and with all else as it was
read first. -/
theorem retire_tells (hkind : request.kind = .retire)
    (htells : response.Tells options progress counts t)
    (h : (handleKind options request response).after reads = some (.done (.ok answered))) :
    ∃ env w env' later, reads = [(env, w), (env', later)] ∧
      ((handleKind options request response).Kept f 1 6 4 left reads →
        f w = f left ∧ f later = f (w.next ⟨.retire, env⟩)) ∧
      (answered.code = .ok → w.controller.isOpen = true) ∧
      answered.Tells options (progress.1, later.controller.lifecycle, progress.2.2) counts t := by
  rw [handleKind, hkind] at h ⊢
  obtain ⟨env, w, rest, rfl, hrest⟩ := Program.of_call h
  obtain ⟨env', later, rest, rfl, hrest'⟩ := Program.of_call hrest
  have hreply : ({ response with lifecycle := later.controller.lifecycle } : Response).Tells options
      (progress.1, later.controller.lifecycle, progress.2.2) counts t := by
    refine ⟨?_, htells.counts, htells.text⟩
    rw [← htells.progress]
  dsimp only at hrest'
  split at hrest'
  · next fault hfault =>
    obtain ⟨rfl, hanswer⟩ := Program.of_done hrest'
    refine ⟨env, w, env', later, rfl, ?_, fun hcode => ?_, Response.failed_tells hanswer hreply⟩
    · rintro ⟨hfound, hlater, -⟩
      exact ⟨hfound (by decide) (by decide), hlater (by decide) (by decide)⟩
    · by_contra hclosed
      have hrefused : (w.controller.retire w.disk env).result =
          .error (.status ⟨.invalid, "the pod controller is not open"⟩) := by
        unfold PodController.retire
        rw [if_pos hclosed]
        rfl
      cases hrefused.symm.trans hfault
      cases hanswer
      cases hcode
  · next hretired =>
    obtain ⟨rfl, hanswer⟩ := Program.of_done hrest'
    cases hanswer
    refine ⟨env, w, env', later, rfl, ?_, fun _ => ?_, hreply.progress, hreply.counts, hreply.text⟩
    · rintro ⟨hfound, hlater, -⟩
      exact ⟨hfound (by decide) (by decide), hlater (by decide) (by decide)⟩
    · rcases retire_cases w.controller w.disk env with ⟨-, hrefusal⟩ | ⟨hopen, -⟩
      · obtain ⟨status, herror⟩ := hrefusal.error
        cases herror.symm.trans hretired
      · exact hopen

/-- All other requests answer with what was read first. -/
theorem kept_tells (hkind : request.kind ∉ [MessageKind.apply, .mint, .setAdmin, .retire])
    (htells : response.Tells options progress counts t)
    (h : (handleKind options request response).after reads = some (.done (.ok answered))) :
    answered.Tells options progress counts t := by
  rw [handleKind] at h
  cases hk : request.kind with
  | apply | mint | setAdmin | retire => simp [hk] at hkind
  | revoke =>
    rw [hk] at h
    obtain ⟨env, w, rest, rfl, hrest⟩ := Program.of_call h
    dsimp only at hrest
    split at hrest
    · exact Response.failed_tells (Program.of_done hrest).2 htells
    · cases (Program.of_done hrest).2
      exact ⟨htells.progress, htells.counts, htells.text⟩
  | checkAuthority =>
    rw [hk] at h
    obtain ⟨env, w, rest, rfl, hrest⟩ := Program.of_call h
    cases (Program.of_done hrest).2
    exact ⟨htells.progress, htells.counts, htells.text⟩
  | _ =>
    rw [hk] at h
    cases (Program.of_done h).2
    exact ⟨htells.progress, htells.counts, htells.text⟩

/-- The calls that every request begins with: the response tells of the first state with the text of
the fourth, and what the others keep between them is the same. -/
inductive Begun (options : ServerOptions) (request : Request) (answered : Response) :
    List (Env × World) → Prop
  | intro {e₁ e₂ e₃ e₄ : Env} {w₁ w₂ w₃ w₄ : World} {rest : List (Env × World)}
      (response : Response)
      (tells : response.Tells options w₁.controller.state.progress w₁.controller.state.counts
        (w₄.controller.state.toText true))
      (goes : (handleKind options request response).after rest = some (.done (.ok answered)))
      (kept : ∀ {β : Type} {f : World → β} {a b : ℕ} {left : World},
        (handle options request).Kept f a b 0 left
            ((e₁, w₁) :: (e₂, w₂) :: (e₃, w₃) :: (e₄, w₄) :: rest) →
          (a ≤ 1 → 4 ≤ b → f w₄ = f w₁) ∧ (handleKind options request response).Kept f a b 4 w₄ rest) :
      Begun options request answered ((e₁, w₁) :: (e₂, w₂) :: (e₃, w₃) :: (e₄, w₄) :: rest)

/-- How every answered request begins: with the state it finds. -/
theorem handle_begun (h : (handle options request).after reads = some (.done (.ok answered))) :
    Begun options request answered reads := by
  obtain ⟨e₁, w₁, rest, rfl, h₁⟩ := Program.of_call h
  obtain ⟨e₂, w₂, rest, rfl, h₂⟩ := Program.of_call h₁
  obtain ⟨e₃, w₃, rest, rfl, h₃⟩ := Program.of_call h₂
  obtain ⟨e₄, w₄, rest, rfl, h₄⟩ := Program.of_call h₃
  refine .intro _ Response.withText_tells h₄ ?_
  rintro β f a b left ⟨-, htwo, hthree, hfour, hrest⟩
  refine ⟨fun ha hb => ?_, hrest⟩
  calc f w₄ = f w₃ := hfour (by omega) (by omega)
    _ = f w₂ := hthree (by omega) (by omega)
    _ = f w₁ := htwo ha (by omega)

/-! ### One description -/

section Describe

/-- When the answer to an application of evidence describes one state. -/
theorem apply_describes (hkind : request.kind = .apply)
    (h : (handle options request).after reads = some (.done (.ok answered)))
    (hcalls : reads.length = 6)
    (hkept : (handle options request).Kept (·.controller.state.report) 5 6 0 left reads) :
    ∃ found ∈ reads, answered.Describes options found.2.controller.state := by
  obtain ⟨response, htells, hgoes, hkeeps⟩ := handle_begun h
  obtain ⟨-, hrest⟩ := hkeeps hkept
  obtain ⟨found, rfl⟩ | ⟨env, w, env', later, rfl, hlater, happlied⟩ := apply_tells hkind htells hgoes
  · cases hcalls
  · have hsame : later.controller.state.report =
        (w.next ⟨.apply request.snapshot, env⟩).controller.state.report := hlater hrest
    obtain ⟨hprogress, hcounts⟩ := Prod.mk.inj hsame
    refine ⟨(env', later), by simp, ?_⟩
    rw [Response.Describes, hprogress, hcounts]
    exact happlied

/-- When the answer to a grant describes one state. -/
theorem mint_describes (hkind : request.kind = .mint)
    (hcoherent : ∀ found ∈ reads, found.2.controller.isOpen = true → Coherent found.2.controller)
    (h : (handle options request).after reads = some (.done (.ok answered)))
    (hkept : (handle options request).Kept (·.controller.state.report) 1 4 0 left reads)
    (hepoch : (handle options request).Kept (·.controller.state.epoch) 4 5 0 left reads) :
    ∃ found ∈ reads, answered.Describes options found.2.controller.state := by
  obtain ⟨response, htells, hgoes, hkeeps⟩ := handle_begun h
  obtain ⟨hsame, -⟩ := hkeeps hkept
  obtain ⟨-, hrest⟩ := hkeeps hepoch
  obtain ⟨env, w, rfl, hgrant, hminted⟩ := mint_tells hkind htells hgoes
  obtain ⟨hprogress, hcounts⟩ := Prod.mk.inj (hsame le_rfl le_rfl)
  refine ⟨_, .tail _ (.tail _ (.tail _ (.head _))), ?_⟩
  rw [Response.Describes, hprogress, hcounts]
  obtain hminted | ⟨hopen, hminted⟩ := hminted
  · exact hminted
  · have hat : w.controller.epoch = _ :=
      (hcoherent (env, w) (by simp) hopen).epoch.symm.trans (hgrant hrest)
    have hfirst := congrArg Prod.fst hprogress
    dsimp only [PodState.progress] at hfirst
    rw [hat, hfirst] at hminted
    exact hminted

/-- When the answer to an override describes one state. -/
theorem setAdmin_describes (hkind : request.kind = .setAdmin)
    (h : (handle options request).after reads = some (.done (.ok answered)))
    (hcalls : reads.length = 7)
    (hcounts : (handle options request).Kept (·.controller.state.counts) 1 7 0 left reads)
    (hprogress : (handle options request).Kept (·.controller.state.progress) 6 7 0 left reads)
    (hsteady : ∀ found ∈ reads[4]?, (request.change found.1 found.2).controller.state.counts =
      found.2.controller.state.counts) :
    ∃ found ∈ reads.drop 5, answered.Describes options found.2.controller.state := by
  obtain ⟨response, htells, hgoes, hkeeps⟩ := handle_begun h
  obtain ⟨hfirst, hcounts⟩ := hkeeps hcounts
  obtain ⟨-, hprogress⟩ := hkeeps hprogress
  obtain ⟨found, rfl⟩ | ⟨env, w, env', updated, env'', later, rfl, hkept, hchanged⟩ :=
    setAdmin_tells hkind htells hgoes
  · cases hcalls
  · obtain ⟨hfound, hupdated, hlater⟩ := hkept hcounts
    obtain ⟨-, -, hagain⟩ := hkept hprogress
    have hsame := calc later.controller.state.counts
      _ = updated.controller.state.counts := hlater (by decide)
      _ = (request.change env w).controller.state.counts := hupdated (by decide)
      _ = w.controller.state.counts := hsteady (env, w) rfl
      _ = _ := hfound (by decide)
      _ = _ := hfirst le_rfl (by decide)
    refine ⟨(env'', later), by simp, ?_⟩
    rw [Response.Describes, hagain le_rfl, hsame]
    exact hchanged

/-- All that a retirement changes of a state is behind the heading of its text. -/
theorem retire_remains (w : World) (env : Env) :
    (w.next ⟨.retire, env⟩).controller.state.remains = w.controller.state.remains := by
  change (w.controller.retire w.disk env).controller.state.remains = _
  rcases retire_cases w.controller w.disk env with ⟨-, hrefusal⟩ | ⟨-, -, result, persisted, -⟩
  · rw [hrefusal.controller]
  · have hstate : (w.controller.retire w.disk env).controller.state = w.controller.retiring.state :=
      congrArg Memory.state persisted.memory_eq
    rw [hstate]
    rfl

/-- The text of a state begins with its heading and the name of its lifecycle. -/
theorem heading_isPrefix {st : PodState} :
    st.heading ++ (st.lifecycle.toText ++ [10]) <+: st.toText true := by
  unfold PodState.toText
  iterate 14 refine List.IsPrefix.trans ?_ (List.prefix_append _ _)
  unfold PodState.heading
  have hword : text "lifecycle " = text "lifecycle" ++ [32] := rfl
  have hline : text "lifecycle " ++ (st.lifecycle.toText ++ [10]) =
      textLine ["lifecycle", st.lifecycle.toText] := by
    simp [hword, textLine, List.intercalate]
  rw [List.append_assoc, hline]

/-- Of texts with one heading that are cut off within it, the same is shown. -/
theorem boundedText_heading {st st' : PodState} (hsame : st'.heading = st.heading)
    (hcut : options.maxTextBytes ≤ st.heading.length) :
    boundedText (st'.toText true) options.maxTextBytes =
      boundedText (st.toText true) options.maxTextBytes := by
  have hbounded {st : PodState} (hcut : options.maxTextBytes ≤ st.heading.length) :
      boundedText (st.toText true) options.maxTextBytes =
        (st.heading.take options.maxTextBytes ++ text "\ntruncated true\nend\n", true) := by
    obtain ⟨rest, hrest⟩ := @heading_isPrefix st
    have hlong : ¬ (st.toText true).length ≤ options.maxTextBytes := by
      rw [← hrest]
      simp only [List.length_append, List.length_singleton]
      omega
    unfold boundedText
    rw [if_neg hlong, ← hrest, List.append_assoc, List.take_append_of_le_length hcut]
  rw [hbounded hcut, hbounded (hsame ▸ hcut), hsame]

/-- When the answer to a retirement describes one state. -/
theorem retire_describes (hkind : request.kind = .retire)
    (hcoherent : ∀ found ∈ reads, found.2.controller.isOpen = true → Coherent found.2.controller)
    (hopen : ∀ found ∈ reads, ∀ found' ∈ reads, found.2.controller.isOpen = true →
      found'.2.controller.isOpen = true)
    (h : (handle options request).after reads = some (.done (.ok answered)))
    (hcode : answered.code = .ok)
    (hkept : (handle options request).Kept (·.controller.state.remains) 1 6 0 left reads)
    (hcut : ∀ found ∈ reads[3]?,
      options.maxTextBytes ≤ found.2.controller.state.heading.length) :
    ∃ found ∈ reads.drop 5, answered.Describes options found.2.controller.state := by
  obtain @⟨e₁, e₂, e₃, e₄, w₁, w₂, w₃, w₄, rest, response, htells, hgoes, hkeeps⟩ := handle_begun h
  obtain ⟨hfirst, hrest⟩ := hkeeps hkept
  obtain ⟨env, w, env', later, rfl, hkept, hstands, hretired⟩ := retire_tells hkind htells hgoes
  obtain ⟨hfound, hlater⟩ := hkept hrest
  have hdescribed : later.controller.state.remains = w₄.controller.state.remains :=
    (hlater.trans (retire_remains w env)).trans hfound
  have hsame : later.controller.state.remains = w₁.controller.state.remains :=
    hdescribed.trans (hfirst le_rfl (by decide))
  have hlifecycle : later.controller.lifecycle = later.controller.state.lifecycle :=
    (hcoherent (env', later) (by simp) (hopen (env, w) (by simp) (env', later) (by simp)
      (hstands hcode))).lifecycle.symm
  have hepoch : later.controller.state.epoch = w₁.controller.state.epoch :=
    congrArg (fun r => r.1.1) hsame
  have hdigest : later.controller.state.stateDigest = w₁.controller.state.stateDigest :=
    congrArg (fun r => r.1.2.1) hsame
  have hcounts : later.controller.state.counts = w₁.controller.state.counts :=
    congrArg (fun r => r.1.2.2) hsame
  have hheading : later.controller.state.heading = w₄.controller.state.heading :=
    congrArg Prod.snd hdescribed
  have htext := boundedText_heading hheading (hcut (e₄, w₄) rfl)
  refine ⟨(env', later), by simp, hretired.progress.trans ?_, hretired.counts.trans hcounts.symm,
    hretired.text.trans htext.symm⟩
  change (w₁.controller.state.epoch, later.controller.lifecycle, w₁.controller.state.stateDigest) =
    (later.controller.state.epoch, later.controller.state.lifecycle,
      later.controller.state.stateDigest)
  rw [hlifecycle, hepoch, hdigest]

/-- When the answer to any other request describes one state. -/
theorem kept_describes (hkind : request.kind ∉ [MessageKind.apply, .mint, .setAdmin, .retire])
    (h : (handle options request).after reads = some (.done (.ok answered)))
    (hkept : (handle options request).Kept (·.controller.state.report) 1 4 0 left reads) :
    ∃ found ∈ reads, answered.Describes options found.2.controller.state := by
  obtain ⟨response, htells, hgoes, hkeeps⟩ := handle_begun h
  obtain ⟨hsame, -⟩ := hkeeps hkept
  obtain ⟨hprogress, hcounts⟩ := Prod.mk.inj (hsame le_rfl le_rfl)
  refine ⟨_, .tail _ (.tail _ (.tail _ (.head _))), ?_⟩
  rw [Response.Describes, hprogress, hcounts]
  exact kept_tells hkind htells hgoes

end Describe

end Requests

instance Response.decidableTells {options : ServerOptions} {response : Response}
    {progress : PodEpoch × LifecycleState × Digest} {counts : UInt32 × UInt32 × UInt32 × UInt32}
    {t : Text} : Decidable (response.Tells options progress counts t) :=
  decidable_of_iff (((response.epoch, response.lifecycle, response.stateDigest) = progress) ∧
      (response.establishedMembers, response.fencedMembers, response.staleMembers,
        response.conflictingMembers) = counts ∧
      (response.text, response.textTruncated) = boundedText t options.maxTextBytes)
    ⟨fun h => ⟨h.1, h.2.1, h.2.2⟩, fun h => ⟨h.progress, h.counts, h.text⟩⟩

instance Response.decidableDescribes {options : ServerOptions} {response : Response}
    {st : PodState} : Decidable (response.Describes options st) :=
  decidableTells

/-! ## The server -/

/-- An operation of an open controller leaves it open, and one of a closed controller closed. -/
theorem World.next_isOpen {w : World} (h : Orderly w) {call : Call}
    (hop : call.op.operates = true) :
    (w.next call).controller.isOpen = w.controller.isOpen := by
  cases w.operated call hop h.coherent with
  | stopped c₀ prepared controller =>
    rw [controller]
    exact prepared.isOpen
  | reached c₀ c₁ _ _ _ _ _ result _ prepared _ persisted _ failed done =>
    have hc₁ := persisted.untouched.isOpen.trans prepared.isOpen
    cases result with
    | error status =>
      rw [failed rfl]
      exact hc₁
    | ok done' => exact (done rfl).isOpen.trans hc₁

/-- The controller is orderly, and it is open or not as it was. -/
def Served (isOpen : Bool) (w : World) : Prop := Orderly w ∧ w.controller.isOpen = isOpen

section Server
variable {options : ServerOptions} {w : World} {turns : List (Turn Request Env)} {thread : ℕ}
  {request : Request} {response : Response} {isOpen : Bool}

/-- An operation keeps the world served. -/
theorem Served.next (h : Served isOpen w) {call : Call} (hop : call.op.operates = true) :
    Served isOpen (w.next call) :=
  ⟨h.1.next, (World.next_isOpen h.1 hop).trans h.2⟩

/-- No call of a request opens or closes the controller. -/
theorem handle_preserves : (handle options request).Preserves (Served isOpen) := by
  have hread : ∀ {α : Type} {f : PodController → α},
      (Handling.read f).Preserves (Served isOpen) := fun {_ _} =>
    .call fun _ _ h => h
  have hoperate : ∀ {α : Type} {f : PodController → DurableState → Env → Reply α} (op : Op),
      op.operates = true →
      (∀ (w : World) env, w.next ⟨op, env⟩ =
        ⟨(f w.controller w.disk env).controller, (f w.controller w.disk env).disk⟩) →
      (Handling.operate f).Preserves (Served isOpen) := by
    intro α f op hop hnext
    refine .call fun env w h => ?_
    have hserved := @Served.next _ _ h ⟨op, env⟩ hop
    rw [hnext] at hserved
    exact hserved
  have hchanged : ∀ {response : Response} {changed : Outcome Unit},
      (adminChanged options response changed).Preserves (Served isOpen) := by
    intro response changed
    cases changed with
    | error fault => exact .pure
    | ok => exact .bind (fun _ => .bind (fun _ => .pure) hread) hread
  refine .bind (fun _ => .bind (fun _ => .bind (fun _ => .bind (fun _ => ?_) hread) hread) hread)
    hread
  unfold handleKind
  cases request.kind with
  | hello | ping | status | describe | erase | shutdown => exact .pure
  | apply =>
    refine .bind (fun result => ?_) (hoperate (.apply request.snapshot) rfl fun _ _ => rfl)
    cases result with
    | error fault => exact .pure
    | ok report => exact .bind (fun _ => .pure) hread
  | mint =>
    refine .bind (fun result => ?_) (hoperate
      (.mintAuthority request.scope request.rack request.lifetime) rfl fun _ _ => rfl)
    cases result with
    | error fault => exact .pure
    | ok token => exact .pure
  | revoke =>
    refine .bind (fun result => ?_)
      (hoperate (.revokeAuthority request.lease) rfl fun _ _ => rfl)
    cases result with
    | error fault => exact .pure
    | ok => exact .pure
  | checkAuthority => exact .bind (fun _ => .pure) (.call fun _ _ h => h)
  | setAdmin =>
    dsimp only
    split
    · exact .bind (fun _ => hchanged)
        (hoperate (.clearAdminState request.rack) rfl fun _ _ => rfl)
    · exact .bind (fun _ => hchanged)
        (hoperate (.setAdminState request.rack request.admin) rfl fun _ _ => rfl)
  | retire =>
    refine .bind (fun result => .bind (fun _ => ?_) hread)
      (hoperate .retire rfl fun _ _ => rfl)
    cases result with
    | error fault => exact .pure
    | ok => exact .pure

/-- A controller that calls have led to, and its server. -/
def Server.over (options : ControllerOptions) (disk : DurableState) (calls : List Call) : Server :=
  .start ((World.start options disk).run calls)

/-- **Responses.** However the threads of a server take turns, the response to a request that has gone
through describes one state of the pod, if it is undisturbed; after an administrative change or a
retirement it is a state that the controller has had since. -/
theorem response_describes {pod : ControllerOptions} {disk : DurableState} {calls : List Call}
    (h : ((Server.over pod disk calls).run options turns).threads[thread]? =
      some (request, .done (.ok response)))
    (hsucceeded : request.Succeeded response
      (Pool.accesses thread ((Server.over pod disk calls).trace options turns)))
    (hundisturbed : Undisturbed options request thread
      ((Server.over pod disk calls).trace options turns)) :
    ∃ x ∈ Pool.since thread request.settling ((Server.over pod disk calls).trace options turns),
      response.Describes options x.1.shared.controller.state := by
  have horderly : Orderly ((World.start pod disk).run calls) :=
    Run.final_invariant (P := Orderly) World.start_orderly fun _ _ h => h.next
  have hserved : ∀ found ∈ Pool.accesses thread ((Server.over pod disk calls).trace options turns),
      Served ((World.start pod disk).run calls).controller.isOpen found.2 := by
    intro found hfound
    obtain ⟨x, hx, hshared⟩ := Pool.mem_of_accesses hfound
    exact hshared ▸ Pool.trace_preserves (fun _ => handle_preserves) rfl ⟨horderly, rfl⟩ x hx
  have hcoherent := fun found hfound => (hserved found hfound).1.coherent
  have hafter : (handle options request).after
      (Pool.accesses thread ((Server.over pod disk calls).trace options turns)) =
        some (.done (.ok response)) := Pool.thread_eq_after rfl h
  have hkept : ∀ {β : Type} {f : World → β} {a b : ℕ}, 0 < a →
      Pool.Keeps (handle options) f thread a b 0
        ((Server.over pod disk calls).trace options turns) →
      (handle options request).Kept f a b 0 (Server.over pod disk calls).shared
        (Pool.accesses thread ((Server.over pod disk calls).trace options turns)) :=
    fun ha hkeeps => Pool.kept_of_run rfl ha h hkeeps
  obtain ⟨hcode, hcalls⟩ := hsucceeded
  have hfound : ∃ found ∈ (Pool.accesses thread ((Server.over pod disk calls).trace options
      turns)).drop request.settling, response.Describes options found.2.controller.state := by
    unfold Undisturbed at hundisturbed
    cases hkind : request.kind with
    | apply =>
      simp only [hkind] at hundisturbed
      simpa [Request.settling, hkind] using apply_describes hkind hafter
        (by simpa [Request.calls, hkind] using hcalls) (hkept (by decide) hundisturbed)
    | mint =>
      simp only [hkind] at hundisturbed
      simpa [Request.settling, hkind] using mint_describes hkind hcoherent hafter
        (hkept (by decide) hundisturbed.1) (hkept (by decide) hundisturbed.2)
    | setAdmin =>
      simp only [hkind] at hundisturbed
      simpa [Request.settling, hkind] using setAdmin_describes hkind hafter
        (by simpa [Request.calls, hkind] using hcalls) (hkept (by decide) hundisturbed.1)
        (hkept (by decide) hundisturbed.2.1) hundisturbed.2.2
    | retire =>
      simp only [hkind] at hundisturbed
      have hopen : ∀ found ∈ Pool.accesses thread ((Server.over pod disk calls).trace options turns),
          ∀ found' ∈ Pool.accesses thread ((Server.over pod disk calls).trace options turns),
            found.2.controller.isOpen = true → found'.2.controller.isOpen = true :=
        fun found hfound found' hfound' hopen =>
          (hserved found' hfound').2.trans ((hserved found hfound).2.symm.trans hopen)
      simpa [Request.settling, hkind] using retire_describes hkind hcoherent hopen hafter hcode
        (hkept (by decide) hundisturbed.1) hundisturbed.2
    | _ =>
      simp only [hkind] at hundisturbed
      simpa [Request.settling, hkind] using kept_describes (by simp [hkind]) hafter
        (hkept (by decide) hundisturbed)
  obtain ⟨found, hfound, hdescribes⟩ := hfound
  rw [← Pool.accesses_since] at hfound
  obtain ⟨x, hx, hshared⟩ := Pool.mem_of_accesses hfound
  exact ⟨x, hx, hshared ▸ hdescribes⟩

/-- The request of a thread with its response. -/
def Server.answered (s : Server) (thread : ℕ) : Option (Request × Response) :=
  match s.threads[thread]? with
  | some (request, .done (.ok response)) => some (request, response)
  | _ => none

/-- An answered thread is at its end. -/
theorem Server.of_answered {s : Server} (h : s.answered thread = some (request, response)) :
    s.threads[thread]? = some (request, .done (.ok response)) := by
  unfold Server.answered at h
  split at h
  · next hthread =>
    obtain ⟨rfl, rfl⟩ := Prod.mk.inj (Option.some.inj h)
    exact hthread
  · cases h

instance decidableSucceeded {reads : List (Env × World)} :
    Decidable (request.Succeeded response reads) :=
  decidable_of_iff (response.code = .ok ∧ reads.length = request.calls)
    ⟨fun h => ⟨h.1, h.2⟩, fun h => ⟨h.code, h.calls⟩⟩

instance decidableUndisturbed {trace : List (Server × Turn Request Env)} :
    Decidable (Undisturbed options request thread trace) := by
  delta Undisturbed
  have : DecidableEq (PodEpoch × Digest × UInt32 × UInt32 × UInt32 × UInt32) := inferInstance
  split <;> infer_instance

end Server

namespace Sample

/-- A client of an open pod asks for its retirement. -/
def retirement : List (Turn Request Env) :=
  .start { kind := .retire } :: List.replicate 6 (.proceed 0 env)

/-- One client maintains a rack while another one asks for the status of the pod. -/
def shared : List (Turn Request Env) :=
  [.start { kind := .setAdmin, rack := rackA, admin := .maintenance }, .start { kind := .status },
    .proceed 1 env, .proceed 0 env, .proceed 0 env, .proceed 1 env, .proceed 0 env, .proceed 0 env,
    .proceed 0 env, .proceed 1 env, .proceed 0 env, .proceed 1 env, .proceed 0 env]

/-- A server over a new controller that was opened. -/
def server : Server := .over (options false) {} [⟨.open, env⟩]

end Sample

/-- The client that maintains a rack is told of one state, though another one asks meanwhile. -/
theorem shared_described : ∃ request response,
    (Sample.server.run {} Sample.shared).threads[0]? = some (request, .done (.ok response)) ∧
      request.kind = .setAdmin ∧
      ∃ x ∈ Pool.since 0 request.settling (Sample.server.trace {} Sample.shared),
        response.Describes {} x.1.shared.controller.state := by
  have hrun : ((Sample.server.run {} Sample.shared).answered 0).any fun r =>
      decide (r.1.kind = .setAdmin ∧
        r.1.Succeeded r.2 (Pool.accesses 0 (Sample.server.trace {} Sample.shared)) ∧
        Undisturbed {} r.1 0 (Sample.server.trace {} Sample.shared)) := by
    decide +kernel
  obtain ⟨⟨request, response⟩, hanswered, hr⟩ := (Option.any_eq_true _ _).1 hrun
  obtain ⟨hkind, hsucceeded, hundisturbed⟩ := of_decide_eq_true hr
  have hthread := Server.of_answered hanswered
  exact ⟨request, response, hthread, hkind,
    response_describes hthread hsucceeded hundisturbed⟩

/-- The client that retires a pod is told that it is retired beside the text of the pod as it was
before. -/
theorem retirement_mixed :
    ¬ ∀ (options : ServerOptions) (pod : ControllerOptions) (disk : DurableState)
        (calls : List Call) (turns : List (Turn Request Env)) (thread : ℕ) (request : Request)
        (response : Response),
      ((Server.over pod disk calls).run options turns).threads[thread]? =
          some (request, .done (.ok response)) → response.code = .ok →
        ∃ x ∈ Pool.since thread request.settling ((Server.over pod disk calls).trace options turns),
          response.Describes options x.1.shared.controller.state := by
  intro h
  have hrun : ((Sample.server.run {} Sample.retirement).answered 0).any fun r =>
      decide (r.2.code = .ok ∧
        ∀ x ∈ Pool.since 0 r.1.settling (Sample.server.trace {} Sample.retirement),
          ¬ r.2.Describes {} x.1.shared.controller.state) := by
    decide +kernel
  obtain ⟨⟨request, response⟩, hanswered, hr⟩ := (Option.any_eq_true _ _).1 hrun
  obtain ⟨hcode, hmixed⟩ := of_decide_eq_true hr
  obtain ⟨x, hx, hdescribes⟩ := h {} (Sample.options false) {} [⟨.open, Sample.env⟩]
    Sample.retirement 0 request response (Server.of_answered hanswered) hcode
  exact hmixed x hx hdescribes

end PodFabric
