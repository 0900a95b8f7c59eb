import PodFabric.Proof.MemberFences
import PodFabric.Proof.Monotone
import PodFabric.Proof.StateText

/-!
# The state digest

The state digest is taken of the text of the state, which has the time of the observation in it and
leaves fields of the verdicts out. So it tells whether two composed states have the same verdicts
just when states with the same verdicts are observed at the same time, and states with different
verdicts differ in what the text shows (`state_digest_iff`).
-/

namespace PodFabric

/-- Two states have the same verdicts, whatever their decisions and whenever they were observed. -/
structure SameVerdicts (st st' : PodState) : Prop where
  epoch : st.epoch = st'.epoch
  incarnation : st.incarnation = st'.incarnation
  lifecycle : st.lifecycle = st'.lifecycle
  members : st.members = st'.members
  connectivity : st.connectivity = st'.connectivity
  capacity : st.capacity = st'.capacity
  domainCapacity : st.domainCapacity = st'.domainCapacity
  domains : st.domains = st'.domains
  obligations : st.obligations = st'.obligations
  authority : st.authority = st'.authority
  fences : st.fences = st'.fences
  degradations : st.degradations = st'.degradations

/-- The digests of two states are equal just when their verdicts are, and a controller that shows
the one and composes the other with the same verdicts reports it unchanged. -/
structure DigestTells (st st' : PodState) : Prop where
  moves : st.stateDigest = st'.stateDigest ↔ SameVerdicts st st'
  unchanged : ∀ c : PodController, Coherent c → c.state = st → c.recoveredRound = false →
    c.lifecycle ≠ .retired → SameVerdicts st st' → c.applyOutcome st' = .unchanged

/-! ## Composed states -/

section Composed
variable {request request' : CompositionRequest} {p : Passes} {st st' : PodState}
    {fence : FenceAction}

/-- A fence on an identifier can be told by its line. -/
theorem ident_tellable {tag : IdTag} {id : BasicId tag} (h : fence.subject = id.token) :
    fence.Tellable := by
  rcases id.canonical with hempty | hcanonical
  · exact .inl (h.trans hempty)
  · exact .inr (h ▸ isCanonicalId_plain hcanonical)

/-- A fence on a pair of racks can be told by its line. -/
theorem pair_tellable {a b : RackId} (h : fence.subject = a.token ++ [46] ++ b.token) :
    fence.Tellable := by
  have hvisible : ∀ id : RackId, ∀ c ∈ id.token, 32 < c.toNat := by
    intro id c hc
    rcases id.canonical with hempty | hcanonical
    · rw [hempty] at hc
      cases hc
    · exact (isCanonicalId_plain hcanonical).1.visible c hc
  have hpoint : (46 : UInt8) ∈ fence.subject := by simp [h]
  refine .inr ⟨⟨List.ne_nil_of_mem hpoint, fun c hc => ?_⟩, fun heq => ?_⟩
  · rw [h, List.mem_append, List.mem_append, List.mem_singleton] at hc
    rcases hc with (hc | rfl) | hc
    · exact hvisible a c hc
    · decide
    · exact hvisible b c hc
  · rw [heq] at hpoint
    exact absurd hpoint (by decide)

/-- The subjects of the fences of a composed state can be told. -/
theorem fences_tellable (h : fence ∈ p.draft.finalise.fences) : fence.Tellable := by
  rcases mem_finalise_fences.1 h with hmember | hdomain | ⟨work, -, hpair⟩ | htoken | hpod
  · obtain ⟨-, work, -, -, hsubject⟩ := mem_memberFences hmember
    exact ident_tellable hsubject.symm
  · obtain ⟨-, work, -, -, hsubject⟩ := mem_domainFences hdomain
    exact ident_tellable hsubject.symm
  · rcases mem_pairFences hpair with ⟨-, -, hsubject⟩ | ⟨-, route, -, -, hsubject⟩
    · exact pair_tellable hsubject
    · exact ident_tellable hsubject
  · obtain ⟨token, -, rfl⟩ := List.mem_map.1 htoken
    exact ident_tellable rfl
  · unfold podFences at hpod
    split at hpod
    · cases hpod
    · rw [List.mem_singleton.1 hpod]
      exact ident_tellable rfl

/-- A composed state is presented as the text expects. -/
theorem composed_presented (h : compose request = .ok st) : st.Presented := by
  obtain ⟨p, -, -, rfl⟩ := compose_passesOf h
  exact ⟨rfl, fun fence hfence => fences_tellable hfence⟩

/-- The digest of a composed state is that of its text. -/
theorem composed_digest (h : compose request = .ok st) :
    st.stateDigest = .of (st.undigested.toText false) := by
  obtain ⟨p, -, -, rfl⟩ := compose_passesOf h
  rfl

/-- States of one pod with the same verdicts show the same if they are observed at the same time. -/
theorem SameVerdicts.visible (h : SameVerdicts st st') (hpod : st.pod = st'.pod)
    (hschema : st.schema = st'.schema) (htime : st.composedAt = st'.composedAt) :
    st.visible = st'.visible := by
  unfold PodState.visible
  rw [hpod, hschema, h.epoch, h.incarnation, h.lifecycle, h.members, h.connectivity, h.capacity,
    h.domainCapacity, h.domains, h.obligations, h.authority, h.fences, h.degradations, htime]

/-- A controller that composes a state with the digest and the standing of its own reports it
unchanged. -/
theorem applyOutcome_unchanged {c : PodController} (hc : Coherent c)
    (hlive : c.recoveredRound = false)
    (hretired : c.lifecycle ≠ .retired) (hsame : SameVerdicts c.state st')
    (hdigest : c.state.stateDigest = st'.stateDigest) : c.applyOutcome st' = .unchanged := by
  have hepoch : c.epoch = st'.epoch := hc.epoch.symm.trans hsame.epoch
  have hlifecycle : c.lifecycle = st'.lifecycle := hc.lifecycle.symm.trans hsame.lifecycle
  unfold PodController.applyOutcome
  rw [if_neg (by simp [hlive]), if_neg hretired, if_neg (not_not.2 hepoch),
    if_pos ⟨hdigest, hlifecycle⟩]

/-- **The state digest.** Let the digests of two composed states of one pod tell their texts apart.
Then they tell the verdicts just when states with the same verdicts are observed at the same time,
and those with different verdicts differ in what the text shows. -/
theorem state_digest_iff (h : compose request = .ok st) (h' : compose request' = .ok st')
    (hpod : st.pod = st'.pod) (hsha : st.stateDigest = st'.stateDigest →
      st.undigested.toText false = st'.undigested.toText false) :
    DigestTells st st' ↔ (SameVerdicts st st' → st.composedAt = st'.composedAt) ∧
      (st.visible = st'.visible → SameVerdicts st st') := by
  have hpresented := composed_presented h
  have hpresented' := composed_presented h'
  have hdigest : st.stateDigest = st'.stateDigest ↔ st.visible = st'.visible := by
    rw [← hpresented.toText_eq_iff hpresented']
    refine ⟨hsha, fun htext => ?_⟩
    rw [composed_digest h, composed_digest h', htext]
  constructor
  · intro htells
    refine ⟨fun hsame => ?_, fun hvisible => htells.moves.1 (hdigest.2 hvisible)⟩
    change st.visible.composedAt = st'.visible.composedAt
    rw [hdigest.1 (htells.moves.2 hsame)]
  · rintro ⟨htime, htold⟩
    have hmoves : SameVerdicts st st' → st.stateDigest = st'.stateDigest := fun hsame =>
      hdigest.2 (hsame.visible hpod (hpresented.schema.trans hpresented'.schema.symm) (htime hsame))
    refine ⟨⟨fun heq => htold (hdigest.1 heq), hmoves⟩, ?_⟩
    rintro c hc rfl hlive hretired hsame
    exact applyOutcome_unchanged hc hlive hretired hsame (hmoves hsame)

end Composed

/-! ## The same evidence, observed later -/

/-- A single rack, without capacity or domains, observed at some time. -/
def Sample.seenAt (time : Nanos) : CompositionRequest where
  snapshot := { Sample.snapshot with
    members := [{ Sample.member Sample.rackA ⟨1⟩ with capacity := [], failureDomains := [] }]
    links := []
    domains := []
    observedAt := time }

/-- The pod of a state with its verdicts. -/
def PodState.verdicts (st : PodState) : PodState :=
  { st.undigested with decisions := [], composedAt := 0, provenance := {} }

/-- Equal verdicts are of the same pod, and the same. -/
theorem same_of_verdicts {st st' : PodState} (h : st.verdicts = st'.verdicts) :
    st.pod = st'.pod ∧ SameVerdicts st st' := by
  simp only [PodState.verdicts, PodState.undigested, PodState.mk.injEq, true_and, and_true] at h
  obtain ⟨hpod, -, hepoch, hincarnation, hlifecycle, hmembers, hconnectivity, hcapacity,
    hdomainCapacity, hdomains, hobligations, hauthority, hfences, hdegradations⟩ := h
  exact ⟨hpod, hepoch, hincarnation, hlifecycle, hmembers, hconnectivity, hcapacity,
    hdomainCapacity, hdomains, hobligations, hauthority, hfences, hdegradations⟩

/-- The verdicts on the rack, whenever it is observed. -/
def Sample.standing : PodState where
  pod := Sample.snapshot.pod
  schema := podStateSchema
  epoch := ⟨1⟩
  lifecycle := .degraded
  members := [{ rack := Sample.rackA, status := .established, generation := ⟨1⟩, digest := Sample.digest
                membership := .established, health := .ok }]
  authority := { status := .ok, epoch := ⟨1⟩, establishedMembers := 1 }
  degradations := [⟨.epochAdvanced, "the pod epoch advanced because a member generation changed"⟩]

/-- The evidence composes to the same verdicts, and to another digest. -/
theorem observedLater_composed : ∃ st st', compose (Sample.seenAt 100) = .ok st ∧
    compose (Sample.seenAt 101) = .ok st' ∧ st.pod = st'.pod ∧ SameVerdicts st st' ∧
      st.stateDigest ≠ st'.stateDigest := by
  have hverdicts : (compose (Sample.seenAt 100)).toOption.map PodState.verdicts = some
      Sample.standing ∧
      (compose (Sample.seenAt 101)).toOption.map PodState.verdicts = some Sample.standing := by
    decide +kernel
  have hbyte : (compose (Sample.seenAt 100)).toOption.map (fun st => st.stateDigest.bytes.head?) ≠
      (compose (Sample.seenAt 101)).toOption.map fun st => st.stateDigest.bytes.head? := by
    decide +kernel
  obtain ⟨st, hst, hview⟩ := composed_of_map hverdicts.1
  obtain ⟨st', hst', hview'⟩ := composed_of_map hverdicts.2
  rw [hst, hst'] at hbyte
  obtain ⟨hpod, hsame⟩ := same_of_verdicts (hview.trans hview'.symm)
  refine ⟨st, st', hst, hst', hpod, hsame, fun hdigest => hbyte ?_⟩
  change some st.stateDigest.bytes.head? = some st'.stateDigest.bytes.head?
  rw [hdigest]

/-- The digests of the two compositions do not tell their verdicts. -/
theorem observedLater_told : ∃ st st', compose (Sample.seenAt 100) = .ok st ∧
    compose (Sample.seenAt 101) = .ok st' ∧ SameVerdicts st st' ∧ ¬ DigestTells st st' := by
  obtain ⟨st, st', hst, hst', hpod, hsame, hdigest⟩ := observedLater_composed
  refine ⟨st, st', hst, hst', hsame, fun htells => ?_⟩
  have htime : st.composedAt = st'.composedAt :=
    ((state_digest_iff hst hst' hpod fun heq => absurd heq hdigest).1 htells).1 hsame
  obtain ⟨p, -, hpasses, rfl⟩ := compose_passesOf hst
  obtain ⟨p', -, hpasses', rfl⟩ := compose_passesOf hst'
  have hobserved : p.findings.snapshot.observedAt = p'.findings.snapshot.observedAt := htime
  rw [hpasses.snapshot, hpasses'.snapshot] at hobserved
  exact absurd hobserved (by decide)

/-- Unchanged evidence that is observed later moves the digest. -/
theorem observedLater_moves : ¬ ∀ request request' st st', compose request = .ok st →
    compose request' = .ok st' → st.pod = st'.pod →
    (st.stateDigest = st'.stateDigest → st.undigested.toText false = st'.undigested.toText false) →
    DigestTells st st' := by
  intro hclaim
  obtain ⟨st, st', hst, hst', hpod, hsame, hdigest⟩ := observedLater_composed
  have htells := hclaim _ _ st st' hst hst' hpod fun heq => absurd heq hdigest
  exact hdigest (htells.moves.2 hsame)

end PodFabric
