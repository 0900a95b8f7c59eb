import PodFabric.Engine.Dependency
import PodFabric.Persist.DurableState

/-!
# The pod controller

The controller owns the epoch, the incarnation, the recorded expectations, the authority tokens and
the operator's overrides. Each operation is a function from the controller and the durable state of
its store directory to their next values, given what the surroundings supply to the call (`Env`):
clock readings, a random value, and what the store reports. An operation that is refused part of the
way keeps the fields it has already assigned.
-/

namespace PodFabric

/-! ## Surroundings -/

/-- How a commit of the store ends. A failed commit may still have put the record on disk, and may
have failed after the store took the state over. -/
inductive CommitOutcome
  | committed
  | failed (status : Status) (onDisk inStore : Bool)
  deriving DecidableEq

/-- What the controller keeps of the store's report. -/
structure RecoveryReport where
  outcome : RecoveryOutcome := .fresh
  ambiguousCommit : Bool := false
  deriving DecidableEq, Inhabited

/-- What the surroundings supply to one call: the readings of the clock in the order they are made,
the store's own clock, a random value, and what opening, committing to and closing the store
report. -/
structure Env where
  clock : ℕ → Nanos
  system : Nanos := 1
  random : Result Uuid
  storeOpened : Result Unit := .ok ()
  recovery : RecoveryReport := {}
  commit : CommitOutcome := .committed
  storeClosed : Result Unit := .ok ()

/-! ## State -/

/-- What a controller is constructed with. -/
structure ControllerOptions where
  pod : PodId := .nil
  policy : Policy := {}
  durable : Bool := false
  requireAuthorityToken : Bool := false
  defaultLeaseDuration : Nanos := 120 * nanosPerSecond
  deriving DecidableEq

/-- The controller: what it keeps in memory, published and durable. -/
structure PodController where
  options : ControllerOptions
  store : Option DurableState := none
  isOpen : Bool := false
  incarnation : Incarnation := {}
  epoch : PodEpoch := {}
  lifecycle : LifecycleState := .constructing
  contextLifecycle : LifecycleState := .constructing
  state : PodState := {}
  expectations : List MemberExpectation := []
  tokens : List AuthorityToken := []
  revoked : List LeaseId := []
  fencing : FencingSequence := {}
  adminOverrides : OrderedMap RackId AdminState := .empty
  lastEvidence : PodSnapshot := {}
  haveLastEvidence : Bool := false
  index : DecisionIndex := {}
  recoveredRound : Bool := false
  ambiguousCommit : Bool := false
  durable : Bool := false
  fencedOnRestart : ℕ := 0
  recovery : RecoveryReport := {}
  deriving DecidableEq

/-- A newly constructed controller; its policy takes the token requirement of the options. -/
def PodController.new (options : ControllerOptions) : PodController where
  options := { options with
    policy := { options.policy with requireAuthorityToken := options.requireAuthorityToken } }

/-- The kinds of events. -/
inductive EventKind
  | recovered | applied | lifecycleChanged | epochAdvanced | authorityGranted | authorityFenced
  | adminStateChanged | retired
  deriving DecidableEq, Repr

/-- An event, as it is queued for the observers. -/
structure Event where
  kind : EventKind
  epoch : PodEpoch
  incarnation : Incarnation
  lifecycle : LifecycleState
  subject : Text
  detail : Text
  deriving DecidableEq

/-- What a call leaves behind: the controller, the state its store directory recovers to, the
result, and the events it publishes. -/
structure Reply (α : Type) where
  controller : PodController
  disk : DurableState
  result : Outcome α
  events : List Event := []

/-- A refusal that changes nothing. -/
def Reply.refuse {α : Type} (c : PodController) (disk : DurableState) (code : Code)
    (message : Text) : Reply α where
  controller := c
  disk := disk
  result := .error (.status ⟨code, message⟩)

/-! ## Committing -/

/-- A commit to the open store `held`, whose journal is whole: what it reports, the state the store
then holds, and what its directory recovers to. So every commit is on disk completely or not at all.
What becomes of the commits behind a torn record is the matter of `StoredWorld`, and
`session_refined` connects this to the bytes of the journal. -/
def commitTo (env : Env) (held disk next : DurableState) :
    Result Unit × DurableState × DurableState :=
  let written := next.stamped held env.system
  match env.commit with
  | .committed => (.ok (), written, written)
  | .failed status onDisk inStore =>
    (.error status, if inStore then written else held, if onDisk then written else disk)

namespace PodController
variable (c : PodController) (disk : DurableState) (env : Env)

/-- The durable state of the given values. -/
def durableState (composed : PodState) (expectations : List MemberExpectation)
    (tokens : List AuthorityToken) (revoked : List LeaseId) (writtenAt : Nanos) :
    DurableState where
  pod := c.options.pod
  epoch := composed.epoch
  writer := c.incarnation
  lifecycle := composed.lifecycle
  expectations := expectations
  tokens := tokens
  revoked := revoked
  admin := c.adminOverrides.entries
  fencing := c.fencing
  lastStateDigest := composed.stateDigest
  writtenAt := writtenAt

/-- Commits the given values, if there is a store (`persist_state`). A successful commit ends the
recovery round. -/
def persistState (composed : PodState) (expectations : List MemberExpectation)
    (tokens : List AuthorityToken) (revoked : List LeaseId) (writtenAt : Nanos) :
    PodController × DurableState × Result Unit :=
  match c.store with
  | none => (c, disk, .ok ())
  | some held =>
    match commitTo env held disk
      (c.durableState composed expectations tokens revoked writtenAt) with
    | (.ok (), held, disk) =>
      ({ c with store := some held, recoveredRound := false, ambiguousCommit := false }, disk,
        .ok ())
    | (.error status, held, disk) => ({ c with store := some held }, disk, .error status)

/-! ## Opening and closing -/

/-- An event of the controller, with its epoch, incarnation and lifecycle. -/
def event (kind : EventKind) (subject detail : Text) : Event where
  kind := kind
  epoch := c.epoch
  incarnation := c.incarnation
  lifecycle := c.lifecycle
  subject := subject
  detail := detail

/-- The fields that opening sets before it looks at the store. -/
def started (id : Uuid) : PodController :=
  { c with
    incarnation := ⟨id⟩
    state := { pod := c.options.pod, schema := podStateSchema, incarnation := ⟨id⟩ }
    lifecycle := .constructing
    epoch := ⟨0⟩
    recoveredRound := false
    ambiguousCommit := false
    durable := false }

/-- The fields that opening takes over from a recovered state. Tokens are dropped. -/
def recovering (recovered : DurableState) (report : RecoveryReport) : PodController :=
  { c with
    epoch := recovered.epoch
    lifecycle := recovered.lifecycle
    expectations := recovered.expectations
    tokens := []
    revoked := recovered.revoked
    fencing := recovered.fencing
    adminOverrides := .ofList recovered.admin
    recoveredRound := true
    ambiguousCommit := report.ambiguousCommit
    fencedOnRestart := recovered.tokens.length }

/-- The controller is open at the epoch and lifecycle it has arrived at. -/
def opened : Reply Unit :=
  let c := { c with
    state := { c.state with epoch := c.epoch, lifecycle := c.lifecycle }
    isOpen := true }
  { controller := c, disk, result := .ok ()
    events := [c.event .recovered []
      ((if c.durable then c.recovery.outcome.toText else text "memory-only") ++
        text " fenced-leases=" ++ decimal c.fencedOnRestart)] }

/-- Commits the restart itself to the store, whose state is `recovered`. -/
def commitRestart (recovered : DurableState) : Reply Unit :=
  let next := { recovered with
    writer := c.incarnation, tokens := [], epoch := c.epoch, lifecycle := c.lifecycle
    lastStateDigest := .zero }
  match commitTo env recovered disk next with
  | (.ok (), held, disk) => { c with store := some held }.opened disk
  | (.error status, held, disk) =>
    { controller := { c with store := some held }, disk, result := .error (.status status) }

/-- Takes over a recovered state and advances the epoch, unless the pod is retired. -/
def recover (recovered : DurableState) : Reply Unit :=
  let c := c.recovering recovered c.recovery
  if c.lifecycle = .retired then c.commitRestart disk env recovered
  else
    match c.epoch.next with
    | .error status => { controller := c, disk, result := .error (.status status) }
    | .ok bumped =>
      { c with epoch := bumped, lifecycle := .recovering }.commitRestart disk env recovered

/-- Opens the store, which recovers what the directory holds. -/
def openStore : Reply Unit :=
  let c := { c with recovery := env.recovery }
  match env.storeOpened with
  | .error status =>
    { controller := { c with store := none }, disk, result := .error (.status status) }
  | .ok () =>
    let c := { c with store := some disk, durable := true }
    if disk.pod = .nil then c.opened disk
    else if disk.pod ≠ c.options.pod then
      { controller := { c with store := none }, disk
        result := .error (.status
          ⟨.refused, "the store directory belongs to a different pod"⟩) }
    else c.recover disk env disk

/-- Opens the store (if any), recovers durable state, and mints a fresh incarnation. -/
def «open» : Reply Unit :=
  if c.isOpen then .refuse c disk .refused "the pod controller is already open"
  else if c.options.pod = .nil then
    .refuse c disk .invalid "the pod controller has no pod identity"
  else
    match c.options.policy.validate, env.random with
    | .error status, _ => { controller := c, disk, result := .error (.status status) }
    | .ok (), .error status => { controller := c, disk, result := .error (.status status) }
    | .ok (), .ok id =>
      if c.options.durable then (c.started id).openStore disk env
      else (c.started id).opened disk

/-- Closes the store and forgets the index. -/
def close : Reply Unit :=
  if ¬ c.isOpen then { controller := c, disk, result := .ok () }
  else
    let store := c.store
    let c := { c with isOpen := false, store := none }
    match store, env.storeClosed with
    | some _, .error status => { controller := c, disk, result := .error (.status status) }
    | _, _ => { controller := { c with index := {} }, disk, result := .ok () }

/-! ## Applying evidence -/

/-- The evidence with the operator's overrides laid over it. -/
def effectiveSnapshot (overrides : OrderedMap RackId AdminState) (evidence : PodSnapshot) :
    PodSnapshot :=
  { evidence with
    members := evidence.members.map fun member =>
      { member with admin := (overrides.find? member.rack).getD member.admin } }

/-- The request of a round. -/
def request (evidence : PodSnapshot) : CompositionRequest where
  snapshot := effectiveSnapshot c.adminOverrides evidence
  policy := c.options.policy
  context := {
    epoch := c.epoch
    incarnation := c.incarnation
    expectations := c.expectations
    grantedTokens := c.tokens
    revokedTokens := c.revoked
    now := env.clock 0
    recoveredFromStore := c.recoveredRound
    ambiguousCommit := c.ambiguousCommit
    lifecycle := c.lifecycle }

/-- The expectation that a verdict leaves behind, if any. -/
def derivedExpectation (previous : List MemberExpectation) (verdict : MemberVerdict) :
    Option MemberExpectation :=
  if verdict.status = .retiring then none
  else if verdict.status = .established then
    some ⟨verdict.rack, verdict.generation, verdict.digest, .established⟩
  else previous.findRev? fun expectation => expectation.rack = verdict.rack

/-- The expectations after a round (`derive_expectations`). -/
def deriveExpectations (composed : PodState) (previous : List MemberExpectation) :
    List MemberExpectation :=
  sorted (composed.members.filterMap (derivedExpectation previous))

/-- The tokens with the verdicts on them after a round, each at its own reading of the clock. -/
def tokenVerdicts (composed : PodState) : List (AuthorityToken × AuthorityVerdict) :=
  c.tokens.mapIdx fun i token => (token, validateToken token {
    pod := c.options.pod
    epoch := composed.epoch
    incarnation := c.incarnation
    now := env.clock (i + 1)
    clockSkew := c.options.policy.clockSkew
    revoked := c.revoked })

/-- The tokens that survive a round. -/
def survivingTokens (composed : PodState) : List AuthorityToken :=
  ((c.tokenVerdicts env composed).filter fun p => p.2.valid).map Prod.fst

/-- The events of the tokens that do not. -/
def fencedEvents (composed : PodState) : List Event :=
  ((c.tokenVerdicts env composed).filter fun p => ¬ p.2.valid).map fun p =>
    { kind := .authorityFenced, epoch := composed.epoch, incarnation := c.incarnation
      lifecycle := composed.lifecycle, subject := p.1.lease.token, detail := p.2.detail }

/-- The keys that moved between the last round and this one. -/
def changedKeys (request : CompositionRequest) (composed : PodState)
    (derived : List MemberExpectation) (surviving : List AuthorityToken) : List DepKey :=
  membershipChangeKeys c.expectations derived ++
    (if c.haveLastEvidence then snapshotChangeKeys c.lastEvidence request.snapshot else []) ++
    tokenChangeKeys c.tokens c.revoked surviving c.revoked ++
    (if c.epoch ≠ composed.epoch then [⟨.epoch, decimal c.epoch.value.toNat⟩] else []) ++
    (if c.contextLifecycle ≠ c.lifecycle then
      [⟨.lifecycle, c.contextLifecycle.toText⟩] else [])

/-- How an application of evidence ends. -/
inductive ApplyOutcome
  | unchanged | applied | epochAdvanced | recovered | retired
  deriving DecidableEq, Repr

/-- The name of an outcome (`to_string`). -/
def ApplyOutcome.toText : ApplyOutcome → Text
  | unchanged => "UNCHANGED"
  | applied => "APPLIED"
  | epochAdvanced => "EPOCH_ADVANCED"
  | recovered => "RECOVERED"
  | retired => "RETIRED"

/-- What an application of evidence reports. -/
structure ApplyReport where
  outcome : ApplyOutcome
  state : PodState
  revalidation : RevalidationReport
  previousLifecycle : LifecycleState
  previousEpoch : PodEpoch
  previousDigest : Digest
  detail : Text
  deriving DecidableEq

/-- The outcome of a round that composed `composed`. -/
def applyOutcome (composed : PodState) : ApplyOutcome :=
  if c.recoveredRound then .recovered
  else if c.lifecycle = .retired then .retired
  else if c.epoch ≠ composed.epoch then .epochAdvanced
  else if c.state.stateDigest = composed.stateDigest ∧ c.lifecycle = composed.lifecycle then
    .unchanged
  else .applied

/-- The report of a round. -/
def applyReport (request : CompositionRequest) (composed : PodState)
    (derived : List MemberExpectation) (surviving : List AuthorityToken) : ApplyReport :=
  let revalidation := revalidate c.index composed
    (c.changedKeys request composed derived surviving)
  { outcome := c.applyOutcome composed
    state := composed
    revalidation
    previousLifecycle := c.lifecycle
    previousEpoch := c.epoch
    previousDigest := c.state.stateDigest
    detail := revalidation.describe }

/-- The controller after a round. -/
def published (request : CompositionRequest) (composed : PodState)
    (derived : List MemberExpectation) (surviving : List AuthorityToken) : PodController :=
  { c with
    state := composed
    epoch := composed.epoch
    lifecycle := composed.lifecycle
    expectations := derived
    tokens := surviving
    lastEvidence := request.snapshot
    haveLastEvidence := true
    contextLifecycle := request.context.lifecycle
    recoveredRound := false
    ambiguousCommit := false
    index := .ofDecisions composed.decisions }

/-- The events of a round. -/
def appliedEvents (composed : PodState) (outcome : ApplyOutcome) : List Event :=
  let make (kind : EventKind) (detail : Text) : Event :=
    { kind, epoch := composed.epoch, incarnation := c.incarnation
      lifecycle := composed.lifecycle, subject := [], detail }
  (if c.recoveredRound then [make .recovered c.recovery.outcome.toText] else []) ++
  (if c.epoch ≠ composed.epoch then
    [make .epochAdvanced (text "epoch " ++ decimal c.epoch.value.toNat ++ text " -> " ++
      decimal composed.epoch.value.toNat)] else []) ++
  (if c.lifecycle ≠ composed.lifecycle then
    [make .lifecycleChanged (c.lifecycle.toText ++ text " -> " ++
      composed.lifecycle.toText)] else []) ++
  [make .applied outcome.toText]

/-- Applies one round of evidence (`apply`). -/
def apply (evidence : PodSnapshot) : Reply ApplyReport :=
  if ¬ c.isOpen then .refuse c disk .invalid "the pod controller is not open"
  else
    let request := c.request env evidence
    match compose request with
    | .error fault => { controller := c, disk, result := .error fault }
    | .ok composed =>
      let derived := deriveExpectations composed c.expectations
      let surviving := c.survivingTokens env composed
      let fenced := c.fencedEvents env composed
      match c.persistState disk env composed derived surviving c.revoked
        (env.clock (c.tokens.length + 1)) with
      | (c', disk, .error status) =>
        { controller := c', disk, result := .error (.status status), events := fenced }
      | (c', disk, .ok ()) =>
        let report := c.applyReport request composed derived surviving
        { controller := c'.published request composed derived surviving
          disk, result := .ok report
          events := fenced ++ c.appliedEvents composed report.outcome }

/-! ## Operator intent -/

/-- The change of an override takes effect: the last evidence is composed again, or the state is
committed as it is. `c` has the overrides changed already. -/
def recompose (rack : RackId) (detail : Text) : Reply Unit :=
  let finish (c : PodController) (disk : DurableState) (events : List Event) : Reply Unit :=
    { controller := c, disk, result := .ok ()
      events := events ++ [c.event .adminStateChanged rack.token detail] }
  if c.haveLastEvidence then
    let reply := c.apply disk env c.lastEvidence
    match reply.result with
    | .error fault => { controller := reply.controller, disk := reply.disk, result := .error fault }
    | .ok _ => finish reply.controller reply.disk reply.events
  else
    match c.persistState disk env c.state c.expectations c.tokens c.revoked (env.clock 0) with
    | (c, disk, .error status) =>
      { controller := c, disk, result := .error (.status status) }
    | (c, disk, .ok ()) => finish c disk []

/-- Puts a rack in an administrative state. -/
def setAdminState (rack : RackId) (state : AdminState) : Reply Unit :=
  if ¬ c.isOpen then .refuse c disk .invalid "the pod controller is not open"
  else if rack = .nil then .refuse c disk .invalid "the admin-state request names no rack"
  else if c.lifecycle = .retired then .refuse c disk .refused "the pod is retired"
  else { c with adminOverrides := c.adminOverrides.insert rack state }.recompose disk env rack
    state.toText

/-- Takes the override of a rack away. -/
def clearAdminState (rack : RackId) : Reply Unit :=
  if ¬ c.isOpen then .refuse c disk .invalid "the pod controller is not open"
  else if c.lifecycle = .retired then .refuse c disk .refused "the pod is retired"
  else { c with adminOverrides := c.adminOverrides.erase rack }.recompose disk env rack "enabled"

/-- The controller of a pod that is being retired: every token is revoked. -/
def retiring : PodController :=
  { c with
    lifecycle := .retired
    state := { c.state with
      lifecycle := .retired
      authority := { c.state.authority with
        status := .refused
        reasons := c.state.authority.reasons ++ [⟨.memberRetiring, "the pod is retired"⟩] } }
    revoked := c.revoked ++ c.tokens.map AuthorityToken.lease
    tokens := [] }

/-- Retires the pod. Terminal. -/
def retire : Reply Unit :=
  if ¬ c.isOpen then .refuse c disk .invalid "the pod controller is not open"
  else if c.lifecycle = .retired then .refuse c disk .refused "the pod is already retired"
  else
    let c := c.retiring
    match c.persistState disk env c.state c.expectations c.tokens c.revoked (env.clock 0) with
    | (c, disk, .error status) =>
      { controller := c, disk, result := .error (.status status) }
    | (c, disk, .ok ()) =>
      { controller := c, disk, result := .ok ()
        events := [c.event .retired []
          "the pod is retired and will not become authoritative again"] }

/-! ## Authority -/

/-- The lease of a random value (`make_lease_id`). -/
def makeLeaseId (id : Uuid) : LeaseId :=
  match BasicId.parse (text "lease-" ++ id.toText) with
  | .ok lease => lease
  | .error _ => ⟨"lease-invalid", .inr (by decide +kernel)⟩

/-- Addition of times that reports an overflow (`checked_add`). -/
def checkedAddNanos (a b : Nanos) : Result Nanos :=
  if 2 ^ 63 - 1 < a.toInt + b.toInt then fail .invalid "checked_add: signed overflow"
  else if a.toInt + b.toInt < -2 ^ 63 then fail .invalid "checked_add: signed underflow"
  else .ok (a + b)

/-- What the payload digest of a token covers. -/
def tokenMaterial (scope : AuthorityScope) (subject : RackId) (lease : LeaseId) : Text :=
  text "podfabric.authority/1|" ++ c.options.pod.token ++ text "|" ++
    decimal c.epoch.value.toNat ++ text "|" ++ scope.toText ++ text "|" ++ subject.token ++
    text "|" ++ lease.token

/-- The token that is minted at a fencing value. -/
def mintedToken (id : Uuid) (scope : AuthorityScope) (subject : RackId) (issuedAt expiresAt : Nanos)
    (fencing : FencingSequence) : AuthorityToken where
  lease := makeLeaseId id
  pod := c.options.pod
  epoch := c.epoch
  incarnation := c.incarnation
  scope := scope
  subject := subject
  issuedAt := issuedAt
  expiresAt := expiresAt
  fencing := fencing
  payloadDigest := .of (c.tokenMaterial scope subject (makeLeaseId id))

/-- The end of a lease that begins now. -/
def leaseEnd (lifetime : Nanos) : Result Nanos :=
  checkedAddNanos (env.clock 0)
    (if 0 < lifetime then lifetime else c.options.defaultLeaseDuration)

/-- Grants a minted token once it is committed. `c` has the fencing value taken already. -/
def grant (token : AuthorityToken) : Reply AuthorityToken :=
  match c.persistState disk env c.state c.expectations (c.tokens ++ [token]) c.revoked
    (env.clock 1) with
  | (c, disk, .error status) => { controller := c, disk, result := .error (.status status) }
  | (c, disk, .ok ()) =>
    { controller := { c with tokens := c.tokens ++ [token] }, disk, result := .ok token
      events := [c.event .authorityGranted token.lease.token token.scope.toText] }

/-- Mints a token of the current epoch and incarnation. -/
def mintAuthority (scope : AuthorityScope) (subject : RackId) (lifetime : Nanos) :
    Reply AuthorityToken :=
  if ¬ c.isOpen then .refuse c disk .invalid "the pod controller is not open"
  else
    match env.random with
    | .error status => { controller := c, disk, result := .error (.status status) }
    | .ok id =>
      match c.leaseEnd env lifetime with
      | .error status => { controller := c, disk, result := .error (.status status) }
      | .ok expiresAt =>
        if c.lifecycle = .retired then
          .refuse c disk .refused "the pod is retired and mints no authority"
        else
          match c.fencing.next with
          | .error status => { controller := c, disk, result := .error (.status status) }
          | .ok fencing =>
            { c with fencing }.grant disk env
              (c.mintedToken id scope subject (env.clock 0) expiresAt fencing)

/-- Revokes a lease. -/
def revokeAuthority (lease : LeaseId) : Reply Unit :=
  if ¬ c.isOpen then .refuse c disk .invalid "the pod controller is not open"
  else if lease = .nil then .refuse c disk .invalid "the revocation names no lease"
  else if lease ∈ c.revoked then
    .refuse c disk .alreadyExists "the lease is already revoked"
  else
    let next := c.tokens.filter fun token => token.lease ≠ lease
    let c := { c with revoked := c.revoked ++ [lease] }
    match c.persistState disk env c.state c.expectations next c.revoked (env.clock 0) with
    | (c, disk, .error status) => { controller := c, disk, result := .error (.status status) }
    | (c, disk, .ok ()) =>
      { controller := { c with tokens := next }, disk, result := .ok ()
        events := [c.event .authorityFenced lease.token "revoked"] }

/-- The verdict on a token that a client presents. -/
def checkAuthority (now : Nanos) (token : AuthorityToken) (scope : AuthorityScope)
    (subject : RackId) : AuthorityVerdict :=
  let verdict := validateToken token {
    pod := c.options.pod
    epoch := c.epoch
    incarnation := c.incarnation
    now
    clockSkew := c.options.policy.clockSkew
    revoked := c.revoked
    required := scope
    enforceScope := true }
  if ¬ verdict.valid then verdict
  else if subject ≠ .nil ∧ token.scope ≠ .pod ∧ token.subject ≠ subject then
    ⟨.wrongScope, .refused, "token subject does not match the requested subject"⟩
  else verdict

end PodController

end PodFabric
