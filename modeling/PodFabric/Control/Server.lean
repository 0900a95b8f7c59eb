import PodFabric.Control.Run
import PodFabric.Codec.StateText
import PodFabric.Lib.Program

/-!
# Requests to a server

A server answers the requests of its clients, each on a thread of its own. It assembles a response
from several calls of the controller; each call is atomic, and the threads take turns between them.
-/

namespace PodFabric

/-- What a request asks for. -/
inductive MessageKind
  | hello | status | describe | apply | mint | revoke | checkAuthority | setAdmin | retire | shutdown
  | ping | erase
  deriving DecidableEq, Repr

/-- The name of a kind of request (`to_string`). -/
def MessageKind.toText : MessageKind → Text
  | hello => "hello"
  | status => "status"
  | describe => "describe"
  | apply => "apply"
  | mint => "mint"
  | revoke => "revoke"
  | checkAuthority => "check-authority"
  | setAdmin => "set-admin"
  | retire => "retire"
  | shutdown => "shutdown"
  | ping => "ping"
  | erase => "erase"

/-- A request, decoded. -/
@[ext] structure Request where
  kind : MessageKind := .status
  snapshot : PodSnapshot := {}
  rack : RackId := .nil
  admin : AdminState := .enabled
  clearAdmin : Bool := false
  scope : AuthorityScope := .pod
  lifetime : Nanos := 0
  token : AuthorityToken := {}
  lease : LeaseId := .nil
  nonce : UInt64 := 0

/-- A response. -/
@[ext] structure Response where
  code : Code := .ok
  message : Text := []
  epoch : PodEpoch := {}
  incarnation : Incarnation := {}
  lifecycle : LifecycleState := .constructing
  stateDigest : Digest := .zero
  outcome : PodController.ApplyOutcome := .unchanged
  revalidationSound : Bool := true
  revalidation : Text := []
  text : Text := []
  textTruncated : Bool := false
  recovery : RecoveryOutcome := .fresh
  ambiguousCommit : Bool := false
  establishedMembers : UInt32 := 0
  fencedMembers : UInt32 := 0
  staleMembers : UInt32 := 0
  conflictingMembers : UInt32 := 0
  token : AuthorityToken := {}
  verdict : AuthorityVerdictCode := .noToken
  verdictDetail : Text := []
  nonce : UInt64 := 0
  deriving DecidableEq

/-- The text of a state, cut and marked as such when it is over the bound (`bounded_text`). -/
def boundedText (t : Text) (maxBytes : ℕ) : Text × Bool :=
  if t.length ≤ maxBytes then (t, false)
  else (t.take maxBytes ++ text "\ntruncated true\nend\n", true)

/-- What a server is configured with. -/
structure ServerOptions where
  maxTextBytes : ℕ := 512 * 1024

/-! ## Handling a request -/

/-- What a thread of the server does: calls of the controller, each in surroundings of its own. -/
abbrev Handling : Type → Type := Program Env World

namespace Handling

/-- A call that only reads. -/
def read {α : Type} (f : PodController → α) : Handling α := .call fun _ w => (w, f w.controller)

/-- An operation of the controller. -/
def operate {α : Type} (f : PodController → DurableState → Env → Reply α) :
    Handling (Outcome α) :=
  .call fun env w =>
    let reply := f w.controller w.disk env
    (⟨reply.controller, reply.disk⟩, reply.result)

end Handling

/-- The published state as text. -/
def PodController.describe (c : PodController) : Text := c.state.toText true

/-- The fields that tell of a state. -/
def Response.withState (response : Response) (state : PodState) : Response :=
  { response with
    epoch := state.epoch
    lifecycle := state.lifecycle
    stateDigest := state.stateDigest }

/-- The response with the numbers of members the authority counts. -/
def Response.withMembers (response : Response) (authority : PodAuthority) : Response :=
  { response with
    establishedMembers := authority.establishedMembers
    fencedMembers := authority.fencedMembers
    staleMembers := authority.staleMembers
    conflictingMembers := authority.conflictingMembers }

/-- The response with a described state, cut to the server's bound. -/
def Response.withText (response : Response) (options : ServerOptions) (described : Text) : Response :=
  { response with
    text := (boundedText described options.maxTextBytes).1
    textTruncated := (boundedText described options.maxTextBytes).2 }

/-- The answer to a failed operation. What is not a status ends the request. -/
def Response.failed (response : Response) : Fault → Outcome Response
  | .status status => .ok { response with code := status.code, message := status.message }
  | fault => .error fault

/-- The answer to an administrative change. -/
def adminChanged (options : ServerOptions) (response : Response) :
    Outcome Unit → Handling (Outcome Response)
  | .error fault => return response.failed fault
  | .ok () => do
    let updated ← .read (·.state)
    let described ← .read (·.describe)
    return .ok ({ response with message := "ok" }.withState updated |>.withText options described)

/-- How a request is answered once `response` tells of the state it found. -/
def handleKind (options : ServerOptions) (request : Request) (response : Response) :
    Handling (Outcome Response) :=
  match request.kind with
  | .hello | .ping | .status | .describe =>
    return .ok { response with message := request.kind.toText }
  | .apply => do
    match ← .operate (·.apply · · request.snapshot) with
    | .error fault => return response.failed fault
    | .ok report =>
      let described ← .read (·.describe)
      return .ok ({ response with
        message := report.outcome.toText
        outcome := report.outcome
        revalidation := report.detail
        revalidationSound := report.revalidation.sound }.withState report.state
          |>.withMembers report.state.authority |>.withText options described)
  | .mint => do
    match ← .operate (·.mintAuthority · · request.scope request.rack request.lifetime) with
    | .error fault => return response.failed fault
    | .ok token =>
      return .ok { response with message := "granted", token, epoch := token.epoch }
  | .revoke => do
    match ← .operate (·.revokeAuthority · · request.lease) with
    | .error fault => return response.failed fault
    | .ok () => return .ok { response with message := "revoked" }
  | .checkAuthority => do
    let verdict ← .call fun env w =>
      (w, w.controller.checkAuthority (env.clock 0) request.token request.scope request.rack)
    return .ok { response with
      code := verdict.status
      message := verdict.detail
      verdict := verdict.code
      verdictDetail := verdict.detail }
  | .setAdmin => do
    let changed ← if request.clearAdmin then .operate (·.clearAdminState · · request.rack)
      else .operate (·.setAdminState · · request.rack request.admin)
    adminChanged options response changed
  | .retire => do
    let retired ← .operate (·.retire)
    let lifecycle ← .read (·.lifecycle)
    match retired with
    | .error fault => return { response with lifecycle }.failed fault
    | .ok () => return .ok { response with lifecycle, message := "retired" }
  | .erase =>
    return .ok { response with
      code := .unsupported
      message := "the store is not erasable over the protocol" }
  | .shutdown => return .ok { response with message := "stopping" }

/-- How a server answers a request (`PodServer::handle`). -/
def handle (options : ServerOptions) (request : Request) : Handling (Outcome Response) := do
  let current ← .read (·.state)
  let recovery ← .read (·.recovery.outcome)
  let ambiguousCommit ← .read (·.ambiguousCommit)
  let described ← .read (·.describe)
  handleKind options request ({ ({} : Response) with
    incarnation := current.incarnation
    recovery
    ambiguousCommit }.withState current |>.withMembers current.authority
      |>.withText options described)

/-! ## The server -/

/-- A controller and the requests that threads of the server handle. -/
abbrev Server := Pool Request Env World (Outcome Response)

namespace Server

/-- A turn of the server: a thread of it makes its next access to the controller. -/
def next (options : ServerOptions) : Server → Turn Request Env → Server :=
  Pool.next (handle options)

/-- The server after some turns of its threads. -/
abbrev run (options : ServerOptions) (s : Server) (turns : List (Turn Request Env)) : Server :=
  Run.final (next options) s turns

/-- The turns of a run of the server, each with the server it meets. -/
abbrev trace (options : ServerOptions) (s : Server) (turns : List (Turn Request Env)) :
    List (Server × Turn Request Env) :=
  Run.trace (next options) s turns

/-- A server over a controller, with no request yet. -/
def start (w : World) : Server := { shared := w }

end Server

end PodFabric
