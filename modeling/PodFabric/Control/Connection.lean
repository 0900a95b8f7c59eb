import PodFabric.Control.Protocol
import PodFabric.Transport.Socket

/-!
# Connections

A server reads the frames of each connection one by one and answers them in turn, until the peer
closes, sends what is no frame, or the server stops. A client sends a request and reads the answer.
The threads of the server take turns between the steps of their connections; a request is handled by
calls of the controller (`handle`), each of which is a step of its own.
-/

namespace PodFabric

open Transport

/-! ## The server -/

/-- What came of a frame: the calls made to answer it, and the answer, unless the connection was
dropped instead. -/
structure Exchange where
  frame : Transport.Frame
  reads : List (Env × World) := []
  reply : Option Transport.Frame := none

/-- Where a thread is that serves a connection. -/
inductive Serving
  /-- it is about to look at `stopping_` -/
  | looping
  | reading
  /-- it handles the request of a frame, for which it has made these calls -/
  | handling (frame : Transport.Frame) (request : Request) (reads : List (Env × World))
      (rest : Handling (Outcome Response))
  /-- it has answered a request for the shutdown, and is about to set `stopping_` -/
  | setting
  | closed
  /-- handling a request has ended without a status -/
  | lost (fault : Fault)

/-- A connection that is served. What its peer sends in all and what came of the frames read only
record what has happened. -/
structure Connection where
  socket : Socket
  serving : Serving := .looping
  arrived : Incoming
  exchanges : List Exchange := []

/-- What the connections of a server share. The counters are those of the frames read and of the
violations of the protocol. -/
structure ServerState where
  world : World
  stopping : Bool := false
  requests : UInt64 := 0
  protocolErrors : UInt64 := 0

/-- Counts a request that breaks the protocol. -/
def ServerState.protocolError (s : ServerState) : ServerState :=
  { s with protocolErrors := s.protocolErrors + 1 }

/-- The answer to a request that cannot be decoded. -/
def errorResponse (status : Status) : Response := { code := status.code, message := status.message }

namespace Connection

/-- A connection that has been accepted. -/
def accepted (incoming : Incoming) : Connection where
  socket := { incoming }
  arrived := incoming

/-- The connection is done with a frame. -/
def finish (c : Connection) (exchange : Exchange) (serving : Serving) : Connection :=
  { c with serving, exchanges := c.exchanges ++ [exchange] }

/-- Sends the answer to a frame and goes on. A connection that fails is dropped. -/
def reply (c : Connection) (frame : Transport.Frame) (reads : List (Env × World))
    (answer : Transport.Frame) (failure : SendFailure) (serving : Serving) : Connection :=
  match (writeFrame answer failure).on c.socket with
  | (.error _, socket) => { c with socket }.finish { frame, reads } .closed
  | (.ok (), socket) => { c with socket }.finish { frame, reads, reply := answer } serving

/-- Sends a response. One that cannot be encoded drops the connection. -/
def respond (c : Connection) (frame : Transport.Frame) (reads : List (Env × World))
    (response : Response) (failure : SendFailure) (serving : Serving) : Connection :=
  match response.encode with
  | .error _ => c.finish { frame, reads } .closed
  | .ok body =>
    c.reply frame reads { type := .response, correlation := frame.correlation, payload := body }
      failure serving

/-- A frame that was read is a ping, a request or a violation of the protocol. -/
def take (options : ServerOptions) (failure : SendFailure) (s : ServerState) (c : Connection)
    (frame : Transport.Frame) : ServerState × Connection :=
  match frame.type with
  | .ping =>
    (s, c.reply frame [] { type := .pong, correlation := frame.correlation } failure .looping)
  | .request =>
    match Request.decode frame.payload with
    | .error status =>
      (s.protocolError, c.respond frame [] (errorResponse status) failure .looping)
    | .ok request => (s, { c with serving := .handling frame request [] (handle options request) })
  | _ => (s.protocolError, c.finish { frame } .closed)

/-- What does not read as a frame is a violation of the protocol, unless the peer has closed or a
call has failed. It is answered with an error, and the connection is dropped. -/
def reject (failure : SendFailure) (s : ServerState) (c : Connection) (status : Status) :
    ServerState × Connection :=
  if status.code ∈ [Code.corrupt, .exhausted, .invalid, .unsupported] then
    let error : Transport.Frame := { type := .error, payload := status.toText }
    (s.protocolError,
      { c with socket := ((writeFrame error failure).on c.socket).2, serving := .closed })
  else (s, { c with serving := .closed })

/-- The next step of the thread that serves a connection (`PodServer::serve`). -/
def serve (options : ServerOptions) (env : Env) (failure : SendFailure) (s : ServerState)
    (c : Connection) : ServerState × Connection :=
  match c.serving with
  | .looping => (s, { c with serving := if s.stopping then .closed else .reading })
  | .reading =>
    match (readFrame frameMaxPayload).on c.socket with
    | (.error status, socket) => reject failure s { c with socket } status
    | (.ok frame, socket) =>
      take options failure { s with requests := s.requests + 1 } { c with socket } frame
  | .handling frame request reads (.access effect next) =>
    ({ s with world := effect env s.world },
      { c with serving :=
        .handling frame request (reads ++ [(env, s.world)]) (next env s.world) })
  | .handling frame _ reads (.done (.error fault)) => (s, c.finish { frame, reads } (.lost fault))
  | .handling frame request reads (.done (.ok response)) =>
    (s, c.respond frame reads { response with nonce := request.nonce } failure
      (if request.kind = .shutdown then .setting else .looping))
  | .setting => ({ s with stopping := true }, { c with serving := .closed })
  | .closed | .lost _ => (s, c)

end Connection

/-- A server with the connections that it has accepted. -/
structure PodServer where
  state : ServerState
  connections : List Connection := []

namespace PodServer

/-- What happens next: a thread begins to serve a connection, the thread that serves a connection
takes a step, or the server is told to stop. -/
inductive Step
  | accept (incoming : Incoming)
  | serve (connection : ℕ) (env : Env) (failure : SendFailure)
  | stop

/-- A step: a client connects, or a thread that serves a connection makes its next move. -/
def next (options : ServerOptions) (s : PodServer) : Step → PodServer
  | .accept incoming => { s with connections := s.connections ++ [.accepted incoming] }
  | .serve i env failure =>
    match s.connections[i]? with
    | none => s
    | some c =>
      let (state, c) := c.serve options env failure s.state
      { state, connections := s.connections.set i c }
  | .stop => { s with state := { s.state with stopping := true } }

/-- A server that has been started over a controller. -/
def start (w : World) : PodServer := { state := { world := w } }

/-- The server after some steps of its threads. -/
abbrev run (options : ServerOptions) (w : World) (steps : List Step) : PodServer :=
  Run.final (next options) (start w) steps

/-- The steps of a run with the states they are taken in. -/
abbrev trace (options : ServerOptions) (w : World) (steps : List Step) : List (PodServer × Step) :=
  Run.trace (next options) (start w) steps

end PodServer

/-! ## The client -/

/-- A client of a server. -/
structure PodClient where
  socket : Socket
  connected : Bool := true
  maxPayload : ℕ := frameMaxPayload
  correlation : UInt64 := 0

namespace PodClient

/-- What a frame of the server means to the client. -/
def understand (incoming : Transport.Frame) : Result Response :=
  match incoming.type with
  | .error => fail .corrupt (text "the server rejected the frame: " ++ incoming.payload)
  | .response => Response.decode incoming.payload
  | _ => fail .invalid "the server sent an unexpected frame type"

/-- Sends a request and reads the answer. -/
def call (client : PodClient) (request : Request) (failure : SendFailure) :
    Result Response × PodClient :=
  if client.connected = false then (fail .invalid "the client is not connected", client) else
  match request.encode with
  | .error status => (.error status, client)
  | .ok payload =>
    let client := { client with correlation := client.correlation + 1 }
    let outgoing : Transport.Frame :=
      { type := .request, correlation := client.correlation, payload }
    match (do writeFrame outgoing failure
              readFrame client.maxPayload : Transfer Transport.Frame).on
        client.socket with
    | (.error status, socket) => (.error status, { client with socket })
    | (.ok incoming, socket) => (understand incoming, { client with socket })

/-- Closes the client's end (`close`). -/
def close (client : PodClient) : PodClient := { client with connected := false }

/-- A client that has just connected. -/
def connect (incoming : Incoming) : PodClient where
  socket := { incoming }

/-- Some calls one after the other, each with the failure of its send, and what they come to. -/
def calls (client : PodClient) : List (Request × SendFailure) → List (Result Response) × PodClient
  | [] => ([], client)
  | (request, failure) :: rest =>
    let (result, client) := client.call request failure
    let (results, client) := client.calls rest
    (result :: results, client)

end PodClient

end PodFabric
