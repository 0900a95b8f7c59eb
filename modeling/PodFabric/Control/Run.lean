import PodFabric.Control.Controller
import PodFabric.Lib.Run

/-!
# Runs of a controller

A world is a controller with the directory of its store. The calls a client makes on the controller,
and its replacement by a new one over the same directory, lead from one world to the next.
-/

namespace PodFabric

/-- The controller and what its directory recovers to. -/
structure World where
  controller : PodController
  disk : DurableState

/-- What is asked of a controller. `restart` stands for the end of the process: a new controller is
constructed with the same options. -/
inductive Op
  | «open» | close | restart
  | apply (evidence : PodSnapshot)
  | setAdminState (rack : RackId) (state : AdminState)
  | clearAdminState (rack : RackId)
  | retire
  | mintAuthority (scope : AuthorityScope) (subject : RackId) (lifetime : Nanos)
  | revokeAuthority (lease : LeaseId)

/-- What is asked of the controller, and what the machine answers it meanwhile. -/
structure Call where
  op : Op
  env : Env

/-- How a call ends. -/
inductive Answer
  | done
  | applied (report : PodController.ApplyReport)
  | granted (token : AuthorityToken)
  | failed (fault : Fault)
  deriving DecidableEq

/-- The call succeeds. -/
def Answer.ok : Answer → Bool
  | failed _ => false
  | _ => true

/-- A reply as a step: the next world, and the answer. -/
def Reply.step {α : Type} (answer : α → Answer) (reply : Reply α) : World × Answer :=
  (⟨reply.controller, reply.disk⟩,
    match reply.result with
    | .ok value => answer value
    | .error fault => .failed fault)

namespace World

/-- One call on the controller of a world. -/
def perform (w : World) (call : Call) : World × Answer :=
  let ⟨c, disk⟩ := w
  match call.op with
  | .«open» => (c.«open» disk call.env).step fun _ => .done
  | .close => (c.close disk call.env).step fun _ => .done
  | .restart => (⟨.new c.options, disk⟩, .done)
  | .apply evidence => (c.apply disk call.env evidence).step .applied
  | .setAdminState rack state => (c.setAdminState disk call.env rack state).step fun _ => .done
  | .clearAdminState rack => (c.clearAdminState disk call.env rack).step fun _ => .done
  | .retire => (c.retire disk call.env).step fun _ => .done
  | .mintAuthority scope subject lifetime =>
    (c.mintAuthority disk call.env scope subject lifetime).step .granted
  | .revokeAuthority lease => (c.revokeAuthority disk call.env lease).step fun _ => .done

/-- The world after a call. -/
def next (w : World) (call : Call) : World := (w.perform call).1

/-- How a call of the world ends. -/
def answer (w : World) (call : Call) : Answer := (w.perform call).2

/-- The world after some calls. -/
abbrev run (w : World) (calls : List Call) : World := Run.final next w calls

/-- The calls with the worlds they are made in. -/
abbrev trace (w : World) (calls : List Call) : List (World × Call) := Run.trace next w calls

/-- A new controller over a directory. -/
def start (options : ControllerOptions) (disk : DurableState) : World := ⟨.new options, disk⟩

end World

end PodFabric
