import PodFabric.Control.Run

/-!
# Runs over a journal that may be torn

A write to the journal that comes short fails the call and leaves the first bytes of a record
behind. The session goes on. What it commits then lies behind the torn record, and the next `open`
cuts it off together with the record, although it was acknowledged; only a compaction, which moves
the state to the checkpoint and begins the journal anew, ends this before. A stored world is a world
that knows whether its journal is torn.
-/

namespace PodFabric

/-- A world, and whether an earlier write left a part of a record at the end of its journal. -/
structure StoredWorld where
  world : World
  torn : Bool := false

/-- A call, and what it does to the journal. If the call fails, `tears` tells whether one of its
writes came short. `anew` tells that the journal is begun anew, by a compaction that replaces the
checkpoint, or by an `open` that cuts off a torn tail and fails later. -/
structure StoredCall where
  call : Call
  tears : Bool := false
  anew : Bool := false

namespace StoredWorld

/-- What the call commits is not behind a torn record. -/
def keeps (s : StoredWorld) (x : StoredCall) : Bool := !s.torn || x.anew

/-- The answer to a call. -/
def answer (s : StoredWorld) (x : StoredCall) : Answer := s.world.answer x.call

/-- The journal after a call. An `open` that goes through has repaired it. -/
def tornAfter (s : StoredWorld) (x : StoredCall) : Bool :=
  match x.call.op, (s.answer x).ok with
  | .«open», true => false
  | _, ok => s.torn && !x.anew || x.tears && !ok

/-- What the directory recovers to after a call. An `open` repairs the journal before it commits;
what any other call commits behind a torn record is cut off. -/
def diskAfter (s : StoredWorld) (x : StoredCall) : DurableState :=
  match x.call.op, s.keeps x with
  | .«open», _ | _, true => (s.world.next x.call).disk
  | _, false => s.world.disk

/-- One call. -/
def next (s : StoredWorld) (x : StoredCall) : StoredWorld where
  world := { s.world.next x.call with disk := s.diskAfter x }
  torn := s.tornAfter x

/-- The stored world after some calls. -/
abbrev run (s : StoredWorld) (calls : List StoredCall) : StoredWorld := Run.final next s calls

/-- The calls with the stored worlds they are made in. -/
abbrev trace (s : StoredWorld) (calls : List StoredCall) : List (StoredWorld × StoredCall) :=
  Run.trace next s calls

/-- A new controller over a directory. -/
def start (options : ControllerOptions) (disk : DurableState) (torn : Bool) : StoredWorld :=
  ⟨.start options disk, torn⟩

end StoredWorld

end PodFabric
