import PodFabric.Control.Connection
import PodFabric.Proof.FrameStream

/-!
# What a server answers

Each connection of a server reads the frames its peer sends one by one, and answers them in this
order, with the correlation of each and the response that its own calls of the controller come to.
This is what `Served` says of a connection; every step of the thread that serves it keeps the
invariant behind it (`serve_faithful`).
-/

namespace PodFabric

open Transport

/-! ## Writing -/

/-- What has become of the socket once a frame was to be sent. -/
inductive FrameWritten (frame : Transport.Frame) (socket : Socket) : Result Unit → Socket → Prop
  | sent (sendable : frame.Sendable) :
    FrameWritten frame socket (.ok ()) { socket with outgoing := socket.outgoing ++ frame.bytes }
  | failed {status : Status} {part : List UInt8} (begins : part <+: frame.bytes)
      (stops : part ≠ frame.bytes) (sendable : part = [] ∨ frame.Sendable) :
    FrameWritten frame socket (.error status) { socket with outgoing := socket.outgoing ++ part }

/-- A frame is not empty on the wire. -/
theorem bytes_ne_nil {frame : Transport.Frame} : frame.bytes ≠ [] := List.cons_ne_nil _ _

/-- What writing a frame does to the socket. -/
theorem writeFrame_written {frame : Transport.Frame} {socket : Socket} {failure : SendFailure} :
    FrameWritten frame socket ((writeFrame frame failure).on socket).1
      ((writeFrame frame failure).on socket).2 := by
  rw [writeFrame, Proc.on_bind, Proc.on_liftM]
  cases hencode : encodeFrame frame with
  | error status =>
    have hfailed := @FrameWritten.failed frame socket status [] List.nil_prefix bytes_ne_nil.symm
      (.inl rfl)
    rwa [List.append_nil] at hfailed
  | ok data =>
    obtain ⟨hsendable, rfl⟩ := encodeFrame_eq_bytes.1 hencode
    dsimp only
    rw [sendAll]
    cases hfailure : failure.filter fun f => f.1 < frame.bytes.length with
    | none => exact .sent hsendable
    | some f =>
      obtain ⟨-, hlt⟩ := Option.filter_eq_some_iff.1 hfailure
      rw [decide_eq_true_eq] at hlt
      refine .failed (List.take_prefix _ _) (fun h => ?_) (.inr hsendable)
      have hlength := congrArg List.length h
      rw [List.length_take] at hlength
      omega

/-! ## Answers -/

/-- The reply carries the response to a frame. -/
def CarriesFrame (frame : Transport.Frame) (response : Response) (reply : Transport.Frame) : Prop :=
  ∃ body, response.encode = .ok body ∧
    reply = { type := .response, correlation := frame.correlation, payload := body }

/-- How a frame is answered, unless the connection is dropped. -/
inductive Answered (options : ServerOptions) : Exchange → Prop
  | pong {frame : Transport.Frame} {reply : Option Transport.Frame} (ping : frame.type = .ping)
      (pong : ∀ r ∈ reply, r = { type := .pong, correlation := frame.correlation }) :
    Answered options ⟨frame, [], reply⟩
  | unreadable {frame : Transport.Frame} {reply : Option Transport.Frame} {status : Status}
      (request : frame.type = .request) (decode : Request.decode frame.payload = .error status)
      (carries : ∀ r ∈ reply, CarriesFrame frame (errorResponse status) r) :
    Answered options ⟨frame, [], reply⟩
  | handled {frame : Transport.Frame} {reply : Option Transport.Frame} {request : Request}
      {response : Response}
      {reads : List (Env × World)} (type : frame.type = .request)
      (decode : Request.decode frame.payload = .ok request)
      (handled : (handle options request).after reads = some (.done (.ok response)))
      (carries : ∀ r ∈ reply, CarriesFrame frame { response with nonce := request.nonce } r) :
    Answered options ⟨frame, reads, reply⟩
  | lost {frame : Transport.Frame} {request : Request} {fault : Fault} {reads : List (Env × World)}
      (type : frame.type = .request) (decode : Request.decode frame.payload = .ok request)
      (handled : (handle options request).after reads = some (.done (.error fault))) :
    Answered options ⟨frame, reads, none⟩
  | violation {frame : Transport.Frame} (ping : frame.type ≠ .ping) (request : frame.type ≠ .request) :
    Answered options ⟨frame, [], none⟩

/-- An exchange stays answered when its reply is lost. -/
theorem Answered.drop {options : ServerOptions} {frame : Transport.Frame} {reads : List (Env × World)}
    {reply : Option Transport.Frame} (h : Answered options ⟨frame, reads, reply⟩) :
    Answered options ⟨frame, reads, none⟩ := by
  cases h with
  | pong hping => exact .pong hping fun r hr => by cases hr
  | unreadable htype hdecode => exact .unreadable htype hdecode fun r hr => by cases hr
  | handled htype hdecode hhandled => exact .handled htype hdecode hhandled fun r hr => by cases hr
  | lost htype hdecode hhandled => exact .lost htype hdecode hhandled
  | violation hping hrequest => exact .violation hping hrequest

/-! ## Connections -/

/-- What was sent behind the last reply is the beginning of a frame, and all of it only if that
tells of an error. -/
def Broken (tail : List UInt8) : Prop :=
  ∃ last : Transport.Frame,
    last.Sendable ∧ tail <+: last.bytes ∧ (tail = last.bytes → last.type = .error)

/-- Nothing at all is the beginning of a frame. -/
theorem broken_nil : Broken [] := ⟨{}, Nat.zero_le _, List.nil_prefix, fun h => absurd h (by decide)⟩

/-- The thread does not handle a request. -/
def Serving.idle : Serving → Bool
  | .handling _ _ _ _ => false
  | _ => true

namespace Connection

/-- The frame whose request is being handled. -/
def pending (c : Connection) : List Transport.Frame :=
  match c.serving with
  | .handling frame _ _ _ => [frame]
  | _ => []

/-- All frames that were read. -/
def received (c : Connection) : List Transport.Frame := c.exchanges.map Exchange.frame ++ c.pending

/-- The replies that left the server. -/
def replies (c : Connection) : List Transport.Frame := c.exchanges.filterMap Exchange.reply

/-- The connection has not been dropped. -/
def live (c : Connection) : Bool :=
  match c.serving with
  | .closed | .lost _ => false
  | _ => true

/-- The calls of the controller that the connection has made. -/
def reads (c : Connection) : List (Env × World) :=
  c.exchanges.flatMap Exchange.reads ++
    match c.serving with
    | .handling _ _ reads _ => reads
    | _ => []

/-- **How a connection is served.** The frames that arrive are read in turn and answered in turn;
only the last one may lack its answer, and nothing is sent besides, but for what breaks off. -/
structure Served (options : ServerOptions) (c : Connection) : Prop where
  answered : ∀ e ∈ c.exchanges, Answered options e
  replied : ∀ e ∈ c.exchanges.dropLast, e.reply.isSome
  arrived : ∃ rest, c.arrived.front = c.received.flatMap Transport.Frame.bytes ++ rest
  sent : ∃ tail, c.socket.outgoing = c.replies.flatMap Transport.Frame.bytes ++ tail ∧ Broken tail
  live : c.live = true → (∀ e ∈ c.exchanges, e.reply.isSome) ∧
    c.arrived.front = c.received.flatMap Transport.Frame.bytes ++ c.socket.incoming.front ∧
    c.socket.outgoing = c.replies.flatMap Transport.Frame.bytes

/-- The connection has read `frames` beyond those it is done with, and has answered the others. -/
structure Upto (options : ServerOptions) (c : Connection) (frames : List Transport.Frame) : Prop where
  answered : ∀ e ∈ c.exchanges, Answered options e
  replied : ∀ e ∈ c.exchanges, e.reply.isSome
  arrived : c.arrived.front =
    (c.exchanges.map Exchange.frame ++ frames).flatMap Transport.Frame.bytes ++
      c.socket.incoming.front
  acceptable : ∀ frame ∈ c.exchanges.map Exchange.frame ++ frames, frame.Sendable
  sent : c.socket.outgoing = c.replies.flatMap Transport.Frame.bytes
  sendable : ∀ reply ∈ c.replies, reply.Sendable

/-- The connection has been dropped. -/
structure Ended (options : ServerOptions) (c : Connection) : Prop where
  answered : ∀ e ∈ c.exchanges, Answered options e
  replied : ∀ e ∈ c.exchanges.dropLast, e.reply.isSome
  arrived : ∃ rest,
    c.arrived.front = (c.exchanges.map Exchange.frame).flatMap Transport.Frame.bytes ++ rest
  acceptable : ∀ frame ∈ c.exchanges.map Exchange.frame, frame.Sendable
  sent : ∃ tail, c.socket.outgoing = c.replies.flatMap Transport.Frame.bytes ++ tail ∧ Broken tail
  sendable : ∀ reply ∈ c.replies, reply.Sendable

/-- The invariant of a connection, for each place where its thread can be. -/
def Faithful (options : ServerOptions) (c : Connection) : Prop :=
  match c.serving with
  | .looping | .reading | .setting => c.Upto options []
  | .handling frame request reads rest => c.Upto options [frame] ∧ frame.type = .request ∧
    Request.decode frame.payload = .ok request ∧ (handle options request).after reads = some rest
  | .closed | .lost _ => c.Ended options

section Lemmas
variable {options : ServerOptions} {c : Connection} {frame answer : Transport.Frame}
  {frames : List Transport.Frame}
  {reads : List (Env × World)} {failure : SendFailure} {serving : Serving} {socket : Socket}
  {exchange : Exchange} {response : Response} {s : ServerState} {env : Env} {status : Status}

/-- A connection is faithful when it is accepted. -/
theorem accepted_faithful {incoming : Incoming} : (accepted incoming).Faithful options where
  answered := fun e he => by cases he
  replied := fun e he => by cases he
  arrived := rfl
  acceptable := fun f hf => by cases hf
  sent := rfl
  sendable := fun r hr => by cases hr

/-- A connection that is dropped has answered all that it was done with. -/
theorem Upto.dropped (h : c.Upto options frames) {tail : List UInt8}
    (hsent : socket.outgoing = c.socket.outgoing ++ tail) (hbroken : Broken tail) :
    { c with socket, serving }.Ended options where
  answered := h.answered
  replied := fun e he => h.replied e (List.mem_of_mem_dropLast he)
  arrived := by
    rw [h.arrived, List.flatMap_append, List.append_assoc]
    exact ⟨_, rfl⟩
  acceptable := fun f hf => h.acceptable f (List.mem_append_left _ hf)
  sent := ⟨tail, by rw [hsent, h.sent]; rfl, hbroken⟩
  sendable := h.sendable

/-- A frame that the connection drops is the last one. -/
theorem Upto.finished (h : c.Upto options [frame])
    (hanswered : Answered options ⟨frame, reads, none⟩) {tail : List UInt8}
    (hsent : socket.outgoing = c.socket.outgoing ++ tail) (hbroken : Broken tail) :
    ({ c with socket }.finish ⟨frame, reads, none⟩ serving).Ended options where
  answered := by
    rw [finish, List.forall_mem_append, List.forall_mem_singleton]
    exact ⟨h.answered, hanswered⟩
  replied := by
    rw [finish, List.dropLast_concat]
    exact h.replied
  arrived := by
    rw [finish, List.map_append]
    exact ⟨_, h.arrived⟩
  acceptable := by
    rw [finish, List.map_append]
    exact h.acceptable
  sent := by
    refine ⟨tail, ?_, hbroken⟩
    rw [finish, replies, List.filterMap_append]
    change socket.outgoing =
      (c.exchanges.filterMap Exchange.reply ++ []).flatMap Transport.Frame.bytes ++ tail
    rw [List.append_nil, hsent, h.sent]
    rfl
  sendable := by
    rw [finish, replies, List.filterMap_append]
    change ∀ reply ∈ c.exchanges.filterMap Exchange.reply ++ [], reply.Sendable
    rw [List.append_nil]
    exact h.sendable

/-- A frame that is answered. -/
theorem Upto.advance (h : c.Upto options [frame])
    (hanswered : Answered options ⟨frame, reads, answer⟩) (hsendable : answer.Sendable) :
    ({ c with socket := { c.socket with outgoing := c.socket.outgoing ++ answer.bytes } }.finish
      ⟨frame, reads, answer⟩ serving).Upto options [] where
  answered := by
    rw [finish, List.forall_mem_append, List.forall_mem_singleton]
    exact ⟨h.answered, hanswered⟩
  replied := by
    rw [finish, List.forall_mem_append, List.forall_mem_singleton]
    exact ⟨h.replied, rfl⟩
  arrived := by
    rw [finish, List.map_append, List.append_nil]
    exact h.arrived
  acceptable := by
    rw [finish, List.map_append, List.append_nil]
    exact h.acceptable
  sent := by
    rw [finish, replies, List.filterMap_append]
    change c.socket.outgoing ++ answer.bytes =
      (c.exchanges.filterMap Exchange.reply ++ [answer]).flatMap Transport.Frame.bytes
    rw [List.flatMap_append, List.flatMap_singleton, h.sent]
    rfl
  sendable := by
    rw [finish, replies, List.filterMap_append]
    change ∀ reply ∈ c.exchanges.filterMap Exchange.reply ++ [answer], reply.Sendable
    rw [List.forall_mem_append, List.forall_mem_singleton]
    exact ⟨h.sendable, hsendable⟩

/-- Where a live connection goes on from. -/
theorem faithful_of_upto (h : c.Upto options []) (hserving : c.serving = .looping ∨
    c.serving = .reading ∨ c.serving = .setting) : c.Faithful options := by
  unfold Faithful
  obtain hserving | hserving | hserving := hserving <;> rw [hserving] <;> exact h

/-- A reply that answers its frame keeps the connection faithful. -/
theorem reply_faithful (h : c.Upto options [frame])
    (hanswered : Answered options ⟨frame, reads, answer⟩)
    (hserving : serving = .looping ∨ serving = .setting) :
    (c.reply frame reads answer failure serving).Faithful options := by
  rw [reply]
  have hwritten := @writeFrame_written answer c.socket failure
  generalize (writeFrame answer failure).on c.socket = written at hwritten ⊢
  obtain ⟨result, socket⟩ := written
  cases hwritten with
  | sent hsendable =>
    refine faithful_of_upto (h.advance hanswered hsendable) ?_
    obtain rfl | rfl := hserving
    · exact .inl rfl
    · exact .inr (.inr rfl)
  | failed hbegins hstops hsendable =>
    refine h.finished hanswered.drop rfl ?_
    obtain rfl | hsendable := hsendable
    · exact broken_nil
    · exact ⟨answer, hsendable, hbegins, fun hwhole => absurd hwhole hstops⟩

/-- A response that answers its frame keeps the connection faithful. -/
theorem respond_faithful (h : c.Upto options [frame])
    (hanswered : ∀ reply, (∀ r ∈ reply, CarriesFrame frame response r) →
      Answered options ⟨frame, reads, reply⟩)
    (hserving : serving = .looping ∨ serving = .setting) :
    (c.respond frame reads response failure serving).Faithful options := by
  rw [respond]
  cases hencode : response.encode with
  | error status =>
    have hdropped := hanswered none fun r hr => by cases hr
    exact h.finished hdropped (List.append_nil _).symm broken_nil
  | ok body =>
    refine reply_faithful h (hanswered _ fun r hr => ?_) hserving
    cases hr
    exact ⟨body, hencode, rfl⟩

/-- Taking a frame keeps the connection faithful. -/
theorem take_faithful (h : c.Upto options [frame]) :
    (take options failure s c frame).2.Faithful options := by
  cases htype : frame.type with
  | ping =>
    rw [take, htype]
    refine reply_faithful h (.pong htype fun r hr => ?_) (.inl rfl)
    cases hr
    rfl
  | request =>
    rw [take, htype]
    dsimp only
    cases hdecode : Request.decode frame.payload with
    | error status =>
      exact respond_faithful h (fun reply hreply => .unreadable htype hdecode hreply) (.inl rfl)
    | ok request =>
      exact ⟨⟨h.answered, h.replied, h.arrived, h.acceptable, h.sent, h.sendable⟩, htype, hdecode,
        Program.after_nil⟩
  | _ =>
    rw [take, htype]
    refine h.finished (.violation ?_ ?_) (List.append_nil _).symm broken_nil
    · rw [htype]
      exact FrameType.noConfusion
    · rw [htype]
      exact FrameType.noConfusion

/-- Rejecting a frame keeps the connection faithful. -/
theorem reject_faithful (h : c.Upto options []) (hout : socket.outgoing = c.socket.outgoing) :
    (reject failure s { c with socket } status).2.Faithful options := by
  rw [reject]
  split
  · have hwritten := @writeFrame_written { type := .error, payload := status.toText } socket failure
    dsimp only
    generalize (writeFrame { type := .error, payload := status.toText } failure).on socket =
      written at hwritten ⊢
    obtain ⟨result, socket'⟩ := written
    cases hwritten with
    | sent hsendable =>
      refine h.dropped ?_ ⟨_, hsendable, List.prefix_rfl, fun _ => rfl⟩
      rw [← hout]
    | @failed _ part hbegins hstops hsendable =>
      have hbroken : Broken part := by
        obtain rfl | hsendable := hsendable
        · exact broken_nil
        · exact ⟨_, hsendable, hbegins, fun hwhole => absurd hwhole hstops⟩
      refine h.dropped ?_ hbroken
      rw [← hout]
  · exact h.dropped (hout.trans (List.append_nil _).symm) broken_nil

/-- A step keeps the connection faithful. -/
theorem serve_faithful (h : c.Faithful options) :
    (serve options env failure s c).2.Faithful options := by
  rw [serve]
  cases hserving : c.serving with
  | looping =>
    rw [Faithful, hserving] at h
    dsimp only
    split
    · exact h.dropped (List.append_nil _).symm broken_nil
    · exact ⟨h.answered, h.replied, h.arrived, h.acceptable, h.sent, h.sendable⟩
  | reading =>
    rw [Faithful, hserving] at h
    dsimp only
    have hout := @readFrame_outgoing frameMaxPayload c.socket
    cases hread : (readFrame frameMaxPayload).on c.socket with
    | mk result socket =>
      rw [hread] at hout
      cases result with
      | error status => exact reject_faithful h hout
      | ok frame =>
        obtain ⟨hsendable, -, hfront, -, hsent⟩ := readFrame_eq_ok hread
        refine take_faithful ⟨h.answered, h.replied, ?_, ?_, hsent.trans h.sent, h.sendable⟩
        · have harrived := h.arrived
          rw [List.append_nil, hfront] at harrived
          rw [harrived, List.flatMap_append, List.flatMap_singleton, List.append_assoc]
        · have hacceptable := h.acceptable
          rw [List.append_nil] at hacceptable
          rw [List.forall_mem_append, List.forall_mem_singleton]
          exact ⟨hacceptable, hsendable⟩
  | handling frame request reads rest =>
    rw [Faithful, hserving] at h
    obtain ⟨hupto, htype, hdecode, hafter⟩ := h
    cases rest with
    | access effect next =>
      refine ⟨⟨hupto.answered, hupto.replied, hupto.arrived, hupto.acceptable, hupto.sent,
        hupto.sendable⟩, htype, hdecode, ?_⟩
      rw [Program.after_append, hafter]
      exact Program.after_nil
    | done outcome =>
      cases outcome with
      | error fault =>
        exact hupto.finished (.lost htype hdecode hafter) (List.append_nil _).symm broken_nil
      | ok response =>
        refine respond_faithful hupto (fun reply hreply => .handled htype hdecode hafter hreply) ?_
        split
        · exact .inr rfl
        · exact .inl rfl
  | setting =>
    rw [Faithful, hserving] at h
    exact h.dropped (List.append_nil _).symm broken_nil
  | closed => exact h
  | lost fault => exact h

end Lemmas

section Served
variable {options : ServerOptions} {c : Connection}

/-- A connection that ended with nothing pending was served. -/
theorem Ended.served (h : c.Ended options) (hpending : c.pending = []) (hlive : c.live = false) :
    c.Served options where
  answered := h.answered
  replied := h.replied
  arrived := by
    rw [received, hpending, List.append_nil]
    exact h.arrived
  sent := h.sent
  live := by
    intro h
    rw [hlive] at h
    cases h

/-- A connection that is between two frames is served. -/
theorem Upto.served (h : c.Upto options c.pending) : c.Served options where
  answered := h.answered
  replied := fun e he => h.replied e (List.mem_of_mem_dropLast he)
  arrived := ⟨_, h.arrived⟩
  sent := ⟨[], h.sent.trans (List.append_nil _).symm, broken_nil⟩
  live := fun _ => ⟨h.replied, h.arrived, h.sent⟩

/-- All frames that were read and all replies can be sent. -/
theorem Faithful.sendable (h : c.Faithful options) :
    (∀ frame ∈ c.received, frame.Sendable) ∧ ∀ reply ∈ c.replies, reply.Sendable := by
  unfold Faithful at h
  unfold received pending
  cases hserving : c.serving with
  | looping | reading | setting =>
    rw [hserving] at h
    exact ⟨h.acceptable, h.sendable⟩
  | handling frame request reads rest =>
    rw [hserving] at h
    exact ⟨h.1.acceptable, h.1.sendable⟩
  | closed | lost =>
    rw [hserving] at h
    rw [List.append_nil]
    exact ⟨h.acceptable, h.sendable⟩

/-- A faithful connection is served. -/
theorem Faithful.served (h : c.Faithful options) : c.Served options := by
  unfold Faithful at h
  cases hserving : c.serving with
  | looping | reading | setting =>
    rw [hserving] at h
    refine Upto.served ?_
    rw [pending, hserving]
    exact h
  | handling frame request reads rest =>
    rw [hserving] at h
    refine Upto.served ?_
    rw [pending, hserving]
    exact h.1
  | closed | lost =>
    rw [hserving] at h
    exact h.served (by rw [pending, hserving]) (by rw [Connection.live, hserving])

end Served

/-! ## Steps -/

/-- What a step of the thread of a connection does to what came of the frames, and to the world. -/
inductive Stepped (options : ServerOptions) (env : Env) (s : ServerState) (c : Connection)
    (s' : ServerState) (c' : Connection) : Prop
  | idle (was : c.serving.idle = true) (now : c'.serving.idle = true)
      (same : c'.exchanges = c.exchanges) (world : s'.world = s.world)
  | answered {frame : Transport.Frame} {reply : Option Transport.Frame} (was : c.serving = .reading)
      (now : c'.serving.idle = true) (exchanges : c'.exchanges = c.exchanges ++ [⟨frame, [], reply⟩])
      (unreadable : frame.type = .request → ∀ request, Request.decode frame.payload ≠ .ok request)
      (world : s'.world = s.world)
  | begun {frame : Transport.Frame} {request : Request} (was : c.serving = .reading)
      (now : c'.serving = .handling frame request [] (handle options request))
      (same : c'.exchanges = c.exchanges) (world : s'.world = s.world)
  | called {frame : Transport.Frame} {request : Request} {reads : List (Env × World)}
      {effect : Env → World → World} {next : Env → World → Handling (Outcome Response)}
      (was : c.serving = .handling frame request reads (.access effect next))
      (now : c'.serving =
        .handling frame request (reads ++ [(env, s.world)]) (next env s.world))
      (same : c'.exchanges = c.exchanges) (world : s'.world = effect env s.world)
  | finished {frame : Transport.Frame} {request : Request} {reads : List (Env × World)}
      {outcome : Outcome Response} {reply : Option Transport.Frame}
      (was : c.serving = .handling frame request reads (.done outcome))
      (now : c'.serving.idle = true)
      (exchanges : c'.exchanges = c.exchanges ++ [⟨frame, reads, reply⟩])
      (stops : reply.isSome = true → request.kind = .shutdown → c'.serving = .setting)
      (world : s'.world = s.world)

section Steps
variable {options : ServerOptions} {c : Connection} {frame answer : Transport.Frame}
  {reads : List (Env × World)} {failure : SendFailure} {serving : Serving} {response : Response}
  {s : ServerState} {env : Env} {status : Status}

/-- A reply finishes an exchange. -/
theorem reply_finished (h : serving.idle = true) : ∃ r,
    (c.reply frame reads answer failure serving).exchanges = c.exchanges ++ [⟨frame, reads, r⟩] ∧
      (c.reply frame reads answer failure serving).serving.idle = true ∧
      (r.isSome = true → (c.reply frame reads answer failure serving).serving = serving) := by
  rw [reply]
  split
  · exact ⟨none, rfl, rfl, fun h => by cases h⟩
  · exact ⟨answer, rfl, h, fun _ => rfl⟩

/-- A response finishes an exchange. -/
theorem respond_finished (h : serving.idle = true) : ∃ r,
    (c.respond frame reads response failure serving).exchanges = c.exchanges ++ [⟨frame, reads, r⟩] ∧
      (c.respond frame reads response failure serving).serving.idle = true ∧
      (r.isSome = true → (c.respond frame reads response failure serving).serving = serving) := by
  rw [respond]
  split
  · exact ⟨none, rfl, rfl, fun h => by cases h⟩
  · exact reply_finished h

/-- A reply leaves what arrived. -/
theorem reply_arrived : (c.reply frame reads answer failure serving).arrived = c.arrived := by
  rw [reply]
  split <;> rfl

/-- A response leaves what arrived. -/
theorem respond_arrived : (c.respond frame reads response failure serving).arrived = c.arrived := by
  rw [respond]
  split
  · rfl
  · exact reply_arrived

/-- What the peer sends is no matter of the server. -/
theorem serve_arrived : (serve options env failure s c).2.arrived = c.arrived := by
  rw [serve]
  split
  · rfl
  · split
    · rw [reject]
      split <;> rfl
    · rw [take]
      split
      · exact reply_arrived
      · split
        · exact respond_arrived
        · rfl
      · rfl
  · rfl
  · rfl
  · exact respond_arrived
  · rfl
  · rfl
  · rfl

/-- Taking a frame is a step of the connection. -/
theorem take_stepped {s₀ : ServerState} {c₀ : Connection}
    (hworld : s.world = s₀.world) (hexchanges : c.exchanges = c₀.exchanges)
    (hwas : c₀.serving = .reading) :
    Stepped options env s₀ c₀ (take options failure s c frame).1
      (take options failure s c frame).2 := by
  cases htype : frame.type with
  | ping =>
    rw [take, htype]
    obtain ⟨r, hr, hidle, -⟩ := @reply_finished c frame
      { type := .pong, correlation := frame.correlation } [] failure .looping rfl
    rw [hexchanges] at hr
    exact .answered hwas hidle hr (fun h => by rw [htype] at h; cases h) hworld
  | request =>
    rw [take, htype]
    dsimp only
    cases hdecode : Request.decode frame.payload with
    | error status =>
      obtain ⟨r, hr, hidle, -⟩ :=
        @respond_finished c frame [] failure .looping (errorResponse status) rfl
      rw [hexchanges] at hr
      refine .answered hwas hidle hr (fun _ request h => ?_) hworld
      rw [hdecode] at h
      cases h
    | ok request => exact .begun hwas rfl hexchanges hworld
  | _ =>
    rw [take, htype]
    have hclosed : (c.finish { frame } .closed).exchanges = c₀.exchanges ++ [⟨frame, [], none⟩] := by
      rw [← hexchanges]
      rfl
    refine .answered hwas rfl hclosed (fun h => ?_) hworld
    rw [htype] at h
    cases h

/-- What one step of a connection does. -/
theorem serve_stepped : Stepped options env s c (serve options env failure s c).1
    (serve options env failure s c).2 := by
  rw [serve]
  cases hserving : c.serving with
  | looping =>
    refine .idle (by rw [hserving]; rfl) ?_ rfl rfl
    dsimp only
    split <;> rfl
  | reading =>
    dsimp only
    split
    · next status socket _ =>
      rw [reject]
      split
      · exact .idle (by rw [hserving]; rfl) rfl rfl rfl
      · exact .idle (by rw [hserving]; rfl) rfl rfl rfl
    · exact take_stepped rfl rfl hserving
  | handling frame request reads rest =>
    cases rest with
    | access effect next => exact .called hserving rfl rfl rfl
    | done outcome =>
      cases outcome with
      | error fault => exact .finished hserving rfl rfl (fun h => by cases h) rfl
      | ok response =>
        have hidle : (if request.kind = .shutdown then Serving.setting else .looping).idle = true := by
          split <;> rfl
        obtain ⟨r, hr, hnow, hgoes⟩ := @respond_finished c frame reads failure _
          { response with nonce := request.nonce } hidle
        refine .finished hserving hnow hr (fun hsome hkind => ?_) rfl
        exact (hgoes hsome).trans (if_pos hkind)
  | setting => exact .idle (by rw [hserving]; rfl) rfl rfl rfl
  | closed => exact .idle (by rw [hserving]; rfl) (by rw [hserving]; rfl) rfl rfl
  | lost fault => exact .idle (by rw [hserving]; rfl) (by rw [hserving]; rfl) rfl rfl

end Steps

end Connection

end PodFabric
