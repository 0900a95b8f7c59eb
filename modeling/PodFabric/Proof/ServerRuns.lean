import PodFabric.Proof.Calls
import PodFabric.Proof.Connections

/-!
# Runs of a server

In every interleaving of the threads of a server, each connection is served faithfully
(`connections_served`), and all that happens to the pod is done by requests that were read, once for
each and in their order on every connection: a server is a controller that is called remotely
(`server_refines_controller`).
-/

namespace PodFabric

open Transport

/-- What a request has the controller do. -/
def Request.operation (request : Request) : Option Op :=
  match request.kind with
  | .apply => some (.apply request.snapshot)
  | .mint => some (.mintAuthority request.scope request.rack request.lifetime)
  | .revoke => some (.revokeAuthority request.lease)
  | .setAdmin =>
    some (if request.clearAdmin then .clearAdminState request.rack
      else .setAdminState request.rack request.admin)
  | .retire => some .retire
  | _ => none

/-- What a frame has the controller do. -/
def Exchange.operation (e : Exchange) : Option Op :=
  if e.frame.type = .request then
    match Request.decode e.frame.payload with
    | .ok request => request.operation
    | .error _ => none
  else none

/-- What is left of handling a request after some calls: the next call performs the operation of the
request, if it is the fifth, or leaves the pod alone; the operation is not left out. -/
inductive Handles (request : Request) (calls : ℕ) : Handling (Outcome Response) → Prop
  | operates {effect : Env → World → World} {next : Env → World → Handling (Outcome Response)}
      {op : Op} (fifth : calls = 4) (operation : request.operation = some op)
      (does : ∀ env w, effect env w = w.next ⟨op, env⟩) : Handles request calls (.access effect next)
  | reads {effect : Env → World → World} {next : Env → World → Handling (Outcome Response)}
      (other : calls = 4 → request.operation = none) (keeps : ∀ env w, effect env w = w) :
      Handles request calls (.access effect next)
  | done {outcome : Outcome Response} (operated : request.operation ≠ none → 4 < calls) :
      Handles request calls (.done outcome)

namespace Connection

/-! ## Calls of the controller -/

/-- The thread of the connection is about to call the controller. -/
def calling (c : Connection) : Bool :=
  match c.serving with
  | .handling _ _ _ (.access _ _) => true
  | _ => false

/-- The operation of the controller that the thread is about to perform. -/
def doing (c : Connection) : Option Op :=
  match c.serving with
  | .handling _ request reads (.access _ _) => if reads.length = 4 then request.operation else none
  | _ => none

/-- The operation that the request being handled has performed. -/
def underway (c : Connection) : List Op :=
  match c.serving with
  | .handling _ request reads _ => if 4 < reads.length then request.operation.toList else []
  | _ => []

/-- The operations that the frames of the connection have led to. -/
def operations (c : Connection) : List Op :=
  c.exchanges.filterMap Exchange.operation ++ c.underway

section Calls
variable {options : ServerOptions} {c c' : Connection} {s s' : ServerState} {env : Env}

/-- What an idle connection has read belongs to its exchanges. -/
theorem idle_reads (h : c.serving.idle = true) : c.reads = c.exchanges.flatMap Exchange.reads := by
  unfold reads
  split
  · next hserving =>
    rw [hserving] at h
    cases h
  · exact List.append_nil _

/-- An idle connection is in no call. -/
theorem idle_calling (h : c.serving.idle = true) : c.calling = false := by
  unfold calling
  split
  · next hserving =>
    rw [hserving] at h
    cases h
  · rfl

/-- An idle connection does nothing to the controller. -/
theorem idle_doing (h : c.serving.idle = true) : c.doing = none := by
  unfold doing
  split
  · next hserving =>
    rw [hserving] at h
    cases h
  · rfl

/-- An idle connection has no exchange under way. -/
theorem idle_underway (h : c.serving.idle = true) : c.underway = [] := by
  unfold underway
  split
  · next hserving =>
    rw [hserving] at h
    cases h
  · rfl

/-- A connection makes its calls one by one, and each step makes one at most. -/
theorem Stepped.reads (h : Stepped options env s c s' c') :
    c'.reads = c.reads ++ if c.calling = true then [(env, s.world)] else [] := by
  cases h with
  | idle hwas hnow hsame _ =>
    rw [idle_reads hwas, idle_reads hnow, idle_calling hwas, hsame]
    exact (List.append_nil _).symm
  | answered hwas hnow hexchanges _ _ =>
    have hidle : c.serving.idle = true := by
      rw [hwas]
      rfl
    rw [idle_reads hidle, idle_reads hnow, idle_calling hidle, hexchanges, List.flatMap_append]
    rfl
  | begun hwas hnow hsame _ =>
    have hidle : c.serving.idle = true := by
      rw [hwas]
      rfl
    rw [idle_reads hidle, idle_calling hidle, Connection.reads, hnow, hsame]
    rfl
  | called hwas hnow hsame _ =>
    rw [Connection.reads, hnow, hsame, Connection.reads, calling, hwas]
    exact (List.append_assoc _ _ _).symm
  | finished hwas hnow hexchanges _ _ =>
    rw [idle_reads hnow, hexchanges, List.flatMap_append, List.flatMap_singleton, Connection.reads,
      calling, hwas]
    exact (List.append_nil _).symm

/-- Behind the four calls that read what a response tells of. -/
theorem handleKind_after {request : Request} {response : Response} {reads : List (Env × World)}
    {p : Handling (Outcome Response)}
    (h : (handleKind options request response).after reads = some p) :
    Handles request (reads.length + 4) p := by
  rw [handleKind] at h
  cases hkind : request.kind with
  | hello | status | describe | ping | erase | shutdown =>
    rw [hkind] at h
    obtain ⟨rfl, rfl⟩ := Program.after_done h
    exact .done fun hop => absurd (by rw [Request.operation, hkind]) hop
  | apply =>
    rw [hkind] at h
    obtain ⟨rfl, rfl⟩ | ⟨env, w, rest, rfl, hrest⟩ := Program.after_call h
    · exact .operates rfl (by rw [Request.operation, hkind]) fun env w => rfl
    · dsimp only at hrest
      split at hrest
      · obtain ⟨rfl, rfl⟩ := Program.after_done hrest
        exact .done fun _ => Nat.le_refl _
      · obtain ⟨rfl, rfl⟩ | ⟨env', w', rest, rfl, hrest'⟩ := Program.after_call hrest
        · exact .reads (fun h => by cases h) fun env w => rfl
        · obtain ⟨rfl, rfl⟩ := Program.after_done hrest'
          exact .done fun _ => by simp
  | mint =>
    rw [hkind] at h
    obtain ⟨rfl, rfl⟩ | ⟨env, w, rest, rfl, hrest⟩ := Program.after_call h
    · exact .operates rfl (by rw [Request.operation, hkind]) fun env w => rfl
    · dsimp only at hrest
      split at hrest
      · obtain ⟨rfl, rfl⟩ := Program.after_done hrest
        exact .done fun _ => Nat.le_refl _
      · obtain ⟨rfl, rfl⟩ := Program.after_done hrest
        exact .done fun _ => Nat.le_refl _
  | revoke =>
    rw [hkind] at h
    obtain ⟨rfl, rfl⟩ | ⟨env, w, rest, rfl, hrest⟩ := Program.after_call h
    · exact .operates rfl (by rw [Request.operation, hkind]) fun env w => rfl
    · dsimp only at hrest
      split at hrest
      · obtain ⟨rfl, rfl⟩ := Program.after_done hrest
        exact .done fun _ => Nat.le_refl _
      · obtain ⟨rfl, rfl⟩ := Program.after_done hrest
        exact .done fun _ => Nat.le_refl _
  | checkAuthority =>
    rw [hkind] at h
    obtain ⟨rfl, rfl⟩ | ⟨env, w, rest, rfl, hrest⟩ := Program.after_call h
    · exact .reads (fun _ => by rw [Request.operation, hkind]) fun env w => rfl
    · obtain ⟨rfl, rfl⟩ := Program.after_done hrest
      exact .done fun _ => Nat.le_refl _
  | setAdmin =>
    rw [hkind] at h
    have hchanged : ∀ {changed : Outcome Unit} {rest : List (Env × World)},
        (adminChanged options response changed).after rest = some p →
          Handles request (rest.length + 5) p := by
      intro changed rest hrest
      cases changed with
      | error fault =>
        obtain ⟨rfl, rfl⟩ := Program.after_done hrest
        exact .done fun _ => Nat.le_refl _
      | ok =>
        obtain ⟨rfl, rfl⟩ | ⟨env, w, rest, rfl, hlater⟩ := Program.after_call hrest
        · exact .reads (fun h => by cases h) fun env w => rfl
        · obtain ⟨rfl, rfl⟩ | ⟨env', w', rest, rfl, hrest'⟩ := Program.after_call hlater
          · exact .reads (fun h => by cases h) fun env w => rfl
          · obtain ⟨rfl, rfl⟩ := Program.after_done hrest'
            exact .done fun _ => by simp
    dsimp only at h
    split at h
    · next hclear =>
      have hop : request.operation = some (.clearAdminState request.rack) := by
        rw [Request.operation, hkind]
        exact congrArg some (if_pos hclear)
      obtain ⟨rfl, rfl⟩ | ⟨env, w, rest, rfl, hrest⟩ := Program.after_call h
      · exact .operates rfl hop fun env w => rfl
      · exact hchanged hrest
    · next hclear =>
      have hop : request.operation = some (.setAdminState request.rack request.admin) := by
        rw [Request.operation, hkind]
        exact congrArg some (if_neg hclear)
      obtain ⟨rfl, rfl⟩ | ⟨env, w, rest, rfl, hrest⟩ := Program.after_call h
      · exact .operates rfl hop fun env w => rfl
      · exact hchanged hrest
  | retire =>
    rw [hkind] at h
    obtain ⟨rfl, rfl⟩ | ⟨env, w, rest, rfl, hrest⟩ := Program.after_call h
    · exact .operates rfl (by rw [Request.operation, hkind]) fun env w => rfl
    · obtain ⟨rfl, rfl⟩ | ⟨env', w', rest, rfl, hrest'⟩ := Program.after_call hrest
      · exact .reads (fun h => by cases h) fun env w => rfl
      · dsimp only at hrest'
        split at hrest'
        · obtain ⟨rfl, rfl⟩ := Program.after_done hrest'
          exact .done fun _ => by simp
        · obtain ⟨rfl, rfl⟩ := Program.after_done hrest'
          exact .done fun _ => by simp

/-- What the calls of a request do: the fifth performs its operation, if it has one, and the others
leave the pod alone. -/
theorem handle_after {request : Request} {reads : List (Env × World)}
    {p : Handling (Outcome Response)} (h : (handle options request).after reads = some p) :
    Handles request reads.length p := by
  obtain ⟨rfl, rfl⟩ | ⟨env₁, w₁, rest, rfl, h₁⟩ := Program.after_call h
  · exact .reads (fun h => by cases h) fun env w => rfl
  obtain ⟨rfl, rfl⟩ | ⟨env₂, w₂, rest, rfl, h₂⟩ := Program.after_call h₁
  · exact .reads (fun h => by cases h) fun env w => rfl
  obtain ⟨rfl, rfl⟩ | ⟨env₃, w₃, rest, rfl, h₃⟩ := Program.after_call h₂
  · exact .reads (fun h => by cases h) fun env w => rfl
  obtain ⟨rfl, rfl⟩ | ⟨env₄, w₄, rest, rfl, h₄⟩ := Program.after_call h₃
  · exact .reads (fun h => by cases h) fun env w => rfl
  exact handleKind_after h₄

/-- A step performs the operation that the thread is about to perform, and does nothing else to the
pod. -/
theorem Stepped.world (h : Stepped options env s c s' c') (hfaithful : c.Faithful options) :
    s'.world = c.doing.elim s.world fun op => s.world.next ⟨op, env⟩ := by
  cases h with
  | idle hwas _ _ hworld =>
    rw [idle_doing hwas]
    exact hworld
  | answered hwas _ _ _ hworld =>
    rw [doing, hwas]
    exact hworld
  | begun hwas _ _ hworld =>
    rw [doing, hwas]
    exact hworld
  | finished hwas _ _ _ hworld =>
    rw [doing, hwas]
    exact hworld
  | called hwas _ _ hworld =>
    rw [Faithful, hwas] at hfaithful
    obtain ⟨-, -, -, hafter⟩ := hfaithful
    rw [hworld, doing, hwas]
    dsimp only
    cases handle_after hafter with
    | operates hfifth hoperation hdoes =>
      rw [if_pos hfifth, hoperation]
      exact hdoes _ _
    | reads hother hkeeps =>
      rw [hkeeps]
      split
      · next hfifth =>
        rw [hother hfifth]
        rfl
      · rfl

/-- A step adds the operation that the thread performs to those of the connection. -/
theorem Stepped.operations (h : Stepped options env s c s' c') (hfaithful : c.Faithful options) :
    c'.operations = c.operations ++ c.doing.toList := by
  cases h with
  | idle hwas hnow hsame _ =>
    rw [Connection.operations, Connection.operations, idle_doing hwas, idle_underway hwas,
      idle_underway hnow, hsame]
    exact (List.append_nil _).symm
  | @answered frame reply hwas hnow hexchanges hunreadable _ =>
    have hidle : c.serving.idle = true := by
      rw [hwas]
      rfl
    have hnone : Exchange.operation ⟨frame, [], reply⟩ = none := by
      unfold Exchange.operation
      split
      · next htype =>
        split
        · next request hdecode => exact absurd hdecode (hunreadable htype request)
        · rfl
      · rfl
    rw [Connection.operations, Connection.operations, idle_doing hidle, idle_underway hidle,
      idle_underway hnow, hexchanges, List.filterMap_append, List.filterMap_cons, hnone]
    rfl
  | begun hwas hnow hsame _ =>
    have hidle : c.serving.idle = true := by
      rw [hwas]
      rfl
    rw [Connection.operations, Connection.operations, idle_doing hidle, idle_underway hidle,
      underway, hnow, hsame]
    exact (List.append_nil _).symm
  | @called frame request reads effect next hwas hnow hsame _ =>
    rw [Connection.operations, Connection.operations, underway, underway, doing, hwas, hnow, hsame,
      List.append_assoc]
    dsimp only
    rw [List.length_append, List.length_singleton]
    congr 1
    by_cases hfifth : reads.length = 4
    · rw [if_pos (by omega), if_neg (by omega), if_pos hfifth]
      rfl
    · rw [if_neg hfifth]
      by_cases hlater : 4 < reads.length
      · rw [if_pos (by omega), if_pos hlater]
        exact (List.append_nil _).symm
      · rw [if_neg (by omega), if_neg hlater]
        rfl
  | @finished frame request reads outcome reply hwas hnow hexchanges _ _ =>
    rw [Faithful, hwas] at hfaithful
    obtain ⟨-, htype, hdecode, hafter⟩ := hfaithful
    have hoperation : Exchange.operation ⟨frame, reads, reply⟩ = request.operation := by
      rw [Exchange.operation, if_pos htype, hdecode]
    have hunderway : c.underway = request.operation.toList := by
      rw [underway, hwas]
      dsimp only
      split
      · rfl
      · next hearly =>
        cases handle_after hafter with
        | done hoperated =>
          have hnone : request.operation = none := by
            by_contra hsome
            exact hearly (hoperated hsome)
          rw [hnone]
          rfl
    have hdoing : c.doing = none := by
      rw [doing, hwas]
    rw [Connection.operations, Connection.operations, hdoing, hunderway, idle_underway hnow,
      hexchanges, List.filterMap_append, List.filterMap_cons, hoperation]
    cases request.operation <;> simp

end Calls

end Connection

/-! ## Runs of a server -/

namespace PodServer

/-- The invariant of every connection. -/
def Faithful (options : ServerOptions) (s : PodServer) : Prop :=
  ∀ (i : ℕ) (c : Connection), s.connections[i]? = some c → c.Faithful options

/-- What a step of the server means for the connection of the given number. -/
inductive Moved (options : ServerOptions) (s : PodServer) (step : Step) (i : ℕ) (c' : Connection) :
    Prop
  | still (same : s.connections[i]? = some c') (other : ∀ env failure, step ≠ .serve i env failure)
  | served {c : Connection} {env : Env} {failure : SendFailure} (was : s.connections[i]? = some c)
      (step : step = .serve i env failure) (now : c' = (c.serve options env failure s.state).2)
  | accepted {incoming : Incoming} (new : s.connections[i]? = none)
      (step : step = .accept incoming) (now : c' = .accepted incoming)

section Runs
variable {options : ServerOptions} {s : PodServer} {step : Step} {i : ℕ} {c c' : Connection}
  {w : World} {steps : List Step}

/-- A connection after a step is the one that moved, one that stayed, or the new one. -/
theorem next_moved (h : (s.next options step).connections[i]? = some c') :
    Moved options s step i c' := by
  cases step with
  | accept incoming =>
    rw [next] at h
    by_cases hlt : i < s.connections.length
    · rw [List.getElem?_append_left hlt] at h
      exact .still h fun env failure hstep => by cases hstep
    · have hlt' := (List.getElem?_eq_some_iff.1 h).1
      rw [List.length_append, List.length_singleton] at hlt'
      obtain rfl : i = s.connections.length := by omega
      rw [List.getElem?_concat_length] at h
      cases h
      exact .accepted (List.getElem?_eq_none le_rfl) rfl rfl
  | serve j env failure =>
    rw [next] at h
    cases hconnection : s.connections[j]? with
    | none =>
      rw [hconnection] at h
      refine .still h fun env' failure' hstep => ?_
      cases hstep
      rw [hconnection] at h
      cases h
    | some c =>
      rw [hconnection] at h
      dsimp only at h
      by_cases hsame : j = i
      · subst hsame
        rw [List.getElem?_set_self (List.getElem?_eq_some_iff.1 hconnection).1] at h
        cases h
        exact .served hconnection rfl rfl
      · rw [List.getElem?_set_ne hsame] at h
        refine .still h fun env' failure' hstep => ?_
        cases hstep
        exact hsame rfl
  | stop => exact .still h fun env failure hstep => by cases hstep

/-- A step keeps all connections faithful. -/
theorem next_faithful (h : s.Faithful options) : (s.next options step).Faithful options := by
  intro i c hc
  cases next_moved hc with
  | still hsame _ => exact h _ _ hsame
  | served hwas _ hnow =>
    rw [hnow]
    exact Connection.serve_faithful (h _ _ hwas)
  | accepted _ _ hnow =>
    rw [hnow]
    exact Connection.accepted_faithful

/-- In every run all connections are faithful. -/
theorem run_faithful : (run options w steps).Faithful options :=
  Run.final_invariant (fun i c h => by cases h) fun x _ h => next_faithful h

/-- A run with one more step. -/
theorem run_append : run options w (steps ++ [step]) = (run options w steps).next options step :=
  Run.final_append

/-- The steps of a run with one more step. -/
theorem trace_append : trace options w (steps ++ [step]) =
    trace options w steps ++ [(run options w steps, step)] := Run.trace_append

/-- What the thread of a connection does in a step. -/
def does {α : Type} (g : Connection → Env → World → List α) (i : ℕ) (s : PodServer) : Step → List α
  | .serve j env _ => if j = i then s.connections[i]?.elim [] fun c => g c env s.state.world else []
  | _ => []

/-- What a connection gathers step by step is what its thread does in the steps of the run. -/
theorem run_gathers {α : Type} {f : Connection → List α} {g : Connection → Env → World → List α}
    (haccepted : ∀ incoming, f (.accepted incoming) = [])
    (hserve : ∀ {c : Connection} {env : Env} {failure : SendFailure} {state : ServerState},
      c.Faithful options → f (c.serve options env failure state).2 = f c ++ g c env state.world)
    (h : (run options w steps).connections[i]? = some c) :
    f c = (trace options w steps).flatMap fun x => x.1.does g i x.2 := by
  have hlate : ∀ {s : PodServer} {step : Step}, (s.next options step).connections[i]? = none →
      s.connections[i]? = none := by
    intro s step hnone
    rw [List.getElem?_eq_none_iff] at hnone ⊢
    refine le_trans ?_ hnone
    cases step with
    | accept incoming =>
      rw [next, List.length_append]
      exact Nat.le_add_right _ _
    | serve j env failure =>
      rw [next]
      split
      · exact le_rfl
      · rw [List.length_set]
    | stop => exact le_rfl
  have hall : (run options w steps).connections[i]?.elim [] f =
      (trace options w steps).flatMap fun x => x.1.does g i x.2 := by
    clear h
    induction steps using List.reverseRecOn with
    | nil => rfl
    | append_singleton steps step ih =>
      rw [trace_append, List.flatMap_append, ← ih, List.flatMap_singleton, run_append]
      generalize hs : run options w steps = s
      have hfaithful : s.Faithful options := hs ▸ run_faithful
      cases hnext : (s.next options step).connections[i]? with
      | none =>
        rw [hlate hnext]
        cases step with
        | serve j env failure =>
          rw [does, hlate hnext]
          split <;> rfl
        | _ => rfl
      | some c' =>
        cases next_moved hnext with
        | still hsame hother =>
          have hnone : s.does g i step = [] := by
            cases step with
            | serve j env failure =>
              refine if_neg fun h => ?_
              exact hother env failure (by rw [h])
            | _ => rfl
          rw [hsame, hnone]
          exact (List.append_nil _).symm
        | served hwas hstep hnow =>
          rw [hstep, does, if_pos rfl, hwas, hnow]
          exact hserve (hfaithful _ _ hwas)
        | accepted hnew hstep hnow =>
          rw [hstep, hnew, hnow]
          exact haccepted _
  rw [h] at hall
  exact hall

/-- What the peer of a connection that is accepted sends. -/
def Step.accepts : Step → Option Incoming
  | .accept incoming => some incoming
  | _ => none

/-- The calls of the controller that a connection makes in a run, with the worlds they find. -/
def accesses (i : ℕ) (trace : List (PodServer × Step)) : List (Env × World) :=
  trace.flatMap fun x => x.1.does (fun c env w => if c.calling = true then [(env, w)] else []) i x.2

/-- The connections are those that were accepted, in this order. -/
theorem run_arrived : (run options w steps).connections.map Connection.arrived =
    steps.filterMap Step.accepts := by
  induction steps using List.reverseRecOn with
  | nil => rfl
  | append_singleton steps step ih =>
    rw [run_append, List.filterMap_append, ← ih]
    generalize run options w steps = s
    cases step with
    | accept incoming =>
      rw [next, List.map_append]
      rfl
    | serve i env failure =>
      change _ = _ ++ []
      rw [next, List.append_nil]
      cases hconnection : s.connections[i]? with
      | none => rfl
      | some c =>
        obtain ⟨hlt, hget⟩ := List.getElem?_eq_some_iff.1 hconnection
        have hsame : ((s.connections.map Connection.arrived).set i c.arrived) =
            s.connections.map Connection.arrived := by
          rw [← hget, ← List.getElem_map Connection.arrived]
          · exact List.set_getElem_self _
          · rw [List.length_map]
            exact hlt
        dsimp only
        rw [List.map_set, Connection.serve_arrived, hsame]
    | stop => exact (List.append_nil _).symm

/-- **Connections are served faithfully.** In every interleaving, a connection reads the frames that
arrive on it one by one and answers them in this order (`Served`): a ping with its correlation, and a
request with its correlation and nonce and the response that its own calls come to. These are the
calls that the thread of the connection makes in the run. -/
theorem connections_served {options : ServerOptions} {w : World} {steps : List Step} {i : ℕ}
    {c : Connection} (h : (run options w steps).connections[i]? = some c) :
    (steps.filterMap Step.accepts)[i]? = some c.arrived ∧ c.Served options ∧
      c.reads = accesses i (trace options w steps) := by
  refine ⟨?_, (run_faithful i c h).served,
    run_gathers (fun _ => rfl) (fun _ => Connection.serve_stepped.reads) h⟩
  rw [← run_arrived, List.getElem?_map, h]
  rfl

end Runs

namespace Sample

/-- A peer sends a ping and closes; its thread looks at `stopping_`, reads and answers. -/
def pinged : List PodServer.Step :=
  [.accept (.piece (Transport.Sample.ping.bytes.take 9)
      (.piece (Transport.Sample.ping.bytes.drop 9) .closed)),
    .serve 0 Sample.env none, .serve 0 Sample.env none, .serve 0 Sample.env none]

end Sample

/-- A ping is answered by a pong. -/
theorem ping_served : ∃ c : Connection, c.exchanges.map Exchange.reply =
    [some { type := .pong, correlation := 5 }] ∧ c.Served {} := by
  have hsome : (run {} (Sample.world false) Sample.pinged).connections[0]?.isSome = true := by
    decide +kernel
  obtain ⟨c, hc⟩ := Option.isSome_iff_exists.1 hsome
  have hreplies : (run {} (Sample.world false) Sample.pinged).connections[0]?.map
      (fun c => c.exchanges.map Exchange.reply) =
        some [some { type := .pong, correlation := 5 }] := by decide +kernel
  rw [hc] at hreplies
  exact ⟨c, Option.some.inj hreplies, (connections_served hc).2.1⟩

/-! ## The pod -/

section Pod
variable {options : ServerOptions} {s : PodServer} {step : Step} {i : ℕ}

/-- The operations performed in a step, with the number of the connection. -/
def performed (s : PodServer) : Step → List (ℕ × Call)
  | .serve i env _ => s.connections[i]?.elim [] fun c => c.doing.toList.map fun op => (i, ⟨op, env⟩)
  | _ => []

/-- A step does to the world what its call does. -/
theorem next_world (h : s.Faithful options) :
    (s.next options step).state.world =
      s.state.world.run ((s.performed step).map Prod.snd) := by
  cases step with
  | serve i env failure =>
    rw [next, performed]
    cases hconnection : s.connections[i]? with
    | none => rfl
    | some c =>
      have hworld := (@Connection.serve_stepped options c failure s.state env).world
        (h _ _ hconnection)
      dsimp only
      rw [hworld]
      dsimp only [Option.elim_some]
      cases c.doing <;> rfl
  | _ => rfl

/-- The call that a step performs is that of its connection. -/
theorem performed_does : (s.performed step).filter (·.1 = i) =
    (s.does (fun c env _ => c.doing.toList.map fun op => (i, ⟨op, env⟩)) i step) := by
  cases step with
  | serve j env failure =>
    rw [performed, does]
    split
    · next hsame =>
      subst hsame
      cases s.connections[j]? with
      | none => rfl
      | some c => cases hdoing : c.doing <;> simp [hdoing]
    · next hother =>
      cases s.connections[j]? with
      | none => rfl
      | some c => cases hdoing : c.doing <;> simp [hdoing, hother]
  | _ => rfl

/-- An operation is performed for a connection that has been accepted. -/
theorem performed_lt : ∀ x ∈ s.performed step, x.1 < s.connections.length := by
  intro x hx
  cases step with
  | serve i env failure =>
    rw [performed] at hx
    cases hconnection : s.connections[i]? with
    | none =>
      rw [hconnection] at hx
      cases hx
    | some c =>
      rw [hconnection] at hx
      obtain ⟨op, -, rfl⟩ := List.mem_map.1 hx
      exact (List.getElem?_eq_some_iff.1 hconnection).1
  | accept _ | stop => cases hx

/-- A connection that has been accepted keeps its number. -/
theorem next_length : s.connections.length ≤ (s.next options step).connections.length := by
  cases step with
  | accept incoming =>
    rw [next, List.length_append]
    exact Nat.le_add_right _ _
  | serve i env failure =>
    rw [next]
    cases s.connections[i]? with
    | none => rfl
    | some c => exact List.length_set.ge
  | stop => rfl

/-- **A server is a controller that is called remotely.** In every interleaving, what happens to the
pod is a run of the controller, each of whose calls is made for a connection of the server. On each
connection these are the calls that its frames ask for, in the order of the frames and once for
each, so that nothing else that is sent to the server touches the pod. -/
theorem server_refines_controller {options : ServerOptions} {w : World} {steps : List Step} :
    ∃ calls : List (ℕ × Call),
      (run options w steps).state.world = w.run (calls.map Prod.snd) ∧
      (∀ x ∈ calls, x.1 < (run options w steps).connections.length) ∧
      ∀ (i : ℕ) (c : Connection), (run options w steps).connections[i]? = some c →
        ((calls.filter (·.1 = i)).map fun x => x.2.op) = c.operations := by
  refine ⟨(trace options w steps).flatMap fun x => x.1.performed x.2, ?_, ?_, fun i c hc => ?_⟩
  · induction steps using List.reverseRecOn with
    | nil => rfl
    | append_singleton steps step ih =>
      rw [run_append, next_world run_faithful, ih, trace_append, List.flatMap_append,
        List.map_append, List.flatMap_singleton]
      exact Run.final_append.symm
  · induction steps using List.reverseRecOn with
    | nil =>
      intro x hx
      cases hx
    | append_singleton steps step ih =>
      intro x hx
      rw [trace_append, List.flatMap_append, List.flatMap_singleton] at hx
      rw [run_append]
      refine lt_of_lt_of_le ?_ next_length
      rcases List.mem_append.1 hx with hx | hx
      · exact ih x hx
      · exact performed_lt x hx
  · have hgathers := run_gathers (f := Connection.operations) (g := fun c _ _ => c.doing.toList)
      (fun _ => rfl) (fun h => Connection.serve_stepped.operations h) hc
    rw [hgathers, List.filter_flatMap, List.map_flatMap]
    refine List.flatMap_congr fun x _ => ?_
    rw [performed_does]
    cases x.2 with
    | serve j env failure =>
      rw [does, does]
      split
      · cases x.1.connections[i]? with
        | none => rfl
        | some c => cases hdoing : c.doing <;> simp [hdoing]
      · rfl
    | _ => rfl

end Pod

end PodServer

end PodFabric
