import PodFabric.Proof.ServerRuns

/-!
# A server that stops

Once `stopping_` is set, a connection takes no more frames, but for the one that its thread may
already be waiting for; a request for the shutdown is the last thing that its own connection answers
(`stop_drains`).
-/

namespace PodFabric

open Transport

/-- The frames that a thread may still read without looking at `stopping_`. -/
def Serving.waits : Serving → ℕ
  | .reading => 1
  | _ => 0

/-- The frame asked for the shutdown and was answered. -/
def Exchange.Stops (e : Exchange) : Prop :=
  e.reply.isSome = true ∧ e.frame.type = .request ∧
    ∃ request, Request.decode e.frame.payload = .ok request ∧ request.kind = .shutdown

namespace Connection

section Lemmas
variable {options : ServerOptions} {c c' : Connection} {frame answer : Transport.Frame}
  {reads : List (Env × World)} {failure : SendFailure} {serving : Serving} {response : Response}
  {s s' : ServerState} {env : Env} {e : Exchange}

/-- An idle connection has nothing pending. -/
theorem idle_pending (h : c.serving.idle = true) : c.pending = [] := by
  unfold pending
  split
  · next hserving =>
    rw [hserving] at h
    cases h
  · rfl

/-- A reply goes on as asked, or the connection is closed. -/
theorem reply_serving : (c.reply frame reads answer failure serving).serving = .closed ∨
    (c.reply frame reads answer failure serving).serving = serving := by
  rw [reply]
  split
  · exact .inl rfl
  · exact .inr rfl

/-- A response goes on as asked, or the connection is closed. -/
theorem respond_serving : (c.respond frame reads response failure serving).serving = .closed ∨
    (c.respond frame reads response failure serving).serving = serving := by
  rw [respond]
  split
  · exact .inl rfl
  · exact reply_serving

/-- A connection goes on to read only where it finds `stopping_` not set. -/
theorem serve_waits (h : s.stopping = true) :
    (serve options env failure s c).2.serving.waits = 0 := by
  have hdone : ∀ {place then_ : Serving}, place = .closed ∨ place = then_ → then_.waits = 0 →
      place.waits = 0 := by
    intro place then_ hplace hwaits
    obtain rfl | rfl := hplace
    · rfl
    · exact hwaits
  rw [serve]
  cases hserving : c.serving with
  | looping =>
    dsimp only
    rw [h]
    rfl
  | reading =>
    dsimp only
    split
    · rw [reject]
      split <;> rfl
    · rw [take]
      split
      · exact hdone reply_serving rfl
      · split
        · exact hdone respond_serving rfl
        · rfl
      · rfl
  | handling frame request reads rest =>
    cases rest with
    | access effect next => rfl
    | done outcome =>
      cases outcome with
      | error fault => rfl
      | ok response =>
        refine hdone respond_serving ?_
        split <;> rfl
  | setting => rfl
  | closed | lost =>
    dsimp only
    rw [hserving]
    rfl

/-- A step reads one frame at most, and only where the thread waits for one. -/
theorem Stepped.received_length (h : Stepped options env s c s' c') (hwaits : c'.serving.waits = 0) :
    c'.received.length + c'.serving.waits ≤ c.received.length + c.serving.waits := by
  rw [hwaits, received, received, List.length_append, List.length_append, List.length_map,
    List.length_map]
  cases h with
  | idle hwas hnow hsame _ =>
    rw [idle_pending hwas, idle_pending hnow, hsame]
    exact Nat.le_add_right _ _
  | answered hwas hnow hexchanges _ _ =>
    rw [idle_pending hnow, hexchanges, hwas, List.length_append]
    simp [Serving.waits]
  | begun hwas hnow hsame _ =>
    rw [pending, hnow, hsame, hwas]
    simp [Serving.waits]
  | called hwas hnow hsame _ =>
    rw [pending, pending, hnow, hsame, hwas]
    exact Nat.le_add_right _ _
  | finished hwas hnow hexchanges _ _ =>
    rw [idle_pending hnow, hexchanges, pending, hwas, List.length_append]
    exact Nat.le_add_right _ _

/-- A server that stops keeps stopping. -/
theorem serve_stopping (h : s.stopping = true) :
    (serve options env failure s c).1.stopping = true := by
  rw [serve]
  split
  · exact h
  · split
    · rw [reject]
      split <;> exact h
    · rw [take]
      split
      · exact h
      · split <;> exact h
      · exact h
  · exact h
  · exact h
  · exact h
  · rfl
  · exact h
  · exact h

/-- The connection has answered a request for the shutdown last, and is about to see to it, or has
done so. -/
def Leaving (stopping : Bool) (c : Connection) (e : Exchange) : Prop :=
  c.exchanges.getLast? = some e ∧
    (c.serving = .setting ∨ stopping = true ∧ c.serving = .closed)

/-- An exchange of a step is one from before, or the last one. -/
theorem Stepped.leaving (h : Stepped options env s c s' c')
    (hfaithful : c.Faithful options)
    (hbefore : ∀ e ∈ c.exchanges, ¬ e.Stops) (he : e ∈ c'.exchanges) (hstops : e.Stops) :
    Leaving s'.stopping c' e := by
  cases h with
  | idle _ _ hsame _ =>
    rw [hsame] at he
    exact absurd hstops (hbefore e he)
  | begun _ _ hsame _ =>
    rw [hsame] at he
    exact absurd hstops (hbefore e he)
  | called _ _ hsame _ =>
    rw [hsame] at he
    exact absurd hstops (hbefore e he)
  | answered _ _ hexchanges hunreadable _ =>
    rw [hexchanges, List.mem_append, List.mem_singleton] at he
    obtain he | rfl := he
    · exact absurd hstops (hbefore e he)
    · obtain ⟨-, htype, request, hdecode, -⟩ := hstops
      exact absurd hdecode (hunreadable htype request)
  | finished hwas _ hexchanges hgoes _ =>
    rw [hexchanges, List.mem_append, List.mem_singleton] at he
    obtain he | rfl := he
    · exact absurd hstops (hbefore e he)
    · obtain ⟨hsome, -, request, hdecode, hkind⟩ := hstops
      rw [Faithful, hwas] at hfaithful
      obtain ⟨-, -, hdecode', -⟩ := hfaithful
      rw [hdecode'] at hdecode
      cases hdecode
      refine ⟨?_, .inl (hgoes hsome hkind)⟩
      rw [hexchanges, List.getLast?_concat]

/-- A connection that has answered a request for the shutdown reads no more. -/
theorem serve_leaving (hfaithful : c.Faithful options)
    (h : ∀ e ∈ c.exchanges, e.Stops → Leaving s.stopping c e)
    (he : e ∈ (serve options env failure s c).2.exchanges) (hstops : e.Stops) :
    Leaving (serve options env failure s c).1.stopping (serve options env failure s c).2 e := by
  by_cases hserving : c.serving = .setting ∨ c.serving = .closed
  · obtain hserving | hserving := hserving
    · rw [serve, hserving] at he ⊢
      exact ⟨(h e he hstops).1, .inr ⟨rfl, rfl⟩⟩
    · rw [serve, hserving] at he ⊢
      exact h e he hstops
  · rw [not_or] at hserving
    refine serve_stepped.leaving hfaithful (fun e he hstops => ?_) he hstops
    obtain hsetting | ⟨-, hclosed⟩ := (h e he hstops).2
    · exact hserving.1 hsetting
    · exact hserving.2 hclosed

end Lemmas

end Connection

namespace PodServer
variable {options : ServerOptions} {w : World} {s : PodServer} {step : Step} {i : ℕ}
  {c : Connection}

/-- A server that stops keeps stopping, whatever step it takes. -/
theorem next_stopping (h : s.state.stopping = true) :
    (s.next options step).state.stopping = true := by
  cases step with
  | accept incoming => exact h
  | serve i env failure =>
    rw [next]
    split
    · exact h
    · exact Connection.serve_stopping h
  | stop => rfl

/-- What a connection may have read by the end of the run, once the server is to stop. -/
def allowance (s : PodServer) (i : ℕ) : ℕ :=
  s.connections[i]?.elim 0 fun c => c.received.length + c.serving.waits

/-- Once the server stops, no connection is allowed more steps. -/
theorem next_allowance (h : s.state.stopping = true) :
    (s.next options step).allowance i ≤ s.allowance i := by
  rw [allowance]
  cases hnext : (s.next options step).connections[i]? with
  | none => exact Nat.zero_le _
  | some c =>
    rw [allowance]
    cases next_moved hnext with
    | still hsame _ =>
      rw [hsame]
    | served hwas _ hnow =>
      rw [hwas, hnow]
      exact Connection.serve_stepped.received_length (Connection.serve_waits h)
    | accepted _ _ hnow =>
      rw [hnow]
      exact Nat.zero_le _

/-- The requests for the shutdown that were answered are the last of their connections. -/
theorem run_leaving {steps : List Step} {i : ℕ} {c : Connection}
    (h : (run options w steps).connections[i]? = some c) :
    ∀ e ∈ c.exchanges, e.Stops → Connection.Leaving (run options w steps).state.stopping c e := by
  induction steps using List.reverseRecOn generalizing i c with
  | nil => cases h
  | append_singleton steps step ih =>
    rw [run_append] at h ⊢
    intro e he hstops
    cases next_moved h with
    | still hsame _ =>
      obtain ⟨hlast, hserving⟩ := ih hsame e he hstops
      refine ⟨hlast, hserving.imp_right fun hclosed => ⟨next_stopping hclosed.1, hclosed.2⟩⟩
    | served hwas hstep hnow =>
      subst hstep hnow
      have hleaving := Connection.serve_leaving (run_faithful _ _ hwas) (ih hwas) he hstops
      rw [next, hwas]
      exact hleaving
    | accepted _ _ hnow =>
      rw [hnow] at he
      cases he

/-- **A server that is to stop takes no more requests.** From when `stopping_` is set, a connection
reads at most the one frame that its thread was waiting for then, and none if it was accepted later. A
request for the shutdown that is answered is the last of its connection, and has `stopping_` set
before the connection ends. -/
theorem stop_drains {options : ServerOptions} {w : World} {before after : List Step} {i : ℕ}
    {c : Connection} (h : (run options w (before ++ after)).connections[i]? = some c) :
    (∀ e ∈ c.exchanges, e.Stops → c.exchanges.getLast? = some e ∧
      (c.serving = .setting ∨ (run options w (before ++ after)).state.stopping = true)) ∧
    ((run options w before).state.stopping = true →
      c.received.length ≤ (run options w before).connections[i]?.elim 0 fun c =>
        c.received.length + c.serving.waits) := by
  constructor
  · intro e he hstops
    obtain ⟨hlast, hserving⟩ := run_leaving h e he hstops
    exact ⟨hlast, hserving.imp_right And.left⟩
  · intro hstopping
    have hdrains : (run options w (before ++ after)).state.stopping = true ∧
        (run options w (before ++ after)).allowance i ≤ (run options w before).allowance i := by
      clear h
      induction after using List.reverseRecOn with
      | nil =>
        rw [List.append_nil]
        exact ⟨hstopping, le_rfl⟩
      | append_singleton after step ih =>
        rw [← List.append_assoc, run_append]
        exact ⟨next_stopping ih.1, (next_allowance ih.1).trans ih.2⟩
    have hbound := hdrains.2
    rw [allowance, allowance, h] at hbound
    exact (Nat.le_add_right _ _).trans hbound

end PodServer

namespace Sample

/-- A request for the shutdown, in its frame. -/
def asking : Transport.Frame where
  type := .request
  correlation := 7
  payload := (Request.encode { kind := .shutdown }).toOption.getD []

/-- A peer asks for the shutdown and is answered. -/
def asked : List PodServer.Step :=
  .accept (.piece asking.bytes .closed) :: List.replicate 8 (.serve 0 env none)

/-- A peer that is accepted afterwards sends a ping. -/
def late : List PodServer.Step :=
  .accept (.piece Transport.Sample.ping.bytes .closed) :: List.replicate 3 (.serve 1 env none)

end Sample

namespace PodServer

set_option maxRecDepth 20000 in
/-- The request is the last of its connection and has `stopping_` set, and the connection that is
accepted later reads nothing. -/
theorem asked_drains : ∃ c c' e,
    (run {} (Sample.world false) (Sample.asked ++ Sample.late)).connections[0]? = some c ∧
      (run {} (Sample.world false) (Sample.asked ++ Sample.late)).connections[1]? = some c' ∧
        e ∈ c.exchanges ∧ e.Stops ∧ c.exchanges.getLast? = some e ∧ c'.received = [] := by
  have hrun : (run {} (Sample.world false) (Sample.asked ++ Sample.late)).connections.map
      (fun c => c.exchanges.map fun e => (e.reply.isSome, e.frame.type,
        (Request.decode e.frame.payload).toOption.map Request.kind)) =
          [[(true, .request, some .shutdown)], []] := by decide +kernel
  have hstopping : (run {} (Sample.world false) Sample.asked).state.stopping = true ∧
      (run {} (Sample.world false) Sample.asked).connections.length = 1 := by decide +kernel
  generalize hrest : run {} (Sample.world false) (Sample.asked ++ Sample.late) = s at hrun ⊢
  obtain ⟨c, cs, hcs, hfirst, hcs'⟩ := List.map_eq_cons_iff.1 hrun
  obtain ⟨c', cs', rfl, -, -⟩ := List.map_eq_cons_iff.1 hcs'
  obtain ⟨e, es, hes, he, -⟩ := List.map_eq_cons_iff.1 hfirst
  obtain ⟨hreply, he⟩ := Prod.mk.inj he
  obtain ⟨htype, hkind⟩ := Prod.mk.inj he
  have hc : s.connections[0]? = some c := by rw [hcs]; rfl
  have hc' : s.connections[1]? = some c' := by rw [hcs]; rfl
  have hin : e ∈ c.exchanges := hes ▸ List.mem_cons_self
  have hstops : e.Stops := by
    cases hdecode : Request.decode e.frame.payload with
    | error status =>
      rw [hdecode] at hkind
      cases hkind
    | ok request =>
      rw [hdecode] at hkind
      exact ⟨hreply, htype, request, hdecode, Option.some.inj hkind⟩
  rw [← hrest] at hc hc'
  refine ⟨c, c', e, hrest ▸ hc, hrest ▸ hc', hin, hstops, ((stop_drains hc).1 e hin hstops).1, ?_⟩
  have hbound := (stop_drains hc').2 hstopping.1
  rw [List.getElem?_eq_none (by rw [hstopping.2])] at hbound
  exact List.length_eq_zero_iff.1 (Nat.le_zero.1 hbound)

end PodServer

end PodFabric
