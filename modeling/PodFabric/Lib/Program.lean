import PodFabric.Lib.Run
import Mathlib.Data.List.Induction

/-!
# Programs that interleave

A program makes atomic accesses to a state that it shares with others, one after the other, until it
is done. In a pool any number of programs take turns. What a thread of a pool has come to depends
only on what its own accesses found (`Pool.thread_eq_after`).
-/

namespace PodFabric

/-- A program over a shared state: it is done, or it makes an access, for which it is given an
input. -/
inductive Program (ι σ α : Type)
  | done (result : α)
  | access (effect : ι → σ → σ) (next : ι → σ → Program ι σ α)

namespace Program
variable {ι σ α β : Type}

/-- One program after the other: `f` goes on with the result. -/
def bind : Program ι σ α → (α → Program ι σ β) → Program ι σ β
  | done a, f => f a
  | access effect next, f => access effect fun input s => (next input s).bind f

instance instMonadProgram : Monad (Program ι σ) where
  pure := done
  bind := bind

/-- One access. -/
def call (f : ι → σ → σ × α) : Program ι σ α :=
  access (fun input s => (f input s).1) fun input s => done (f input s).2

/-- What the program comes to when it makes exactly these accesses: each is given an input and finds
a state. -/
def after : Program ι σ α → List (ι × σ) → Option (Program ι σ α)
  | p, [] => some p
  | done _, _ :: _ => none
  | access _ next, found :: reads => (next found.1 found.2).after reads

/-- The program has an access to make. -/
def busy : Program ι σ α → Bool
  | done _ => false
  | access _ _ => true

/-- Before the first access the whole program is left. -/
@[simp] theorem after_nil : ∀ {p : Program ι σ α}, p.after [] = some p
  | done _ => rfl
  | access _ _ => rfl

/-- What is left after two runs of accesses, one behind the other. -/
theorem after_append : ∀ {p : Program ι σ α} {reads reads' : List (ι × σ)},
    p.after (reads ++ reads') = (p.after reads).bind (·.after reads')
  | _, [], _ => by rw [List.nil_append, after_nil, Option.bind_some]
  | done _, _ :: _, _ => rfl
  | access _ _, _ :: _, _ => by rw [List.cons_append, after, after_append, after]

/-- A program that is done makes no access. -/
theorem of_done {a b : α} : ∀ {reads : List (ι × σ)},
    (pure a : Program ι σ α).after reads = some (done b) → reads = [] ∧ a = b
  | [], h => ⟨rfl, Program.done.inj (Option.some.inj h)⟩
  | _ :: _, h => nomatch h

/-- A program that begins with a call is about to make it, or has made it. -/
theorem after_call {f : ι → σ → σ × α} {k : α → Program ι σ β} {p : Program ι σ β}
    {reads : List (ι × σ)} (h : (call f >>= k).after reads = some p) :
    (reads = [] ∧ p = access (fun input s => (f input s).1) fun input s => k (f input s).2) ∨
      ∃ input s rest, reads = (input, s) :: rest ∧ (k (f input s).2).after rest = some p := by
  cases reads with
  | nil => exact .inl ⟨rfl, (Option.some.inj h).symm⟩
  | cons found rest => exact .inr ⟨found.1, found.2, rest, rfl, h⟩

/-- A program that is done stays as it is. -/
theorem after_done {a : α} {p : Program ι σ α} {reads : List (ι × σ)}
    (h : (pure a : Program ι σ α).after reads = some p) : reads = [] ∧ p = done a := by
  cases reads with
  | nil => exact ⟨rfl, (Option.some.inj h).symm⟩
  | cons found rest => cases h

/-- A program that begins with a call is done only once the call is made. -/
theorem of_call {f : ι → σ → σ × α} {k : α → Program ι σ β} {b : β} :
    ∀ {reads : List (ι × σ)}, (call f >>= k).after reads = some (done b) →
      ∃ input s rest, reads = (input, s) :: rest ∧ (k (f input s).2).after rest = some (done b)
  | [], h => nomatch h
  | (input, s) :: rest, h => ⟨input, s, rest, rfl, h⟩

/-- Between its accesses the program finds the value of `f` as it has left it, from the `a`-th access
to the `b`-th. It has made `n` accesses before, and `left` is the state that these have left. -/
def Kept (f : σ → β) (a b : ℕ) : ℕ → σ → Program ι σ α → List (ι × σ) → Prop
  | n, left, access effect next, (input, s) :: reads =>
    (a ≤ n → n < b → f s = f left) ∧ Kept f a b (n + 1) (effect input s) (next input s) reads
  | _, _, _, _ => True

/-- A program that has made no access has found nothing changed. -/
theorem kept_nil {f : σ → β} {a b n : ℕ} {left : σ} : ∀ {p : Program ι σ α}, p.Kept f a b n left []
  | done _ => trivial
  | access _ _ => trivial

/-- Every access of the program keeps the invariant. -/
def Preserves (P : σ → Prop) : Program ι σ α → Prop
  | done _ => True
  | access effect next => ∀ input s, P s → P (effect input s) ∧ (next input s).Preserves P

/-- A program without accesses preserves everything. -/
theorem Preserves.pure {P : σ → Prop} {a : α} : (pure a : Program ι σ α).Preserves P := trivial

/-- One access preserves what its function preserves. -/
theorem Preserves.call {P : σ → Prop} {f : ι → σ → σ × α} (h : ∀ input s, P s → P (f input s).1) :
    (call f).Preserves P := fun input s hs => ⟨h input s hs, trivial⟩

/-- Programs in turn preserve what each of them preserves. -/
theorem Preserves.bind {P : σ → Prop} {f : α → Program ι σ β} (hf : ∀ a, (f a).Preserves P) :
    ∀ {p : Program ι σ α}, p.Preserves P → (p >>= f).Preserves P
  | done a, _ => hf a
  | access _ _, h => fun input s hs =>
    ⟨(h input s hs).1, Preserves.bind hf (h input s hs).2⟩

end Program

/-! ## Pools -/

/-- A state that is shared by threads, each with its task and what its program has come to. -/
structure Pool (κ ι σ α : Type) where
  shared : σ
  threads : List (κ × Program ι σ α) := []

/-- What happens next in a pool: a thread is started on a task, or a thread makes its next
access. -/
inductive Turn (κ ι : Type)
  | start (task : κ)
  | proceed (thread : ℕ) (input : ι)

namespace Pool
variable {κ ι σ α : Type} (program : κ → Program ι σ α)

/-- One turn of the pool: a task is started, or a thread makes its next access. -/
def next (pool : Pool κ ι σ α) : Turn κ ι → Pool κ ι σ α
  | .start task => { pool with threads := pool.threads ++ [(task, program task)] }
  | .proceed thread input =>
    match pool.threads[thread]? with
    | some (task, .access effect continue_) =>
      { shared := effect input pool.shared
        threads := pool.threads.set thread (task, continue_ input pool.shared) }
    | _ => pool

/-- The access of a thread in a turn, with the state it finds. -/
def accessOf (thread : ℕ) (pool : Pool κ ι σ α) : Turn κ ι → Option (ι × σ)
  | .start _ => none
  | .proceed turn input =>
    if turn = thread ∧ pool.threads[thread]?.any fun p => p.2.busy then some (input, pool.shared)
    else none

/-- The accesses of a thread in a run. -/
def accesses (thread : ℕ) (trace : List (Pool κ ι σ α × Turn κ ι)) : List (ι × σ) :=
  trace.filterMap fun x => x.1.accessOf thread x.2

/-- The part of a run that follows the first accesses of a thread. -/
def since (thread : ℕ) : ℕ → List (Pool κ ι σ α × Turn κ ι) → List (Pool κ ι σ α × Turn κ ι)
  | 0, trace => trace
  | _ + 1, [] => []
  | n + 1, x :: trace =>
    if (x.1.accessOf thread x.2).isSome then since thread n trace else since thread (n + 1) trace

/-- The other threads keep the value of `f` between the `a`-th access of a thread and its `b`-th. The
thread has made `n` accesses before. -/
def Keeps {β : Type} (f : σ → β) (thread a b : ℕ) : ℕ → List (Pool κ ι σ α × Turn κ ι) → Prop
  | _, [] => True
  | n, x :: trace =>
    if (x.1.accessOf thread x.2).isSome then Keeps f thread a b (n + 1) trace
    else (a ≤ n → n < b → f (x.1.next program x.2).shared = f x.1.shared) ∧
      Keeps f thread a b n trace

instance decidableKeeps {β : Type} [DecidableEq β] {f : σ → β} {thread a b : ℕ} :
    ∀ {n : ℕ} {trace : List (Pool κ ι σ α × Turn κ ι)},
      Decidable (Keeps program f thread a b n trace)
  | _, [] => inferInstanceAs (Decidable True)
  | n, _ :: trace =>
    have := @decidableKeeps β _ f thread a b (n + 1) trace
    have := @decidableKeeps β _ f thread a b n trace
    inferInstanceAs (Decidable (ite _ _ _))

section Lemmas
variable {program} {n : ℕ} {pool : Pool κ ι σ α} {turn : Turn κ ι} {turns : List (Turn κ ι)}
  {thread : ℕ} {task : κ} {p : Program ι σ α} {trace : List (Pool κ ι σ α × Turn κ ι)}

/-- The accesses of a thread in a trace: that of the first turn, then the others. -/
theorem accesses_cons {x : Pool κ ι σ α × Turn κ ι} :
    accesses thread (x :: trace) = (x.1.accessOf thread x.2).toList ++ accesses thread trace := by
  rw [accesses, List.filterMap_cons]
  cases x.1.accessOf thread x.2 <;> rfl

/-- The accesses of a thread in two traces, one behind the other. -/
theorem accesses_append {trace' : List (Pool κ ι σ α × Turn κ ι)} :
    accesses thread (trace ++ trace') = accesses thread trace ++ accesses thread trace' :=
  List.filterMap_append

/-- Every access of a thread is made at a turn of the trace. -/
theorem mem_of_accesses {found : ι × σ} (h : found ∈ accesses thread trace) :
    ∃ x ∈ trace, x.1.shared = found.2 := by
  obtain ⟨x, hx, haccess⟩ := List.mem_filterMap.1 h
  refine ⟨x, hx, ?_⟩
  obtain ⟨pool, turn⟩ := x
  cases turn with
  | start task => cases haccess
  | proceed other input =>
    obtain ⟨-, hfound⟩ := Option.ite_none_right_eq_some.1 haccess
    rw [← Option.some.inj hfound]

/-- What follows the first accesses of a thread has its later ones. -/
theorem accesses_since : ∀ {n : ℕ} {trace : List (Pool κ ι σ α × Turn κ ι)},
    accesses thread (since thread n trace) = (accesses thread trace).drop n
  | 0, _ => by rw [since, List.drop_zero]
  | _ + 1, [] => by rw [since, accesses, List.filterMap_nil, List.drop_nil]
  | n + 1, x :: trace => by
    rw [since, accesses_cons]
    cases haccess : x.1.accessOf thread x.2 with
    | none => exact accesses_since
    | some found =>
      rw [if_pos (by rfl), accesses_since, Option.toList_some, List.singleton_append,
        List.drop_succ_cons]

/-- A turn is an access of a thread or leaves it as it is. -/
theorem next_thread (h : pool.threads[thread]? = some (task, p)) :
    ∃ p', (pool.next program turn).threads[thread]? = some (task, p') ∧
      p.after (pool.accessOf thread turn).toList = some p' := by
  have hlt : thread < pool.threads.length := (List.getElem?_eq_some_iff.1 h).1
  cases turn with
  | start other =>
    refine ⟨p, ?_, Program.after_nil⟩
    rw [next, List.getElem?_append_left hlt, h]
  | proceed other input =>
    by_cases hsame : other = thread
    · subst hsame
      cases p with
      | done a => exact ⟨.done a, by simp [next, h], by simp [accessOf, h, Program.busy]⟩
      | access effect continue_ =>
        refine ⟨continue_ input pool.shared, ?_, ?_⟩
        · simp only [next, h]
          exact List.getElem?_set_self hlt
        · have haccess : pool.accessOf other (.proceed other input) = some (input, pool.shared) := by
            rw [accessOf, h]
            exact if_pos ⟨rfl, rfl⟩
          rw [haccess, Option.toList_some, Program.after, Program.after_nil]
    · have hnone : pool.accessOf thread (.proceed other input) = none := by
        simp [accessOf, hsame]
      refine ⟨p, ?_, by rw [hnone, Option.toList_none, Program.after_nil]⟩
      rw [next]
      split
      · rw [List.getElem?_set_ne hsame, h]
      · exact h

/-- A thread that is not there yet is started, or is still not there. -/
theorem next_new (h : pool.threads[thread]? = none)
    (h' : (pool.next program turn).threads[thread]? = some (task, p)) :
    p = program task ∧ pool.accessOf thread turn = none := by
  cases turn with
  | start other =>
    rw [next, List.getElem?_append_right (List.getElem?_eq_none_iff.1 h)] at h'
    cases hat : thread - pool.threads.length with
    | zero =>
      rw [hat] at h'
      simp only [List.getElem?_cons_zero, Option.some.injEq, Prod.mk.injEq] at h'
      exact ⟨by rw [← h'.2, h'.1], rfl⟩
    | succ n =>
      rw [hat] at h'
      simp at h'
  | proceed other input =>
    have hle := List.getElem?_eq_none_iff.1 h
    rw [next] at h'
    split at h'
    · rw [List.getElem?_eq_none (by simpa using hle)] at h'
      cases h'
    · rw [h] at h'
      cases h'

/-- A thread that is there stays there. -/
theorem thread_none (h : (pool.next program turn).threads[thread]? = none) :
    pool.threads[thread]? = none := by
  cases hthread : pool.threads[thread]? with
  | none => rfl
  | some t =>
    obtain ⟨_, hnext, -⟩ := @next_thread _ _ _ _ program pool turn thread t.1 t.2 hthread
    rw [hnext] at h
    cases h

/-- A thread that does not exist makes no access. -/
theorem accessOf_none (h : pool.threads[thread]? = none) : pool.accessOf thread turn = none := by
  cases turn with
  | start task => rfl
  | proceed other input => simp [accessOf, h]

/-- A thread that is not there at the end never was, and has made no access. -/
theorem accesses_none : ∀ {pool : Pool κ ι σ α} {turns : List (Turn κ ι)},
    (Run.final (next program) pool turns).threads[thread]? = none →
      pool.threads[thread]? = none ∧ accesses thread (Run.trace (next program) pool turns) = []
  | _, [], h => ⟨h, rfl⟩
  | _, turn :: turns, h => by
    obtain ⟨hnext, hnil⟩ := @accesses_none _ turns h
    have hnone := thread_none hnext
    refine ⟨hnone, ?_⟩
    rw [Run.trace_cons, accesses_cons, accessOf_none hnone, hnil, Option.toList_none,
      List.nil_append]

/-- A thread of a pool has come to what its program comes to by its accesses. -/
theorem thread_eq_after (hnew : pool.threads = [])
    (h : (Run.final (next program) pool turns).threads[thread]? = some (task, p)) :
    (program task).after (accesses thread (Run.trace (next program) pool turns)) = some p := by
  induction turns using List.reverseRecOn generalizing p with
  | nil => rw [Run.final_nil, hnew] at h; cases h
  | append_singleton turns turn ih =>
    set before := Run.final (next program) pool turns with hbefore
    have hafter : Run.final (next program) pool (turns ++ [turn]) = before.next program turn :=
      Run.final_append
    have haccesses : accesses thread (Run.trace (next program) pool (turns ++ [turn])) =
        accesses thread (Run.trace (next program) pool turns) ++
          (before.accessOf thread turn).toList := by
      rw [Run.trace_append, accesses_append, Run.trace_cons, accesses_cons, ← hbefore,
        Run.trace_nil, accesses, accesses, List.filterMap_nil, List.append_nil]
    rw [hafter] at h
    rw [haccesses, Program.after_append]
    cases hthread : before.threads[thread]? with
    | none =>
      obtain ⟨rfl, hnone⟩ := next_new hthread h
      rw [(accesses_none hthread).2, hnone, Program.after_nil, Option.bind_some,
        Option.toList_none, Program.after_nil]
    | some t =>
      obtain ⟨task', p₀⟩ := t
      obtain ⟨p', hnext, hafter⟩ := next_thread hthread
      obtain ⟨rfl, rfl⟩ := Prod.mk.inj (Option.some.inj (hnext.symm.trans h))
      rw [ih hthread, Option.bind_some, hafter]

/-- An access of a thread, made by its program. -/
theorem next_access {found : ι × σ} (h : pool.threads[thread]? = some (task, p))
    (haccess : pool.accessOf thread turn = some found) :
    found.2 = pool.shared ∧ ∃ effect continue_, p = .access effect continue_ ∧
      (pool.next program turn).shared = effect found.1 found.2 ∧
      (pool.next program turn).threads[thread]? = some (task, continue_ found.1 found.2) := by
  cases turn with
  | start other => cases haccess
  | proceed other input =>
    rw [accessOf, h] at haccess
    obtain ⟨⟨rfl, hbusy⟩, hfound⟩ := Option.ite_none_right_eq_some.1 haccess
    obtain rfl := Option.some.inj hfound
    cases p with
    | done a => cases hbusy
    | access effect continue_ =>
      refine ⟨rfl, effect, continue_, rfl, ?_, ?_⟩
      · simp only [next, h]
      · simp only [next, h]
        exact List.getElem?_set_self (List.getElem?_eq_some_iff.1 h).1

variable {β : Type} {f : σ → β} {a b : ℕ}

/-- A program whose thread the others leave alone finds what it has left. -/
theorem kept_of_keeps {left : σ} (h : pool.threads[thread]? = some (task, p))
    (hleft : a ≤ n → n < b → f pool.shared = f left)
    (hkeeps : Keeps program f thread a b n (Run.trace (next program) pool turns)) :
    p.Kept f a b n left (accesses thread (Run.trace (next program) pool turns)) := by
  induction turns generalizing pool n left p with
  | nil => exact Program.kept_nil
  | cons turn turns ih =>
    rw [Run.trace_cons, Keeps] at hkeeps
    rw [Run.trace_cons, accesses_cons]
    cases haccess : pool.accessOf thread turn with
    | none =>
      rw [haccess, if_neg (by simp)] at hkeeps
      obtain ⟨p', hnext, hafter⟩ := @next_thread _ _ _ _ program pool turn thread task p h
      rw [haccess, Option.toList_none, Program.after_nil, Option.some.injEq] at hafter
      subst hafter
      exact ih hnext (fun ha hb => (hkeeps.1 ha hb).trans (hleft ha hb)) hkeeps.2
    | some found =>
      rw [haccess, if_pos (by rfl)] at hkeeps
      obtain ⟨hshared, effect, continue_, rfl, hleaves, hnext⟩ :=
        @next_access _ _ _ _ program pool turn thread task p found h haccess
      refine ⟨fun ha hb => hshared ▸ hleft ha hb, ih hnext (fun _ _ => ?_) hkeeps⟩
      rw [hleaves]

/-- A thread keeps its task. -/
theorem final_thread (h : pool.threads[thread]? = some (task, p)) :
    ∃ p', (Run.final (next program) pool turns).threads[thread]? = some (task, p') := by
  induction turns generalizing pool p with
  | nil => exact ⟨p, h⟩
  | cons turn turns ih =>
    obtain ⟨p', hnext, -⟩ := @next_thread _ _ _ _ program pool turn thread task p h
    exact ih hnext

/-- The program of a thread that is started in a run finds what it has left, where the other threads
keep it. -/
theorem kept_of_run {left : σ} (hnew : pool.threads[thread]? = none) (ha : 0 < a)
    (h : (Run.final (next program) pool turns).threads[thread]? = some (task, p))
    (hkeeps : Keeps program f thread a b 0 (Run.trace (next program) pool turns)) :
    (program task).Kept f a b 0 left (accesses thread (Run.trace (next program) pool turns)) := by
  induction turns generalizing pool with
  | nil =>
    rw [Run.final_nil, hnew] at h
    cases h
  | cons turn turns ih =>
    have hnone : pool.accessOf thread turn = none := accessOf_none hnew
    rw [Run.trace_cons, Keeps, hnone, if_neg (by simp)] at hkeeps
    rw [Run.trace_cons, accesses_cons, hnone, Option.toList_none, List.nil_append]
    cases hthread : (pool.next program turn).threads[thread]? with
    | none => exact ih hthread h hkeeps.2
    | some t =>
      obtain ⟨task', p'⟩ := t
      obtain ⟨rfl, -⟩ := next_new hnew hthread
      obtain ⟨_, hfinal⟩ := @final_thread _ _ _ _ program _ turns thread task' _ hthread
      obtain ⟨rfl, -⟩ := Prod.mk.inj (Option.some.inj (hfinal.symm.trans h))
      exact kept_of_keeps hthread (fun hzero => absurd hzero (by omega)) hkeeps.2

/-- An invariant that every program preserves holds in every state of a run. -/
theorem trace_preserves {P : σ → Prop} (hprogram : ∀ task, (program task).Preserves P)
    (hnew : pool.threads = []) (hstart : P pool.shared) :
    (∀ x ∈ Run.trace (next program) pool turns, P x.1.shared) := by
  have hall : ∀ x ∈ Run.trace (next program) pool turns,
      P x.1.shared ∧ ∀ t ∈ x.1.threads, t.2.Preserves P := by
    refine (Run.trace_invariant (P := fun pool : Pool κ ι σ α => P pool.shared ∧
      ∀ t ∈ pool.threads, t.2.Preserves P) ⟨hstart, by simp [hnew]⟩ ?_).1
    rintro ⟨pool, turn⟩ - ⟨hshared, hthreads⟩
    cases turn with
    | start task =>
      refine ⟨hshared, fun t ht => ?_⟩
      rcases List.mem_append.1 ht with ht | ht
      · exact hthreads t ht
      · rw [List.mem_singleton.1 ht]
        exact hprogram task
    | proceed thread input =>
      rw [next]
      split
      · next task effect continue_ hthread =>
        have hkeeps : Program.Preserves P (.access effect continue_) :=
          hthreads _ (List.mem_of_getElem? hthread)
        refine ⟨(hkeeps input pool.shared hshared).1, fun t ht => ?_⟩
        rcases List.mem_or_eq_of_mem_set ht with ht | rfl
        · exact hthreads t ht
        · exact (hkeeps input pool.shared hshared).2
      · exact ⟨hshared, hthreads⟩
  exact fun x hx => (hall x hx).1

end Lemmas

end Pool

end PodFabric
