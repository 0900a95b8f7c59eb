import Mathlib.Data.List.Basic
import PodFabric.Lib.Proc

/-!
# Mirrored codecs

A writer appends units to a buffer that has a limit; a reader takes units off the front of its
input. What a writer writes does not depend on the buffer but for the limit (`Writes`). A reader
mirrors a family of writers when it accepts exactly what they write, with the value it was written
for (`Mirrors`); mirrors compose along the fields of a record (`Mirrors.bind`) and over lists
(`Mirrors.many`).
-/

namespace PodFabric

/-! ## Writers and readers -/

/-- What has been written, and how long it may become. -/
structure Buffer (β : Type) where
  units : List β := []
  limit : ℕ
  overflowed : Bool := false

namespace Buffer
variable {β : Type}

/-- How many units still fit. -/
def room (w : Buffer β) : ℕ := w.limit - min w.limit w.units.length

/-- The buffer with `us` written behind what it holds. -/
def append (w : Buffer β) (us : List β) : Buffer β := { w with units := w.units ++ us }

/-- Writing nothing leaves the buffer as it is. -/
@[simp] theorem append_nil (w : Buffer β) : w.append [] = w := by
  simp [append]

/-- Two writes are one write of both texts. -/
@[simp] theorem append_append (w : Buffer β) (us vs : List β) :
    (w.append us).append vs = w.append (us ++ vs) := by
  simp [append]

/-- A write takes its length from the room left. -/
@[simp] theorem room_append (w : Buffer β) (us : List β) :
    (w.append us).room = w.room - us.length := by
  simp only [room, append, List.length_append]
  omega

end Buffer

/-- A writer: it may fail, and what it has written up to then stays. -/
abbrev Put (ε β : Type) := Proc ε (Buffer β)

/-- A reader of the rest of the input. -/
abbrev Get (ε β : Type) := StateT (List β) (Except ε)

section Definitions
variable {ε α β : Type}

/-- Appends units if they fit, and reports the overflow otherwise. -/
def Put.emit (e : ε) (us : List β) : Put ε β Unit := do
  let w ← get
  if w.room < us.length then
    set { w with overflowed := true }
    throw e
  else set (w.append us)

/-- Takes the given number of units. -/
def Get.take (e : ε) (n : ℕ) : Get ε β (List β) := do
  let l ← get
  if l.length < n then throw e
  set (l.drop n)
  return l.take n

/-- Reads the given number of items. -/
def Get.many (get : Get ε β α) : ℕ → Get ε β (List α)
  | 0 => pure []
  | n + 1 => do
    let a ← get
    let as ← many get n
    return a :: as

/-- The writer writes these units wherever they fit; or it fails everywhere. -/
def Writes (p : Put ε β Unit) : Option (List β) → Prop
  | some us => ∀ w : Buffer β, (us.length ≤ w.room → p.on w = (.ok (), w.append us)) ∧
      (w.room < us.length → (p.on w).1.isOk = false)
  | none => ∀ w : Buffer β, (p.on w).1.isOk = false

/-- The reader mirrors the writers on the domain: it accepts exactly what they write for a value of
the domain, which is `n` units long at least. -/
structure Mirrors (n : ℕ) (C : α → Prop) (put : α → Put ε β Unit) (get : Get ε β α) : Prop where
  writes : ∀ a, C a → ∃ out, Writes (put a) out
  long : ∀ a, C a → ∀ us, Writes (put a) (some us) → n ≤ us.length
  reads : ∀ l a rest, get.run l = .ok (a, rest) ↔
    C a ∧ ∃ us, Writes (put a) (some us) ∧ l = us ++ rest

end Definitions

/-! ## Writers in sequence -/

section Sequence
variable {ε β : Type} {p : Put ε β Unit} {q : Unit → Put ε β Unit} {us vs : List β}
  {w : Buffer β}

/-- What emitting does: the units are written when they fit, or the buffer overflows. -/
theorem Put.on_emit {e : ε} : (Put.emit e us).on w =
    if w.room < us.length then (.error e, { w with overflowed := true })
    else (.ok (), w.append us) := by
  change Proc.on (if w.room < us.length then (do set { w with overflowed := true }; throw e)
    else set (w.append us)) w = _
  split <;> rfl

/-- Returning writes nothing. -/
theorem Writes.pure : Writes (Pure.pure () : Put ε β Unit) (some []) :=
  fun w => ⟨fun _ => by simp [Proc.on_pure], fun h => by simp at h⟩

/-- Emitting `us` writes `us`. -/
theorem Writes.emit {e : ε} : Writes (Put.emit e us) (some us) := by
  intro w
  rw [Put.on_emit]
  exact ⟨fun h => if_neg (by omega), fun h => by rw [if_pos h]; rfl⟩

/-- Two writers in turn write one text behind the other. -/
theorem Writes.bind (hp : Writes p (some us)) (hq : Writes (q ()) (some vs)) :
    Writes (p >>= q) (some (us ++ vs)) := by
  intro w
  rw [Proc.on_bind, List.length_append]
  refine ⟨fun h => ?_, fun h => ?_⟩
  · rw [(hp w).1 (by omega)]
    change (q ()).on (w.append us) = _
    rw [(hq _).1 (by rw [Buffer.room_append]; omega), Buffer.append_append]
  · by_cases hfirst : us.length ≤ w.room
    · rw [(hp w).1 hfirst]
      exact (hq _).2 (by rw [Buffer.room_append]; omega)
    · have herror := (hp w).2 (by omega)
      rcases hpw : p.on w with ⟨x, w'⟩
      rw [hpw] at herror
      cases x with
      | ok a => cases herror
      | error e => rfl

/-- A writer that fails makes the sequence fail. -/
theorem Writes.bind_none (h : Writes p none ∨ Writes (q ()) none) : Writes (p >>= q) none := by
  intro w
  rw [Proc.on_bind]
  rcases hpw : p.on w with ⟨x, w'⟩
  cases x with
  | error e => rfl
  | ok a =>
    rcases h with h | h
    · have := h w
      rw [hpw] at this
      cases this
    · exact h w'

/-- Writers in sequence write if they do. -/
theorem Writes.exists_bind (hp : ∃ out, Writes p out) (hq : ∃ out, Writes (q ()) out) :
    ∃ out, Writes (p >>= q) out := by
  obtain ⟨out, hp⟩ := hp
  obtain ⟨out', hq⟩ := hq
  cases out with
  | none => exact ⟨none, .bind_none (.inl hp)⟩
  | some us =>
    cases out' with
    | none => exact ⟨none, .bind_none (.inr hq)⟩
    | some vs => exact ⟨_, hp.bind hq⟩

/-- A writer has one way of writing. -/
theorem Writes.unique {out out' : Option (List β)} (h : Writes p out) (h' : Writes p out') :
    out = out' := by
  cases out with
  | none =>
    cases out' with
    | none => rfl
    | some vs =>
      have hnone := h ⟨[], vs.length, false⟩
      rw [(h' ⟨[], vs.length, false⟩).1 (by simp [Buffer.room])] at hnone
      cases hnone
  | some us =>
    cases out' with
    | none =>
      have hnone := h' ⟨[], us.length, false⟩
      rw [(h ⟨[], us.length, false⟩).1 (by simp [Buffer.room])] at hnone
      cases hnone
    | some vs =>
      have hroom : ∀ ws : List β, ws.length ≤ us.length + vs.length →
          ws.length ≤ (⟨[], us.length + vs.length, false⟩ : Buffer β).room := by
        intro ws hws
        simpa [Buffer.room] using hws
      have hus := (h _).1 (hroom us (by omega))
      rw [(h' _).1 (hroom vs (by omega))] at hus
      have happend := congrArg (fun r => r.2.units) hus
      exact congrArg some (by simpa [Buffer.append] using happend.symm)

/-- What a sequence of writers writes comes in two parts. -/
theorem Writes.of_bind {out out' : Option (List β)} (hp : Writes p out) (hq : Writes (q ()) out')
    (h : Writes (p >>= q) (some us)) :
    ∃ vs ws, out = some vs ∧ out' = some ws ∧ us = vs ++ ws := by
  cases out with
  | none => cases h.unique (Writes.bind_none (.inl hp))
  | some vs =>
    cases out' with
    | none => cases h.unique (Writes.bind_none (.inr hq))
    | some ws => exact ⟨vs, ws, rfl, rfl, Option.some.inj (h.unique (hp.bind hq))⟩

end Sequence

/-! ## Mirrors -/

section Read
variable {ε α β γ : Type} {get : Get ε β γ} {k : γ → Get ε β α} {l rest : List β} {a : α}

/-- A reader followed by another succeeds when both do, the second on what the first leaves. -/
theorem Get.run_bind_eq_ok : (get >>= k).run l = .ok (a, rest) ↔
    ∃ x l', get.run l = .ok (x, l') ∧ (k x).run l' = .ok (a, rest) := by
  rw [StateT.run_bind]
  cases h : get.run l with
  | error e => simp [bind, Except.bind]
  | ok r =>
    obtain ⟨x, l'⟩ := r
    simp [bind, Except.bind]

/-- Taking `n` units succeeds on a list that has them, and returns exactly these. -/
theorem Get.run_take_eq_ok {e : ε} {n : ℕ} {us : List β} :
    (Get.take e n : Get ε β (List β)).run l = .ok (us, rest) ↔ us.length = n ∧ l = us ++ rest := by
  have htake : (Get.take e n : Get ε β (List β)).run l =
      if l.length < n then .error e else .ok (l.take n, l.drop n) := by
    by_cases h : l.length < n
    · rw [if_pos h]
      exact congrArg (fun get : Get ε β (List β) => get.run l) (if_pos h)
    · rw [if_neg h]
      exact congrArg (fun get : Get ε β (List β) => get.run l) (if_neg h)
  rw [htake]
  split
  · next h =>
    simp only [reduceCtorEq, false_iff, not_and]
    rintro rfl rfl
    rw [List.length_append] at h
    omega
  · next h =>
    simp only [Except.ok.injEq, Prod.mk.injEq]
    constructor
    · rintro ⟨rfl, rfl⟩
      exact ⟨by simp; omega, (List.take_append_drop n l).symm⟩
    · rintro ⟨rfl, rfl⟩
      simp

end Read

namespace Mirrors
variable {ε α β γ : Type} {n m : ℕ} {C C' : α → Prop} {C₁ : γ → Prop} {put : α → Put ε β Unit}
  {get : Get ε β α} {p : γ → Put ε β Unit} {g : Get ε β γ} {k : γ → Get ε β α} {f : α → γ}

/-- The condition of a mirrored pair may be replaced by an equivalent one. -/
theorem congr (h : Mirrors n C put get) (hC : ∀ a, C' a ↔ C a) : Mirrors n C' put get :=
  ⟨fun a ha => h.writes a ((hC a).1 ha), fun a ha => h.long a ((hC a).1 ha), fun l a rest => by
    rw [hC, h.reads]⟩

/-- The writers matter on the domain only. -/
theorem congrPut {put' : α → Put ε β Unit} (h : Mirrors n C put get)
    (hput : ∀ a, C a → put' a = put a) : Mirrors n C put' get := by
  refine ⟨fun a ha => hput a ha ▸ h.writes a ha, fun a ha => hput a ha ▸ h.long a ha,
    fun l a rest => ?_⟩
  rw [h.reads]
  refine and_congr_right fun ha => ?_
  rw [hput a ha]

/-- A mirrored pair of a small bound is one of a larger bound. -/
theorem weaken (h : Mirrors n C put get) (hm : m ≤ n) : Mirrors m C put get :=
  ⟨h.writes, fun a ha us hus => Nat.le_trans hm (h.long a ha us hus), h.reads⟩

/-- Nothing is left to read when the value is determined. -/
theorem pure {b : α} (h : ∀ a, C a ↔ a = b) :
    Mirrors 0 C (fun _ => (Pure.pure () : Put ε β Unit)) (Pure.pure b) := by
  refine ⟨fun _ _ => ⟨_, Writes.pure⟩, fun _ _ _ _ => Nat.zero_le _, fun l a rest => ?_⟩
  rw [h, StateT.run_pure]
  constructor
  · intro hrun
    obtain ⟨rfl, rfl⟩ : b = a ∧ l = rest := by simpa [Pure.pure, Except.pure] using hrun
    exact ⟨rfl, [], Writes.pure, rfl⟩
  · rintro ⟨rfl, us, hus, rfl⟩
    cases Writes.pure.unique hus
    rfl

/-- There is no value to read. -/
theorem fail {e : ε} (h : ∀ a, ¬ C a) : Mirrors n C put (throw e) := by
  refine ⟨fun a ha => absurd ha (h a), fun a ha => absurd ha (h a), fun l a rest => ?_⟩
  constructor
  · intro hrun
    cases hrun
  · rintro ⟨ha, -⟩
    exact absurd ha (h a)

/-- A number of units that is read as it is. -/
theorem take {e e' : ε} {n : ℕ} :
    Mirrors n (fun us : List β => us.length = n) (Put.emit e) (Get.take e' n) := by
  refine ⟨fun us _ => ⟨_, Writes.emit⟩, fun us hlength us' hus => ?_, fun l us rest => ?_⟩
  · cases Writes.emit.unique hus
    exact Nat.le_of_eq hlength.symm
  · rw [Get.run_take_eq_ok]
    refine and_congr_right fun _ => ⟨fun hl => ⟨us, Writes.emit, hl⟩, ?_⟩
    rintro ⟨us', hus, hl⟩
    cases Writes.emit.unique hus
    exact hl

/-- One field of a record, and what follows it. -/
theorem bind {q : α → Put ε β Unit} (h : Mirrors n C₁ p g) (hC : ∀ a, C a → C₁ (f a))
    (hk : ∀ x, C₁ x → Mirrors (m - n) (fun a => C a ∧ f a = x) q (k x)) :
    Mirrors m C (fun a => p (f a) >>= fun _ => q a) (g >>= k) := by
  -- what is written for a value of the domain comes in two parts
  have hparts : ∀ a, C a → ∀ us, Writes (p (f a) >>= fun _ => q a) (some us) →
      ∃ vs ws, Writes (p (f a)) (some vs) ∧ Writes (q a) (some ws) ∧ us = vs ++ ws := by
    intro a ha us hus
    obtain ⟨out, hout⟩ := h.writes _ (hC a ha)
    obtain ⟨out', hout'⟩ := (hk _ (hC a ha)).writes a ⟨ha, rfl⟩
    obtain ⟨vs, ws, rfl, rfl, rfl⟩ := Writes.of_bind hout hout' hus
    exact ⟨vs, ws, hout, hout', rfl⟩
  refine ⟨fun a ha => ?_, fun a ha us hus => ?_, fun l a rest => ?_⟩
  · exact Writes.exists_bind (h.writes _ (hC a ha)) ((hk _ (hC a ha)).writes a ⟨ha, rfl⟩)
  · obtain ⟨vs, ws, hvs, hws, rfl⟩ := hparts a ha us hus
    have hfirst := h.long _ (hC a ha) vs hvs
    have hsecond := (hk _ (hC a ha)).long a ⟨ha, rfl⟩ ws hws
    rw [List.length_append]
    omega
  · rw [Get.run_bind_eq_ok]
    constructor
    · rintro ⟨x, l', hg, hrun⟩
      obtain ⟨hx, us, hus, rfl⟩ := (h.reads ..).1 hg
      obtain ⟨⟨ha, rfl⟩, vs, hvs, rfl⟩ := ((hk x hx).reads ..).1 hrun
      exact ⟨ha, us ++ vs, hus.bind hvs, (List.append_assoc ..).symm⟩
    · rintro ⟨ha, us, hus, rfl⟩
      obtain ⟨vs, ws, hvs, hws, rfl⟩ := hparts a ha us hus
      refine ⟨f a, ws ++ rest, (h.reads ..).2 ⟨hC a ha, vs, hvs, List.append_assoc ..⟩, ?_⟩
      exact ((hk _ (hC a ha)).reads ..).2 ⟨⟨ha, rfl⟩, ws, hws, rfl⟩

/-- The last field of a record. -/
theorem last (h : Mirrors n C₁ p g) (hC : ∀ a, C a → C₁ (f a)) (hm : m ≤ n)
    (hk : ∀ x, C₁ x → Mirrors 0 (fun a => C a ∧ f a = x)
      (fun _ => (Pure.pure () : Put ε β Unit)) (k x)) :
    Mirrors m C (fun a => p (f a)) (g >>= k) := by
  have hbind := @bind ε α β γ n m C C₁ p g k f _ h hC fun x hx => by
    rw [Nat.sub_eq_zero_of_le hm]
    exact hk x hx
  simpa using hbind

/-- A check of the reader. When it fails, there is no value to read. -/
theorem checkRead {x : Except ε Unit} {k : Unit → Get ε β α}
    (h : x = .ok () → Mirrors n C put (k ())) (hnone : ∀ a, C a → x = .ok ()) :
    Mirrors n C put ((liftM x : Get ε β Unit) >>= k) := by
  cases x with
  | ok u => exact h rfl
  | error e => exact fail fun a ha => (by cases hnone a ha)

/-- A check of the writer, which the reader makes for itself. -/
theorem checkWrite {x : α → Except ε Unit} {q : α → Put ε β Unit}
    (h : Mirrors n (fun a => C a ∧ x a = .ok ()) q get) :
    Mirrors n C (fun a => (liftM (x a) : Put ε β Unit) >>= fun _ => q a) get := by
  have hwrites : ∀ a, C a → ∃ out, Writes ((liftM (x a) : Put ε β Unit) >>= fun _ => q a) out ∧
      ∀ us, out = some us ↔ x a = .ok () ∧ Writes (q a) (some us) := by
    intro a ha
    cases hx : x a with
    | error e => exact ⟨none, fun w => rfl, by simp⟩
    | ok u =>
      obtain ⟨out, hout⟩ := h.writes a ⟨ha, hx⟩
      exact ⟨out, hout, fun us => ⟨fun h => ⟨rfl, h ▸ hout⟩, fun h => hout.unique h.2⟩⟩
  have hiff : ∀ a, C a → ∀ us, Writes ((liftM (x a) : Put ε β Unit) >>= fun _ => q a) (some us) ↔
      x a = .ok () ∧ Writes (q a) (some us) := by
    intro a ha us
    obtain ⟨out, hout, hiff⟩ := hwrites a ha
    exact ⟨fun hus => (hiff us).1 (hout.unique hus), fun hus => (hiff us).2 hus ▸ hout⟩
  refine ⟨fun a ha => (hwrites a ha).imp fun _ => And.left, fun a ha us hus => ?_,
    fun l a rest => ?_⟩
  · obtain ⟨hx, hus⟩ := (hiff a ha us).1 hus
    exact h.long a ⟨ha, hx⟩ us hus
  · rw [h.reads]
    constructor
    · rintro ⟨⟨ha, hx⟩, us, hus, rfl⟩
      exact ⟨ha, us, (hiff a ha us).2 ⟨hx, hus⟩, rfl⟩
    · rintro ⟨ha, us, hus, rfl⟩
      obtain ⟨hx, hus⟩ := (hiff a ha us).1 hus
      exact ⟨⟨ha, hx⟩, us, hus, rfl⟩

/-- A check of how much is left, which what is to be read passes. -/
theorem lookahead {x : ℕ → Except ε Unit} (h : Mirrors n C put get)
    (hroom : ∀ m, n ≤ m → x m = .ok ()) :
    Mirrors n C put ((MonadState.get : Get ε β (List β)) >>= fun l =>
      (liftM (x l.length) : Get ε β Unit) >>= fun _ => get) := by
  refine ⟨h.writes, h.long, fun l a rest => ?_⟩
  have hrun : ((MonadState.get : Get ε β (List β)) >>= fun l =>
      (liftM (x l.length) : Get ε β Unit) >>= fun _ => get).run l =
        x l.length >>= fun _ => get.run l := by
    change ((liftM (x l.length) : Get ε β Unit) >>= fun _ => get).run l = _
    cases x l.length <;> rfl
  rw [hrun, ← h.reads]
  cases hx : x l.length with
  | ok u => rfl
  | error e =>
    refine ⟨fun h => (by cases h), fun hget => ?_⟩
    obtain ⟨ha, us, hus, rfl⟩ := (h.reads ..).1 hget
    have hlong := h.long a ha us hus
    have hok := hroom (us ++ rest).length (by rw [List.length_append]; omega)
    rw [hx] at hok
    cases hok

/-- Items one after the other. -/
theorem many (h : Mirrors n C put get) : ∀ k : ℕ,
    Mirrors (k * n) (fun l : List α => l.length = k ∧ ∀ a ∈ l, C a) (fun l => l.forM put)
      (get.many k)
  | 0 => by
    have hnil : ∀ l : List α, (l.length = 0 ∧ ∀ a ∈ l, C a) ↔ l = [] := by
      intro l
      rw [List.length_eq_zero_iff]
      exact ⟨And.left, fun hl => ⟨hl, by simp [hl]⟩⟩
    rw [Nat.zero_mul]
    refine (Mirrors.pure hnil).congrPut fun l hl => ?_
    rw [(hnil l).1 hl]
    rfl
  | k + 1 => by
    have ih := many h k
    have hparts : ∀ a as, C a → (as.length = k ∧ ∀ b ∈ as, C b) → ∀ us,
        Writes ((a :: as).forM put) (some us) →
          ∃ vs ws, Writes (put a) (some vs) ∧ Writes (as.forM put) (some ws) ∧ us = vs ++ ws := by
      intro a as ha has us hus
      obtain ⟨out, hout⟩ := h.writes a ha
      obtain ⟨out', hout'⟩ := ih.writes as has
      obtain ⟨vs, ws, rfl, rfl, rfl⟩ := Writes.of_bind (q := fun _ => as.forM put) hout hout' hus
      exact ⟨vs, ws, hout, hout', rfl⟩
    refine ⟨?_, ?_, fun l as rest => ?_⟩
    · rintro as ⟨hlength, has⟩
      obtain ⟨a, as, rfl⟩ := List.exists_cons_of_length_eq_add_one hlength
      change ∃ out, Writes (put a >>= fun _ => as.forM put) out
      exact Writes.exists_bind (h.writes a (has a (by simp)))
        (ih.writes as ⟨by simpa using hlength, fun b hb => has b (by simp [hb])⟩)
    · rintro as ⟨hlength, has⟩ us hus
      obtain ⟨a, as, rfl⟩ := List.exists_cons_of_length_eq_add_one hlength
      obtain ⟨ha, has⟩ := List.forall_mem_cons.1 has
      have has : as.length = k ∧ ∀ b ∈ as, C b := ⟨by simpa using hlength, has⟩
      obtain ⟨vs, ws, hvs, hws, rfl⟩ := hparts a as ha has us hus
      have hfirst := h.long a ha vs hvs
      have hsecond := ih.long as has ws hws
      rw [List.length_append, Nat.succ_mul]
      omega
    · change (get >>= fun a => get.many k >>= fun as => Pure.pure (a :: as)).run l = _ ↔ _
      simp only [Get.run_bind_eq_ok]
      constructor
      · rintro ⟨a, l₁, hget, as', l₂, hmany, hpure⟩
        cases hpure
        obtain ⟨ha, us, hus, rfl⟩ := (h.reads ..).1 hget
        obtain ⟨⟨rfl, has⟩, vs, hvs, rfl⟩ := (ih.reads ..).1 hmany
        refine ⟨⟨rfl, List.forall_mem_cons.2 ⟨ha, has⟩⟩, us ++ vs, ?_, (List.append_assoc ..).symm⟩
        exact Writes.bind (q := fun _ => as'.forM put) hus hvs
      · rintro ⟨⟨hlength, has⟩, us, hus, rfl⟩
        obtain ⟨a, as, rfl⟩ := List.exists_cons_of_length_eq_add_one hlength
        obtain ⟨ha, has⟩ := List.forall_mem_cons.1 has
        have has : as.length = k ∧ ∀ b ∈ as, C b := ⟨by simpa using hlength, has⟩
        obtain ⟨vs, ws, hvs, hws, rfl⟩ := hparts a as ha has us hus
        refine ⟨a, ws ++ rest, (h.reads ..).2 ⟨ha, vs, hvs, List.append_assoc ..⟩, as, rest, ?_, rfl⟩
        exact (ih.reads ..).2 ⟨has, ws, hws, rfl⟩

end Mirrors

/-! ## Documents -/

section Document
variable {ε α β : Type}

/-- What a writer leaves in a new buffer. -/
def Put.document (p : Put ε β Unit) (limit : ℕ) : Except ε (List β) :=
  match p.on { limit } with
  | (.ok (), w) => .ok w.units
  | (.error e, _) => .error e

/-- Reads a whole input. -/
def Get.document (get : Get ε β α) (e : ε) (l : List β) : Except ε α := do
  let r ← get.run l
  if r.2 ≠ [] then throw e
  return r.1

/-- The writer writes, and no more than so many units. -/
def WritesWithin (n : ℕ) (p : Put ε β Unit) : Prop := ∃ us, Writes p (some us) ∧ us.length ≤ n

/-- The writer writes somewhere. -/
def Put.Possible (p : Put ε β Unit) : Prop := ∃ w, (p.on w).1.isOk = true

section Extent
variable {n m limit : ℕ} {p : Put ε β Unit} {q : Unit → Put ε β Unit} {us : List β} {e : ε}

/-- Emitting writes within the length of its units. -/
theorem WritesWithin.emit (h : us.length ≤ n) : WritesWithin n (Put.emit e us) :=
  ⟨us, .emit, h⟩

/-- The bounds of two writers in turn add up. -/
theorem WritesWithin.bind (hp : WritesWithin n p) (hq : WritesWithin m (q ())) :
    WritesWithin (n + m) (p >>= q) := by
  obtain ⟨us, hus, hn⟩ := hp
  obtain ⟨vs, hvs, hm⟩ := hq
  refine ⟨us ++ vs, hus.bind hvs, ?_⟩
  rw [List.length_append]
  omega

/-- What fits is a document. -/
theorem WritesWithin.document (h : WritesWithin n p) (hfits : n ≤ limit) :
    (p.document limit).isOk = true := by
  obtain ⟨us, hus, hn⟩ := h
  have hroom : us.length ≤ ({ limit } : Buffer β).room := by
    simp only [Buffer.room, List.length_nil]
    omega
  rw [Put.document, (hus _).1 hroom]
  rfl

/-- A writer that makes a document can write. -/
theorem Put.Possible.of_document (h : (p.document limit).isOk = true) : p.Possible := by
  refine ⟨{ limit }, ?_⟩
  unfold Put.document at h
  split at h
  · next hon => rw [hon]; rfl
  · cases h

/-- When two writers in turn can write, each can. -/
theorem Put.Possible.of_bind (h : (p >>= q).Possible) : p.Possible ∧ (q ()).Possible := by
  obtain ⟨w, h⟩ := h
  rw [Proc.on_bind] at h
  rcases hp : p.on w with ⟨x, w'⟩
  rw [hp] at h
  cases x with
  | error e => cases h
  | ok a => exact ⟨⟨w, by rw [hp]; rfl⟩, ⟨w', h⟩⟩

end Extent

variable {n limit : ℕ} {C : α → Prop} {put : α → Put ε β Unit} {get : Get ε β α} {l : List β}
  {a : α} {e : ε}

/-- A document is read when the reader succeeds and leaves nothing. -/
theorem Get.document_eq_ok : Get.document get e l = .ok a ↔ get.run l = .ok (a, []) := by
  unfold Get.document
  cases h : get.run l with
  | error e => simp [bind, Except.bind]
  | ok r =>
    obtain ⟨b, rest⟩ := r
    by_cases hrest : rest = []
    · subst hrest
      simp [bind, Except.bind, Pure.pure, Except.pure]
    · simp [bind, Except.bind, hrest, throw, throwThe, MonadExceptOf.throw]

/-- What is read is a value of the domain. -/
theorem Mirrors.of_document (h : Mirrors n C put get) (hread : get.document e l = .ok a) : C a :=
  ((h.reads ..).1 (Get.document_eq_ok.1 hread)).1

/-- No document continues another one. -/
theorem Mirrors.document_append (h : Mirrors n C put get) {b : α} {t : List β}
    (hread : get.document e l = .ok a) (hread' : get.document e (l ++ t) = .ok b) : t = [] := by
  obtain ⟨ha, us, hus, hl⟩ := (h.reads ..).1 (Get.document_eq_ok.1 hread)
  have hrest : get.run (l ++ t) = .ok (a, t) := (h.reads ..).2 ⟨ha, us, hus, by rw [hl]; simp⟩
  have hboth := (Get.document_eq_ok.1 hread').symm.trans hrest
  rw [Except.ok.injEq, Prod.mk.injEq] at hboth
  exact hboth.2.symm

/-- No part of a document is one. -/
theorem Mirrors.document_cut (h : Mirrors n C put get) {head tail : List β} (htail : tail ≠ [])
    (hread : get.document e (head ++ tail) = .ok a) : (get.document e head).isOk = false := by
  cases hhead : get.document e head with
  | error => rfl
  | ok b => exact absurd (h.document_append hhead hread) htail

/-- Nothing longer than a document is one. -/
theorem Mirrors.document_extended (h : Mirrors n C put get) {tail : List β} (htail : tail ≠ [])
    (hread : get.document e l = .ok a) : (get.document e (l ++ tail)).isOk = false := by
  cases hboth : get.document e (l ++ tail) with
  | error => rfl
  | ok b => exact absurd (h.document_append hread hboth) htail

/-- Mapping a reader's result maps the document read. -/
theorem Get.document_map {γ : Type} {f : α → γ} :
    Get.document (f <$> get) e l = (get.document e l).map f := by
  have hrun : (f <$> get).run l = (get.run l).map fun r => (f r.1, r.2) := rfl
  unfold Get.document
  rw [hrun]
  cases get.run l with
  | error e => rfl
  | ok r =>
    obtain ⟨b, rest⟩ := r
    cases rest <;> rfl

/-- A document is written for a value of the domain exactly when it fits and is read as it. -/
theorem Mirrors.document (h : Mirrors n C put get) (ha : C a) :
    (put a).document limit = .ok l ↔ l.length ≤ limit ∧ get.document e l = .ok a := by
  obtain ⟨out, hout⟩ := h.writes a ha
  have hread : get.document e l = .ok a ↔ out = some l := by
    rw [Get.document_eq_ok, h.reads]
    simp only [List.append_nil]
    constructor
    · rintro ⟨-, us, hus, rfl⟩
      exact hout.unique hus
    · rintro rfl
      exact ⟨ha, l, hout, rfl⟩
  rw [hread]
  unfold Put.document
  cases out with
  | none =>
    have hfails := hout { limit }
    cases hon : (put a).on { limit } with
    | mk x w =>
      rw [hon] at hfails
      cases x with
      | ok u => cases hfails
      | error e => simp
  | some us =>
    have hroom : ({ limit } : Buffer β).room = limit := by simp [Buffer.room]
    by_cases hfits : us.length ≤ limit
    · rw [(hout _).1 (hroom.symm ▸ hfits)]
      simp only [Buffer.append, List.nil_append, Except.ok.injEq, Option.some.injEq]
      constructor
      · rintro rfl
        exact ⟨hfits, rfl⟩
      · exact And.right
    · have hfails := (hout { limit }).2 (hroom.symm ▸ Nat.lt_of_not_le hfits)
      cases hon : (put a).on { limit } with
      | mk x w =>
        rw [hon] at hfails
        cases x with
        | ok u => cases hfails
        | error e =>
          simp only [reduceCtorEq, Option.some.injEq, false_iff, not_and]
          rintro hl rfl
          exact hfits hl

end Document

end PodFabric
