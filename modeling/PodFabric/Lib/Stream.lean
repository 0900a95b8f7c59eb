import Mathlib.Data.List.Basic
import Mathlib.Data.List.Infix

/-!
# Streams that arrive in pieces

What a sender writes arrives in pieces of any size, and a call that receives may also fail. To `fill`
a buffer is to receive until it is full. What comes of that depends on the elements alone and not on
the pieces that they arrive in (`fill_filled`).

The second part is about codes no word of which begins with another one. A stream of such words has
one reading only, also when it breaks off (`words_prefix`).
-/

namespace PodFabric

/-! ## Arrivals -/

/-- What is yet to arrive: pieces of the stream and failures of a call, until the sender closes. -/
inductive Arrivals (α ε : Type)
  | closed
  | piece (items : List α) (rest : Arrivals α ε)
  | failure (error : ε) (rest : Arrivals α ε)

namespace Arrivals
variable {α ε : Type}

/-- The elements that arrive before a call fails. -/
def front : Arrivals α ε → List α
  | closed => []
  | piece items rest => items ++ rest.front
  | failure _ _ => []

/-- The first failure, with what arrives after it. -/
def back : Arrivals α ε → Option (ε × Arrivals α ε)
  | closed => none
  | piece _ rest => rest.back
  | failure error rest => some (error, rest)

/-- One call that receives, at most `room` elements. It comes back with none once the sender has
closed. -/
def receive (room : ℕ) : Arrivals α ε → Except ε (List α) × Arrivals α ε
  | closed => (.ok [], closed)
  | failure error rest => (.error error, rest)
  | piece [] rest => rest.receive room
  | piece (item :: items) rest =>
    if room < items.length + 1 then
      (.ok ((item :: items).take room), piece ((item :: items).drop room) rest)
    else (.ok (item :: items), rest)

/-- Receives until `missing` elements are there, in at most so many calls as the first number says.
It ends early, with the error if there is one, when a call fails or the sender has closed. -/
def fillWithin : ℕ → ℕ → Arrivals α ε → Except (Option ε) (List α) × Arrivals α ε
  | _, 0, s => (.ok [], s)
  | 0, _ + 1, s => (.error none, s)
  | calls + 1, missing + 1, s =>
    match s.receive (missing + 1) with
    | (.error error, rest) => (.error (some error), rest)
    | (.ok [], rest) => (.error none, rest)
    | (.ok (item :: items), rest) =>
      match fillWithin calls (missing - items.length) rest with
      | (.ok more, rest) => (.ok (item :: items ++ more), rest)
      | (.error short, rest) => (.error short, rest)

/-- Receives until `n` elements are there. Every call brings one of them at least. -/
def fill (n : ℕ) (s : Arrivals α ε) : Except (Option ε) (List α) × Arrivals α ε :=
  s.fillWithin n n

/-- How a call that receives ends. -/
inductive Received (room : ℕ) (s : Arrivals α ε) : Except ε (List α) → Arrivals α ε → Prop
  | items {items : List α} {rest : Arrivals α ε} (some : items ≠ []) (fits : items.length ≤ room)
      (front : s.front = items ++ rest.front) (back : s.back = rest.back) :
      Received room s (.ok items) rest
  | closed {rest : Arrivals α ε} (front : s.front = []) (back : s.back = none)
      (closed : rest.front = [] ∧ rest.back = none) : Received room s (.ok []) rest
  | failed {error : ε} {rest : Arrivals α ε} (front : s.front = [])
      (back : s.back = some (error, rest)) : Received room s (.error error) rest

/-- How filling a buffer ends. -/
inductive Filled (n : ℕ) (s : Arrivals α ε) : Except (Option ε) (List α) → Arrivals α ε → Prop
  | full {items : List α} {rest : Arrivals α ε} (length : items.length = n)
      (front : s.front = items ++ rest.front) (back : s.back = rest.back) :
      Filled n s (.ok items) rest
  | closed {rest : Arrivals α ε} (short : s.front.length < n) (back : s.back = none)
      (closed : rest.front = [] ∧ rest.back = none) : Filled n s (.error none) rest
  | failed {error : ε} {rest : Arrivals α ε} (short : s.front.length < n)
      (back : s.back = some (error, rest)) : Filled n s (.error (some error)) rest

section Lemmas
variable {room calls missing n : ℕ} {s : Arrivals α ε}

/-- What `receive` returns is what a stream may deliver. -/
theorem receive_received (hroom : room ≠ 0) :
    Received room s (s.receive room).1 (s.receive room).2 := by
  induction s with
  | closed => exact .closed rfl rfl ⟨rfl, rfl⟩
  | failure error rest => exact .failed rfl rfl
  | piece items rest ih =>
    cases items with
    | nil =>
      cases hreceive : rest.receive room with
      | mk result rest' =>
        rw [hreceive] at ih
        rw [receive, hreceive]
        cases ih with
        | items hsome hfits hfront hback => exact .items hsome hfits hfront hback
        | closed hfront hback hclosed => exact .closed hfront hback hclosed
        | failed hfront hback => exact .failed hfront hback
    | cons item items =>
      rw [receive]
      split
      · next hlt =>
        refine .items ?_ (List.length_take_le _ _) ?_ rfl
        · cases room with
          | zero => exact absurd rfl hroom
          | succ room => simp
        · rw [front, front, ← List.append_assoc, List.take_append_drop]
      · next hle => exact .items (List.cons_ne_nil _ _) (Nat.not_lt.1 hle) rfl rfl

/-- Filling with enough calls gives what filling means. -/
theorem fillWithin_filled (h : missing ≤ calls) :
    Filled missing s (s.fillWithin calls missing).1 (s.fillWithin calls missing).2 := by
  induction calls generalizing missing s with
  | zero =>
    obtain rfl := Nat.le_zero.1 h
    exact .full rfl rfl rfl
  | succ calls ih =>
    cases missing with
    | zero => exact .full rfl rfl rfl
    | succ missing =>
      have hreceived := @receive_received _ _ _ s (Nat.succ_ne_zero missing)
      rw [fillWithin]
      generalize s.receive (missing + 1) = received at hreceived ⊢
      obtain ⟨result, rest⟩ := received
      dsimp only at hreceived
      cases hreceived with
      | closed hfront hback hclosed =>
        exact .closed (by rw [hfront]; exact Nat.succ_pos _) hback hclosed
      | failed hfront hback => exact .failed (by rw [hfront]; exact Nat.succ_pos _) hback
      | @items items _ hsome hfits hfront hback =>
        cases items with
        | nil => exact absurd rfl hsome
        | cons item items =>
          rw [List.length_cons] at hfits
          have hmore := @ih (missing - items.length) rest (by omega)
          dsimp only
          generalize rest.fillWithin calls (missing - items.length) = filled at hmore ⊢
          obtain ⟨result, rest'⟩ := filled
          dsimp only at hmore
          have hlength : s.front.length = items.length + 1 + rest.front.length := by
            rw [hfront, List.length_append, List.length_cons]
          cases hmore with
          | full hlength' hfront' hback' =>
            refine .full ?_ ?_ (hback.trans hback')
            · rw [List.length_append, List.length_cons, hlength']
              omega
            · rw [hfront, hfront', List.append_assoc]
          | closed hshort hback' hclosed =>
            exact .closed (by omega) (hback.trans hback') hclosed
          | failed hshort hback' => exact .failed (by omega) (hback.trans hback')

/-- How filling a buffer ends depends on the elements that arrive, not on their pieces. -/
theorem fill_filled : Filled n s (s.fill n).1 (s.fill n).2 := fillWithin_filled le_rfl

/-- A buffer is filled if enough arrives before a call fails. -/
theorem fill_of_le (h : n ≤ s.front.length) : ∃ rest, s.fill n = (.ok (s.front.take n), rest) ∧
    rest.front = s.front.drop n ∧ rest.back = s.back := by
  have hfilled := @fill_filled _ _ n s
  generalize s.fill n = filled at hfilled ⊢
  obtain ⟨result, rest⟩ := filled
  dsimp only at hfilled
  cases hfilled with
  | @full items _ hlength hfront hback =>
    refine ⟨rest, ?_, ?_, hback.symm⟩
    · rw [hfront, ← hlength, List.take_left]
    · rw [hfront, ← hlength, List.drop_left]
  | closed hshort => exact absurd h (Nat.not_le.2 hshort)
  | failed hshort => exact absurd h (Nat.not_le.2 hshort)

/-- A buffer that is filled has the elements that arrive first. -/
theorem fill_eq_ok {items : List α} {rest : Arrivals α ε} (h : s.fill n = (.ok items, rest)) :
    items.length = n ∧ s.front = items ++ rest.front ∧ s.back = rest.back := by
  have hfilled := @fill_filled _ _ n s
  rw [h] at hfilled
  cases hfilled with
  | full hlength hfront hback => exact ⟨hlength, hfront, hback⟩

/-! ## Pieces do not matter -/

/-- The same elements arrive before the same failure. -/
def Alike (s s' : Arrivals α ε) : Prop := s.front = s'.front ∧ s.back = s'.back

/-- Streams that are alike fill alike, and stay alike. -/
theorem fill_alike {s' : Arrivals α ε} (h : s.Alike s') :
    (s.fill n).1 = (s'.fill n).1 ∧ (s.fill n).2.Alike (s'.fill n).2 := by
  obtain ⟨hsame, hback⟩ := h
  by_cases hle : n ≤ s.front.length
  · obtain ⟨rest, hfill, hrest⟩ := fill_of_le hle
    obtain ⟨rest', hfill', hrest'⟩ := @fill_of_le _ _ n s' (hsame ▸ hle)
    rw [hfill, hfill', hsame]
    exact ⟨rfl, by rw [hrest.1, hrest'.1, hsame], by rw [hrest.2, hrest'.2, hback]⟩
  · have hfilled := @fill_filled _ _ n s
    have hfilled' := @fill_filled _ _ n s'
    generalize s.fill n = filled at hfilled ⊢
    generalize s'.fill n = filled' at hfilled' ⊢
    obtain ⟨result, rest⟩ := filled
    obtain ⟨result', rest'⟩ := filled'
    dsimp only at hfilled hfilled' ⊢
    cases hfilled with
    | full hlength hfront _ =>
      rw [hfront, List.length_append, hlength] at hle
      exact absurd (Nat.le_add_right _ _) hle
    | closed hshort hnone hclosed =>
      cases hfilled' with
      | full hlength hfront _ =>
        rw [hsame, hfront, List.length_append, hlength] at hle
        exact absurd (Nat.le_add_right _ _) hle
      | closed hshort' hnone' hclosed' =>
        exact ⟨rfl, hclosed.1.trans hclosed'.1.symm, hclosed.2.trans hclosed'.2.symm⟩
      | failed hshort' hsome =>
        rw [hnone, hsome] at hback
        cases hback
    | failed hshort hsome =>
      cases hfilled' with
      | full hlength hfront _ =>
        rw [hsame, hfront, List.length_append, hlength] at hle
        exact absurd (Nat.le_add_right _ _) hle
      | closed hshort' hnone' _ =>
        rw [hsome, hnone'] at hback
        cases hback
      | failed hshort' hsome' =>
        rw [hsome, hsome'] at hback
        cases hback
        exact ⟨rfl, rfl, rfl⟩

end Lemmas

end Arrivals

/-! ## Words of a stream -/

/-- No word of the code begins with the word of something else. -/
def PrefixFree {α β : Type} (C : α → Prop) (word : α → List β) : Prop :=
  ∀ ⦃a b : α⦄, C a → C b → word a <+: word b → a = b

section Words
variable {α β : Type} {C : α → Prop} {word : α → List β} {a b : α} {as bs : List α}
  {s t : List β}

/-- The first word of a stream is determined. -/
theorem PrefixFree.first (h : PrefixFree C word) (ha : C a) (hb : C b)
    (heq : word a ++ s = word b ++ t) : a = b ∧ s = t := by
  have hsame : a = b := by
    obtain hab | hba := List.prefix_or_prefix_of_prefix ⟨s, heq⟩ ⟨t, rfl⟩
    · exact h ha hb hab
    · exact (h hb ha hba).symm
  subst hsame
  exact ⟨rfl, List.append_cancel_left heq⟩

/-- **A stream of words has one reading.** Of two readings one goes on where the other one stops. -/
theorem PrefixFree.words (h : PrefixFree C word) (has : ∀ a ∈ as, C a) (hbs : ∀ b ∈ bs, C b)
    (heq : as.flatMap word ++ s = bs.flatMap word ++ t) : as <+: bs ∨ bs <+: as := by
  induction as generalizing bs with
  | nil => exact .inl List.nil_prefix
  | cons a as ih =>
    cases bs with
    | nil => exact .inr List.nil_prefix
    | cons b bs =>
      rw [List.forall_mem_cons] at has hbs
      rw [List.flatMap_cons, List.flatMap_cons, List.append_assoc, List.append_assoc] at heq
      obtain ⟨rfl, htail⟩ := h.first has.1 hbs.1 heq
      rw [List.prefix_cons_inj, List.prefix_cons_inj]
      exact ih has.2 hbs.2 htail

end Words

end PodFabric
