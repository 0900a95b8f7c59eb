import Mathlib.Data.List.Basic
import Mathlib.Tactic.Common

/-!
# Framed logs

A log is a sequence of frames, each of which holds a record. A reader takes one frame at a time off
the front of a log and stops at the first damage. Provided that what it finds depends on the frame
only, and that no frame is empty (`Framing`), a log is read as its intact frames and then what
follows them (`Framing.scan_append`), and what is read are intact frames (`Framing.of_scan`).
-/

namespace PodFabric

/-- What a reader finds at the front of a log that is not empty. -/
inductive Front (ρ β ε : Type)
  | frame (record : ρ) (rest : List β)
  | damage (reason : ε)

section Definitions
variable {ρ β ε : Type} (front : List β → Front ρ β ε)

/-- The records at the front of a log, what follows them, and the damage there if any. `fuel` bounds
the number of records. -/
def scanFrames : ℕ → List β → List ρ × List β × Option ε
  | 0, l => ([], l, none)
  | fuel + 1, l =>
    if l.isEmpty then ([], [], none)
    else
      match front l with
      | .damage reason => ([], l, some reason)
      | .frame r rest =>
        let (rs, rest, damage) := scanFrames fuel rest
        (r :: rs, rest, damage)

/-- The units are the frames of these records, one after the other. -/
inductive Frames : List β → List ρ → Prop
  | nil : Frames [] []
  | cons {f l : List β} {r : ρ} {rs : List ρ} : front f = .frame r [] → Frames l rs →
      Frames (f ++ l) (r :: rs)

/-- What the reader finds depends on the frame only, and no frame is empty. -/
structure Framing : Prop where
  append : ∀ {l rest : List β} {r : ρ} (more : List β), front l = .frame r rest →
    front (l ++ more) = .frame r (rest ++ more)
  split : ∀ {l rest : List β} {r : ρ}, front l = .frame r rest →
    ∃ f, f ≠ [] ∧ l = f ++ rest ∧ front f = .frame r []

end Definitions

section Lemmas
variable {ρ β ε : Type} {front : List β → Front ρ β ε} {f l l' : List β} {rs rs' : List ρ} {r : ρ}
  {reason : ε} {fuel : ℕ}

/-- Nothing is left to scan in an empty log. -/
@[simp] theorem scanFrames_nil : scanFrames front fuel [] = ([], [], none) := by
  cases fuel <;> rfl

/-- A scan stops at damage and reports its reason. -/
theorem scanFrames_damage (hne : l ≠ []) (h : front l = .damage reason) :
    scanFrames front (fuel + 1) l = ([], l, some reason) := by
  rw [scanFrames, if_neg fun hempty => hne (List.isEmpty_iff.1 hempty)]
  simp only [h]

/-- Two runs of frames make one. -/
theorem Frames.append (h : Frames front l rs) (h' : Frames front l' rs') :
    Frames front (l ++ l') (rs ++ rs') := by
  induction h with
  | nil => exact h'
  | cons hfront _ ih =>
    rw [List.append_assoc]
    exact .cons hfront ih

/-- Only the empty list holds no frame. -/
theorem Frames.eq_nil (h : Frames front l []) : l = [] := by
  cases h
  rfl

/-- A list that is one whole frame. -/
theorem Frames.single (h : front f = .frame r []) : Frames front f [r] := by
  simpa using Frames.cons h .nil

namespace Framing

/-- A frame is not empty. -/
theorem ne_nil (hf : Framing front) (h : front f = .frame r []) : f ≠ [] := by
  obtain ⟨g, hg, rfl, -⟩ := hf.split h
  simpa using hg

/-- Reading goes through the intact frames at the front. -/
theorem scan_append (hf : Framing front) (h : Frames front l rs) :
    ∀ fuel, l.length + l'.length ≤ fuel →
      ∃ fuel', l'.length ≤ fuel' ∧ scanFrames front fuel (l ++ l') =
        (rs ++ (scanFrames front fuel' l').1, (scanFrames front fuel' l').2) := by
  induction h with
  | nil => exact fun fuel hfuel => ⟨fuel, by simpa using hfuel, rfl⟩
  | @cons f l r rs hfront _ ih =>
    intro fuel hfuel
    have hpos := List.length_pos_iff.2 (hf.ne_nil hfront)
    rw [List.length_append] at hfuel
    obtain ⟨fuel, rfl⟩ : ∃ k, fuel = k + 1 := ⟨fuel - 1, by omega⟩
    obtain ⟨fuel', hfuel', hscan⟩ := ih fuel (by omega)
    refine ⟨fuel', hfuel', ?_⟩
    have hempty : ¬ (f ++ (l ++ l')).isEmpty = true := by simp [hf.ne_nil hfront]
    rw [List.append_assoc, scanFrames, if_neg hempty, hf.append (l ++ l') hfront]
    simp only [List.nil_append, hscan, List.cons_append]

/-- A log of intact frames is read to its end. -/
theorem scan_frames (hf : Framing front) (h : Frames front l rs) (hfuel : l.length ≤ fuel) :
    scanFrames front fuel l = (rs, [], none) := by
  have hscan : ∃ fuel', ([] : List β).length ≤ fuel' ∧ scanFrames front fuel (l ++ []) =
      (rs ++ (scanFrames front fuel' []).1, (scanFrames front fuel' []).2) :=
    hf.scan_append h fuel (by simpa using hfuel)
  simpa using hscan

/-- The scan of intact frames with some damage after them. -/
theorem scan_damage (hf : Framing front) (h : Frames front l rs) (hne : l' ≠ [])
    (hdamage : front l' = .damage reason) (hfuel : l.length + l'.length ≤ fuel) :
    scanFrames front fuel (l ++ l') = (rs, l', some reason) := by
  obtain ⟨fuel', hfuel', hscan⟩ := hf.scan_append h fuel hfuel
  have hpos := List.length_pos_iff.2 hne
  obtain ⟨k, rfl⟩ : ∃ k, fuel' = k + 1 := ⟨fuel' - 1, by omega⟩
  rw [hscan, scanFrames_damage hne hdamage, List.append_nil]

/-- What is read are intact frames, and without damage nothing is left. -/
theorem of_scan (hf : Framing front) : ∀ {fuel : ℕ} {l : List β}, l.length ≤ fuel →
    ∃ intact, l = intact ++ (scanFrames front fuel l).2.1 ∧
      Frames front intact (scanFrames front fuel l).1 ∧
      ((scanFrames front fuel l).2.2 = none → (scanFrames front fuel l).2.1 = [])
  | 0, l, hfuel => by
    obtain rfl : l = [] := List.length_eq_zero_iff.1 (by omega)
    exact ⟨[], rfl, .nil, fun _ => rfl⟩
  | fuel + 1, l, hfuel => by
    rw [scanFrames]
    by_cases hempty : l.isEmpty = true
    · obtain rfl := List.isEmpty_iff.1 hempty
      exact ⟨[], rfl, .nil, fun _ => rfl⟩
    · rw [if_neg hempty]
      cases hfront : front l with
      | damage reason => exact ⟨[], rfl, .nil, fun h => by cases h⟩
      | frame r rest =>
        obtain ⟨f, hne, rfl, hf'⟩ := hf.split hfront
        have hpos := List.length_pos_iff.2 hne
        rw [List.length_append] at hfuel
        obtain ⟨intact, hl, hframes, hend⟩ := of_scan hf (show rest.length ≤ fuel by omega)
        refine ⟨f ++ intact, ?_, .cons hf' hframes, hend⟩
        rw [List.append_assoc, ← hl]

end Framing

end Lemmas

end PodFabric
