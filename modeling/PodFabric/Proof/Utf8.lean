import PodFabric.Core.Token

/-!
# UTF-8

`isValidUtf8` decides UTF-8: it accepts the concatenations of the encodings of characters. The loop
of the program reads the bytes by their offsets; it never reads past the end and ends with what the
scan says (`utf8Loop_eq`). Where a valid text may be cut is told by the byte behind the cut.
-/

namespace PodFabric

/-! ## The loop and its reads -/

/-- A read of the byte at an offset. Past the end it is undefined. -/
def readAt (p : Text) (i : ℕ) : Outcome UInt8 :=
  match p[i]? with
  | some c => .ok c
  | none => .error .undefined

/-- The loop over the missing continuation bytes of a sequence, which ends early at another byte. -/
def utf8Tail (p : Text) : ℕ → ℕ → ℕ → Outcome (Option ℕ)
  | _, 0, cp => .ok (some cp)
  | i, missing + 1, cp => do
    let cc ← readAt p i
    if cc &&& 0xC0 = 0x80 then utf8Tail p (i + 1) missing (cp * 64 + (cc &&& 0x3F).toNat)
    else return none

/-- The loop of `is_valid_utf8` from an offset on. -/
def utf8Loop (p : Text) (i : ℕ) : Outcome Bool :=
  if i < p.length then do
    let c ← readAt p i
    if c < 0x80 then utf8Loop p (i + 1)
    else
      match utf8Lead c with
      | none => return false
      | some (extra, cp, lowest) =>
        if p.length ≤ i + extra then return false
        else
          match ← utf8Tail p (i + 1) extra cp with
          | none => return false
          | some cp => if utf8Rejected cp lowest then return false else utf8Loop p (i + extra + 1)
  else return true
termination_by p.length - i

/-! ## Bytes -/

section Bytes
variable {b c : UInt8} {extra cp lowest : ℕ}

/-- What a lead byte announces, and the byte that announces it. -/
structure Announces (c : UInt8) (extra cp lowest : ℕ) : Prop where
  lead : (extra = 1 ∧ lowest = 0x80 ∧ cp < 32 ∧ c = (cp + 0xC0).toUInt8) ∨
    (extra = 2 ∧ lowest = 0x800 ∧ cp < 16 ∧ c = (cp + 0xE0).toUInt8) ∨
    (extra = 3 ∧ lowest = 0x10000 ∧ cp < 8 ∧ c = (cp + 0xF0).toUInt8)

/-- What a leading byte announces. -/
theorem utf8Lead_announces (h : utf8Lead c = some (extra, cp, lowest)) :
    Announces c extra cp lowest := by
  have hall : ∀ k : Fin 256, ∀ lead ∈ utf8Lead (UInt8.ofFin k),
      (lead.1 = 1 ∧ lead.2.2 = 0x80 ∧ lead.2.1 < 32 ∧
        UInt8.ofFin k = (lead.2.1 + 0xC0).toUInt8) ∨
      (lead.1 = 2 ∧ lead.2.2 = 0x800 ∧ lead.2.1 < 16 ∧
        UInt8.ofFin k = (lead.2.1 + 0xE0).toUInt8) ∨
      (lead.1 = 3 ∧ lead.2.2 = 0x10000 ∧ lead.2.1 < 8 ∧
        UInt8.ofFin k = (lead.2.1 + 0xF0).toUInt8) := by
    decide +kernel
  exact ⟨hall c.toFin _ h⟩

/-- A leading byte announces at least one more byte. -/
theorem Announces.positive (h : Announces c extra cp lowest) : ∃ missing, extra = missing + 1 := by
  obtain ⟨rfl, -⟩ | ⟨rfl, -⟩ | ⟨rfl, -⟩ := h.lead
  · exact ⟨0, rfl⟩
  · exact ⟨1, rfl⟩
  · exact ⟨2, rfl⟩

/-- The leading bytes of two. -/
theorem utf8Lead_two : ∀ cp < 32, ¬ (cp + 0xC0).toUInt8 < 0x80 ∧
    utf8Lead (cp + 0xC0).toUInt8 = some (1, cp, 0x80) := by
  decide

/-- The leading bytes of three. -/
theorem utf8Lead_three : ∀ cp < 16, ¬ (cp + 0xE0).toUInt8 < 0x80 ∧
    utf8Lead (cp + 0xE0).toUInt8 = some (2, cp, 0x800) := by
  decide

/-- The leading bytes of four. -/
theorem utf8Lead_four : ∀ cp < 8, ¬ (cp + 0xF0).toUInt8 < 0x80 ∧
    utf8Lead (cp + 0xF0).toUInt8 = some (3, cp, 0x10000) := by
  decide

/-- A continuation byte is the one for its payload. -/
theorem continuation (h : b &&& 0xC0 = 0x80) :
    (b &&& 0x3F).toNat < 64 ∧ b = ((b &&& 0x3F).toNat + 0x80).toUInt8 := by
  have hall : ∀ k : Fin 256, UInt8.ofFin k &&& 0xC0 = 0x80 →
      (UInt8.ofFin k &&& 0x3F).toNat < 64 ∧
        UInt8.ofFin k = ((UInt8.ofFin k &&& 0x3F).toNat + 0x80).toUInt8 := by
    decide +kernel
  exact hall b.toFin h

/-- A continuation byte carries six bits. -/
theorem continuation_payload : ∀ x < 64, (x + 0x80).toUInt8 &&& 0xC0 = 0x80 ∧
    ((x + 0x80).toUInt8 &&& 0x3F).toNat = x := by
  decide

/-- Neither a byte of its own nor a lead byte continues a sequence. -/
theorem starts_apart (h : c < 0x80 ∨ (utf8Lead c).isSome) : c &&& 0xC0 ≠ 0x80 := by
  have hall : ∀ k : Fin 256, (UInt8.ofFin k < 0x80 ∨ (utf8Lead (UInt8.ofFin k)).isSome) →
      UInt8.ofFin k &&& 0xC0 ≠ 0x80 := by
    decide +kernel
  exact hall c.toFin h

end Bytes

/-! ## Characters -/

/-- The code point that continuation bytes complete. -/
def tailValue (cp : ℕ) (tail : Text) : ℕ :=
  tail.foldl (fun v b => v * 64 + (b &&& 0x3F).toNat) cp

section Characters
variable {c : UInt8} {t rest tail : Text} {missing extra cp lowest : ℕ}

/-- The scan of an open sequence takes its continuation bytes. -/
theorem scan_open_iff : utf8Scan (some (missing + 1, cp, lowest)) t = true ↔
    ∃ tail rest, t = tail ++ rest ∧ tail.length = missing + 1 ∧ (∀ b ∈ tail, b &&& 0xC0 = 0x80) ∧
      utf8Rejected (tailValue cp tail) lowest = false ∧ utf8Scan none rest = true := by
  induction missing generalizing cp t with
  | zero =>
    cases t with
    | nil =>
      simp only [utf8Scan, Bool.false_eq_true, false_iff]
      rintro ⟨tail, rest, hsplit, hlength, -⟩
      rw [(List.append_eq_nil_iff.1 hsplit.symm).1] at hlength
      cases hlength
    | cons b t =>
      rw [utf8Scan]
      constructor
      · intro h
        split at h
        · next hb =>
          rw [if_neg (Nat.lt_irrefl 1)] at h
          split at h
          · cases h
          · next hok =>
            exact ⟨[b], t, rfl, rfl, by simpa using hb, by simpa [tailValue] using hok, h⟩
        · cases h
      · rintro ⟨tail, rest, hsplit, hlength, hall, hok, hrest⟩
        obtain ⟨x, rfl⟩ := List.length_eq_one_iff.1 hlength
        obtain ⟨rfl, rfl⟩ := List.cons.inj hsplit
        rw [if_pos (hall b List.mem_cons_self), if_neg (Nat.lt_irrefl 1)]
        have hok : utf8Rejected (cp * 64 + (b &&& 0x3F).toNat) lowest = false := hok
        rw [hok]
        exact hrest
  | succ missing ih =>
    cases t with
    | nil =>
      simp only [utf8Scan, Bool.false_eq_true, false_iff]
      rintro ⟨tail, rest, hsplit, hlength, -⟩
      rw [(List.append_eq_nil_iff.1 hsplit.symm).1] at hlength
      cases hlength
    | cons b t =>
      rw [utf8Scan]
      constructor
      · intro h
        split at h
        · next hb =>
          rw [if_pos (by omega)] at h
          obtain ⟨tail, rest, rfl, hlength, hall, hok, hrest⟩ := ih.1 h
          exact ⟨b :: tail, rest, rfl, by rw [List.length_cons, hlength],
            List.forall_mem_cons.2 ⟨hb, hall⟩, hok, hrest⟩
        · cases h
      · rintro ⟨tail, rest, hsplit, hlength, hall, hok, hrest⟩
        cases tail with
        | nil => cases hlength
        | cons x tail =>
          obtain ⟨rfl, rfl⟩ := List.cons.inj hsplit
          obtain ⟨hb, hall⟩ := List.forall_mem_cons.1 hall
          rw [if_pos hb, if_pos (by omega)]
          exact ih.2 ⟨tail, rest, rfl, Nat.succ.inj hlength, hall, hok, hrest⟩

/-- Continuation bytes are those for their payloads. -/
theorem tail_payloads (hall : ∀ b ∈ tail, b &&& 0xC0 = 0x80) :
    ∃ xs : List ℕ, tail = xs.map (fun x => (x + 0x80).toUInt8) ∧ (∀ x ∈ xs, x < 64) ∧
      tailValue cp tail = xs.foldl (fun v x => v * 64 + x) cp := by
  refine ⟨tail.map fun b => (b &&& 0x3F).toNat, ?_, ?_, ?_⟩
  · rw [List.map_map]
    conv_lhs => rw [← List.map_id tail]
    exact List.map_congr_left fun b hb => (continuation (hall b hb)).2
  · intro x hx
    obtain ⟨b, hb, rfl⟩ := List.mem_map.1 hx
    exact (continuation (hall b hb)).1
  · rw [List.foldl_map]
    rfl

section Encoding
variable {ch : Char} {v : ℕ}

/-- The encoding of a character in one byte. -/
theorem encode_one (hv : ch.val.toNat = v) (h : v ≤ 0x7F) :
    String.utf8EncodeChar ch = [v.toUInt8] := by
  subst hv
  exact if_pos h

/-- The encoding of a character in two bytes. -/
theorem encode_two (hv : ch.val.toNat = v) (hlow : 0x80 ≤ v) (hhigh : v ≤ 0x7FF) :
    String.utf8EncodeChar ch = [(v / 64 + 0xC0).toUInt8, (v % 64 + 0x80).toUInt8] := by
  subst hv
  rw [String.utf8EncodeChar, if_neg (by omega), if_pos hhigh, Nat.mod_eq_of_lt (by omega)]

/-- The encoding of a character in three bytes. -/
theorem encode_three (hv : ch.val.toNat = v) (hlow : 0x800 ≤ v) (hhigh : v ≤ 0xFFFF) :
    String.utf8EncodeChar ch =
      [(v / 4096 + 0xE0).toUInt8, (v / 64 % 64 + 0x80).toUInt8, (v % 64 + 0x80).toUInt8] := by
  subst hv
  rw [String.utf8EncodeChar, if_neg (by omega), if_neg (by omega), if_pos hhigh,
    Nat.mod_eq_of_lt (by omega)]

/-- The encoding of a character in four bytes. -/
theorem encode_four (hv : ch.val.toNat = v) (hlow : 0x10000 ≤ v) (hhigh : v ≤ 0x10FFFF) :
    String.utf8EncodeChar ch =
      [(v / 262144 + 0xF0).toUInt8, (v / 4096 % 64 + 0x80).toUInt8, (v / 64 % 64 + 0x80).toUInt8,
        (v % 64 + 0x80).toUInt8] := by
  subst hv
  rw [String.utf8EncodeChar, if_neg (by omega), if_neg (by omega), if_neg (by omega),
    Nat.mod_eq_of_lt (by omega)]

end Encoding

/-- A sequence that the scan takes is the encoding of a character. -/
theorem sequence_encodes (hc : Announces c extra cp lowest) (hlength : tail.length = extra)
    (hall : ∀ b ∈ tail, b &&& 0xC0 = 0x80)
    (hok : utf8Rejected (tailValue cp tail) lowest = false) :
    ∃ ch, c :: tail = String.utf8EncodeChar ch := by
  obtain ⟨xs, rfl, hxs, hvalue⟩ := @tail_payloads tail cp hall
  rw [hvalue] at hok
  rw [List.length_map] at hlength
  simp only [utf8Rejected, Bool.or_eq_false_iff, Bool.and_eq_false_iff, decide_eq_false_iff_not]
    at hok
  obtain ⟨⟨hlow, hhigh⟩, hsurrogate⟩ := hok
  have hcode : ∃ ch : Char, ch.val.toNat = xs.foldl (fun v x => v * 64 + x) cp := by
    have hvalid : (xs.foldl (fun v x => v * 64 + x) cp).isValidChar := by
      obtain h | h := hsurrogate
      · exact .inl (by omega)
      · exact .inr ⟨by omega, by omega⟩
    exact ⟨Char.ofNatAux _ hvalid, rfl⟩
  obtain ⟨ch, hch⟩ := hcode
  refine ⟨ch, ?_⟩
  obtain ⟨rfl, rfl, hcp, rfl⟩ | ⟨rfl, rfl, hcp, rfl⟩ | ⟨rfl, rfl, hcp, rfl⟩ := hc.lead
  · obtain ⟨x, rfl⟩ := List.length_eq_one_iff.1 hlength
    have hx : x < 64 := hxs x List.mem_cons_self
    have hlow : ¬ cp * 64 + x < 0x80 := hlow
    rw [encode_two hch (Nat.not_lt.1 hlow) (show cp * 64 + x ≤ 0x7FF by omega)]
    change _ = [((cp * 64 + x) / 64 + 0xC0).toUInt8, ((cp * 64 + x) % 64 + 0x80).toUInt8]
    rw [show (cp * 64 + x) / 64 = cp by omega, show (cp * 64 + x) % 64 = x by omega]
    rfl
  · obtain ⟨x, y, rfl⟩ := List.length_eq_two.1 hlength
    have hx : x < 64 := hxs x List.mem_cons_self
    have hy : y < 64 := hxs y (List.mem_cons_of_mem _ List.mem_cons_self)
    have hlow : ¬ (cp * 64 + x) * 64 + y < 0x800 := hlow
    rw [encode_three hch (Nat.not_lt.1 hlow) (show (cp * 64 + x) * 64 + y ≤ 0xFFFF by omega)]
    change _ = [(((cp * 64 + x) * 64 + y) / 4096 + 0xE0).toUInt8,
      (((cp * 64 + x) * 64 + y) / 64 % 64 + 0x80).toUInt8,
      (((cp * 64 + x) * 64 + y) % 64 + 0x80).toUInt8]
    rw [show ((cp * 64 + x) * 64 + y) / 4096 = cp by omega,
      show ((cp * 64 + x) * 64 + y) / 64 % 64 = x by omega,
      show ((cp * 64 + x) * 64 + y) % 64 = y by omega]
    rfl
  · obtain ⟨x, y, z, rfl⟩ := List.length_eq_three.1 hlength
    have hx : x < 64 := hxs x List.mem_cons_self
    have hy : y < 64 := hxs y (List.mem_cons_of_mem _ List.mem_cons_self)
    have hz : z < 64 := hxs z (List.mem_cons_of_mem _ (List.mem_cons_of_mem _ List.mem_cons_self))
    have hlow : ¬ ((cp * 64 + x) * 64 + y) * 64 + z < 0x10000 := hlow
    rw [encode_four hch (Nat.not_lt.1 hlow) (Nat.not_lt.1 hhigh)]
    change _ = [((((cp * 64 + x) * 64 + y) * 64 + z) / 262144 + 0xF0).toUInt8,
      ((((cp * 64 + x) * 64 + y) * 64 + z) / 4096 % 64 + 0x80).toUInt8,
      ((((cp * 64 + x) * 64 + y) * 64 + z) / 64 % 64 + 0x80).toUInt8,
      ((((cp * 64 + x) * 64 + y) * 64 + z) % 64 + 0x80).toUInt8]
    rw [show (((cp * 64 + x) * 64 + y) * 64 + z) / 262144 = cp by omega,
      show (((cp * 64 + x) * 64 + y) * 64 + z) / 4096 % 64 = x by omega,
      show (((cp * 64 + x) * 64 + y) * 64 + z) / 64 % 64 = y by omega,
      show (((cp * 64 + x) * 64 + y) * 64 + z) % 64 = z by omega]
    rfl

/-- The scan takes the continuation byte for a given payload. -/
theorem scan_payload {x : ℕ} (hx : x < 64) :
    utf8Scan (some (missing + 1, cp, lowest)) ((x + 0x80).toUInt8 :: t) =
      if 0 < missing then utf8Scan (some (missing, cp * 64 + x, lowest)) t
      else if utf8Rejected (cp * 64 + x) lowest then false else utf8Scan none t := by
  obtain ⟨hcontinues, hpayload⟩ := continuation_payload x hx
  rw [utf8Scan, if_pos hcontinues, hpayload]
  simp

/-- The scan takes the byte that announces a sequence. -/
theorem scan_lead (hc : ¬ c < 0x80 ∧ utf8Lead c = some (extra, cp, lowest)) :
    utf8Scan none (c :: t) = utf8Scan (some (extra, cp, lowest)) t := by
  rw [utf8Scan, if_neg hc.1, hc.2]

/-- The scan takes the encoding of a character. -/
theorem scan_encode (ch : Char) :
    utf8Scan none (String.utf8EncodeChar ch ++ rest) = utf8Scan none rest := by
  have hvalid : ch.val.toNat < 0xD800 ∨ 0xDFFF < ch.val.toNat ∧ ch.val.toNat < 0x110000 := ch.valid
  generalize hv : ch.val.toNat = v at hvalid
  have hok : ∀ lowest, lowest ≤ v → utf8Rejected v lowest = false := by
    intro lowest hle
    simp only [utf8Rejected, Bool.or_eq_false_iff, Bool.and_eq_false_iff, decide_eq_false_iff_not]
    omega
  obtain h | h | h | h : v ≤ 0x7F ∨ 0x80 ≤ v ∧ v ≤ 0x7FF ∨ 0x800 ≤ v ∧ v ≤ 0xFFFF ∨
      0x10000 ≤ v ∧ v ≤ 0x10FFFF := by omega
  · have hbyte : v.toUInt8 < 0x80 := by
      rw [UInt8.lt_iff_toNat_lt]
      change v % 256 < 128
      omega
    rw [encode_one hv h]
    exact if_pos hbyte
  · rw [encode_two hv h.1 h.2]
    simp only [List.cons_append, List.nil_append]
    rw [scan_lead (utf8Lead_two _ (by omega)), scan_payload (by omega), if_neg (by omega),
      show v / 64 * 64 + v % 64 = v by omega, hok _ h.1]
    rfl
  · rw [encode_three hv h.1 h.2]
    simp only [List.cons_append, List.nil_append]
    rw [scan_lead (utf8Lead_three _ (by omega)), scan_payload (by omega), if_pos (by omega),
      scan_payload (by omega), if_neg (by omega),
      show (v / 4096 * 64 + v / 64 % 64) * 64 + v % 64 = v by omega, hok _ h.1]
    rfl
  · rw [encode_four hv h.1 h.2]
    simp only [List.cons_append, List.nil_append]
    rw [scan_lead (utf8Lead_four _ (by omega)), scan_payload (by omega), if_pos (by omega),
      scan_payload (by omega), if_pos (by omega), scan_payload (by omega), if_neg (by omega),
      show ((v / 262144 * 64 + v / 4096 % 64) * 64 + v / 64 % 64) * 64 + v % 64 = v by omega,
      hok _ h.1]
    rfl

/-- A text that the scan takes begins with a character. -/
theorem scan_cons (h : utf8Scan none (c :: t) = true) :
    ∃ ch rest, c :: t = String.utf8EncodeChar ch ++ rest ∧ utf8Scan none rest = true := by
  rw [utf8Scan] at h
  split at h
  · next hsmall =>
    have hle : c.toNat ≤ 0x7F := Nat.le_of_lt_succ (UInt8.lt_iff_toNat_lt.1 hsmall)
    have hvalid : c.toNat.isValidChar := .inl (by omega)
    refine ⟨Char.ofNatAux c.toNat hvalid, t, ?_, h⟩
    rw [encode_one (v := c.toNat) rfl hle]
    simp
  · cases hlead : utf8Lead c with
    | none =>
      rw [hlead] at h
      cases h
    | some lead =>
      obtain ⟨extra, cp, lowest⟩ := lead
      rw [hlead] at h
      have hannounces := utf8Lead_announces hlead
      obtain ⟨missing, rfl⟩ := hannounces.positive
      obtain ⟨tail, rest, rfl, hlength, hall, hok, hrest⟩ := scan_open_iff.1 h
      obtain ⟨ch, hch⟩ := sequence_encodes hannounces hlength hall hok
      exact ⟨ch, rest, by rw [← hch, List.cons_append], hrest⟩

/-- A valid text is the concatenation of the encodings of characters. -/
theorem isValidUtf8_iff :
    isValidUtf8 t = true ↔ ∃ chars : List Char, t = chars.flatMap String.utf8EncodeChar := by
  constructor
  · intro h
    -- each character takes at least a byte
    induction hlength : t.length using Nat.strong_induction_on generalizing t with
    | _ n ih =>
      cases t with
      | nil => exact ⟨[], rfl⟩
      | cons c t =>
        obtain ⟨ch, rest, hsplit, hrest⟩ := scan_cons h
        have hpos := ch.utf8Size_pos
        have hshorter : rest.length < n := by
          rw [← hlength, hsplit, List.length_append, String.length_utf8EncodeChar]
          omega
        obtain ⟨chars, rfl⟩ := ih _ hshorter hrest rfl
        exact ⟨ch :: chars, hsplit⟩
  · rintro ⟨chars, rfl⟩
    induction chars with
    | nil => rfl
    | cons ch chars ih =>
      rw [isValidUtf8, List.flatMap_cons, scan_encode]
      exact ih

end Characters

/-! ## The loop -/

section Loop
variable {p : Text} {i missing cp lowest : ℕ}

/-- A byte within the text is read. -/
theorem readAt_eq (hi : i < p.length) : readAt p i = .ok p[i] := by
  rw [readAt, List.getElem?_eq_getElem hi]

/-- An open sequence needs its continuation bytes. -/
theorem scan_truncated {t : Text} (h : t.length ≤ missing) :
    utf8Scan (some (missing + 1, cp, lowest)) t = false := by
  rw [Bool.eq_false_iff]
  intro hscan
  obtain ⟨tail, rest, rfl, hlength, -⟩ := scan_open_iff.1 hscan
  rw [List.length_append] at h
  omega

/-- The continuation bytes are read where they are, and decide the scan. -/
theorem utf8Tail_eq : ∀ {missing i cp : ℕ}, i + missing < p.length →
    ∃ r, utf8Tail p i (missing + 1) cp = .ok r ∧
      utf8Scan (some (missing + 1, cp, lowest)) (p.drop i) = r.any fun cp =>
        !utf8Rejected cp lowest && utf8Scan none (p.drop (i + missing + 1)) := by
  intro missing
  induction missing with
  | zero =>
    intro i cp hi
    rw [Nat.add_zero] at hi
    rw [utf8Tail, readAt_eq hi, List.drop_eq_getElem_cons hi, utf8Scan]
    by_cases hb : p[i] &&& 0xC0 = 0x80
    · refine ⟨some (cp * 64 + (p[i] &&& 0x3F).toNat), by simp [hb, utf8Tail, bind, Except.bind], ?_⟩
      simp only [hb, if_true, Nat.lt_irrefl, if_false, Option.any_some]
      cases utf8Rejected (cp * 64 + (p[i] &&& 0x3F).toNat) lowest <;> simp
    · exact ⟨none, by simp [hb, bind, Except.bind, pure, Except.pure], by simp [hb]⟩
  | succ missing ih =>
    intro i cp hi
    have hi' : i < p.length := by omega
    rw [utf8Tail, readAt_eq hi', List.drop_eq_getElem_cons hi', utf8Scan]
    by_cases hb : p[i] &&& 0xC0 = 0x80
    · obtain ⟨r, hr, hscan⟩ := @ih (i + 1) (cp * 64 + (p[i] &&& 0x3F).toNat) (by omega)
      refine ⟨r, by simpa [hb, bind, Except.bind] using hr, ?_⟩
      rw [if_pos hb, if_pos (by omega), Nat.add_sub_cancel, hscan,
        show i + 1 + missing + 1 = i + (missing + 1) + 1 by omega]
    · exact ⟨none, by simp [hb, bind, Except.bind, pure, Except.pure], by simp [hb]⟩

/-- The loop ends with what the scan says of the bytes from the offset on, and reads no other. -/
theorem utf8Loop_eq : utf8Loop p i = .ok (utf8Scan none (p.drop i)) := by
  induction hleft : p.length - i using Nat.strong_induction_on generalizing i with
  | _ n ih =>
    rw [utf8Loop]
    split
    · next hi =>
      rw [readAt_eq hi, List.drop_eq_getElem_cons hi, utf8Scan]
      change (if _ then _ else _) = _
      split
      · exact ih _ (by omega) rfl
      · cases hlead : utf8Lead p[i] with
        | none => rfl
        | some lead =>
          obtain ⟨extra, cp, lowest⟩ := lead
          obtain ⟨missing, rfl⟩ := (utf8Lead_announces hlead).positive
          dsimp only
          split
          · next hshort =>
            rw [scan_truncated (by rw [List.length_drop]; omega)]
            rfl
          · next hlong =>
            obtain ⟨r, hr, hscan⟩ := @utf8Tail_eq p lowest missing (i + 1) cp (by omega)
            rw [hr, hscan]
            cases r with
            | none => rfl
            | some cp =>
              rw [Option.any_some, show i + 1 + missing + 1 = i + (missing + 1) + 1 by omega]
              cases hrejected : utf8Rejected cp lowest with
              | true => simp [hrejected, bind, Except.bind, pure, Except.pure]
              | false =>
                have hrest := ih _ (by omega) (i := i + (missing + 1) + 1) rfl
                simpa [hrejected, bind, Except.bind] using hrest
    · next hi =>
      rw [List.drop_of_length_le (by omega)]
      rfl

end Loop

/-- Whatever the bytes are, the loop stays within them, and it accepts the concatenations of the
encodings of characters. -/
theorem utf8_decided (p : Text) :
    utf8Loop p 0 = .ok (isValidUtf8 p) ∧
      (isValidUtf8 p = true ↔ ∃ chars : List Char, p = chars.flatMap String.utf8EncodeChar) :=
  ⟨utf8Loop_eq, isValidUtf8_iff⟩

/-! ## ASCII -/

section Ascii
variable {t : Text} {tag : IdTag}

/-- Bytes of ASCII are valid. -/
theorem isValidUtf8_ascii (h : ∀ c ∈ t, c < 0x80) : isValidUtf8 t = true := by
  induction t with
  | nil => rfl
  | cons c t ih =>
    obtain ⟨hc, ht⟩ := List.forall_mem_cons.1 h
    rw [isValidUtf8, utf8Scan, if_pos hc]
    exact ih ht

/-- The token of an identity is ASCII. -/
theorem isValidUtf8_token (id : BasicId tag) : isValidUtf8 id.token = true := by
  have hascii : ∀ c : UInt8, (isLowerAlnum c || isSeparator c) = true → c < 0x80 := by
    have hall : ∀ k : Fin 256,
        (isLowerAlnum (UInt8.ofFin k) || isSeparator (UInt8.ofFin k)) = true →
          UInt8.ofFin k < 0x80 := by decide +kernel
    exact fun c => hall c.toFin
  obtain hnil | hcanonical := id.canonical
  · rw [hnil]
    rfl
  · unfold isCanonicalId at hcanonical
    split at hcanonical
    · simp only [Bool.and_eq_true, List.all_eq_true] at hcanonical
      exact isValidUtf8_ascii fun c hc => hascii c (hcanonical.2 c hc)
    · cases hcanonical

end Ascii

/-! ## Where a text may be cut -/

section Cut
variable {t u : Text} {c : UInt8} {pending : Option (ℕ × ℕ × ℕ)} {n : ℕ}

/-- Behind a valid text the scan starts anew. -/
theorem isValidUtf8_append (ht : isValidUtf8 t = true) :
    isValidUtf8 (t ++ u) = isValidUtf8 u := by
  obtain ⟨chars, rfl⟩ := isValidUtf8_iff.1 ht
  clear ht
  induction chars with
  | nil => rfl
  | cons ch chars ih =>
    rw [List.flatMap_cons, List.append_assoc, isValidUtf8, scan_encode]
    exact ih

/-- A sequence is not left open before a byte that does not continue it. -/
theorem scan_of_append (hc : c &&& 0xC0 ≠ 0x80) :
    ∀ {t : Text} {pending : Option (ℕ × ℕ × ℕ)}, utf8Scan pending (t ++ c :: u) = true →
      utf8Scan pending t = true := by
  intro t
  induction t with
  | nil =>
    intro pending h
    cases pending with
    | none => rfl
    | some lead =>
      obtain ⟨extra, cp, lowest⟩ := lead
      rw [List.nil_append, utf8Scan, if_neg hc] at h
      cases h
  | cons b t ih =>
    intro pending h
    cases pending with
    | none =>
      rw [List.cons_append, utf8Scan] at h
      rw [utf8Scan]
      split
      · next hb =>
        rw [if_pos hb] at h
        exact ih h
      · next hb =>
        rw [if_neg hb] at h
        cases hlead : utf8Lead b with
        | none =>
          rw [hlead] at h
          cases h
        | some lead =>
          rw [hlead] at h
          exact ih h
    | some lead =>
      obtain ⟨extra, cp, lowest⟩ := lead
      rw [List.cons_append, utf8Scan] at h
      rw [utf8Scan]
      split
      · next hb =>
        rw [if_pos hb] at h
        dsimp only at h ⊢
        split
        · next hextra =>
          rw [if_pos hextra] at h
          exact ih h
        · next hextra =>
          rw [if_neg hextra] at h
          split
          · next hrejected =>
            rw [if_pos hrejected] at h
            cases h
          · next hrejected =>
            rw [if_neg hrejected] at h
            exact ih h
      · next hb =>
        rw [if_neg hb] at h
        cases h

/-- A valid text is cut between two characters where the next byte continues none. -/
theorem valid_take_iff (ht : isValidUtf8 t = true) (hn : n < t.length) :
    isValidUtf8 (t.take n) = true ↔ t[n] &&& 0xC0 ≠ 0x80 := by
  have hsplit : t = t.take n ++ t[n] :: t.drop (n + 1) := by
    rw [← List.drop_eq_getElem_cons hn, List.take_append_drop]
  rw [hsplit] at ht
  constructor
  · intro htake
    rw [isValidUtf8_append htake, isValidUtf8, utf8Scan] at ht
    refine starts_apart ?_
    split at ht
    · next hsmall => exact .inl hsmall
    · right
      cases hlead : utf8Lead t[n] with
      | none =>
        rw [hlead] at ht
        cases ht
      | some lead => rfl
  · exact fun hc => scan_of_append hc ht

end Cut

end PodFabric
