import PodFabric.Core.Digest
import PodFabric.Lib.SecureHash

/-!
# The hasher computes SHA-256

The incremental object agrees with the one-shot definition. Its tables are the constants of the
standard (`sha256K_eq`), its compression is that of the standard (`compress_eq`), and what it holds
after any calls of `update` is determined by the bytes it has seen (`Sha256.Seen`).
-/

namespace PodFabric

/-! ## Tables -/

/-- The constants of the rounds are those of the standard. -/
theorem sha256K_eq : sha256K = (List.range 64).map SecureHash.constant := by
  decide +kernel

/-- The constants are the first bits of the fractional parts of the cube roots of the primes. -/
theorem sha256K_roots {t : ℕ} (ht : t < 64) :
    ∃ r, r ^ 3 ≤ SecureHash.primes.getD t 0 * 2 ^ 96 ∧
      SecureHash.primes.getD t 0 * 2 ^ 96 < (r + 1) ^ 3 ∧ sha256K.getD t 0 = r.toUInt32 := by
  have hprimes : ∀ t < 64, SecureHash.primes.getD t 0 < 2 ^ (4 * 3) := by decide
  have hconstant : sha256K.getD t 0 = SecureHash.rootFraction 3 (SecureHash.primes.getD t 0) := by
    rw [sha256K_eq]
    simp [List.getD_eq_getElem?_getD, ht, SecureHash.constant]
  rw [hconstant]
  exact SecureHash.rootFraction_spec (by decide) (hprimes t ht)

/-- The state as the eight words of the hash. -/
def Sha256State.words (s : Sha256State) : SecureHash.Words :=
  ⟨s.a, s.b, s.c, s.d, s.e, s.f, s.g, s.h⟩

/-- The initial state is that of the hash. -/
theorem initial_words : Sha256State.initial.words = .initial := by
  rw [Sha256State.words, SecureHash.Words.initial, SecureHash.Words.mk.injEq]
  decide +kernel

/-! ## Words and bytes -/

section Words
variable {n : ℕ}

/-- The bytes of a word are those of its number. -/
theorem bytes32_eq (v : UInt32) : bytes32 v = SecureHash.bytesOf 4 v.toNat := by
  simp [bytes32, SecureHash.bytesOf, List.range_succ, ← UInt8.toNat_inj,
    Nat.shiftRight_eq_div_pow]

/-- The bytes of a double word are those of its number. -/
theorem bytes64_eq (v : UInt64) : bytes64 v = SecureHash.bytesOf 8 v.toNat := by
  simp [bytes64, SecureHash.bytesOf, List.range_succ, ← UInt8.toNat_inj,
    Nat.shiftRight_eq_div_pow]

/-- The digest is made of the words' bytes. -/
theorem toBytes_eq (s : Sha256State) : s.toBytes = s.words.bytes := by
  simp [Sha256State.toBytes, SecureHash.Words.bytes, Sha256State.words, bytes32_eq]

/-- A word of four bytes is the number they spell. -/
theorem word32_eq (b0 b1 b2 b3 : UInt8) :
    word32 b0 b1 b2 b3 = (SecureHash.number [b0, b1, b2, b3]).toUInt32 := by
  have h0 := b0.toNat_lt
  have h1 := b1.toNat_lt
  have h2 := b2.toNat_lt
  have h3 := b3.toNat_lt
  -- the bytes occupy disjoint bits
  have hfirst : 2 ^ 24 * b0.toNat ||| 2 ^ 16 * b1.toNat = 2 ^ 24 * b0.toNat + 2 ^ 16 * b1.toNat :=
    (Nat.two_pow_add_eq_or_of_lt (by omega) _).symm
  have hsecond : 2 ^ 16 * (2 ^ 8 * b0.toNat + b1.toNat) ||| 2 ^ 8 * b2.toNat =
      2 ^ 16 * (2 ^ 8 * b0.toNat + b1.toNat) + 2 ^ 8 * b2.toNat :=
    (Nat.two_pow_add_eq_or_of_lt (by omega) _).symm
  have hthird : 2 ^ 8 * (2 ^ 16 * b0.toNat + 2 ^ 8 * b1.toNat + b2.toNat) ||| b3.toNat =
      2 ^ 8 * (2 ^ 16 * b0.toNat + 2 ^ 8 * b1.toNat + b2.toNat) + b3.toNat :=
    (Nat.two_pow_add_eq_or_of_lt (by omega) _).symm
  rw [← UInt32.toNat_inj]
  simp only [word32, UInt32.toNat_or, UInt32.toNat_shiftLeft, UInt8.toNat_toUInt32,
    Nat.shiftLeft_eq, SecureHash.number, List.foldl_cons, List.foldl_nil]
  have e0 : b0.toNat * 2 ^ (UInt32.toNat 24 % 32) % 2 ^ 32 = 2 ^ 24 * b0.toNat := by
    change b0.toNat * 2 ^ 24 % 2 ^ 32 = _
    omega
  have e1 : b1.toNat * 2 ^ (UInt32.toNat 16 % 32) % 2 ^ 32 = 2 ^ 16 * b1.toNat := by
    change b1.toNat * 2 ^ 16 % 2 ^ 32 = _
    omega
  have e2 : b2.toNat * 2 ^ (UInt32.toNat 8 % 32) % 2 ^ 32 = 2 ^ 8 * b2.toNat := by
    change b2.toNat * 2 ^ 8 % 2 ^ 32 = _
    omega
  have hsum : 2 ^ 24 * b0.toNat + 2 ^ 16 * b1.toNat = 2 ^ 16 * (2 ^ 8 * b0.toNat + b1.toNat) := by
    omega
  have hsum' : 2 ^ 16 * (2 ^ 8 * b0.toNat + b1.toNat) + 2 ^ 8 * b2.toNat =
      2 ^ 8 * (2 ^ 16 * b0.toNat + 2 ^ 8 * b1.toNat + b2.toNat) := by omega
  rw [e0, e1, e2, hfirst, hsum, hsecond, hsum', hthird]
  change _ = _ % 2 ^ 32
  omega

/-- The words of a block are the numbers that its parts of four bytes spell. -/
theorem blockWords_eq {block : List UInt8} : ∀ {n : ℕ}, block.length = 4 * n →
    blockWords block = (List.range n).map (SecureHash.wordAt block) := by
  intro n hlength
  induction n generalizing block with
  | zero =>
    rw [List.length_eq_zero_iff.1 hlength]
    rfl
  | succ n ih =>
    obtain ⟨b0, b1, b2, b3, rest, rfl⟩ :
        ∃ b0 b1 b2 b3 rest, block = b0 :: b1 :: b2 :: b3 :: rest := by
      rcases block with _ | ⟨b0, _ | ⟨b1, _ | ⟨b2, _ | ⟨b3, rest⟩⟩⟩⟩
      iterate 4 · simp only [List.length_cons, List.length_nil] at hlength; omega
      exact ⟨b0, b1, b2, b3, rest, rfl⟩
    have hrest : rest.length = 4 * n := by
      simp only [List.length_cons] at hlength
      omega
    rw [blockWords, ih hrest, List.range_succ_eq_map, List.map_cons, List.map_map, word32_eq]
    rfl

end Words

/-! ## Compression -/

section Compression
variable {block : List UInt8}

/-- The schedule grows by the recursion of the standard. -/
theorem extendSchedule_eq : ∀ {n m : ℕ}, 16 ≤ m →
    extendSchedule n ((List.range m).map (SecureHash.schedule block)).reverse =
      ((List.range (m + n)).map (SecureHash.schedule block)).reverse := by
  intro n
  induction n with
  | zero => exact fun _ => rfl
  | succ n ih =>
    intro m hm
    have hback : ∀ i < m, ((List.range m).map (SecureHash.schedule block)).reverse.getD i 0 =
        SecureHash.schedule block (m - 1 - i) := by
      intro i hi
      simp [List.getD_eq_getElem?_getD, hi]
    have hnext : SecureHash.schedule block m = SecureHash.schedule block (m - 1 - 15) +
        SecureHash.lowerSigma0 (SecureHash.schedule block (m - 1 - 14)) +
        SecureHash.schedule block (m - 1 - 6) +
        SecureHash.lowerSigma1 (SecureHash.schedule block (m - 1 - 1)) := by
      rw [SecureHash.schedule, if_neg (by omega), Nat.sub_sub, Nat.sub_sub, Nat.sub_sub,
        Nat.sub_sub]
      simp only [Nat.reduceAdd]
      ac_rfl
    have hrange : ((List.range (m + 1)).map (SecureHash.schedule block)).reverse =
        SecureHash.schedule block m ::
          ((List.range m).map (SecureHash.schedule block)).reverse := by
      rw [List.range_succ, List.map_append, List.reverse_append]
      rfl
    rw [extendSchedule, hback 1 (by omega), hback 14 (by omega), hback 15 (by omega),
      hback 6 (by omega), show m + (n + 1) = m + 1 + n by omega, ← ih (show 16 ≤ m + 1 by omega),
      hrange, hnext]
    rfl

/-- The compression of a block is that of the standard. -/
theorem compress_eq {s : Sha256State} (hblock : block.length = 64) :
    (s.compress block).words = s.words.compress block := by
  have hfirst : blockWords block = (List.range 16).map (SecureHash.schedule block) := by
    rw [@blockWords_eq block 16 hblock]
    refine List.map_congr_left fun t ht => ?_
    rw [SecureHash.schedule, if_pos (List.mem_range.1 ht)]
  have hschedule : (extendSchedule 48 (blockWords block).reverse).reverse =
      (List.range 64).map (SecureHash.schedule block) := by
    rw [hfirst, extendSchedule_eq (Nat.le_refl 16), List.reverse_reverse]
  -- the rounds on the two records go together
  have hrounds : ∀ (ts : List ℕ) (s : Sha256State),
      (ts.foldl (fun s t => s.round (SecureHash.constant t) (SecureHash.schedule block t))
        s).words =
        ts.foldl (fun u t => u.round (SecureHash.constant t) (SecureHash.schedule block t))
          s.words := by
    intro ts
    induction ts with
    | nil => exact fun _ => rfl
    | cons t ts ih => exact fun s => ih _
  rw [Sha256State.compress, SecureHash.Words.compress, ← hrounds, hschedule, sha256K_eq,
    List.zip_map', List.foldl_map]
  rfl

end Compression

/-! ## What a hasher holds -/

namespace Sha256
variable {h : Sha256} {message data front : List UInt8}

/-- The hasher has compressed the whole blocks of what it has seen, and holds the rest. -/
structure Seen (h : Sha256) (message : List UInt8) : Prop where
  front : ∃ front, message = front ++ h.buffer ∧ 64 ∣ front.length ∧
    h.state.words = chain 64 SecureHash.Words.compress .initial front
  short : h.buffer.length < 64
  total : h.total = message.length.toUInt64

/-- At the start nothing was seen. -/
theorem initial_seen : initial.Seen [] :=
  ⟨⟨[], rfl, by simp, initial_words⟩, by decide, rfl⟩

/-- A full block behind whole blocks is compressed. -/
theorem compress_chain {s : Sha256State} {block : List UInt8} (hfront : 64 ∣ front.length)
    (hstate : s.words = chain 64 SecureHash.Words.compress .initial front)
    (hblock : block.length = 64) :
    64 ∣ (front ++ block).length ∧
      (s.compress block).words = chain 64 SecureHash.Words.compress .initial (front ++ block) := by
  refine ⟨?_, ?_⟩
  · rw [List.length_append, hblock]
    omega
  · rw [compress_eq hblock, chain_append (by decide) hfront, chain_block (by decide) hblock, hstate]

/-- The loop over whole blocks. -/
theorem blocks_seen : ∀ {fuel : ℕ} {h : Sha256} {front data : List UInt8}, data.length / 64 = fuel →
    h.buffer = [] → 64 ∣ front.length →
    h.state.words = chain 64 SecureHash.Words.compress .initial front →
    h.total = (front ++ data).length.toUInt64 → (blocks fuel h data).Seen (front ++ data) := by
  intro fuel
  induction fuel with
  | zero =>
    intro h front data hfuel hbuffer hfront hstate htotal
    have hheld : (blocks 0 h data).buffer = data := by
      rw [blocks, hbuffer, List.nil_append]
    refine ⟨⟨front, by rw [hheld], hfront, hstate⟩, ?_, htotal⟩
    rw [hheld]
    omega
  | succ fuel ih =>
    intro h front data hfuel hbuffer hfront hstate htotal
    have hlong : ¬ data.length < 64 := by omega
    have hblock : (data.take 64).length = 64 := by
      rw [List.length_take]
      omega
    obtain ⟨hfront', hstate'⟩ := compress_chain hfront hstate hblock
    have hparts : front ++ data = front ++ data.take 64 ++ data.drop 64 := by
      rw [List.append_assoc, List.take_append_drop]
    rw [blocks, if_neg hlong, hparts]
    refine ih ?_ hbuffer hfront' hstate' ?_
    · rw [List.length_drop]
      omega
    · rw [← hparts]
      exact htotal

/-- What a hasher holds after one more piece. -/
theorem Seen.update (hseen : h.Seen message) : (h.update data).Seen (message ++ data) := by
  obtain ⟨⟨front, hmessage, hfront, hstate⟩, hshort, htotal⟩ := hseen
  have htotal' : h.total + data.length.toUInt64 = (message ++ data).length.toUInt64 := by
    rw [htotal, List.length_append]
    exact (UInt64.ofNat_add _ _).symm
  rw [Sha256.update]
  dsimp only
  split
  · next hempty =>
    rw [hempty, List.append_nil] at hmessage
    subst hmessage
    exact blocks_seen rfl hempty hfront hstate htotal'
  · next hheld =>
    split
    · next hfull =>
      obtain ⟨hfront', hstate'⟩ := compress_chain hfront hstate hfull
      have hparts : message ++ data = front ++ (h.buffer ++ data.take (64 - h.buffer.length)) ++
          data.drop (64 - h.buffer.length) := by
        rw [hmessage, List.append_assoc, List.append_assoc, List.append_assoc,
          List.take_append_drop]
      rw [hparts] at htotal' ⊢
      exact blocks_seen rfl rfl hfront' hstate' htotal'
    · next hroom =>
      rw [List.length_append, List.length_take] at hroom
      rw [List.take_of_length_le (by omega)]
      refine ⟨⟨front, ?_, hfront, hstate⟩, ?_, htotal'⟩
      · rw [hmessage, List.append_assoc]
      · rw [List.length_append]
        omega

/-- What a hasher holds after some pieces. -/
theorem Seen.updates {pieces : List (List UInt8)} (hseen : h.Seen message) :
    (pieces.foldl Sha256.update h).Seen (message ++ pieces.flatten) := by
  induction pieces generalizing h message with
  | nil => simpa using hseen
  | cons piece pieces ih =>
    rw [List.foldl_cons, List.flatten_cons, ← List.append_assoc]
    exact ih hseen.update

/-- The buffer holds what does not fill a block. -/
theorem Seen.length_buffer (hseen : h.Seen message) : h.buffer.length = message.length % 64 := by
  obtain ⟨⟨front, hmessage, hfront, -⟩, hshort, -⟩ := hseen
  rw [hmessage, List.length_append]
  omega

/-- The padding loop ends with 56 bytes, after the least number of zeros. -/
theorem Seen.pad {z : ℕ} : ∀ {fuel : ℕ} {h : Sha256} {message : List UInt8}, h.Seen message →
    (120 - message.length % 64) % 64 = z → z ≤ fuel →
    (Sha256.pad fuel h).Seen (message ++ List.replicate z 0) := by
  induction z with
  | zero =>
    intro fuel h message hseen hz hfuel
    have hlength := hseen.length_buffer
    have hpadded : Sha256.pad fuel h = h := by
      cases fuel with
      | zero => rfl
      | succ fuel =>
        rw [Sha256.pad, if_pos (by omega)]
    rw [hpadded]
    simpa using hseen
  | succ z ih =>
    intro fuel h message hseen hz hfuel
    have hlength := hseen.length_buffer
    obtain ⟨fuel, rfl⟩ : ∃ k, fuel = k + 1 := ⟨fuel - 1, by omega⟩
    rw [Sha256.pad, if_neg (by omega), List.replicate_succ, List.append_cons]
    refine ih (@Seen.update _ _ [0] hseen) ?_ (by omega)
    rw [List.length_append, List.length_singleton]
    omega

/-- The digest of what a hasher has seen. -/
theorem Seen.finish (hseen : h.Seen message) (hlength : message.length < 2 ^ 61) :
    h.finish = (SecureHash.sha256 message, initial) := by
  have hzeros := @Seen.pad ((119 - message.length % 64) % 64) 64 _ _ (@Seen.update _ _ [0x80] hseen)
    (by rw [List.length_append, List.length_singleton]; omega) (by omega)
  have hbuffer := hzeros.length_buffer
  obtain ⟨⟨front, hmessage, hfront, hstate⟩, -, -⟩ := hzeros
  have hbits : (h.total * 8).toNat = 8 * message.length := by
    rw [hseen.total, UInt64.toNat_mul]
    change message.length % 2 ^ 64 * 8 % 2 ^ 64 = _
    omega
  have hlast : ((Sha256.pad 64 (h.update [0x80])).buffer ++ bytes64 (h.total * 8)).length = 64 := by
    rw [List.length_append, hbuffer, length_bytes64]
    simp only [List.length_append, List.length_singleton, List.length_replicate]
    omega
  have hpad : SecureHash.pad message =
      front ++ ((Sha256.pad 64 (h.update [0x80])).buffer ++ bytes64 (h.total * 8)) := by
    rw [SecureHash.pad, bytes64_eq, hbits, ← List.append_assoc, ← hmessage, List.append_cons]
  rw [Sha256.finish, Prod.mk.injEq, SecureHash.sha256, hpad]
  refine ⟨?_, rfl⟩
  rw [toBytes_eq, (compress_chain hfront hstate hlast).2]

end Sha256

/-- However a message is split into pieces, the hasher returns its digest and is as new. -/
theorem incremental_digest (pieces : List (List UInt8)) (h : pieces.flatten.length < 2 ^ 61) :
    (pieces.foldl Sha256.update .initial).finish =
      (SecureHash.sha256 pieces.flatten, .initial) :=
  (@Sha256.Seen.updates _ _ pieces Sha256.initial_seen).finish h

/-- A message of three bytes in three pieces, one of them empty. -/
theorem incremental_digest_abc :
    (([[97], [], [98, 99]] : List (List UInt8)).foldl Sha256.update .initial).finish =
      (SecureHash.sha256 [97, 98, 99], .initial) :=
  incremental_digest [[97], [], [98, 99]] (by decide)

/-- The digest that the standard gives as an example. -/
example : (Sha256.initial.update [97, 98, 99]).finish.1 =
    [0xba, 0x78, 0x16, 0xbf, 0x8f, 0x01, 0xcf, 0xea, 0x41, 0x41, 0x40, 0xde, 0x5d, 0xae, 0x22, 0x23,
      0xb0, 0x03, 0x61, 0xa3, 0x96, 0x17, 0x7a, 0x9c, 0xb4, 0x10, 0xff, 0x61, 0xf2, 0x00, 0x15,
      0xad] := by
  decide +kernel

end PodFabric
