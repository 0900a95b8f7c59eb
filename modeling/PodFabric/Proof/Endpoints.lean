import PodFabric.Lib.Pieces
import PodFabric.Proof.TextFields
import PodFabric.Transport.Socket

/-!
# Endpoints are read back

An endpoint is a host, a colon and a port. The last colon counts, so that a host may have colons of
its own; what is accepted is exactly a host that is not empty with the digits of a port behind it
(`endpoint_round_trip`).
-/

namespace PodFabric.Transport

variable {t host service : Text} {n : ℕ} {port : UInt16}

/-- Only a text without a colon is not split. -/
theorem splitEndpoint_eq_none : splitEndpoint t = none ↔ 58 ∉ t := by
  induction t with
  | nil => exact iff_of_true rfl List.not_mem_nil
  | cons c rest ih =>
    rw [splitEndpoint]
    cases hrest : splitEndpoint rest with
    | some pieces =>
      have hmem : 58 ∈ rest := by
        by_contra hnot
        rw [ih.2 hnot] at hrest
        cases hrest
      exact iff_of_false (by simp) fun h => h (List.mem_cons_of_mem _ hmem)
    | none =>
      have hnot := ih.1 hrest
      by_cases hc : c = 58
      · subst hc
        exact iff_of_false (by simp) fun h => h List.mem_cons_self
      · refine iff_of_true (by simp [hc]) fun h => ?_
        obtain heq | hmem := List.mem_cons.1 h
        · exact hc heq.symm
        · exact hnot hmem

/-- The pieces of an endpoint are around its last colon. -/
theorem splitEndpoint_eq_some :
    splitEndpoint t = some (host, service) ↔ t = host ++ 58 :: service ∧ 58 ∉ service := by
  induction t generalizing host service with
  | nil =>
    refine iff_of_false (by simp [splitEndpoint]) ?_
    rintro ⟨h, -⟩
    simp at h
  | cons c rest ih =>
    rw [splitEndpoint]
    cases hrest : splitEndpoint rest with
    | some pieces =>
      obtain ⟨host', service'⟩ := pieces
      dsimp only
      rw [Option.some.injEq, Prod.mk.injEq]
      obtain ⟨hsplit, hlast⟩ := ih.1 hrest
      constructor
      · rintro ⟨rfl, rfl⟩
        exact ⟨by rw [hsplit]; rfl, hlast⟩
      · rintro ⟨heq, hlast'⟩
        rw [hsplit, ← List.cons_append] at heq
        exact last_piece_inj hlast hlast' heq
    | none =>
      have hnot := splitEndpoint_eq_none.1 hrest
      dsimp only
      constructor
      · intro h
        split at h
        · next hc =>
          cases h
          exact ⟨by rw [hc]; rfl, hnot⟩
        · cases h
      · rintro ⟨heq, hlast⟩
        cases host with
        | nil =>
          rw [List.nil_append, List.cons.injEq] at heq
          rw [if_pos heq.1, heq.2]
        | cons a host =>
          rw [List.cons_append, List.cons.injEq] at heq
          refine absurd ?_ hnot
          rw [heq.2]
          exact List.mem_append_right _ List.mem_cons_self

/-- A port is read from digits whose value it has. -/
theorem parsePort_eq_ok (hn : n ≤ 65535) : parsePort n service = .ok port ↔
    (∀ c ∈ service, 48 ≤ c.toNat ∧ c.toNat ≤ 57) ∧ digitsValue n service = port.toNat := by
  induction service generalizing n with
  | nil =>
    have hvalue : n.toUInt16.toNat = n := UInt16.toNat_ofNat_of_lt' (Nat.lt_succ_of_le hn)
    rw [parsePort, Except.ok.injEq, ← UInt16.toNat_inj, hvalue]
    exact ⟨fun h => ⟨fun c hc => (by cases hc), h⟩, fun h => h.2⟩
  | cons c rest ih =>
    have hdigit : (c < 48 ∨ 57 < c) ↔ ¬ (48 ≤ c.toNat ∧ c.toNat ≤ 57) := by
      rw [UInt8.lt_iff_toNat_lt, UInt8.lt_iff_toNat_lt]
      change c.toNat < 48 ∨ 57 < c.toNat ↔ _
      omega
    have hstep : digitsValue n (c :: rest) = digitsValue (n * 10 + (c.toNat - 48)) rest := by
      rw [digitsValue, List.foldl_cons, Nat.mul_comm]
      rfl
    rw [parsePort, List.forall_mem_cons, hstep]
    by_cases hc : 48 ≤ c.toNat ∧ c.toNat ≤ 57
    · rw [if_neg fun h => hdigit.1 h hc]
      by_cases hlarge : 65535 < n * 10 + (c.toNat - 48)
      · rw [if_pos hlarge]
        refine iff_of_false (by simp [fail]) ?_
        rintro ⟨-, hvalue⟩
        have hgrows := le_digitsValue (n * 10 + (c.toNat - 48)) rest
        have hlt := port.toNat_lt
        omega
      · rw [if_neg hlarge, ih (Nat.not_lt.1 hlarge)]
        exact ⟨fun h => ⟨⟨hc, h.1⟩, h.2⟩, fun h => ⟨h.1.2, h.2⟩⟩
    · rw [if_pos (hdigit.2 hc)]
      exact iff_of_false (by simp [fail]) fun h => hc h.1.1

/-- What is accepted as an endpoint. -/
theorem parseEndpoint_eq_ok : parseEndpoint t = .ok (host, port) ↔
    host ≠ [] ∧ ∃ service, t = host ++ 58 :: service ∧ service ≠ [] ∧
      (∀ c ∈ service, 48 ≤ c.toNat ∧ c.toNat ≤ 57) ∧ digitsValue 0 service = port.toNat := by
  have hplain : ∀ {service : Text}, (∀ c ∈ service, 48 ≤ c.toNat ∧ c.toNat ≤ 57) → 58 ∉ service :=
    fun h hmem => absurd (h _ hmem).2 (by decide)
  rw [parseEndpoint]
  cases hsplit : splitEndpoint t with
  | none =>
    refine iff_of_false (by simp [fail]) ?_
    rintro ⟨-, service, rfl, -⟩
    exact splitEndpoint_eq_none.1 hsplit (List.mem_append_right _ List.mem_cons_self)
  | some pieces =>
    obtain ⟨host', service⟩ := pieces
    obtain ⟨rfl, hlast⟩ := splitEndpoint_eq_some.1 hsplit
    dsimp only
    simp only [List.isEmpty_iff]
    split
    · next hempty =>
      refine iff_of_false (by simp [fail]) ?_
      rintro ⟨hhost, service', heq, hservice, hdigits, -⟩
      obtain ⟨rfl, rfl⟩ := last_piece_inj hlast (hplain hdigits) heq
      exact hempty.elim hhost hservice
    · next hfull =>
      rw [not_or] at hfull
      simp only [bind_eq_ok, pure_eq_ok, Prod.mk.injEq]
      constructor
      · rintro ⟨read, hread, rfl, rfl⟩
        exact ⟨hfull.1, service, rfl, hfull.2, (parsePort_eq_ok (Nat.zero_le _)).1 hread⟩
      · rintro ⟨-, service', heq, -, hdigits, hvalue⟩
        obtain ⟨rfl, rfl⟩ := last_piece_inj hlast (hplain hdigits) heq
        exact ⟨port, (parsePort_eq_ok (Nat.zero_le _)).2 ⟨hdigits, hvalue⟩, rfl, rfl⟩

/-- **Endpoints are read back.** The endpoint of a host and a port is read as these, whatever colons
the host has, unless the host is empty; and an endpoint that is accepted has the digits of its port
behind the last colon, so that formatting it again changes at most their leading zeros. -/
theorem endpoint_round_trip (host : Text) (port : UInt16) :
    (parseEndpoint (formatEndpoint host port) = .ok (host, port) ↔ host ≠ []) ∧
    ∀ t, parseEndpoint t = .ok (host, port) → ∃ service, t = host ++ 58 :: service ∧
      service ≠ [] ∧ (∀ c ∈ service, 48 ≤ c.toNat ∧ c.toNat ≤ 57) ∧
      digitsValue 0 service = port.toNat ∧
      parseEndpoint (formatEndpoint host port) = parseEndpoint t := by
  obtain ⟨hsome, hdigits, hvalue⟩ := decimal_spec port.toNat
  have hread : parseEndpoint (formatEndpoint host port) = .ok (host, port) ↔ host ≠ [] := by
    rw [parseEndpoint_eq_ok]
    exact ⟨And.left, fun hhost => ⟨hhost, _, rfl, hsome, hdigits, hvalue⟩⟩
  refine ⟨hread, fun t ht => ?_⟩
  obtain ⟨hhost, service, hsplit, hservice, hall, heq⟩ := parseEndpoint_eq_ok.1 ht
  exact ⟨service, hsplit, hservice, hall, heq, (hread.2 hhost).trans ht.symm⟩

end PodFabric.Transport
