import PodFabric.Persist.Journal

/-!
# What a scan finds

An encoded record is found whatever follows it, and a record that is cut short is found to be torn.
-/

namespace PodFabric

variable {limit : ℕ} {bytes data : List UInt8} {record : JournalRecord}

/-! ## The header -/

/-- The header of a journal has its fixed length. -/
@[simp] theorem length_encodeJournalHeader {version : UInt16} :
    (encodeJournalHeader version).length = journalHeaderSize := rfl

/-- The header of the current revision is accepted. -/
theorem decode_encodeJournalHeader :
    decodeJournalHeader (encodeJournalHeader journalVersion) = .ok journalVersion := by
  decide +kernel

/-! ## Frames -/

/-- What a frame is made of. -/
theorem scanRecord_eq_frame {rest : List UInt8} :
    scanRecord limit bytes = .frame record rest ↔
      journalRecordPrefixSize ≤ bytes.length ∧ ∃ parsed,
        parseRecordPrefix (bytes.take journalRecordPrefixSize) limit = .ok parsed ∧
        journalRecordPrefixSize + parsed.length ≤ bytes.length ∧
        verifyRecord (bytes.take (journalRecordPrefixSize + parsed.length)) parsed = true ∧
        record = ⟨parsed.sequence, parsed.type,
          (bytes.take (journalRecordPrefixSize + parsed.length)).drop journalRecordPrefixSize⟩ ∧
        rest = bytes.drop (journalRecordPrefixSize + parsed.length) := by
  unfold scanRecord
  split
  · next hshort =>
    simp only [reduceCtorEq, false_iff, not_and]
    intro h
    omega
  · next hlong =>
    cases hparse : parseRecordPrefix (bytes.take journalRecordPrefixSize) limit with
    | error status => simp
    | ok parsed =>
      by_cases hfits : bytes.length < journalRecordPrefixSize + parsed.length
      · simp only [if_pos hfits, reduceCtorEq, Except.ok.injEq, false_iff]
        rintro ⟨-, _, rfl, h, -⟩
        omega
      · by_cases hverified : verifyRecord (bytes.take (journalRecordPrefixSize + parsed.length))
          parsed = true
        · simp only [if_neg hfits, if_pos hverified, Front.frame.injEq, Except.ok.injEq]
          constructor
          · rintro ⟨rfl, rfl⟩
            exact ⟨by omega, parsed, rfl, by omega, hverified, rfl, rfl⟩
          · rintro ⟨-, _, rfl, -, -, rfl, rfl⟩
            exact ⟨rfl, rfl⟩
        · simp only [if_neg hfits, if_neg hverified, reduceCtorEq, Except.ok.injEq, false_iff]
          rintro ⟨-, _, rfl, -, h, -⟩
          exact hverified h

/-- What the scan finds at an offset depends on the frame there only. -/
theorem scanRecord_framing : Framing (scanRecord limit) where
  append := by
    intro bytes rest record more h
    obtain ⟨hlong, parsed, hparse, hfits, hverified, rfl, rfl⟩ := scanRecord_eq_frame.1 h
    have htake : ∀ n ≤ bytes.length, (bytes ++ more).take n = bytes.take n :=
      fun n hn => List.take_append_of_le_length hn
    refine scanRecord_eq_frame.2 ⟨by rw [List.length_append]; omega, parsed, ?_, ?_, ?_, ?_, ?_⟩
    · rw [htake _ hlong]
      exact hparse
    · rw [List.length_append]
      omega
    · rw [htake _ hfits]
      exact hverified
    · rw [htake _ hfits]
    · exact (List.drop_append_of_le_length hfits).symm
  split := by
    intro bytes rest record h
    obtain ⟨hlong, parsed, hparse, hfits, hverified, rfl, rfl⟩ := scanRecord_eq_frame.1 h
    have hlength : (bytes.take (journalRecordPrefixSize + parsed.length)).length =
        journalRecordPrefixSize + parsed.length := by
      rw [List.length_take]
      omega
    refine ⟨_, ?_, (List.take_append_drop (journalRecordPrefixSize + parsed.length) bytes).symm,
      scanRecord_eq_frame.2 ⟨by omega, parsed, ?_, by omega, ?_, ?_, ?_⟩⟩
    · rw [← List.length_pos_iff, hlength]
      simp [journalRecordPrefixSize]
    · rw [List.take_take, Nat.min_eq_left (by omega)]
      exact hparse
    · rw [List.take_take, Nat.min_self]
      exact hverified
    · rw [List.take_take, Nat.min_self]
    · rw [List.drop_eq_nil_of_le (by omega)]

/-! ## Encoded records -/

/-- The framing of a record with its checksum. -/
def JournalRecord.header (record : JournalRecord) : List UInt8 :=
  record.framing ++ bytes32 (crc32c (record.framing ++ record.payload))

/-- The framing of a record has its fixed length. -/
theorem JournalRecord.length_framing : record.framing.length = journalRecordPrefixSize - 4 := rfl

/-- The header of a record has its fixed length. -/
theorem JournalRecord.length_header : record.header.length = journalRecordPrefixSize := rfl

/-- What is written for a record. -/
def JournalRecord.frame (record : JournalRecord) : List UInt8 := record.header ++ record.payload

/-- A record has its header and its payload. -/
@[simp] theorem JournalRecord.length_frame :
    record.frame.length = journalRecordPrefixSize + record.payload.length := by
  rw [JournalRecord.frame, List.length_append, JournalRecord.length_header]

/-- A record is not empty. -/
theorem JournalRecord.frame_ne_nil : record.frame ≠ [] := by
  rw [← List.length_pos_iff, JournalRecord.length_frame]
  simp [journalRecordPrefixSize]

/-- A record that may be written, and what is written for it. -/
theorem encodeRecord_eq_ok : encodeRecord record limit = .ok data ↔
    record.payload.length ≤ min limit journalHardMaxRecord ∧ record.frame = data := by
  simp only [encodeRecord, check_eq_ok, ensure_eq_ok, pure_eq_ok, JournalRecord.frame,
    JournalRecord.header]
  constructor
  · rintro ⟨hhard, hlimit, hframe⟩
    exact ⟨le_min hlimit hhard, hframe⟩
  · rintro ⟨h, hframe⟩
    exact ⟨h.trans (min_le_right ..), h.trans (min_le_left ..), hframe⟩

/-- The header of a record within the bound is read back. -/
theorem parse_header (h : record.payload.length ≤ min limit journalHardMaxRecord) :
    parseRecordPrefix record.header limit = .ok {
      sequence := record.sequence, type := record.type, length := record.payload.length
      crc := (crc32c (record.framing ++ record.payload)).toNat } := by
  have hhard : record.payload.length ≤ journalHardMaxRecord := h.trans (min_le_right ..)
  have hsequence : record.header.take 8 = bytes64 record.sequence.value := rfl
  have htype : (record.header.drop 8).take 2 = bytes16 record.type.raw := rfl
  have hlength : (record.header.drop 12).take 4 = bytes32 record.payload.length.toUInt32 := rfl
  have hcrc : (record.header.drop 16).take 4 =
      bytes32 (crc32c (record.framing ++ record.payload)) := rfl
  have hraw : record.type.raw.toNat = record.type.ctorIdx + 1 := by
    cases record.type <;> rfl
  have hle : record.type.ctorIdx + 1 ≤ 3 := by
    cases record.type <;> decide
  rw [parseRecordPrefix, hsequence, htype, hlength, hcrc, bigEndian_bytes64, bigEndian_bytes16,
    bigEndian_bytes32, bigEndian_bytes32, toNat_length hhard (by decide), hraw]
  simp only [JournalRecord.length_header, ensure, le_refl, if_true, if_pos h, Nat.le_add_left, hle,
    and_self, Nat.add_sub_cancel, RecordType.ofNat_ctorIdx, UInt64.ofNat_toNat]
  rfl

section Encoded
variable (h : record.payload.length ≤ min limit journalHardMaxRecord)
include h

/-- An encoded record is found as it is. -/
theorem scanRecord_frame : scanRecord limit record.frame = .frame record [] := by
  have hlength := record.length_frame
  have hdrop : record.frame.drop journalRecordPrefixSize = record.payload :=
    List.drop_left' JournalRecord.length_header
  have htake : record.frame.take journalRecordPrefixSize = record.header :=
    List.take_left' JournalRecord.length_header
  have hparse := parse_header h
  rw [← htake] at hparse
  refine scanRecord_eq_frame.2 ⟨by omega, _, hparse, hlength.ge, ?_, ?_, ?_⟩
  · have hframing : record.frame.take (journalRecordPrefixSize - 4) = record.framing := rfl
    rw [List.take_of_length_le hlength.le, verifyRecord, hframing, hdrop, hlength]
    simp
  · rw [List.take_of_length_le hlength.le, hdrop]
  · rw [List.drop_eq_nil_of_le hlength.le]

/-- A record that is cut short is found to be torn. -/
theorem scanRecord_torn {n : ℕ} (hn : n < record.frame.length) :
    scanRecord limit (record.frame.take n) = .damage .shortPrefix ∨
      scanRecord limit (record.frame.take n) = .damage .shortPayload := by
  have hlength : (record.frame.take n).length = n := by
    rw [List.length_take]
    omega
  rw [JournalRecord.length_frame] at hn
  unfold scanRecord
  rw [hlength]
  by_cases hshort : n < journalRecordPrefixSize
  · exact .inl (if_pos hshort)
  · refine .inr ?_
    rw [if_neg hshort, List.take_take, Nat.min_eq_left (by omega), JournalRecord.frame,
      List.take_left' JournalRecord.length_header, parse_header h]
    exact if_pos hn

end Encoded

end PodFabric
