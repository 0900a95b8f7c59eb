import PodFabric.Proof.Reopen
import PodFabric.Proof.Checksum

/-!
# What a scan makes of a damaged journal

A journal that is cut short is found to hold the records before the cut, and to be clean when the
cut is between two of them (`scan_cut`). What a scan takes to be valid is found again, and is clean
(`rescan_clean`). One replaced byte in a record hides that record and all after it (`scan_altered`).
-/

namespace PodFabric

/-- The journal of these encoded records. -/
def journalImage (frames : List (List UInt8)) : List UInt8 :=
  encodeJournalHeader journalVersion ++ frames.flatten

/-- Where the first records end. -/
def recordEnd (frames : List (List UInt8)) (n : ℕ) : ℕ :=
  journalHeaderSize + (frames.take n).flatten.length

section Scan
variable {limit k n : ℕ} {records : List JournalRecord} {frames : List (List UInt8)}
  {journal : List UInt8}

/-- Records that may be written, and what is written for them. -/
theorem encodeRecords_eq_ok :
    records.mapM (encodeRecord · limit) = .ok frames ↔
      (∀ record ∈ records, record.payload.length ≤ min limit journalHardMaxRecord) ∧
        frames = records.map JournalRecord.frame := by
  rw [mapM_eq_ok]
  constructor
  · intro h
    induction h with
    | nil => exact ⟨by simp, rfl⟩
    | cons hrecord _ ih =>
      obtain ⟨hfits, rfl⟩ := encodeRecord_eq_ok.1 hrecord
      exact ⟨List.forall_mem_cons.2 ⟨hfits, ih.1⟩, by rw [ih.2, List.map_cons]⟩
  · rintro ⟨hfits, rfl⟩
    rw [List.forall₂_map_right_iff, List.forall₂_same]
    exact fun record hrecord => encodeRecord_eq_ok.2 ⟨hfits record hrecord, rfl⟩

/-- The frames of some records are found as they are. -/
theorem frames_of_fits
    (hfits : ∀ record ∈ records, record.payload.length ≤ min limit journalHardMaxRecord) :
    Frames (scanRecord limit) (records.map JournalRecord.frame).flatten records := by
  induction records with
  | nil => exact .nil
  | cons record records ih =>
    obtain ⟨hrecord, hrest⟩ := List.forall_mem_cons.1 hfits
    exact .cons (scanRecord_frame hrecord) (ih hrest)

/-! ## Cuts -/

/-- The first units of some lists, one after the other, are whole lists and the beginning of the
next one. -/
theorem take_flatten {β : Type} : ∀ {lists : List (List β)} {k : ℕ}, k < lists.flatten.length →
    ∃ n m, ∃ hn : n < lists.length, m < lists[n].length ∧
      k = (lists.take n).flatten.length + m ∧
      lists.flatten.take k = (lists.take n).flatten ++ lists[n].take m
  | l :: lists, k, hk => by
    by_cases hin : k < l.length
    · refine ⟨0, k, by simp, hin, by simp, ?_⟩
      rw [List.flatten_cons, List.take_append_of_le_length hin.le]
      rfl
    · rw [List.flatten_cons, List.length_append] at hk
      obtain ⟨n, m, hn, hm, hlength, htake⟩ :=
        take_flatten (show k - l.length < lists.flatten.length by omega)
      refine ⟨n + 1, m, by simpa using hn, hm, ?_, ?_⟩
      · rw [List.take_succ_cons, List.flatten_cons, List.length_append]
        omega
      · rw [List.flatten_cons, List.take_append, List.take_of_length_le (by omega), htake,
          List.take_succ_cons, List.flatten_cons, List.append_assoc]
        rfl

/-- The end of the next record. -/
theorem recordEnd_succ (hn : n < frames.length) :
    recordEnd frames (n + 1) = recordEnd frames n + frames[n].length := by
  rw [recordEnd, recordEnd, List.take_succ_eq_append_getElem hn, List.flatten_append,
    List.length_append, List.flatten_singleton, Nat.add_assoc]

variable (frames) in
/-- Later records end later. -/
theorem recordEnd_mono : Monotone (recordEnd frames) := by
  intro n n' h
  refine Nat.add_le_add_left (List.Sublist.length_le ?_) _
  refine List.Sublist.flatten (List.IsPrefix.sublist ?_)
  exact List.take_prefix_take_left h

/-- A record is before the cut, or ends after it. -/
theorem recordEnd_le_iff {m i : ℕ} (hn : n < frames.length) (hm : m < frames[n].length) :
    recordEnd frames i ≤ recordEnd frames n + m ↔ i ≤ n := by
  constructor
  · intro h
    by_contra hi
    have hnext := recordEnd_mono frames (Nat.succ_le_of_lt (Nat.lt_of_not_le hi))
    rw [Nat.succ_eq_add_one, recordEnd_succ hn] at hnext
    omega
  · exact fun h => (recordEnd_mono frames h).trans (Nat.le_add_right _ _)

/-- A journal that is cut short holds the records before the cut, and is clean when the cut is
between two records. -/
theorem scan_cut (hframes : records.mapM (encodeRecord · limit) = .ok frames)
    (hk : journalHeaderSize ≤ k) (hk' : k ≤ (journalImage frames).length) :
    ∃ n ≤ records.length,
      (scanJournal ((journalImage frames).take k) limit).records = records.take n ∧
      (∀ i < records.length, i < n ↔ recordEnd frames (i + 1) ≤ k) ∧
      ((∃ i ≤ records.length, recordEnd frames i = k) →
        (scanJournal ((journalImage frames).take k) limit).status = .clean) ∧
      ((¬ ∃ i ≤ records.length, recordEnd frames i = k) →
        (scanJournal ((journalImage frames).take k) limit).status = .tornTail) := by
  obtain ⟨hfits, rfl⟩ := encodeRecords_eq_ok.1 hframes
  have htake : (journalImage (records.map JournalRecord.frame)).take k =
      encodeJournalHeader journalVersion ++
        (records.map JournalRecord.frame).flatten.take (k - journalHeaderSize) := by
    rw [journalImage, List.take_append, List.take_of_length_le (by simpa using hk),
      length_encodeJournalHeader]
  rw [journalImage, List.length_append, length_encodeJournalHeader] at hk'
  by_cases hall : k - journalHeaderSize < (records.map JournalRecord.frame).flatten.length
  · obtain ⟨n, m, hn, hm, hlength, hcut⟩ := take_flatten hall
    have hend : recordEnd (records.map JournalRecord.frame) n + m = k := by
      unfold recordEnd
      omega
    have hn' : n < records.length := by simpa using hn
    have hwritten : Written limit ((journalImage (records.map JournalRecord.frame)).take k)
        (records.take n) (records[n].frame.take m) := by
      refine ⟨_, ((records.take n).map JournalRecord.frame).flatten, ?_, rfl,
        decode_encodeJournalHeader,
        frames_of_fits fun record hrecord => hfits record (List.mem_of_mem_take hrecord)⟩
      rw [htake, hcut, List.map_take, List.getElem_map]
    have htorn : TornTail limit (records[n].frame.take m) := by
      by_cases hnil : records[n].frame.take m = []
      · exact .inl hnil
      · exact .inr ⟨hnil, scanRecord_torn (hfits _ (List.getElem_mem hn')) (by simpa using hm)⟩
    obtain ⟨hrecords, hclean, hdirty⟩ := scan_written hwritten htorn
    have hboundary : (∃ i ≤ records.length, recordEnd (records.map JournalRecord.frame) i = k) ↔
        m = 0 := by
      constructor
      · rintro ⟨i, -, hi⟩
        have hin := (recordEnd_le_iff hn hm).1 (hi.trans hend.symm).le
        have hle := recordEnd_mono (records.map JournalRecord.frame) hin
        omega
      · rintro rfl
        exact ⟨n, hn'.le, hend⟩
    refine ⟨n, hn'.le, hrecords, fun i _ => ?_, fun h => hclean ?_, fun h => (hdirty ?_).1⟩
    · rw [← hend, recordEnd_le_iff hn hm, Nat.succ_le_iff]
    · rw [hboundary.1 h, List.take_zero]
    · rw [hboundary] at h
      have hpos : 0 < records[n].frame.length := List.length_pos_iff.2 JournalRecord.frame_ne_nil
      rw [ne_eq, List.take_eq_nil_iff, not_or]
      exact ⟨h, JournalRecord.frame_ne_nil⟩
  · have hend : recordEnd (records.map JournalRecord.frame) records.length = k := by
      rw [recordEnd, List.take_of_length_le (by simp)]
      omega
    have hwritten : Written limit ((journalImage (records.map JournalRecord.frame)).take k)
        records [] := by
      refine ⟨_, (records.map JournalRecord.frame).flatten, ?_, rfl, decode_encodeJournalHeader,
        frames_of_fits hfits⟩
      rw [htake, List.take_of_length_le (by omega), List.append_nil]
    obtain ⟨hrecords, hclean, -⟩ := scan_written hwritten (.inl rfl)
    refine ⟨records.length, le_rfl, by rw [hrecords, List.take_length], fun i hi => ?_,
      fun _ => hclean rfl, fun h => absurd ⟨_, le_rfl, hend⟩ h⟩
    rw [← hend]
    exact iff_of_true hi (recordEnd_mono _ hi)

/-! ## Repairs -/

/-- What a scan takes to be valid is found again, and is clean. -/
theorem rescan_clean
    (h : (scanJournal journal limit).status = .tornTail ∨
      (scanJournal journal limit).status = .corruptTail) :
    (scanJournal (journal.take (scanJournal journal limit).validBytes) limit).status = .clean ∧
      (scanJournal (journal.take (scanJournal journal limit).validBytes) limit).records =
        (scanJournal journal limit).records := by
  have hstatus : (scanJournal journal limit).status ≠ .unsupportedVersion ∧
      (scanJournal journal limit).status ≠ .corrupt ∧
      (scanJournal journal limit).status ≠ .clean := by
    obtain h | h := h <;> rw [h] <;> decide
  obtain ⟨tail, -, -, hvalid⟩ := written_of_scan hstatus.1 hstatus.2.1
  obtain ⟨hrecords, hclean, -⟩ := scan_written (hvalid hstatus.2.2) (.inl rfl)
  exact ⟨hclean rfl, hrecords⟩

/-! ## Damage -/

/-- Where the length of a record is in its frame. -/
def lengthField (frame : List UInt8) : List UInt8 := (frame.drop 12).take 4

/-- What the parser of a prefix takes from it. -/
theorem parseRecordPrefix_eq_ok {bytes : List UInt8} {parsed : RecordPrefix}
    (h : parseRecordPrefix bytes limit = .ok parsed) :
    parsed.length = bigEndian (lengthField bytes) ∧
      parsed.crc = bigEndian ((bytes.drop 16).take 4) := by
  simp only [parseRecordPrefix, check_eq_ok, ensure_eq_ok, pure_eq_ok] at h
  obtain ⟨-, -, -, rfl⟩ := h
  exact ⟨rfl, rfl⟩

/-- The frame of a record is not intact once a byte of it is replaced, unless that byte is of its
length. -/
theorem scanRecord_altered {record : JournalRecord} {frame rest : List UInt8}
    (hfits : record.payload.length ≤ min limit journalHardMaxRecord)
    (h : Altered record.frame frame) (hlength : lengthField frame = lengthField record.frame) :
    ∃ reason, scanRecord limit (frame ++ rest) = .damage reason := by
  cases hscan : scanRecord limit (frame ++ rest) with
  | damage reason => exact ⟨reason, rfl⟩
  | frame found rest' =>
    exfalso
    have hsize : frame.length = journalRecordPrefixSize + record.payload.length := by
      rw [h.length_eq, JournalRecord.length_frame]
    obtain ⟨-, parsed, hparse, -, hverified, -⟩ := scanRecord_eq_frame.1 hscan
    rw [List.take_append_of_le_length (by omega)] at hparse
    obtain ⟨hlen, hcrc⟩ := parseRecordPrefix_eq_ok hparse
    have hfield : lengthField (frame.take journalRecordPrefixSize) = lengthField frame := by
      simp only [lengthField, journalRecordPrefixSize, List.drop_take, List.take_take]
      rfl
    have hpayload : parsed.length = record.payload.length := by
      rw [hlen, hfield, hlength]
      change bigEndian (bytes32 record.payload.length.toUInt32) = _
      rw [bigEndian_bytes32, toNat_length (hfits.trans (min_le_right ..)) (by decide)]
    have hseal : parsed.crc = bigEndian ((frame.drop 16).take 4) := by
      rw [hcrc]
      simp only [journalRecordPrefixSize, List.drop_take, List.take_take]
      rfl
    rw [List.take_left' (by rw [hsize, hpayload]), verifyRecord, Bool.and_eq_true,
      decide_eq_true_eq, decide_eq_true_eq] at hverified
    have hsplit : frame = frame.take 16 ++ ((frame.drop 16).take 4 ++ frame.drop 20) := by
      conv_lhs => rw [← List.take_append_drop 16 frame, ← List.take_append_drop 4 (frame.drop 16)]
      rw [List.drop_drop]
    have hframe : record.frame = record.framing ++
        (bytes32 (crc32c (record.framing ++ record.payload)) ++ record.payload) := by
      rw [JournalRecord.frame, JournalRecord.header, List.append_assoc]
    rw [hsplit, hframe] at h
    have hsealLength : ((frame.drop 16).take 4).length = 4 := by
      rw [List.length_take, List.length_drop, hsize, journalRecordPrefixSize]
      omega
    refine sealed_altered crc32c_bytes_altered ?_ hsealLength h ?_
    · rw [List.length_take, JournalRecord.length_framing, hsize, journalRecordPrefixSize]
      omega
    · refine bigEndian_injective hsealLength ?_
      rw [bigEndian_bytes32, ← hseal]
      exact hverified.2.symm

/-- A scan stops before the record that has a byte replaced, and is not clean. -/
theorem scan_altered {i : ℕ} {frame : List UInt8}
    (hframes : records.mapM (encodeRecord · limit) = .ok frames) (hi : i < frames.length)
    (h : Altered frames[i] frame) (hlength : lengthField frame = lengthField frames[i]) :
    (scanJournal (journalImage (frames.set i frame)) limit).records = records.take i ∧
      (scanJournal (journalImage (frames.set i frame)) limit).status ≠ .clean := by
  obtain ⟨hfits, rfl⟩ := encodeRecords_eq_ok.1 hframes
  have hi' : i < records.length := by simpa using hi
  rw [List.getElem_map] at h hlength
  obtain ⟨reason, hreason⟩ : ∃ reason, scanRecord limit
      (frame ++ ((records.map JournalRecord.frame).drop (i + 1)).flatten) = .damage reason :=
    scanRecord_altered (hfits _ (List.getElem_mem hi')) h hlength
  have himage : journalImage ((records.map JournalRecord.frame).set i frame) =
      encodeJournalHeader journalVersion ++
        (((records.take i).map JournalRecord.frame).flatten ++
          (frame ++ ((records.map JournalRecord.frame).drop (i + 1)).flatten)) := by
    rw [journalImage, List.set_eq_take_append_cons_drop, if_pos hi, List.flatten_append,
      List.flatten_cons, List.map_take]
  have hintact : Frames (scanRecord limit)
      ((records.take i).map JournalRecord.frame).flatten (records.take i) :=
    frames_of_fits fun record hrecord => hfits record (List.mem_of_mem_take hrecord)
  have hne : frame ++ ((records.map JournalRecord.frame).drop (i + 1)).flatten ≠ [] := by
    intro hnil
    have hsame := h.length_eq
    rw [(List.append_eq_nil_iff.1 hnil).1, JournalRecord.length_frame, List.length_nil,
      journalRecordPrefixSize] at hsame
    omega
  have hscanned := scanRecord_framing.scan_damage hintact hne hreason
    (show _ ≤ (journalImage ((records.map JournalRecord.frame).set i frame)).length by
      rw [himage]
      simp)
  rw [himage] at hscanned ⊢
  obtain ⟨hrecords, hstatus, -⟩ := scan_found rfl decode_encodeJournalHeader hintact hscanned
  refine ⟨hrecords, ?_⟩
  rw [hstatus, ne_eq, scanVerdict_clean]
  simp

/-- Outside its field the length stays as it is. -/
theorem lengthField_set {frame : List UInt8} {b : UInt8} (hk : ¬ (12 ≤ k ∧ k < 16)) :
    lengthField (frame.set k b) = lengthField frame := by
  rw [lengthField, lengthField, List.drop_set]
  split
  · rfl
  · rw [List.take_set, List.set_eq_of_length_le]
    exact (List.length_take_le _ _).trans (by omega)

end Scan

/-! ## Results -/

/-- **A scan finds the intact prefix, and what it repairs stays repaired.** -/
theorem scan_intact_prefix (limit : ℕ) :
    (∀ (records : List JournalRecord) (frames : List (List UInt8)) (k : ℕ),
      records.mapM (encodeRecord · limit) = .ok frames → journalHeaderSize ≤ k →
      k ≤ (journalImage frames).length →
      ∃ n ≤ records.length,
        (scanJournal ((journalImage frames).take k) limit).records = records.take n ∧
        (∀ i < records.length, i < n ↔ recordEnd frames (i + 1) ≤ k) ∧
        ((∃ i ≤ records.length, recordEnd frames i = k) →
          (scanJournal ((journalImage frames).take k) limit).status = .clean) ∧
        ((¬ ∃ i ≤ records.length, recordEnd frames i = k) →
          (scanJournal ((journalImage frames).take k) limit).status = .tornTail)) ∧
    ∀ journal : List UInt8,
      ((scanJournal journal limit).status = .tornTail ∨
        (scanJournal journal limit).status = .corruptTail) →
      (scanJournal (journal.take (scanJournal journal limit).validBytes) limit).status = .clean ∧
        (scanJournal (journal.take (scanJournal journal limit).validBytes) limit).records =
          (scanJournal journal limit).records :=
  ⟨fun _ _ _ hframes hk hk' => scan_cut hframes hk hk', fun _ h => rescan_clean h⟩

/-- **One replaced byte of a record, but for its length, is always noticed.** -/
theorem scan_detects {limit : ℕ} {records : List JournalRecord} {frames : List (List UInt8)}
    {i k : ℕ} {b : UInt8} (hframes : records.mapM (encodeRecord · limit) = .ok frames)
    (hi : i < frames.length) (hk : k < frames[i].length) (hb : frames[i][k] ≠ b)
    (hlength : ¬ (12 ≤ k ∧ k < 16)) :
    (scanJournal (journalImage (frames.set i (frames[i].set k b))) limit).records =
        records.take i ∧
      (scanJournal (journalImage (frames.set i (frames[i].set k b))) limit).status ≠ .clean :=
  scan_altered hframes hi (Altered.set hk hb) (lengthField_set hlength)

namespace Sample

/-- A transaction with a short payload. -/
def logged : List JournalRecord := [⟨⟨1⟩, .begin, [7, 8]⟩, ⟨⟨1⟩, .commit, []⟩]

end Sample

/-- The commit is found damaged, and the begin before it is found. -/
theorem logged_damaged :
    (scanJournal (journalImage
      ((Sample.logged.map JournalRecord.frame).set 1
        ((Sample.logged.map JournalRecord.frame)[1].set 9 2))) 64).records = Sample.logged.take 1 :=
  (scan_detects (encodeRecords_eq_ok.2 ⟨by decide, rfl⟩) (by decide) (by decide) (by decide)
    (by decide)).1

end PodFabric
