import PodFabric.Core.Bytes
import PodFabric.Lib.FramedLog
import PodFabric.Model.Primitives

/-!
# The journal

Framing of the append-only transaction log: a header, and records with a length and a checksum. The
scan of a journal never skips over a damaged record: it stops at the first one and reports how many
bytes were discarded.
-/

namespace PodFabric

/-- The version of the journal. -/
def journalVersion : UInt16 := 1

/-- The bytes of the journal's header. -/
def journalHeaderSize : ℕ := 16

/-- The bytes in front of a record's body. -/
def journalRecordPrefixSize : ℕ := 20

/-- Hard ceiling on a single record, independent of policy. -/
def journalHardMaxRecord : ℕ := 2 ^ 24

/-- What a record is: a complete durable state of its own, or one that a transaction opens with; or
the end of the transaction. -/
inductive RecordType
  | checkpoint | begin | commit
  deriving DecidableEq, Repr

/-- The underlying value. -/
def RecordType.raw (type : RecordType) : UInt16 := type.ctorIdx.toUInt16 + 1

/-- A record of the journal. -/
structure JournalRecord where
  sequence : LogSequence := {}
  type : RecordType := .checkpoint
  payload : List UInt8 := []
  deriving DecidableEq

/-- How a scan of the journal ends. -/
inductive ScanStatus
  | clean | tornTail | corruptTail | unsupportedVersion | oversizedRecord | corrupt
  deriving DecidableEq, Repr

/-- What a scan of the journal finds. -/
structure JournalScan where
  status : ScanStatus := .clean
  detail : Text := []
  records : List JournalRecord := []
  /-- The offset just past the last record that passed validation. -/
  validBytes : ℕ := 0
  discardedBytes : ℕ := 0
  totalBytes : ℕ := 0
  deriving DecidableEq

/-! ## The header -/

/-- The bytes a journal begins with. -/
def journalMagic : List UInt8 := text "PODFBJ01"

/-- The header of a journal (`encode_journal_header`). -/
def encodeJournalHeader (version : UInt16) : List UInt8 :=
  let out := journalMagic ++ bytes16 version ++ bytes16 0
  out ++ bytes32 (crc32c out)

/-- The version a header declares (`decode_journal_header`). -/
def decodeJournalHeader (bytes : List UInt8) : Result UInt16 := do
  ensure (journalHeaderSize ≤ bytes.length) ⟨.incomplete, "journal header is truncated"⟩
  ensure (bytes.take journalMagic.length = journalMagic)
    ⟨.corrupt, "journal magic does not match"⟩
  ensure (bigEndian ((bytes.drop 12).take 4) = (crc32c (bytes.take 12)).toNat)
    ⟨.corrupt, "journal header checksum mismatch"⟩
  let version := (bigEndian ((bytes.drop 8).take 2)).toUInt16
  ensure (version = journalVersion) ⟨.unsupported, "journal revision is not supported"⟩
  return version

/-! ## Records -/

/-- The part of the framing that the checksum covers. -/
def JournalRecord.framing (record : JournalRecord) : List UInt8 :=
  bytes64 record.sequence.value ++ bytes16 record.type.raw ++ bytes16 0 ++
    bytes32 record.payload.length.toUInt32

/-- The bytes of a record (`encode_record`). -/
def encodeRecord (record : JournalRecord) (maxRecordBytes : ℕ) : Result (List UInt8) := do
  ensure (record.payload.length ≤ journalHardMaxRecord)
    ⟨.exhausted, "journal record exceeds the hard framing limit"⟩
  ensure (record.payload.length ≤ maxRecordBytes)
    ⟨.exhausted, "journal record exceeds the configured limit"⟩
  return record.framing ++ bytes32 (crc32c (record.framing ++ record.payload)) ++ record.payload

/-- The fields in front of a record's body. -/
structure RecordPrefix where
  sequence : LogSequence
  type : RecordType
  length : ℕ
  crc : ℕ
  deriving DecidableEq

/-- Reads the fields in front of a record's body (`parse_record_prefix`). -/
def parseRecordPrefix (bytes : List UInt8) (maxRecordBytes : ℕ) : Result RecordPrefix := do
  ensure (journalRecordPrefixSize ≤ bytes.length) ⟨.incomplete, "record prefix is truncated"⟩
  let type := bigEndian ((bytes.drop 8).take 2)
  ensure (1 ≤ type ∧ type ≤ 3) ⟨.corrupt, "record type is not recognised"⟩
  let length := bigEndian ((bytes.drop 12).take 4)
  ensure (length ≤ min maxRecordBytes journalHardMaxRecord)
    ⟨.exhausted, "record declares a payload larger than the configured limit"⟩
  return {
    sequence := ⟨(bigEndian (bytes.take 8)).toUInt64⟩
    type := RecordType.ofNat (type - 1)
    length
    crc := bigEndian ((bytes.drop 16).take 4) }

/-- Validates the checksum of a complete record. -/
def verifyRecord (record : List UInt8) (parsed : RecordPrefix) : Bool :=
  decide (journalRecordPrefixSize ≤ record.length) &&
    decide ((crc32c (record.take (journalRecordPrefixSize - 4) ++
      record.drop journalRecordPrefixSize)).toNat = parsed.crc)

/-! ## Scanning -/

/-- Why the scan of the records stops. -/
inductive Damage
  | shortPrefix
  | badPrefix (status : Status)
  | shortPayload
  | checksum

/-- The body of the scanning loop, on the bytes from the offset on. -/
def scanRecord (maxRecordBytes : ℕ) (bytes : List UInt8) : Front JournalRecord UInt8 Damage :=
  if bytes.length < journalRecordPrefixSize then .damage .shortPrefix
  else
    match parseRecordPrefix (bytes.take journalRecordPrefixSize) maxRecordBytes with
    | .error status => .damage (.badPrefix status)
    | .ok parsed =>
      let frame := journalRecordPrefixSize + parsed.length
      if bytes.length < frame then .damage .shortPayload
      else if verifyRecord (bytes.take frame) parsed then
        .frame ⟨parsed.sequence, parsed.type, (bytes.take frame).drop journalRecordPrefixSize⟩
          (bytes.drop frame)
      else .damage .checksum

/-- The status of a scan, with its detail. Damage that follows an intact record is damage of the
tail. -/
def scanVerdict (first : Bool) : Option Damage → ScanStatus × Text
  | none => (.clean, [])
  | some .shortPrefix => (.tornTail, "the journal ends inside a record prefix")
  | some (.badPrefix status) =>
    (if ¬ first then .corruptTail
      else if status.code = .exhausted then .oversizedRecord else .corrupt, status.message)
  | some .shortPayload => (.tornTail, "the journal ends inside a record payload")
  | some .checksum => (.corruptTail, "record checksum mismatch")

/-- Scans a complete journal image (`scan_journal`). -/
def scanJournal (bytes : List UInt8) (maxRecordBytes : ℕ) : JournalScan :=
  if bytes.length < journalHeaderSize then
    { status := .corrupt, detail := "journal is shorter than its header"
      totalBytes := bytes.length }
  else
    match decodeJournalHeader (bytes.take journalHeaderSize) with
    | .error header =>
      { status := if header.code = .unsupported then .unsupportedVersion else .corrupt
        detail := header.message, totalBytes := bytes.length }
    | .ok _ =>
      let scanned :=
        scanFrames (scanRecord maxRecordBytes) bytes.length (bytes.drop journalHeaderSize)
      let records := scanned.1
      let verdict := scanVerdict records.isEmpty scanned.2.2
      let valid :=
        if ¬ records.isEmpty then bytes.length - scanned.2.1.length
        else if verdict.1 = .clean then 0 else journalHeaderSize
      { status := verdict.1, detail := verdict.2, records, validBytes := valid
        discardedBytes := bytes.length - valid, totalBytes := bytes.length }

end PodFabric
