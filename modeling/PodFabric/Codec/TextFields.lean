import PodFabric.Model.Evidence

/-!
# Fields of a text document

The strict parsers of single fields: decimal numbers that may not leave their type, enumerations
given by a table, and digests. Each one names the field it rejects.
-/

namespace PodFabric

/-- The token that stands for an absent value. -/
def blankToEmpty (token : Text) : Text := if token = [45] then [] else token

/-- The message of a rejected field. -/
def fieldMessage (what problem : Text) : Text := text "field '" ++ what ++ text "'" ++ problem

/-! ## Numbers -/

/-- The digit loop of `parseU64`. The test that the next digit fits comes before the step. -/
def parseDigits (what : Text) : UInt64 → Text → Result UInt64
  | value, [] => .ok value
  | value, c :: token =>
    if c < 48 ∨ 57 < c then fail .invalid (fieldMessage what " has a non-digit character")
    else if (0xFFFFFFFFFFFFFFFF - (c - 48).toUInt64) / 10 < value then
      fail .invalid (fieldMessage what " overflows 64 bits")
    else parseDigits what (value * 10 + (c - 48).toUInt64) token

/-- An unsigned number of 64 bits (`parse_u64`). -/
def parseU64 (what token : Text) : Result UInt64 :=
  if token = [] ∨ 20 < token.length then
    fail .invalid (fieldMessage what " is not an unsigned integer")
  else parseDigits what 0 token

/-- The most negative value has no positive counterpart, so it has a path of its own. -/
def parseI64 (what token : Text) : Result Int64 := do
  let negative : Bool := token.head? = some 45
  let signed : Bool := token.head? = some 45 ∨ token.head? = some 43
  let magnitude ← parseU64 what (if signed then token.tail else token)
  if negative then
    if 0x8000000000000000 < magnitude then
      fail .invalid (fieldMessage what " underflows 64 bits")
    else if magnitude = 0x8000000000000000 then return Int64.minValue
    else return -magnitude.toInt64
  else if 0x7FFFFFFFFFFFFFFF < magnitude then
    fail .invalid (fieldMessage what " overflows 64 bits")
  else return magnitude.toInt64

/-- An unsigned number of 32 bits (`parse_u32`). -/
def parseU32 (what token : Text) : Result UInt32 := do
  let value ← parseU64 what token
  if 0xFFFFFFFF < value then fail .invalid (fieldMessage what " exceeds 32 bits")
  else return value.toUInt32

/-! ## Enumerations -/

/-- The value a table gives for a token. -/
def parseEnum {α : Type} (table : List (Text × α)) (what token : Text) : Result α :=
  match table.find? (·.1 = token) with
  | some entry => .ok entry.2
  | none => fail .invalid (fieldMessage what " has an unrecognised value")

/-- A quality by its name. -/
def parseQuality : Text → Result EvidenceQuality :=
  parseEnum [(text "REAL", .real), (text "SYNTHETIC", .synthetic), (text "UNKNOWN", .unknown)]
    "prov.quality"

/-- A class of evidence by its name. -/
def parseClass : Text → Result EvidenceClass :=
  parseEnum [(text "attested", .attested), (text "observed", .observed),
    (text "declared", .declared), (text "reconstructed", .reconstructed)] "prov.class"

/-- A membership state by its name. -/
def parseMembership : Text → Result MembershipState :=
  parseEnum [(text "joining", .joining), (text "established", .established),
    (text "leaving", .leaving), (text "fenced", .fenced), (text "retired", .retired)]
    "member.state"

/-- An administrative state by its name. -/
def parseAdmin : Text → Result AdminState :=
  parseEnum [(text "enabled", .enabled), (text "disabled", .disabled),
    (text "maintenance", .maintenance), (text "draining", .draining)] "admin"

/-- A health state by its name. -/
def parseHealth : Text → Result HealthState :=
  parseEnum [(text "ok", .ok), (text "impaired", .impaired), (text "critical", .critical),
    (text "unknown", .unknown)] "health"

/-- An operational state by its name. -/
def parseOper : Text → Result OperationalState :=
  parseEnum [(text "up", .up), (text "degraded", .degraded), (text "down", .down),
    (text "unknown", .unknown)] "oper"

/-- A route state by its name. -/
def parseRouteState : Text → Result RouteState :=
  parseEnum [(text "installed", .installed), (text "pending", .pending),
    (text "withdrawn", .withdrawn), (text "failed", .failed), (text "unknown", .unknown)]
    "route.state"

/-- A kind of domain by its name; the error quotes the line. -/
def parseDomainKind : Text → Text → Result DomainKind :=
  parseEnum [(text "rack", .rack), (text "power", .power), (text "switch-plane", .switchPlane),
    (text "row", .row), (text "site", .site), (text "unknown", .unknown)]

/-- A kind of obligation by its name. -/
def parseObligationKind : Text → Result ObligationKind :=
  parseEnum [(text "protected-path", .protectedPath), (text "capacity-floor", .capacityFloor),
    (text "domain-diversity", .domainDiversity), (text "maintenance-window", .maintenanceWindow)]
    "obligation.kind"

/-! ## Digests -/

/-- The bytes of pairs of hexadecimal digits. -/
def hexPairs : Text → Option (List UInt8)
  | hi :: lo :: hex => do
    let high ← hexValue hi
    let low ← hexValue lo
    let bytes ← hexPairs hex
    return (high <<< 4 ||| low) :: bytes
  | _ => some []

/-- Two hexadecimal digits make a byte. Induction on the digits. -/
theorem length_hexPairs : ∀ {hex : Text} {bytes : List UInt8}, hexPairs hex = some bytes →
    bytes.length = hex.length / 2
  | [], bytes, h => by cases h; rfl
  | [_], bytes, h => by cases h; simp
  | hi :: lo :: hex, bytes, h => by
    simp only [hexPairs, Option.bind_eq_bind, Option.bind_eq_some_iff, Option.pure_def,
      Option.some.injEq] at h
    obtain ⟨high, -, low, -, rest, hrest, rfl⟩ := h
    simp only [List.length_cons, length_hexPairs hrest]
    omega

/-- A digest is 64 hexadecimal characters (`Digest::parse`). -/
def Digest.parse (hex : Text) : Result Digest :=
  if hsize : hex.length = 64 then
    match hbytes : hexPairs hex with
    | some bytes => .ok ⟨bytes, by rw [length_hexPairs hbytes, hsize]⟩
    | none => fail .invalid "digest: non-hexadecimal character"
  else fail .invalid "digest: expected 64 hexadecimal characters"

end PodFabric
