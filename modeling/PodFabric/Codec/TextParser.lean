import PodFabric.Codec.SnapshotText
import PodFabric.Codec.TextFields
import PodFabric.Lib.Words

/-!
# Parsing of snapshots

The line parser of the text format (`TextParser`). Every access of the code to a view or a vector is
an access that can fail here: a `substr` that begins behind the end throws, and an element that does
not exist is undefined. Loops run on fuel, and running out of it is undefined as well.
-/

namespace PodFabric

/-- The longest line that is accepted. -/
def maxLineBytes : ℕ := 8192

/-- The largest number of lines that is accepted. -/
def maxLines : ℕ := 2 ^ 20

/-- The largest number of items that is accepted. -/
def maxTextItems : ℕ := 2 ^ 20

/-- A part of a line, with the place it stands at. -/
abbrev Token := Word UInt8

/-! ## Views -/

/-- `view[i]`. -/
def byteAt (view : Text) (i : ℕ) : Outcome UInt8 :=
  match view[i]? with
  | some c => .ok c
  | none => .error .undefined

/-- `view.substr(pos, count)`, which is cut at the end of the view. -/
def substr (view : Text) (pos count : ℕ) : Outcome Text :=
  if pos ≤ view.length then .ok ((view.drop pos).take count) else .error .thrown

/-- The view from one place of a line to another. -/
def viewBetween (line : Text) (first last : ℕ) : Outcome Text :=
  if first ≤ last ∧ last ≤ line.length then .ok ((line.drop first).take (last - first))
  else .error .undefined

/-- Blanks and tabs set tokens apart. -/
def isBlank (c : UInt8) : Bool := c = 32 || c = 9

/-- The first place from `i` on whose byte does not satisfy `p`, or the end of the line. -/
def skipWhile (p : UInt8 → Bool) (line : Text) : ℕ → ℕ → Outcome ℕ
  | 0, _ => .error .undefined
  | fuel + 1, i =>
    if i < line.length then do
      let c ← byteAt line i
      if p c then skipWhile p line fuel (i + 1) else return i
    else return i

/-- The loop of `splitTokens`. -/
def splitFrom (line : Text) : ℕ → ℕ → Outcome (List Token)
  | 0, _ => .error .undefined
  | fuel + 1, i =>
    if i < line.length then do
      let start ← skipWhile isBlank line (line.length + 1) i
      let stop ← skipWhile (fun c => !isBlank c) line (line.length + 1) start
      if start < stop then do
        let letters ← substr line start (stop - start)
        let tokens ← splitFrom line fuel stop
        return ⟨start, letters⟩ :: tokens
      else splitFrom line fuel stop
    else return []

/-- The tokens of a line with their positions (`split_tokens`). -/
def splitTokens (line : Text) : Outcome (List Token) := splitFrom line (line.length + 1) 0

/-- `tokens[i]`. -/
def tokenAt (tokens : List Token) (i : ℕ) : Outcome Text :=
  match tokens[i]? with
  | some token => .ok token.letters
  | none => .error .undefined

/-- The free text from a token to the last one. -/
def restOfLine (line : Text) (tokens : List Token) (i : ℕ) : Outcome Text :=
  if tokens.length ≤ i then return []
  else
    match tokens[i]?, tokens.getLast? with
    | some first, some last =>
      if last.stop ≤ first.start then return [] else viewBetween line first.start last.stop
    | _, _ => .error .undefined

/-- Writes to the last element of a vector (`back()`). -/
def modifyBack {α : Type} (l : List α) (f : α → α) : Outcome (List α) :=
  match l.getLast? with
  | some a => .ok (l.dropLast ++ [f a])
  | none => .error .undefined

/-! ## Fields of a line -/

/-- The field at a place of the line. -/
def readField {α : Type} (parse : Text → Result α) (tokens : List Token) (i : ℕ) : Outcome α := do
  let token ← tokenAt tokens i
  (parse token).lift

/-- An identifier at a place of the line. -/
def readId {tag : IdTag} : List Token → ℕ → Outcome (BasicId tag) :=
  readField fun token => BasicId.parse (blankToEmpty token)

/-- An identifier that may be absent. -/
def readOptionalId {tag : IdTag} : List Token → ℕ → Outcome (BasicId tag) :=
  readField fun token =>
    if blankToEmpty token = [] then .ok .nil else BasicId.parse (blankToEmpty token)

/-- A keyword, with the number of tokens the line needs from it on (`contains`). -/
def keyword (tokens : List Token) (i : ℕ) (word : Text) (needed : ℕ) (message : Text) :
    Outcome Unit := do
  if i + needed ≤ tokens.length then do
    let token ← tokenAt tokens i
    ensure (token = word) (.status ⟨.invalid, message⟩)
  else .error (.status ⟨.invalid, message⟩)

/-- `prov <quality> <class> <source|-> <sequence>` -/
def parseProv (tokens : List Token) (i : ℕ) : Outcome Provenance := do
  ensure (i + 4 ≤ tokens.length)
    (.status ⟨.invalid, "provenance needs quality, class, source and sequence"⟩)
  let quality ← readField parseQuality tokens i
  let klass ← readField parseClass tokens (i + 1)
  let source ← readOptionalId tokens (i + 2)
  let sourceSequence ← readField (parseU64 "prov.sequence") tokens (i + 3)
  return { quality, klass, source, sourceSequence }

/-! ## Records -/

/-- The record that a continuation line belongs to. -/
inductive Current
  | none | snapshot | member | link | route | domain | obligation
  deriving DecidableEq, Repr

/-- The parser: the snapshot so far, and what the following lines extend. -/
structure TextParser where
  snapshot : PodSnapshot := {}
  current : Current := .none

namespace TextParser

/-- A member line opens a record that the following lines extend. -/
def parseMember (p : TextParser) (tokens : List Token) : Outcome TextParser := do
  ensure (p.snapshot.members.length < maxTextItems)
    (.status ⟨.exhausted, "too many member records"⟩)
  ensure (20 ≤ tokens.length) (.status ⟨.invalid, "member directive is missing fields"⟩)
  let rack ← readId tokens 1
  keyword tokens 2 "gen" 2 "member needs gen"
  let generation ← readField (parseU64 "member.gen") tokens 3
  keyword tokens 4 "digest" 2 "member needs digest"
  let digest ← readField Digest.parse tokens 5
  keyword tokens 6 "rnf" 2 "member needs rnf"
  let rnfSchema ← readField (fun token => .ok (blankToEmpty token)) tokens 7
  keyword tokens 8 "state" 2 "member needs state"
  let membership ← readField parseMembership tokens 9
  keyword tokens 10 "admin" 2 "member needs admin"
  let admin ← readField parseAdmin tokens 11
  keyword tokens 12 "health" 2 "member needs health"
  let health ← readField parseHealth tokens 13
  keyword tokens 14 "observed" 2 "member needs observed"
  let observedAt ← readField (parseI64 "member.observed") tokens 15
  keyword tokens 16 "prov" 4 "member needs prov"
  let provenance ← parseProv tokens 17
  ensure (tokens.length ≤ 21) (.status ⟨.invalid, "member directive has trailing tokens"⟩)
  let member : MemberRecord :=
    { rack, generation := ⟨generation⟩, digest, rnfSchema, membership, admin, health, observedAt,
      provenance }
  return {
    snapshot := { p.snapshot with members := p.snapshot.members ++ [member] }
    current := .member }

/-- A link line. -/
def parseLink (p : TextParser) (tokens : List Token) : Outcome TextParser := do
  ensure (p.snapshot.links.length < maxTextItems)
    (.status ⟨.exhausted, "too many link records"⟩)
  ensure (31 ≤ tokens.length) (.status ⟨.invalid, "link directive is missing fields"⟩)
  let id ← readId tokens 1
  keyword tokens 2 "a" 3 "link needs a <rack> <port>"
  let aRack ← readId tokens 3
  let aPort ← readId tokens 4
  keyword tokens 5 "b" 3 "link needs b <rack> <port>"
  let bRack ← readId tokens 6
  let bPort ← readId tokens 7
  keyword tokens 8 "agen" 2 "link needs agen"
  let agen ← readField (parseU64 "link.agen") tokens 9
  keyword tokens 10 "bgen" 2 "link needs bgen"
  let bgen ← readField (parseU64 "link.bgen") tokens 11
  keyword tokens 12 "domain" 2 "link needs domain"
  let domain ← readId tokens 13
  keyword tokens 14 "resource" 2 "link needs resource"
  let resource ← readId tokens 15
  keyword tokens 16 "capacity" 2 "link needs capacity"
  let capacity ← readField (parseU64 "link.capacity") tokens 17
  keyword tokens 18 "admin" 2 "link needs admin"
  let admin ← readField parseAdmin tokens 19
  keyword tokens 20 "oper" 2 "link needs oper"
  let oper ← readField parseOper tokens 21
  keyword tokens 22 "route" 2 "link needs route"
  let route ← readOptionalId tokens 23
  keyword tokens 24 "observed" 2 "link needs observed"
  let observedAt ← readField (parseI64 "link.observed") tokens 25
  keyword tokens 26 "prov" 4 "link needs prov"
  let provenance ← parseProv tokens 27
  ensure (tokens.length ≤ 31) (.status ⟨.invalid, "link directive has trailing tokens"⟩)
  let link : LinkRecord :=
    { id, a := ⟨aRack, aPort⟩, b := ⟨bRack, bPort⟩, aGeneration := ⟨agen⟩, bGeneration := ⟨bgen⟩,
      domain, resource, capacity, admin, oper, route, observedAt, provenance }
  return { snapshot := { p.snapshot with links := p.snapshot.links ++ [link] }, current := .link }

/-- A route line needs 20 tokens, and may not have more than 19. -/
def parseRoute (p : TextParser) (tokens : List Token) : Outcome TextParser := do
  ensure (p.snapshot.routes.length < maxTextItems)
    (.status ⟨.exhausted, "too many route records"⟩)
  ensure (20 ≤ tokens.length) (.status ⟨.invalid, "route directive is missing fields"⟩)
  let ref ← readId tokens 1
  keyword tokens 2 "gen" 2 "route needs gen"
  let generation ← readField (parseU64 "route.gen") tokens 3
  keyword tokens 4 "digest" 2 "route needs digest"
  let authorityDigest ← readField Digest.parse tokens 5
  keyword tokens 6 "resource" 2 "route needs resource"
  let resource ← readId tokens 7
  keyword tokens 8 "capacity" 2 "route needs capacity"
  let committedCapacity ← readField (parseU64 "route.capacity") tokens 9
  keyword tokens 10 "state" 2 "route needs state"
  let state ← readField parseRouteState tokens 11
  keyword tokens 12 "observed" 2 "route needs observed"
  let observedAt ← readField (parseI64 "route.observed") tokens 13
  keyword tokens 14 "prov" 4 "route needs prov"
  let provenance ← parseProv tokens 15
  ensure (tokens.length ≤ 19) (.status ⟨.invalid, "route directive has trailing tokens"⟩)
  let route : RouteEvidence :=
    { ref, generation := ⟨generation⟩, authorityDigest, resource, committedCapacity, state,
      observedAt, provenance }
  return {
    snapshot := { p.snapshot with routes := p.snapshot.routes ++ [route] }
    current := .route }

/-- What stands behind the fields of a line is the detail of its provenance. -/
def readDetail (line : Text) (tokens : List Token) (i : ℕ) (provenance : Provenance) :
    Outcome Provenance :=
  if i < tokens.length then do
    let detail ← restOfLine line tokens i
    return { provenance with detail }
  else return provenance

/-- A domain line. -/
def parseDomain (p : TextParser) (line : Text) (tokens : List Token) : Outcome TextParser := do
  ensure (p.snapshot.domains.length < maxTextItems)
    (.status ⟨.exhausted, "too many failure-domain records"⟩)
  ensure (8 ≤ tokens.length) (.status ⟨.invalid, "fdom directive is missing fields"⟩)
  let id ← readId tokens 1
  keyword tokens 2 "kind" 2 "fdom needs kind"
  let kind ← readField (parseDomainKind "fdom.kind") tokens 3
  keyword tokens 4 "prov" 4 "fdom needs prov"
  let provenance ← parseProv tokens 5
  let provenance ← readDetail line tokens 9 provenance
  let domain : FailureDomainRecord := { id, kind, provenance }
  return {
    snapshot := { p.snapshot with domains := p.snapshot.domains ++ [domain] }
    current := .domain }

/-- An obligation line. -/
def parseObligation (p : TextParser) (line : Text) (tokens : List Token) :
    Outcome TextParser := do
  ensure (p.snapshot.obligations.length < maxTextItems)
    (.status ⟨.exhausted, "too many obligation records"⟩)
  ensure (16 ≤ tokens.length) (.status ⟨.invalid, "obligation directive is missing fields"⟩)
  let id ← readId tokens 1
  keyword tokens 2 "kind" 2 "obligation needs kind"
  let kind ← readField parseObligationKind tokens 3
  keyword tokens 4 "tenant" 2 "obligation needs tenant"
  let tenant ← readOptionalId tokens 5
  keyword tokens 6 "mandatory" 2 "obligation needs mandatory"
  let mandatory ← readField (parseU32 "obligation.mandatory") tokens 7
  ensure (mandatory ≤ 1) (.status ⟨.invalid, "obligation.mandatory is not 0 or 1"⟩)
  keyword tokens 8 "domains" 2 "obligation needs domains"
  let requiredDomains ← readField (parseU32 "obligation.domains") tokens 9
  keyword tokens 10 "diversity" 2 "obligation needs diversity"
  let diversityKind ← readField (parseDomainKind "obligation.diversity") tokens 11
  keyword tokens 12 "prov" 4 "obligation needs prov"
  let provenance ← parseProv tokens 13
  let provenance ← readDetail line tokens 17 provenance
  let obligation : Obligation :=
    { id, kind, tenant, mandatory := mandatory = 1, requiredDomains, diversityKind, provenance }
  return {
    snapshot := { p.snapshot with obligations := p.snapshot.obligations ++ [obligation] }
    current := .obligation }

/-! ## Continuation lines -/

section Lists
variable (p : TextParser)

/-- Changes the rack read last. -/
def withMember (f : MemberRecord → MemberRecord) : Outcome TextParser := do
  let members ← modifyBack p.snapshot.members f
  return { p with snapshot := { p.snapshot with members } }

/-- Changes the link read last. -/
def withLink (f : LinkRecord → LinkRecord) : Outcome TextParser := do
  let links ← modifyBack p.snapshot.links f
  return { p with snapshot := { p.snapshot with links } }

/-- Changes the route read last. -/
def withRoute (f : RouteEvidence → RouteEvidence) : Outcome TextParser := do
  let routes ← modifyBack p.snapshot.routes f
  return { p with snapshot := { p.snapshot with routes } }

/-- Changes the domain read last. -/
def withDomain (f : FailureDomainRecord → FailureDomainRecord) : Outcome TextParser := do
  let domains ← modifyBack p.snapshot.domains f
  return { p with snapshot := { p.snapshot with domains } }

/-- Changes the obligation read last. -/
def withObligation (f : Obligation → Obligation) : Outcome TextParser := do
  let obligations ← modifyBack p.snapshot.obligations f
  return { p with snapshot := { p.snapshot with obligations } }

end Lists

/-- The free text of a `+detail` or `+desc` line. A snapshot takes the one, its records the
other. -/
def parseFree (p : TextParser) (directive rest : Text) : Outcome TextParser :=
  if directive = text "+detail" then
    match p.current with
    | .snapshot =>
      let provenance := { p.snapshot.provenance with detail := rest }
      return { p with snapshot := { p.snapshot with provenance } }
    | _ => return p
  else
    match p.current with
    | .member => p.withMember fun m => { m with provenance := { m.provenance with detail := rest } }
    | .link => p.withLink fun l => { l with provenance := { l.provenance with detail := rest } }
    | .route => p.withRoute fun r => { r with provenance := { r.provenance with detail := rest } }
    | .domain => p.withDomain fun d => { d with description := rest }
    | .obligation => p.withObligation fun o => { o with description := rest }
    | .snapshot | .none => return p

/-- A capacity line: a claim of the rack read last. -/
def parseCapacity (p : TextParser) (line : Text) (tokens : List Token) : Outcome TextParser := do
  ensure (10 ≤ tokens.length)
    (.status ⟨.invalid, "+capacity takes nine arguments and a provenance"⟩)
  let resource ← readId tokens 1
  let exclusivity ← readId tokens 2
  let amount ← readField (parseU64 "capacity.amount") tokens 3
  let reserved ← readField (parseU64 "capacity.reserved") tokens 4
  let domain ← readId tokens 5
  let provenance ← parseProv tokens 6
  let provenance ← readDetail line tokens 10 provenance
  let claim : CapacityClaim := { resource, exclusivity, amount, reserved, domain, provenance }
  p.withMember fun m => { m with capacity := m.capacity ++ [claim] }

/-- A hop line: a link of the route read last. -/
def parseHop (p : TextParser) (tokens : List Token) : Outcome TextParser := do
  ensure (tokens.length = 3) (.status ⟨.invalid, "+hop takes two arguments"⟩)
  let rack ← readId tokens 1
  let generation ← readField (parseU64 "hop.gen") tokens 2
  p.withRoute fun r => { r with
    path := r.path ++ [rack]
    pathGenerations := r.pathGenerations ++ [⟨generation⟩] }

/-- A requirement line: a bound of the obligation read last. -/
def parseRequire (p : TextParser) (tokens : List Token) : Outcome TextParser := do
  ensure (tokens.length = 4) (.status ⟨.invalid, "+require takes three arguments"⟩)
  let resource ← readId tokens 1
  let minimum ← readField (parseU64 "require.minimum") tokens 2
  let marginPercent ← readField (parseU32 "require.margin") tokens 3
  let requirement : CapacityRequirement := { resource, minimum, marginPercent }
  p.withObligation fun o => { o with requirements := o.requirements ++ [requirement] }

/-- A continuation line with one identifier. -/
def parseListed {tag : IdTag} (tokens : List Token) (message : Text) : Outcome (BasicId tag) := do
  ensure (tokens.length = 2) (.status ⟨.invalid, message⟩)
  readId tokens 1

/-- A line that adds to the current record. -/
def parseContinuation (p : TextParser) (line directive : Text) (tokens : List Token) :
    Outcome TextParser :=
  if p.current = .none then
    .error (.status ⟨.invalid, "continuation line has no preceding record"⟩)
  else if directive = text "+detail" ∨ directive = text "+desc" then do
    let rest ← restOfLine line tokens 1
    p.parseFree directive rest
  else if p.current = .member ∧ directive = text "+domain" then do
    let id ← parseListed tokens "+domain takes one argument"
    p.withMember fun m => { m with failureDomains := m.failureDomains ++ [id] }
  else if p.current = .member ∧ directive = text "+port" then do
    let port ← parseListed tokens "+port takes one argument"
    p.withMember fun m => { m with ports := m.ports ++ [port] }
  else if p.current = .member ∧ directive = text "+capacity" then p.parseCapacity line tokens
  else if p.current = .route ∧ directive = text "+hop" then p.parseHop tokens
  else if p.current = .domain ∧ directive = text "+member" then do
    let rack ← parseListed tokens "+member takes one argument"
    p.withDomain fun d => { d with members := d.members ++ [rack] }
  else if p.current = .obligation ∧ directive = text "+rack" then do
    let rack ← parseListed tokens "+rack takes one argument"
    p.withObligation fun o => { o with protectedRacks := o.protectedRacks ++ [rack] }
  else if p.current = .obligation ∧ directive = text "+require" then p.parseRequire tokens
  else .error (.status ⟨.invalid, text "unrecognised continuation '" ++ directive ++ text "'"⟩)

/-! ## Lines -/

/-- A line behind the header (`handle_line`). -/
def handleLine (p : TextParser) (line : Text) (tokens : List Token) : Outcome TextParser := do
  let directive ← tokenAt tokens 0
  if directive = text "pod" then do
    ensure (tokens.length = 2) (.status ⟨.invalid, "pod directive takes one argument"⟩)
    let pod ← readId tokens 1
    return { p with snapshot := { p.snapshot with pod } }
  else if directive = text "schema" then do
    ensure (tokens.length = 2) (.status ⟨.invalid, "schema directive takes one argument"⟩)
    let schema ← tokenAt tokens 1
    return { p with snapshot := { p.snapshot with schema } }
  else if directive = text "observed-at" then do
    ensure (tokens.length = 2) (.status ⟨.invalid, "observed-at takes one argument"⟩)
    let observedAt ← readField (parseI64 "observed-at") tokens 1
    return { p with snapshot := { p.snapshot with observedAt } }
  else if directive = text "member" then p.parseMember tokens
  else if directive = text "link" then p.parseLink tokens
  else if directive = text "route" then p.parseRoute tokens
  else if directive = text "fdom" then p.parseDomain line tokens
  else if directive = text "obligation" then p.parseObligation line tokens
  else if directive = text "prov" then do
    let provenance ← parseProv tokens 1
    return { snapshot := { p.snapshot with provenance }, current := .snapshot }
  else do
    let first ← byteAt directive 0
    if first = 43 then p.parseContinuation line directive tokens
    else .error (.status ⟨.invalid, text "unrecognised directive '" ++ directive ++ text "'"⟩)

end TextParser

/-- A carriage return before the newline belongs to the line end. -/
def dropReturn (line : Text) : Text := if line.getLast? = some 13 then line.dropLast else line

/-- What the parser makes of a line: it goes on, with the header seen or not, or has met the end
marker. -/
inductive LineEffect
  | proceed (p : TextParser) (sawHeader : Bool)
  | finish

/-- One round of the loop, up to the test for the last line. -/
def TextParser.readLine (p : TextParser) (sawHeader : Bool) (lineNumber : ℕ) (line : Text) :
    Outcome LineEffect := do
  ensure (lineNumber ≤ maxLines) (.status ⟨.invalid, "text document has too many lines"⟩)
  ensure (line.length ≤ maxLineBytes)
    (.status ⟨.invalid, "text document has an oversized line"⟩)
  ensure (isValidUtf8 line) (.status ⟨.invalid, "text document contains invalid UTF-8"⟩)
  let tokens ← splitTokens line
  if tokens.isEmpty then return .proceed p sawHeader
  else do
    let directive ← tokenAt tokens 0
    if !sawHeader then do
      ensure (directive = textSchema) (.status ⟨.unsupported, "unrecognised document header"⟩)
      return .proceed { p with snapshot := { p.snapshot with schema := snapshotSchema } } true
    else if directive = text "end" then return .finish
    else do
      let p ← p.handleLine line tokens
      return .proceed p true

/-- Where the line that begins at the cursor ends. -/
def lineEnd (t : Text) (cursor : ℕ) : ℕ := cursor + (t.drop cursor).findIdx (· = 10)

/-- What may follow the end marker. -/
def isPadding (c : UInt8) : Bool := c = 32 || c = 9 || c = 13 || c = 10

/-- What the loop leaves behind. -/
structure Parsed where
  parser : TextParser
  sawHeader : Bool
  sawEnd : Bool

/-- The loop over the lines. Behind the end marker the rest of the text is taken from the cursor,
which stands one place behind the line end, also where there is no newline. -/
def TextParser.loop (t : Text) : ℕ → ℕ → ℕ → Bool → TextParser → Outcome Parsed
  | 0, _, _, _, _ => .error .undefined
  | fuel + 1, cursor, lineNumber, sawHeader, p =>
    if cursor ≤ t.length then do
      let line ← substr t cursor (lineEnd t cursor - cursor)
      match ← p.readLine sawHeader (lineNumber + 1) (dropReturn line) with
      | .proceed p sawHeader =>
        if lineEnd t cursor = t.length then return ⟨p, sawHeader, false⟩
        else loop t fuel (lineEnd t cursor + 1) (lineNumber + 1) sawHeader p
      | .finish => do
        let remainder ← substr t (lineEnd t cursor + 1) t.length
        ensure (remainder.all isPadding)
          (.status ⟨.invalid, "content follows the end marker"⟩)
        return ⟨p, sawHeader, true⟩
    else return ⟨p, sawHeader, false⟩

/-- The snapshot a document describes (`snapshot_from_text`). -/
def snapshotFromText (t : Text) : Outcome PodSnapshot := do
  let parsed ← TextParser.loop t (t.length + 2) 0 0 false {}
  ensure (parsed.sawHeader = true) (.status ⟨.invalid, "text document has no header line"⟩)
  ensure (parsed.sawEnd = true) (.status ⟨.incomplete, "text document has no end marker"⟩)
  return parsed.parser.snapshot

end PodFabric
