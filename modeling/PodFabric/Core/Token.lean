import PodFabric.Core.Status

/-!
# Identities

Canonical identifiers, one type for each sort of object (`BasicId`), and opaque 128-bit values
(`Uuid`). An identifier carries the proof that its token is canonical, or empty for the nil
identifier, so that a non-canonical spelling cannot be built.
-/

namespace PodFabric

/-! ## Canonical identifiers -/

/-- A lower-case letter or a digit (`is_lower_alnum`). -/
def isLowerAlnum (c : UInt8) : Bool := (97 ≤ c && c ≤ 122) || (48 ≤ c && c ≤ 57)

/-- A dot, a dash, an underscore or a colon (`is_separator`). -/
def isSeparator (c : UInt8) : Bool := c = 46 || c = 45 || c = 95 || c = 58

/-- Maximum length of a canonical identifier token, in bytes. -/
def maxIdLength : ℕ := 64

/-- A canonical token is 1..64 bytes of `[a-z0-9._-:]`, starting with a lowercase letter or digit
and not ending in a separator. -/
def isCanonicalId (token : Text) : Bool :=
  match token.head?, token.getLast? with
  | some front, some back =>
    token.length ≤ maxIdLength && isLowerAlnum front && !isSeparator back &&
      token.all fun c => isLowerAlnum c || isSeparator c
  | _, _ => false

/-- The sorts of objects that have identifiers. -/
inductive IdTag
  | pod | rack | link | domain | route | obligation | resourceClass | exclusivityKey | port
  | tenant | decision | lease | node

/-- A canonically spelled identifier, or nil. -/
@[ext] structure BasicId (tag : IdTag) where
  token : Text
  canonical : token = [] ∨ isCanonicalId token = true
  deriving DecidableEq

namespace BasicId
variable {tag : IdTag}

/-- The default-constructed identifier. -/
def nil : BasicId tag := ⟨[], .inl rfl⟩

instance : Inhabited (BasicId tag) := ⟨nil⟩

/-- The identifier that names nothing (`is_nil`). -/
def isNil (id : BasicId tag) : Bool := id.token.isEmpty

/-- Accepts canonical tokens only. -/
def parse (token : Text) : Result (BasicId tag) :=
  if h : isCanonicalId token = true then .ok ⟨token, .inr h⟩
  else fail .invalid ("identifier is not a canonical token (1..64 bytes of " ++
    "[a-z0-9._-:], starting with a letter or digit)")

/-- The nil identifier renders as `-`. -/
def toText (id : BasicId tag) : Text := if id.isNil then [45] else id.token

/-- An identifier is its token. -/
theorem token_injective : Function.Injective (@BasicId.token tag) :=
  fun _ _ => BasicId.ext

instance : LinearOrder (BasicId tag) := LinearOrder.ofKey BasicId.token token_injective

instance : LawfulBEq (BasicId tag) := inferInstance

/-- Only `nil` names nothing. -/
theorem isNil_iff {id : BasicId tag} : id.isNil = true ↔ id = nil := by
  rw [isNil, List.isEmpty_iff, BasicId.ext_iff, nil]

end BasicId

/-- The identifier of a pod. -/
abbrev PodId := BasicId .pod
/-- The identifier of a rack. -/
abbrev RackId := BasicId .rack
/-- The identifier of a link. -/
abbrev LinkId := BasicId .link
/-- The identifier of a failure domain. -/
abbrev DomainId := BasicId .domain
/-- The identifier of a route. -/
abbrev RouteRef := BasicId .route
/-- The identifier of an obligation. -/
abbrev ObligationId := BasicId .obligation
/-- The name of a resource class. -/
abbrev ResourceClass := BasicId .resourceClass
/-- The name of a physical resource that must be counted once. -/
abbrev ExclusivityKey := BasicId .exclusivityKey
/-- The identifier of a port. -/
abbrev PortRef := BasicId .port
/-- The identifier of a tenant. -/
abbrev TenantId := BasicId .tenant
/-- The identifier of a decision. -/
abbrev DecisionId := BasicId .decision
/-- The identifier of a lease. -/
abbrev LeaseId := BasicId .lease
/-- The identifier of a node. -/
abbrev NodeId := BasicId .node

/-! ## Opaque values -/

/-- A 128-bit opaque value. -/
@[ext] structure Uuid where
  bytes : List UInt8
  size : bytes.length = 16
  deriving DecidableEq

namespace Uuid

/-- The all-zero value. -/
def nil : Uuid := ⟨List.replicate 16 0, rfl⟩

instance : Inhabited Uuid := ⟨nil⟩

/-- The identifier of zero bytes (`is_nil`). -/
def isNil (id : Uuid) : Bool := id.bytes.all (· = 0)

/-- The usual rendering in five groups of lowercase hexadecimal digits. -/
def toText (id : Uuid) : Text :=
  let group (i n : ℕ) := hexBytes ((id.bytes.drop i).take n)
  group 0 4 ++ [45] ++ group 4 2 ++ [45] ++ group 6 2 ++ [45] ++ group 8 2 ++ [45] ++ group 10 6

end Uuid

end PodFabric
