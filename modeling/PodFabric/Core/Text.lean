import PodFabric.Lib.Order

/-!
# Text

Strings of the program are byte strings: they are compared bytewise, measured in bytes, and only
some of them are required to be UTF-8. `Text` is a list of bytes, ordered lexicographically, and a
string literal stands for its UTF-8 bytes.
-/

namespace PodFabric

/-- A byte string (`std::string`). -/
abbrev Text := List UInt8

/-- The bytes of a literal. -/
def text (s : String) : Text := s.toUTF8.data.toList

instance : Coe String Text := ⟨text⟩

/-- `std::to_string` of an unsigned number. -/
def decimal (n : ℕ) : Text :=
  if n = 0 then [48] else ((Nat.digits 10 n).map fun d => 48 + d.toUInt8).reverse

/-- `std::to_string` of a signed number. -/
def decimalInt : ℤ → Text
  | .ofNat n => decimal n
  | .negSucc n => 45 :: decimal (n + 1)

/-- The digit of a hexadecimal rendering (`hex_digit`). -/
def hexDigit (v : UInt8) : UInt8 := if v < 10 then 48 + v else 97 + (v - 10)

/-- The value of a hexadecimal digit of either case (`hex_value`). -/
def hexValue (c : UInt8) : Option UInt8 :=
  if 48 ≤ c ∧ c ≤ 57 then some (c - 48)
  else if 97 ≤ c ∧ c ≤ 102 then some (10 + (c - 97))
  else if 65 ≤ c ∧ c ≤ 70 then some (10 + (c - 65))
  else none

/-- Two hexadecimal digits for each byte. -/
def hexBytes (bytes : List UInt8) : Text :=
  bytes.flatMap fun (b : UInt8) => [hexDigit (b >>> 4), hexDigit (b &&& 0x0F)]

/-! ## UTF-8 -/

/-- What the first byte of a sequence announces: the number of bytes that follow it, the payload
bits it carries and the least code point that needs that many bytes. -/
def utf8Lead (c : UInt8) : Option (ℕ × ℕ × ℕ) :=
  if c &&& 0xE0 = 0xC0 then some (1, (c &&& 0x1F).toNat, 0x80)
  else if c &&& 0xF0 = 0xE0 then some (2, (c &&& 0x0F).toNat, 0x800)
  else if c &&& 0xF8 = 0xF0 then some (3, (c &&& 0x07).toNat, 0x10000)
  else none

/-- The code points a sequence may not encode: overlong ones, those above U+10FFFF and surrogate
halves. -/
def utf8Rejected (cp lowest : ℕ) : Bool :=
  decide (cp < lowest) || decide (0x10FFFF < cp) || (decide (0xD800 ≤ cp) && decide (cp ≤ 0xDFFF))

/-- The scan of `isValidUtf8`. `pending` is what an open sequence still needs: the number of its
missing continuation bytes, the code point read so far and the least one allowed. -/
def utf8Scan : Option (ℕ × ℕ × ℕ) → Text → Bool
  | none, [] => true
  | some _, [] => false
  | none, c :: t =>
    if c < 0x80 then utf8Scan none t
    else
      match utf8Lead c with
      | none => false
      | some lead => utf8Scan (some lead) t
  | some (extra, cp, lowest), c :: t =>
    if c &&& 0xC0 = 0x80 then
      let cp := cp * 64 + (c &&& 0x3F).toNat
      if 1 < extra then utf8Scan (some (extra - 1, cp, lowest)) t
      else if utf8Rejected cp lowest then false
      else utf8Scan none t
    else false

/-- Strict UTF-8 (`is_valid_utf8`). -/
def isValidUtf8 (t : Text) : Bool := utf8Scan none t

end PodFabric
