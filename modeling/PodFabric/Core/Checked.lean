import PodFabric.Core.Status
import PodFabric.Lib.MachineInt

/-!
# Checked arithmetic

The operations of `checked.hpp`, for every integer type. A test is made before the operation, with
differences and quotients that are themselves computed in the type their operands are promoted to.
The sides of a comparison have one type after their promotion, so their values are compared.
-/

namespace PodFabric

/-- The arithmetic of the program's language: a signed overflow and a division by zero are undefined
behaviour, and an unsigned result wraps. -/
def cppArithmetic : Arithmetic Fault where
  beyond t x := if t.signed then .error .undefined else .ok (Integer.wrap t x)
  byZero _ := .error .undefined

/-- Reports malformed input if a test holds. -/
def refuseIf (test : Prop) [Decidable test] (message : Text) : Outcome Unit :=
  if test then .error (.status ⟨.invalid, message⟩) else .ok ()

namespace Integer
variable (lang : Arithmetic Fault) {t : IntType}

/-- `checked_add`. -/
def checkedAdd (a b : Integer t) : Outcome (Integer t) := do
  if t.signed then
    if 0 < b.value then
      let room ← lang.sub (Integer.max t) b
      refuseIf ((room.cast t).value < a.value) "checked_add: signed overflow"
    if b.value < 0 then
      let room ← lang.sub (Integer.min t) b
      refuseIf (a.value < (room.cast t).value) "checked_add: signed underflow"
  else
    let room ← lang.sub (Integer.max t) a
    refuseIf ((room.cast t).value < b.value) "checked_add: unsigned overflow"
  let sum ← lang.add a b
  return sum.cast t

/-- `checked_sub`. -/
def checkedSub (a b : Integer t) : Outcome (Integer t) := do
  if t.signed then
    if b.value < 0 then
      let room ← lang.add (Integer.max t) b
      refuseIf ((room.cast t).value < a.value) "checked_sub: signed overflow"
    if 0 < b.value then
      let room ← lang.add (Integer.min t) b
      refuseIf (a.value < (room.cast t).value) "checked_sub: signed underflow"
  else
    refuseIf (a.value < b.value) "checked_sub: unsigned underflow"
  let difference ← lang.sub a b
  return difference.cast t

/-- `checked_mul`. -/
def checkedMul (a b : Integer t) : Outcome (Integer t) := do
  if a.value = 0 ∨ b.value = 0 then
    return 0
  if t.signed then
    let limit := Integer.max t
    if 0 < a.value then
      if 0 < b.value then
        let quotient ← lang.div limit b
        refuseIf (quotient.value < a.value) "checked_mul: signed overflow"
      else
        let quotient ← lang.div (Integer.min t) a
        refuseIf (b.value < quotient.value) "checked_mul: signed overflow"
    else
      if 0 < b.value then
        let quotient ← lang.div (Integer.min t) b
        refuseIf (a.value < quotient.value) "checked_mul: signed overflow"
      else
        if a.value ≠ 0 then
          let quotient ← lang.div limit a
          refuseIf (b.value < quotient.value) "checked_mul: signed overflow"
  else
    let quotient ← lang.div (Integer.max t) b
    refuseIf ((quotient.cast t).value < a.value) "checked_mul: unsigned overflow"
  let product ← lang.mul a b
  return product.cast t

end Integer

end PodFabric
