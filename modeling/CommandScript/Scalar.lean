import CommandScript.Real.Decimal
import CommandScript.Real.Written

/-!
# Scalars

Numbers are texts with a numeric reading, and a scalar is that reading.  It is an exact 64-bit
integer that remembers the radix it was written in, a double, a literal too large for its kind, or a
text that is no number.

A scalar has a literal.  Integers of radix 16 are written after `0x` in capital digits, all others
in base 10, and doubles by `Real.written`.  A literal that was not understood stays as it was.
-/

namespace CommandScript

/-- The kind of number a literal was meant to be. -/
inductive NumberKind where
  /-- A whole number. -/
  | integer
  /-- A double. -/
  | real
deriving DecidableEq, Repr

/-- The name of a kind of number. -/
def NumberKind.name : NumberKind → String
  | .integer => "integer"
  | .real => "real"

/-- Why a scalar could not be used as a number. -/
inductive ScalarError where
  /-- The number is too large for the kind. -/
  | overflow (literal : String) (kind : NumberKind)
  /-- The text is no number. -/
  | invalid (literal : String)
  /-- The number has a part after the point. -/
  | notWhole (literal : String)
  /-- The divisor is zero. -/
  | divisionByZero
deriving DecidableEq, Repr

/-- The wording of an error. -/
def ScalarError.message : ScalarError → String
  | .overflow literal kind => "number too large to use: " ++ literal ++ " (" ++ kind.name ++ ")"
  | .invalid literal => "not a number: " ++ literal
  | .notWhole literal => "not a whole number: " ++ literal
  | .divisionByZero => "division by zero"

/-- The numeric reading of a text. -/
inductive Scalar where
  /-- An exact integer and the radix it was written in. -/
  | integer (value : Int64) (radix : Nat)
  /-- A double. -/
  | float (value : Float)
  /-- A literal too large for its kind. -/
  | overflow (literal : String) (kind : NumberKind)
  /-- A text that is no number. -/
  | invalid (literal : String)

namespace Scalar

/-- The integer scalar that computing gives, of radix 10. -/
def ofInt64 (value : Int64) : Scalar := .integer value 10

/-- The scalar of a double.  An infinity is a literal too large, and what is no number is invalid.
-/
def ofFloat (x : Float) : Scalar :=
  if x.isNaN then .invalid "NaN"
  else if x.isInf then .overflow (if 0 < x then "inf" else "-inf") .real
  else .float x

/-- Whether the scalar is a number that can be computed with as it is. -/
def isNumeric : Scalar → Bool
  | .integer .. | .float _ => true
  | .overflow .. | .invalid _ => false

/-- Whether the scalar is an exact integer. -/
def isInteger : Scalar → Bool
  | .integer .. => true
  | _ => false

/-- A 64-bit integer in base 16. -/
def hexadecimalText (value : Int64) : String :=
  let digits := String.ofList ((Nat.toDigits 16 value.toInt.natAbs).map Char.toUpper)
  if value < 0 then "-0x" ++ digits else "0x" ++ digits

/-- The source text of a scalar. -/
def literal : Scalar → String
  | .integer value radix => if radix = 16 then hexadecimalText value else toString value.toInt
  | .float value => Real.written value
  | .overflow literal _ | .invalid literal => literal

/-- Beyond this magnitude not every whole number is a double. -/
def exactLimit : Float := 9007199254740992.0

/-- The scalar as a 64-bit integer.  A double must be whole and small enough to be exact. -/
def toInt64 : Scalar → Except ScalarError Int64
  | .integer value _ => .ok value
  | .float value =>
    if !Real.isWhole value then .error (.notWhole (literal (.float value)))
    else if exactLimit < value.abs then .error (.overflow (literal (.float value)) .integer)
    else .ok value.toInt64
  | .overflow literal _ => .error (.overflow literal .integer)
  | .invalid literal => .error (.invalid literal)

/-- The scalar as a double.  An integer literal too large for 64 bits is still read as one. -/
def toFloat : Scalar → Except ScalarError Float
  | .integer value _ => .ok (Real.ofInteger value.toInt)
  | .float value => .ok value
  | .overflow literal .integer =>
    match Real.Decimal.read? literal.toList with
    | some decimal =>
      if decimal.toFloat.isFinite then .ok decimal.toFloat else .error (.overflow literal .real)
    | none => .error (.overflow literal .real)
  | .overflow literal .real => .error (.overflow literal .real)
  | .invalid literal => .error (.invalid literal)

/-- Scalars are equal when they have the same form and parts.  Doubles are compared as numbers. -/
instance : BEq Scalar where
  beq
    | .integer a r, .integer b s => a == b && r == s
    | .float a, .float b => a == b
    | .overflow a k, .overflow b l => a == b && k == l
    | .invalid a, .invalid b => a == b
    | _, _ => false

end Scalar

end CommandScript
