import CommandScript.Scalar.Numeral

/-!
# Arithmetic on scalars

Two exact integers give an exact integer when the result has 64 bits.  Everything else is computed
on doubles, and a result that is not finite is no longer a number.  Division always gives a double.
A division by zero is an error, found before the dividend is looked at.
-/

namespace CommandScript.Scalar

/-- An operation by its exact form on integers and its form on doubles. -/
def binary (onIntegers : Int64 → Int64 → Option Int64) (onFloats : Float → Float → Float)
    (a b : Scalar) : Except ScalarError Scalar :=
  let inexact : Except ScalarError Scalar := do
    let x ← a.toFloat
    let y ← b.toFloat
    return ofFloat (onFloats x y)
  match a, b with
  | .integer m _, .integer n _ =>
    match onIntegers m n with
    | some result => .ok (ofInt64 result)
    | none => inexact
  | _, _ => inexact

/-- The sum. -/
def add : Scalar → Scalar → Except ScalarError Scalar :=
  binary (fun m n => int64OfInt? (m.toInt + n.toInt)) (· + ·)

/-- The difference. -/
def sub : Scalar → Scalar → Except ScalarError Scalar :=
  binary (fun m n => int64OfInt? (m.toInt - n.toInt)) (· - ·)

/-- The product. -/
def mul : Scalar → Scalar → Except ScalarError Scalar :=
  binary (fun m n => int64OfInt? (m.toInt * n.toInt)) (· * ·)

/-- The divisor as a double, which must not be zero. -/
def divisor (b : Scalar) : Except ScalarError Float := do
  let y ← b.toFloat
  if y == 0 then throw .divisionByZero else return y

/-- The quotient as a double. -/
def div (a b : Scalar) : Except ScalarError Scalar := do
  let y ← b.divisor
  let x ← a.toFloat
  return ofFloat (x / y)

/-- The quotient without its part after the point. -/
def wholeDiv (a b : Scalar) : Except ScalarError Scalar := do
  let _ ← b.divisor
  binary (fun m n => int64OfInt? (m.toInt.tdiv n.toInt)) (fun x y => Real.truncate (x / y)) a b

/-- The remainder of `wholeDiv`, with the sign of the dividend.  The one exact division that
overflows has no exact remainder either. -/
def rem (a b : Scalar) : Except ScalarError Scalar := do
  let _ ← b.divisor
  binary
    (fun m n => (int64OfInt? (m.toInt.tdiv n.toInt)).bind fun _ =>
      int64OfInt? (m.toInt.tmod n.toInt))
    Real.remainder a b

/-- The exact power of an integer, if its exponent has 32 bits and it has 64 bits itself.  A base
other than -1, 0 and 1 outgrows 64 bits at exponent 64 at the latest. -/
def integerPower? (m n : Int64) : Option Int64 :=
  let base := m.toInt
  let exponent := n.toInt
  if exponent < 0 || 0x100000000 ≤ exponent then none
  else if base = 0 then some (if exponent = 0 then 1 else 0)
  else if base = 1 then some 1
  else if base = -1 then some (if exponent % 2 = 0 then 1 else -1)
  else if 64 ≤ exponent then none
  else int64OfInt? (Int.pow base exponent.toNat)

/-- The power. -/
def pow : Scalar → Scalar → Except ScalarError Scalar := binary integerPower? Float.pow

/-- The scalar with the other sign. -/
def neg (a : Scalar) : Except ScalarError Scalar :=
  let inexact : Except ScalarError Scalar := do
    let x ← a.toFloat
    return ofFloat (-x)
  match a with
  | .integer m _ =>
    match int64OfInt? (-m.toInt) with
    | some result => .ok (ofInt64 result)
    | none => inexact
  | _ => inexact

/-- How two scalars compare as numbers, exactly if both are integers. -/
def compareTo (a b : Scalar) : Except ScalarError Ordering :=
  let inexact : Except ScalarError Ordering := do
    let x ← a.toFloat
    let y ← b.toFloat
    if x < y then return .lt
    else if y < x then return .gt
    else if x == y then return .eq
    else throw (.invalid (a.literal ++ " <> " ++ b.literal))
  match a, b with
  | .integer m _, .integer n _ => .ok (compare m.toInt n.toInt)
  | _, _ => inexact

end CommandScript.Scalar
