import CommandScript.Real.Binary64
import CommandScript.Real.Digits

/-!
# Decimals and the doubles next to them

A decimal is a sign, its digits as one whole number, and the power of ten they are multiplied by.
The text of a decimal is an optional sign, digits with at most one point among or beside them, and
an optional exponent.  The digits of an exponent count until they spell `exponentLimit` or more, and
those behind are passed over.

The double next to a decimal is found from the exact fraction.  An exponent far out of range is
answered without the fraction, since `10 ^ n` has at least `3 * n` bits.
-/

namespace CommandScript.Real

/-- The number `digits · 10 ^ exponent` with a sign. -/
structure Decimal where
  /-- Whether the sign is negative. -/
  negative : Bool
  /-- The digits, read as one number. -/
  digits : Nat
  /-- The power of ten. -/
  exponent : Int

/-- A sign in front of a text: whether it is negative, and what follows it. -/
def splitSign : List Char → Bool × List Char
  | '-' :: rest => (true, rest)
  | '+' :: rest => (false, rest)
  | rest => (false, rest)

/-- From here on an exponent takes no further digit. -/
def exponentLimit : Nat := 65536

/-- The number that the digits of an exponent spell, up to the limit. -/
def natOfExponent (cs : List Char) : Nat :=
  cs.foldl (fun value c => if value < exponentLimit then 10 * value + digitValue c else value) 0

/-- The exponent that ends a decimal; nothing at all stands for zero. -/
def readExponent? : List Char → Option Int
  | [] => some 0
  | e :: rest =>
    if e == 'e' || e == 'E' then
      let (negative, digits) := splitSign rest
      if digits.isEmpty || !digits.all Char.isDigit then none
      else
        let value : Int := natOfExponent digits
        some (if negative then -value else value)
    else
      none

/-- The decimal a text spells, if it spells one. -/
def Decimal.read? (cs : List Char) : Option Decimal :=
  let (negative, unsigned) := splitSign cs
  let whole := unsigned.takeWhile Char.isDigit
  let rest := unsigned.dropWhile Char.isDigit
  let (fraction, rest) :=
    match rest with
    | '.' :: rest => (rest.takeWhile Char.isDigit, rest.dropWhile Char.isDigit)
    | rest => ([], rest)
  if whole.isEmpty && fraction.isEmpty then none
  else
    (readExponent? rest).map fun exponent =>
      ⟨negative, natOfDecimal (whole ++ fraction), exponent - fraction.length⟩

/-- The double nearest to a decimal; what is too large becomes an infinity. -/
def Decimal.toFloat (d : Decimal) : Float :=
  if d.digits = 0 then ofBits d.negative 0
  else if d.exponent < 0 then
    let places := (-d.exponent).toNat
    if d.digits.log2 + 1076 < 3 * places then ofBits d.negative 0
    else nearest d.negative d.digits (Nat.pow 10 places)
  else if 1024 < d.digits.log2 + 3 * d.exponent.toNat then ofBits d.negative infinityBits
  else nearest d.negative (d.digits * Nat.pow 10 d.exponent.toNat) 1

end CommandScript.Real
