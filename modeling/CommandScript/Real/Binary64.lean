/-!
# Doubles as significand and exponent

A finite double is a sign and a product `significand · 2 ^ exponent`.  Its 64 bits hold the sign, 11
bits of exponent and 52 bits of significand.  The largest exponent field is kept for infinities and
for the values that are no number.

`nearest` rounds a positive fraction to the double next to it, and of two equally near ones to the
one with the even significand.  It first picks the exponent at which the significand has 53 bits, or
the least exponent if that is larger, and then rounds once.
-/

namespace CommandScript.Real

/-- A finite double. -/
structure Dyadic where
  /-- Whether the sign is set. -/
  negative : Bool
  /-- The significand. -/
  significand : Nat
  /-- The exponent of two. -/
  exponent : Int

/-- The least exponent of a double. -/
def leastExponent : Int := -1074

/-- The first of the 53 bits of a significand, `2 ^ 52`.  It is set unless the exponent is the least
one, so the 52 bits that are stored leave it out. -/
def leadingBit : Nat := 0x10000000000000

/-- The bits of positive infinity. -/
def infinityBits : Nat := 0x7FF0000000000000

/-- The bit that holds the sign. -/
def signBit : Nat := 0x8000000000000000

/-- The parts of a double, if it is finite. -/
def Dyadic.ofFloat? (x : Float) : Option Dyadic :=
  let bits := x.toBits.toNat
  let field : Nat := bits / leadingBit % 2048
  let fraction : Nat := bits % leadingBit
  let negative : Bool := signBit ≤ bits
  if field = 2047 then none
  else if field = 0 then some ⟨negative, fraction, leastExponent⟩
  else some ⟨negative, leadingBit + fraction, leastExponent + (field - 1 : Nat)⟩

/-- The double with the given sign and bits. -/
def ofBits (negative : Bool) (bits : Nat) : Float :=
  Float.ofBits (UInt64.ofNat (if negative then signBit + bits else bits))

/-- The quotient rounded to a whole number, a half going to the even neighbour. -/
def roundDiv (num den : Nat) : Nat :=
  let quotient := num / den
  let twice := 2 * (num % den)
  if den < twice || (twice == den && quotient % 2 == 1) then quotient + 1 else quotient

/-- The bits of `significand · 2 ^ exponent`, for a significand of at most 53 bits that has all of
them unless the exponent is the least one.  What is too large becomes infinity. -/
def pack (significand : Nat) (exponent : Int) : Nat :=
  min ((exponent - leastExponent).toNat * leadingBit + significand) infinityBits

/-- A fraction divided by a power of two, as numerator and denominator. -/
def scaled (num den : Nat) (exponent : Int) : Nat × Nat :=
  if exponent < 0 then (num * Nat.pow 2 (-exponent).toNat, den)
  else (num, den * Nat.pow 2 exponent.toNat)

/-- The bits of the double nearest to a fraction. -/
def nearestBits (num den : Nat) : Nat :=
  if num = 0 then 0
  else
    let guess := max ((num.log2 : Int) - (den.log2 : Int) - 53) leastExponent
    let (n, d) := scaled num den guess
    if n / d < 2 * leadingBit then
      pack (roundDiv n d) guess
    else
      let (n, d) := scaled num den (guess + 1)
      pack (roundDiv n d) (guess + 1)

/-- The double nearest to a fraction with a sign. -/
def nearest (negative : Bool) (num den : Nat) : Float := ofBits negative (nearestBits num den)

/-- The double nearest to an integer. -/
def ofInteger (n : Int) : Float := nearest (decide (n < 0)) n.natAbs 1

/-- A double without its part after the point. -/
def truncate (x : Float) : Float := if x < 0 then x.ceil else x.floor

/-- Whether a double is a whole number.  Infinities and what is no number are not. -/
def isWhole (x : Float) : Bool := x - truncate x == 0

/-- The remainder of a division toward zero, with the sign of the dividend.  It is exact: both sides
are multiples of one power of two, and so is the remainder. -/
def remainder (x y : Float) : Float :=
  match Dyadic.ofFloat? x, Dyadic.ofFloat? y with
  | some a, some b =>
    if b.significand = 0 then 0 / 0
    else
      let exponent := min a.exponent b.exponent
      let dividend := a.significand * Nat.pow 2 (a.exponent - exponent).toNat
      let divisor := b.significand * Nat.pow 2 (b.exponent - exponent).toNat
      let (num, den) := scaled (dividend % divisor) 1 (-exponent)
      nearest a.negative num den
  | some _, none => if y.isNaN then y else x
  | none, _ => 0 / 0

end CommandScript.Real
