import CommandScript.Real.Binary64

/-!
# The fewest digits that read back

Every double is the nearest one to all the reals of an interval around it.  The ends belong to the
interval when the significand is even, because ties go there.  Below a power of two the doubles lie
twice as close, so the interval reaches only half as far down.

The digits of a double are the multiple of the largest power of ten that lies in the interval.  Of
two multiples the nearer is taken, and of two equally near ones the larger.
-/

namespace CommandScript.Real

/-- The reals that round to a positive double, in quarters of a unit of its last place. -/
structure Interval where
  /-- Four times the significand. -/
  middle : Nat
  /-- How far the interval reaches down. -/
  below : Nat
  /-- How far the interval reaches up. -/
  above : Nat
  /-- Whether the ends belong to the interval. -/
  closed : Bool
  /-- The exponent of two of a quarter. -/
  exponent : Int

/-- The interval of a double. -/
def Dyadic.interval (d : Dyadic) : Interval where
  middle := 4 * d.significand
  below := if d.significand = leadingBit && leastExponent < d.exponent then 1 else 2
  above := 2
  closed := d.significand % 2 = 0
  exponent := d.exponent - 2

/-- The nearest multiple of `10 ^ power` in the interval, counted in that power. -/
def Interval.multiple? (i : Interval) (power : Int) : Option Nat :=
  let scale := Nat.pow 2 i.exponent.toNat * Nat.pow 10 (-power).toNat
  let unit := Nat.pow 2 (-i.exponent).toNat * Nat.pow 10 power.toNat
  let down := i.middle * scale / unit
  let up := down + 1
  let low := (i.middle - i.below) * scale
  let high := (i.middle + i.above) * scale
  let downFits := low < down * unit || (i.closed && low == down * unit)
  let upFits := up * unit < high || (i.closed && up * unit == high)
  if downFits && upFits then
    some (if 2 * (i.middle * scale % unit) < unit then down else up)
  else if downFits then some down
  else if upFits then some up
  else none

/-- The first power at or below `power`, within `count` steps, that has a multiple in the interval,
with that multiple. -/
def Interval.search (i : Interval) : (count : Nat) → (power : Int) → Nat × Int
  | 0, power => (0, power)
  | count + 1, power =>
    match i.multiple? power with
    | some digits => (digits, power)
    | none => i.search count (power - 1)

/-- A number without its trailing zeros, in at most `count` steps, and how many they were. -/
def dropZeros : (count : Nat) → (n : Nat) → Nat × Nat
  | 0, n => (n, 0)
  | count + 1, n =>
    if n % 10 = 0 then
      let (m, zeros) := dropZeros count (n / 10)
      (m, zeros + 1)
    else
      (n, 0)

/-- The digits of a positive double and the power of ten they are multiplied by.  Seventeen digits
tell all doubles apart, and the search starts at most three places above the first of them. -/
def Dyadic.shortest (d : Dyadic) : Nat × Int :=
  let bits : Int := d.significand.log2 + d.exponent
  let (digits, power) := d.interval.search 24 (bits * 30103 / 100000 + 2)
  let (digits, zeros) := dropZeros 20 digits
  (digits, power + zeros)

end CommandScript.Real
