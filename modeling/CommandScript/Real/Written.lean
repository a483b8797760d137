import CommandScript.Real.Shortest

/-!
# Written doubles

A double is written with the fewest digits that read back.  Zero and magnitudes from `10 ^ -5` up to
`10 ^ 16` are written with a point, and a whole number among them keeps one zero after it.  All
others have one digit before the point and an exponent.  A zero keeps its sign.
-/

namespace CommandScript.Real

/-- The digits of a number in base 10. -/
def decimalText (n : Nat) : List Char := Nat.toDigits 10 n

/-- Digits times a power of ten, with a point. -/
def positional (digits : List Char) (power : Int) : List Char :=
  let point := (digits.length : Int) + power
  if 0 ≤ power then digits ++ List.replicate power.toNat '0' ++ ['.', '0']
  else if 0 < point then digits.take point.toNat ++ '.' :: digits.drop point.toNat
  else '0' :: '.' :: List.replicate (-point).toNat '0' ++ digits

/-- Digits times a power of ten, with one digit before the point and an exponent. -/
def scientific (digits : List Char) (power : Int) : List Char :=
  let fraction := if digits.length ≤ 1 then [] else '.' :: digits.drop 1
  let exponent := power + digits.length - 1
  digits.take 1 ++ fraction ++ 'e' :: (toString exponent).toList

/-- The text of a finite double. -/
def Dyadic.text (d : Dyadic) (magnitude : Float) : List Char :=
  let sign := if d.negative then ['-'] else []
  if d.significand = 0 then sign ++ ['0', '.', '0']
  else
    let (digits, power) := d.shortest
    if 1e-5 ≤ magnitude && magnitude < 1e16 then
      sign ++ positional (decimalText digits) power
    else
      sign ++ scientific (decimalText digits) power

/-- The text of a double. -/
def written (x : Float) : String :=
  match Dyadic.ofFloat? x with
  | some d => String.ofList (d.text x.abs)
  | none => if x.isNaN then "NaN" else if x < 0 then "-inf" else "inf"

end CommandScript.Real
