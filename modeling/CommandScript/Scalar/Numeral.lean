import CommandScript.Scalar
import CommandScript.Text.Blank

/-!
# Numerals

The longest number at the start of a text, by this grammar.

* number: an optional sign, digits, and then either a hexadecimal part or an optional fraction and
  an optional exponent
* hexadecimal part: `x` or `X` and hexadecimal digits, only after a single `0`
* fraction: a point and digits
* exponent: `e` or `E`, an optional sign and digits

A number with a fraction or an exponent is a double, and any other an integer.  What lies behind the
number is not looked at.
-/

namespace CommandScript

/-- A number found at the start of a text. -/
structure Numeral where
  /-- How many characters it takes. -/
  length : Nat
  /-- Its numeric reading. -/
  scalar : Scalar

/-- The 64-bit integer with a given value, if there is one. -/
def int64OfInt? (n : Int) : Option Int64 :=
  if -0x8000000000000000 ≤ n ∧ n < 0x8000000000000000 then some (Int64.ofInt n) else none

/-- The integer is one of 64 bits. -/
def Is64Bit (n : Int) : Prop := -0x8000000000000000 ≤ n ∧ n < 0x8000000000000000

instance (n : Int) : Decidable (Is64Bit n) := inferInstanceAs (Decidable (_ ∧ _))

/-- Nothing is lost of a number that fits. -/
theorem Is64Bit.toInt_ofInt {n : Int} (h : Is64Bit n) : (Int64.ofInt n).toInt = n :=
  Int64.toInt_ofInt_of_le h.1 h.2

theorem is64Bit_toInt (n : Int64) : Is64Bit n.toInt := ⟨n.le_toInt, n.toInt_lt⟩

/-- A number that fits is taken as it is, and any other is refused. -/
theorem int64OfInt?_of_is64Bit {n : Int} (h : Is64Bit n) : int64OfInt? n = some (Int64.ofInt n) :=
  if_pos h

theorem int64OfInt?_of_not_is64Bit {n : Int} (h : ¬Is64Bit n) : int64OfInt? n = none := if_neg h

namespace Numeral

/-- Whether a character is a hexadecimal digit. -/
def isHexDigit (c : Char) : Bool :=
  c.isDigit || ('a' ≤ c && c ≤ 'f') || ('A' ≤ c && c ≤ 'F')

/-- How many characters a sign takes at the start of a text. -/
def signLength : List Char → Nat
  | '+' :: _ | '-' :: _ => 1
  | _ => 0

/-- How many digits stand at the start of a text. -/
def digitsLength (cs : List Char) : Nat := (cs.takeWhile Char.isDigit).length

/-- How many characters a hexadecimal part takes at the start of a text. -/
def hexLength : List Char → Nat
  | x :: rest =>
    let digits := (rest.takeWhile isHexDigit).length
    if (x == 'x' || x == 'X') && 0 < digits then 1 + digits else 0
  | [] => 0

/-- How many characters a fraction takes at the start of a text. -/
def fractionLength : List Char → Nat
  | '.' :: rest => if 0 < digitsLength rest then 1 + digitsLength rest else 0
  | _ => 0

/-- How many characters an exponent takes at the start of a text. -/
def exponentLength : List Char → Nat
  | e :: rest =>
    let sign := signLength rest
    let digits := digitsLength (rest.drop sign)
    if (e == 'e' || e == 'E') && 0 < digits then 1 + sign + digits else 0
  | [] => 0

/-- The reading of a literal with a hexadecimal part.  The magnitude must be a 64-bit integer before
the sign is applied. -/
def hexScalar (negative : Bool) (digits text : List Char) : Scalar :=
  (int64OfInt? (Real.natOfHexadecimal digits)).elim (.overflow (String.ofList text) .integer)
    fun magnitude => .integer (if negative then -magnitude else magnitude) 16

/-- The reading of a literal with digits only. -/
def integerScalar (negative : Bool) (digits text : List Char) : Scalar :=
  let magnitude : Int := Real.natOfDecimal digits
  match int64OfInt? (if negative then -magnitude else magnitude) with
  | some value => .ofInt64 value
  | none => .overflow (String.ofList text) .integer

/-- The reading of a literal with a fraction or an exponent. -/
def floatScalar (text : List Char) : Scalar :=
  match Real.Decimal.read? text with
  | some decimal =>
    if decimal.toFloat.isFinite then .float decimal.toFloat
    else .overflow (String.ofList text) .real
  | none => .invalid (String.ofList text)

/-- The number at the start of a text. -/
def scan? (cs : List Char) : Option Numeral :=
  let sign := signLength cs
  let negative := cs.head? == some '-'
  let unsigned := cs.drop sign
  let digits := digitsLength unsigned
  let rest := unsigned.drop digits
  let hex := if unsigned.take digits == ['0'] then hexLength rest else 0
  if digits = 0 then none
  else if 0 < hex then
    let length := sign + digits + hex
    some ⟨length, hexScalar negative ((rest.take hex).drop 1) (cs.take length)⟩
  else
    let fraction := fractionLength rest
    let exponent := exponentLength (rest.drop fraction)
    let length := sign + digits + fraction + exponent
    if 0 < fraction + exponent then
      some ⟨length, floatScalar (cs.take length)⟩
    else
      some ⟨length, integerScalar negative (unsigned.take digits) (cs.take length)⟩

end Numeral

/-- The reading of a whole text.  Blanks around it do not count. -/
def Scalar.parse (text : String) : Scalar :=
  let trimmed := Text.trim text.toList
  match Numeral.scan? trimmed with
  | some found => if found.length = trimmed.length then found.scalar else .invalid text
  | none => .invalid text

end CommandScript
