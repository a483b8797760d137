/-!
# Numbers by their digits

The number that some digits spell in a base is what a fold over them gives: each digit is added to the
base times what was read before.  A fold multiplies a number as long as the text once per digit, which
is slow for a long text.  So neighbouring digits are joined instead, two by two, into digits of the
squared base, until one digit is left.  `valueOfDigits_eq_foldl` says that this is the same number.
-/

namespace CommandScript.Real

/-- The value of a digit in base 10 or 16. -/
def digitValue (c : Char) : Nat :=
  if c.isDigit then c.toNat - '0'.toNat
  else if 'a' ≤ c && c ≤ 'f' then c.toNat - 'a'.toNat + 10
  else if 'A' ≤ c && c ≤ 'F' then c.toNat - 'A'.toNat + 10
  else 0

/-! ## Joining digits -/

/-- Digits joined two by two into digits of the squared base. -/
def joinPairs (base : Nat) : List Nat → List Nat
  | high :: low :: rest => (base * high + low) :: joinPairs base rest
  | rest => rest

/-- The digits with a zero in front if their number is odd. -/
def evened (digits : List Nat) : List Nat :=
  if digits.length % 2 = 0 then digits else 0 :: digits

/-- The number that digits spell in a base, joined in at most `rounds` rounds. -/
def joinDigits : (rounds base : Nat) → List Nat → Nat
  | 0, _, digits => digits.headD 0
  | rounds + 1, base, digits =>
    if digits.length ≤ 1 then digits.headD 0
    else joinDigits rounds (base * base) (joinPairs base (evened digits))

/-- The number that some characters spell in a base. -/
def valueOfDigits (base : Nat) (cs : List Char) : Nat :=
  joinDigits cs.length base (cs.map digitValue)

/-- The number that decimal digits spell. -/
def natOfDecimal (cs : List Char) : Nat := valueOfDigits 10 cs

/-- The number that hexadecimal digits spell. -/
def natOfHexadecimal (cs : List Char) : Nat := valueOfDigits 16 cs

/-! ## Joining is folding -/

/-- After a leading zero, where one is needed, the digits come in pairs. -/
theorem length_evened (digits : List Nat) : (evened digits).length % 2 = 0 := by
  unfold evened
  split
  · assumption
  · rw [List.length_cons]
    omega

theorem foldl_evened (base : Nat) (digits : List Nat) :
    (evened digits).foldl (fun value digit => base * value + digit) 0 =
      digits.foldl (fun value digit => base * value + digit) 0 := by
  unfold evened
  split
  · rfl
  · simp

theorem length_joinPairs (base : Nat) (digits : List Nat) (even : digits.length % 2 = 0) :
    2 * (joinPairs base digits).length = digits.length := by
  induction digits using joinPairs.induct with
  | case1 high low rest ih =>
    simp only [List.length_cons] at even
    have := ih (by omega)
    simp only [joinPairs, List.length_cons]
    omega
  | case2 rest short =>
    match rest with
    | [] => rfl
    | [_] => simp at even
    | high :: low :: more => exact absurd rfl (short high low more)

/-- Joining pairs of digits squares the base and keeps the value. -/
theorem foldl_joinPairs (base : Nat) (digits : List Nat) (even : digits.length % 2 = 0)
    (start : Nat) :
    (joinPairs base digits).foldl (fun value digit => base * base * value + digit) start =
      digits.foldl (fun value digit => base * value + digit) start := by
  induction digits using joinPairs.induct generalizing start with
  | case1 high low rest ih =>
    simp only [List.length_cons] at even
    simp only [joinPairs, List.foldl_cons]
    rw [ih (by omega)]
    congr 1
    rw [Nat.mul_add, Nat.mul_assoc, Nat.add_assoc]
  | case2 rest short =>
    match rest with
    | [] => rfl
    | [_] => simp at even
    | high :: low :: more => exact absurd rfl (short high low more)

/-- Joining gives the number that the fold gives, if there are as many rounds as digits. -/
theorem joinDigits_eq_foldl (rounds base : Nat) (digits : List Nat)
    (enough : digits.length ≤ rounds + 1) :
    joinDigits rounds base digits =
      digits.foldl (fun value digit => base * value + digit) 0 := by
  induction rounds generalizing base digits with
  | zero =>
    match digits with
    | [] => rfl
    | [digit] => simp [joinDigits]
    | _ :: _ :: _ => simp at enough
  | succ rounds ih =>
    unfold joinDigits
    split
    · match digits with
      | [] => rfl
      | [digit] => simp
      | _ :: _ :: _ => simp_all
    · have even := length_evened digits
      have half := length_joinPairs base (evened digits) even
      have padded : (evened digits).length ≤ digits.length + 1 := by
        unfold evened
        split <;> simp
      rw [ih _ _ (by omega), foldl_joinPairs _ _ even, foldl_evened]

/-- The number that some characters spell, digit by digit. -/
theorem valueOfDigits_eq_foldl (base : Nat) (cs : List Char) :
    valueOfDigits base cs = cs.foldl (fun value c => base * value + digitValue c) 0 := by
  rw [valueOfDigits, joinDigits_eq_foldl _ _ _ (by simp), List.foldl_map]

end CommandScript.Real
