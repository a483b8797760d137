import Mathlib.Data.Nat.Digits.Defs
import CommandScript.Proofs.Lexing

/-!
# Integer literals

An integer literal has a sign or none, and digits in base 10 or, behind `0x`, in base 16.  It is
read as the integer it stands for when that has 64 bits, and is a literal too large otherwise.
Every integer of 64 bits is written as such a literal, and so is read back.

In base 10 the digits are read together with the sign.  In base 16 they are read first, and the sign
is applied to what they give.  The two ways differ for one integer only, the least one.  Its
magnitude has more than 64 bits, so in base 16 it is a literal too large.
-/

namespace CommandScript

/-! ## Digits and the numbers they spell -/

namespace Real

/-- The number that some characters spell is the sum of their values, each times its power of the
base. -/
theorem valueOfDigits_eq_ofDigits (base : Nat) (cs : List Char) :
    valueOfDigits base cs = Nat.ofDigits base (cs.reverse.map digitValue) := by
  rw [valueOfDigits_eq_foldl, Nat.ofDigits_eq_foldr, List.foldr_map, List.foldr_reverse]
  simp only [Nat.cast_id, Nat.add_comm]

theorem valueOfDigits_append (base : Nat) (cs : List Char) (c : Char) :
    valueOfDigits base (cs ++ [c]) = base * valueOfDigits base cs + digitValue c := by
  simp only [valueOfDigits_eq_foldl, List.foldl_append, List.foldl_cons, List.foldl_nil]

variable {base : Nat}

/-- The digits of a number spell it, in whatever letters they are written. -/
theorem valueOfDigits_toDigits (hbase : 1 < base) {write : Char → Char}
    (hwrite : ∀ d < base, digitValue (write (Nat.digitChar d)) = d) (n : Nat) :
    valueOfDigits base ((Nat.toDigits base n).map write) = n := by
  induction n using Nat.strongRecOn with
  | ind n ih =>
    rcases Nat.lt_or_ge n base with hless | hmore
    · rw [Nat.toDigits_of_lt_base hless]
      exact hwrite n hless
    · have hquotient := ih (n / base) (Nat.div_lt_self (by omega) hbase)
      rw [Nat.toDigits_of_base_le hbase hmore, List.map_append, List.map_singleton,
        valueOfDigits_append, hquotient, hwrite _ (Nat.mod_lt _ (by omega)), Nat.div_add_mod]

theorem exists_digitChar (hbase : 1 < base) {n : Nat} :
    ∀ c ∈ Nat.toDigits base n, ∃ d < base, c = Nat.digitChar d := by
  induction n using Nat.strongRecOn with
  | ind n ih =>
    rcases Nat.lt_or_ge n base with hless | hmore
    · rw [Nat.toDigits_of_lt_base hless]
      exact List.forall_mem_singleton.2 ⟨n, hless, rfl⟩
    · rw [Nat.toDigits_of_base_le hbase hmore, List.forall_mem_append]
      refine ⟨ih _ (Nat.div_lt_self (by omega) hbase), List.forall_mem_singleton.2 ?_⟩
      exact ⟨n % base, Nat.mod_lt _ (by omega), rfl⟩

end Real

/-! ## Literals -/

/-- The sign in front of a literal. -/
inductive LiteralSign where
  | none
  | plus
  | minus

/-- How the digits of a literal are written. -/
inductive LiteralBase where
  /-- In base 10. -/
  | decimal
  /-- In base 16, behind `0x` or `0X`. -/
  | hexadecimal (capital : Bool)

/-- The characters of a sign. -/
def LiteralSign.chars : LiteralSign → List Char
  | .none => []
  | .plus => ['+']
  | .minus => ['-']

theorem LiteralSign.chars_cases (sign : LiteralSign) :
    sign.chars = [] ∨ sign.chars = ['+'] ∨ sign.chars = ['-'] := by
  cases sign with
  | none => exact .inl rfl
  | plus => exact .inr (.inl rfl)
  | minus => exact .inr (.inr rfl)

namespace LiteralBase

/-- The number of digits there are. -/
def radix : LiteralBase → Nat
  | .decimal => 10
  | .hexadecimal _ => 16

/-- What stands in front of the digits. -/
def marker : LiteralBase → List Char
  | .decimal => []
  | .hexadecimal capital => ['0', if capital then 'X' else 'x']

/-- Whether a character is a digit. -/
def isDigit : LiteralBase → Char → Bool
  | .decimal => Char.isDigit
  | .hexadecimal _ => Numeral.isHexDigit

/-- The letters that digits are written in. -/
def write : LiteralBase → Char → Char
  | .decimal => id
  | .hexadecimal _ => Char.toUpper

theorem one_lt_radix (base : LiteralBase) : 1 < base.radix := by
  cases base with
  | decimal => decide
  | hexadecimal capital => exact (by decide : 1 < 16)

theorem isDigit_write (base : LiteralBase) :
    ∀ d < base.radix, base.isDigit (base.write (Nat.digitChar d)) = true := by
  cases base with
  | decimal => exact (by decide : ∀ d < 10, (Nat.digitChar d).isDigit = true)
  | hexadecimal capital =>
    exact (by decide : ∀ d < 16, Numeral.isHexDigit (Nat.digitChar d).toUpper = true)

theorem digitValue_write (base : LiteralBase) :
    ∀ d < base.radix, Real.digitValue (base.write (Nat.digitChar d)) = d := by
  cases base with
  | decimal => exact (by decide : ∀ d < 10, Real.digitValue (Nat.digitChar d) = d)
  | hexadecimal capital =>
    exact (by decide : ∀ d < 16, Real.digitValue (Nat.digitChar d).toUpper = d)

theorem isHexDigit_of_isDigit (base : LiteralBase) {c : Char} (h : base.isDigit c = true) :
    Numeral.isHexDigit c = true := by
  cases base with
  | decimal =>
    have hdigit : c.isDigit = true := h
    rw [Numeral.isHexDigit, hdigit]
    rfl
  | hexadecimal capital => exact h

end LiteralBase

/-- A literal of an integer, of any length. -/
structure IntegerLiteral where
  /-- Its sign. -/
  sign : LiteralSign
  /-- How its digits are written. -/
  base : LiteralBase
  /-- Its digits. -/
  digits : List Char
  /-- There are digits. -/
  nonempty : digits ≠ []
  /-- They are digits of the base. -/
  valid : ∀ c ∈ digits, base.isDigit c = true

namespace IntegerLiteral

/-- The characters of a literal. -/
def text (l : IntegerLiteral) : List Char := l.sign.chars ++ l.base.marker ++ l.digits

/-- The number that the digits spell. -/
def magnitude (l : IntegerLiteral) : Nat :=
  Nat.ofDigits l.base.radix (l.digits.reverse.map Real.digitValue)

/-- The integer that a literal stands for. -/
def value (l : IntegerLiteral) : Int :=
  match l.sign with
  | .minus => -(l.magnitude : Int)
  | _ => l.magnitude

/-- The least integer of 64 bits. -/
def least : Int := -0x8000000000000000

/-- The literal is the least integer in base 16. -/
def IsLeastHexadecimal (l : IntegerLiteral) : Prop := l.base.radix = 16 ∧ l.value = least

instance (l : IntegerLiteral) : Decidable l.IsLeastHexadecimal :=
  inferInstanceAs (Decidable (_ ∧ _))

/-- The scalar that a literal is read as. -/
def scalar (l : IntegerLiteral) : Scalar :=
  if Is64Bit l.value ∧ ¬l.IsLeastHexadecimal then .integer (Int64.ofInt l.value) l.base.radix
  else .overflow (String.ofList l.text) .integer

/-- The literal that an integer is written as. -/
def ofInteger (base : LiteralBase) (n : Int) : IntegerLiteral where
  sign := if n < 0 then .minus else .none
  base := base
  digits := (Nat.toDigits base.radix n.natAbs).map base.write
  nonempty := mt List.map_eq_nil_iff.1 Nat.toDigits_ne_nil
  valid := List.forall_mem_map.2 fun c hc => by
    obtain ⟨d, hd, rfl⟩ := Real.exists_digitChar base.one_lt_radix c hc
    exact base.isDigit_write d hd

theorem signed_magnitude (l : IntegerLiteral) :
    (if l.sign.chars == ['-'] then -(l.magnitude : Int) else l.magnitude) = l.value := by
  unfold value
  cases l.sign with
  | _ => rfl

theorem ofInteger_value (base : LiteralBase) (n : Int) : (ofInteger base n).value = n := by
  have hmagnitude : (ofInteger base n).magnitude = n.natAbs :=
    (Real.valueOfDigits_eq_ofDigits ..).symm.trans
      (Real.valueOfDigits_toDigits base.one_lt_radix base.digitValue_write _)
  unfold value
  rw [hmagnitude]
  simp only [ofInteger]
  split_ifs with hsign
  · exact (Int.eq_neg_natAbs_of_nonpos (Int.le_of_lt hsign)).symm
  · exact Int.natAbs_of_nonneg (Int.not_lt.1 hsign)

theorem ofInteger_text (base : LiteralBase) (n : Int) :
    (ofInteger base n).text =
      (if n < 0 then ['-'] else []) ++ base.marker ++
        (Nat.toDigits base.radix n.natAbs).map base.write := by
  unfold text ofInteger
  split_ifs with hsign
  all_goals rfl

/-- The source text of an integer scalar is a literal of that integer. -/
theorem scalar_literal (value : Int64) {radix : Nat} (h : radix = 10 ∨ radix = 16) :
    ∃ base : LiteralBase, base.radix = radix ∧
      (Scalar.literal (.integer value radix)).toList = (ofInteger base value.toInt).text := by
  rcases h with rfl | rfl
  · refine ⟨.decimal, rfl, ?_⟩
    rw [Scalar.literal, if_neg (by decide), Int.toString_eq_repr, Int.repr_eq_if, ofInteger_text]
    simp only [LiteralBase.marker, LiteralBase.radix, LiteralBase.write, List.append_nil,
      List.map_id]
    split_ifs with hpositive hnegative
    · omega
    · rw [Nat.toList_repr, List.nil_append, (by omega : value.toInt.natAbs = value.toInt.toNat)]
    · rw [String.toList_append, Nat.toList_repr,
        (by omega : value.toInt.natAbs = (-value.toInt).toNat)]
      rfl
    · omega
  · refine ⟨.hexadecimal false, rfl, ?_⟩
    have hsign : value < 0 ↔ value.toInt < 0 := Int64.lt_iff_toInt_lt
    rw [Scalar.literal, if_pos rfl, Scalar.hexadecimalText, ofInteger_text]
    simp only [hsign]
    split_ifs
    all_goals
      simp only [String.toList_append, String.toList_ofList]
      rfl

/-- So an integer scalar has a literal that is read as that scalar, unless it is the least integer
in base 16. -/
theorem exists_scalar_eq (value : Int64) {radix : Nat} (h : radix = 10 ∨ radix = 16)
    (hleast : ¬(radix = 16 ∧ value.toInt = least)) :
    ∃ l : IntegerLiteral, l.text = (Scalar.literal (.integer value radix)).toList ∧
      l.scalar = .integer value radix := by
  obtain ⟨base, rfl, htext⟩ := scalar_literal value h
  have hvalue := ofInteger_value base value.toInt
  have hkept : ¬(ofInteger base value.toInt).IsLeastHexadecimal := fun hleast' =>
    hleast ⟨hleast'.1, hvalue.symm.trans hleast'.2⟩
  refine ⟨ofInteger base value.toInt, htext.symm, ?_⟩
  rw [scalar, hvalue, if_pos ⟨is64Bit_toInt value, hkept⟩, Int64.ofInt_toInt]
  rfl

end IntegerLiteral

/-! ## How they are read -/

theorem Text.trim_of_forall {cs : List Char} (h : ∀ c ∈ cs, Text.isBlank c = false) :
    Text.trim cs = cs := by
  have hstays : ∀ {cs : List Char}, (∀ c ∈ cs, Text.isBlank c = false) →
      cs.dropWhile Text.isBlank = cs := by
    rintro (_ | ⟨c, cs⟩) h
    · rfl
    · rw [List.dropWhile_cons_of_neg]
      rw [h c (List.mem_cons_self ..)]
      exact Bool.false_ne_true
  rw [Text.trim, hstays h, hstays fun c hc => h c (List.mem_reverse.1 hc), List.reverse_reverse]

namespace Numeral

theorem isBlank_of_isHexDigit {c : Char} (h : isHexDigit c = true) : Text.isBlank c = false := by
  have hcode : 0x30 ≤ c.toNat ∧ c.toNat ≤ 0x66 := by
    simp only [isHexDigit, Char.isDigit, Bool.or_eq_true, Bool.and_eq_true, decide_eq_true_eq,
      Char.le_def, UInt32.le_iff_toNat_le, ge_iff_le, ← Char.toNat_val] at h ⊢
    simp only [UInt32.reduceToNat, Char.reduceVal] at h
    omega
  simp only [Text.isBlank, Text.Ranges.contains, Text.blankRanges, List.any_cons, List.any_nil,
    Bool.or_eq_false_iff, Bool.and_eq_false_iff, decide_eq_false_iff_not, and_true]
  omega

/-- Digits alone, behind a sign or none, are an integer. -/
theorem scan?_digits {sign digits : List Char} (h : Parts (sign ++ digits) sign digits []) :
    scan? (sign ++ digits) =
      some ⟨(sign ++ digits).length, integerScalar (sign == ['-']) digits (sign ++ digits)⟩ := by
  have hhex : hexPart digits [] = 0 := by
    unfold hexPart
    split <;> rfl
  have hmore : moreLength digits [] = 0 := by
    rw [moreLength, hhex]
    rfl
  rw [h.scan?_eq, scalarOf, hhex, hmore]
  simp

/-- So are hexadecimal digits behind a single zero and an `x`. -/
theorem scan?_hexadecimal {sign digits : List Char} {x : Char}
    (hsign : sign = [] ∨ sign = ['+'] ∨ sign = ['-']) (hx : x = 'x' ∨ x = 'X')
    (hnonempty : digits ≠ []) (hdigits : ∀ c ∈ digits, isHexDigit c = true) :
    scan? (sign ++ ['0', x] ++ digits) =
      some ⟨(sign ++ ['0', x] ++ digits).length,
        hexScalar (sign == ['-']) digits (sign ++ ['0', x] ++ digits)⟩ := by
  have hparts : Parts (sign ++ ['0', x] ++ digits) sign ['0'] (x :: digits) := by
    refine ⟨by simp, hsign, List.cons_ne_nil _ _, by simp, ?_⟩
    rcases hx with rfl | rfl
    all_goals
      rintro c ⟨⟩
      rfl
  have hlength : hexLength (x :: digits) = digits.length + 1 := by
    have hpos : 0 < digits.length := List.length_pos_iff.2 hnonempty
    rw [hexLength, List.takeWhile_eq_self_iff.2 hdigits, if_pos, Nat.add_comm]
    rcases hx with rfl | rfl
    all_goals simp [hpos]
  have hhex : hexPart ['0'] (x :: digits) = digits.length + 1 := hlength
  have hmore : moreLength ['0'] (x :: digits) = digits.length + 1 := by
    rw [moreLength, hhex, if_pos (Nat.succ_pos _)]
  have htake : (x :: digits).take (digits.length + 1) = x :: digits :=
    List.take_of_length_le (Nat.le_refl _)
  rw [hparts.scan?_eq, scalarOf, hhex, hmore, htake, if_pos (Nat.succ_pos _)]
  simp [Nat.add_comm, Nat.add_left_comm]

/-- An integer, where its digits are read with the sign, unless it has more than 64 bits. -/
theorem integerScalar_eq (negative : Bool) (digits text : List Char) {value : Int}
    (h : (if negative then -(Real.natOfDecimal digits : Int) else Real.natOfDecimal digits) =
      value) :
    integerScalar negative digits text =
      if Is64Bit value then .integer (Int64.ofInt value) 10
      else .overflow (String.ofList text) .integer := by
  rw [integerScalar, h]
  split_ifs with hfits
  · rw [int64OfInt?_of_is64Bit hfits]
    rfl
  · rw [int64OfInt?_of_not_is64Bit hfits]

/-- A magnitude and its negative both have 64 bits, except for that of the least integer. -/
theorem is64Bit_magnitude {negative : Bool} {magnitude : Nat} {value : Int}
    (h : (if negative then -(magnitude : Int) else magnitude) = value) :
    Is64Bit magnitude ↔ Is64Bit value ∧ value ≠ IntegerLiteral.least := by
  cases negative with
  | false =>
    rw [if_neg Bool.false_ne_true] at h
    unfold Is64Bit IntegerLiteral.least
    omega
  | true =>
    rw [if_pos rfl] at h
    unfold Is64Bit IntegerLiteral.least
    omega

/-- In base 16 the digits are read without the sign, so the least integer is too large. -/
theorem hexScalar_eq (negative : Bool) (digits text : List Char) {value : Int}
    (h : (if negative then -(Real.natOfHexadecimal digits : Int)
      else Real.natOfHexadecimal digits) = value) :
    hexScalar negative digits text =
      if Is64Bit value ∧ value ≠ IntegerLiteral.least then .integer (Int64.ofInt value) 16
      else .overflow (String.ofList text) .integer := by
  have hmagnitude := is64Bit_magnitude h
  by_cases hfits : Is64Bit (Real.natOfHexadecimal digits)
  · have hsigned : (if negative then -Int64.ofInt (Real.natOfHexadecimal digits)
        else Int64.ofInt (Real.natOfHexadecimal digits)) = Int64.ofInt value := by
      rw [← h, apply_ite Int64.ofInt, Int64.ofInt_neg]
    rw [hexScalar, int64OfInt?_of_is64Bit hfits, Option.elim_some, hsigned,
      if_pos (hmagnitude.1 hfits)]
  · rw [hexScalar, int64OfInt?_of_not_is64Bit hfits, Option.elim_none,
      if_neg (mt hmagnitude.2 hfits)]

end Numeral

namespace IntegerLiteral

open Numeral

/-- A literal is a number, from its first character to its last. -/
theorem scan?_text (l : IntegerLiteral) : scan? l.text = some ⟨l.text.length, l.scalar⟩ := by
  have hvalue : ∀ {spelled : Nat}, spelled = l.magnitude →
      (if l.sign.chars == ['-'] then -(spelled : Int) else spelled) = l.value := by
    rintro _ rfl
    exact signed_magnitude l
  have hsign := l.sign.chars_cases
  obtain ⟨sign, base, digits, hnonempty, hvalid⟩ := l
  cases base with
  | decimal =>
    have hparts : Parts (sign.chars ++ digits) sign.chars digits [] :=
      ⟨(List.append_nil _).symm, hsign, hnonempty, hvalid, nofun⟩
    have hspells := hvalue (Real.valueOfDigits_eq_ofDigits 10 digits)
    have hleast : ¬IsLeastHexadecimal ⟨sign, .decimal, digits, hnonempty, hvalid⟩ := nofun
    simp only [scalar, text, LiteralBase.marker, List.append_nil, hleast, not_false_iff, and_true]
    rw [scan?_digits hparts, integerScalar_eq _ _ _ hspells]
    rfl
  | hexadecimal capital =>
    have hspells := hvalue (Real.valueOfDigits_eq_ofDigits 16 digits)
    have hx : (if capital then 'X' else 'x') = 'x' ∨ (if capital then 'X' else 'x') = 'X' := by
      cases capital with
      | false => exact .inl rfl
      | true => exact .inr rfl
    have hleast : IsLeastHexadecimal ⟨sign, .hexadecimal capital, digits, hnonempty, hvalid⟩ ↔
        value ⟨sign, .hexadecimal capital, digits, hnonempty, hvalid⟩ = least := and_iff_right rfl
    simp only [scalar, text, LiteralBase.marker, hleast]
    rw [scan?_hexadecimal hsign hx hnonempty hvalid, hexScalar_eq _ _ _ hspells]
    rfl

/-- The characters of a literal are not blank. -/
theorem isBlank_text (l : IntegerLiteral) : ∀ c ∈ l.text, Text.isBlank c = false := by
  have hsign : ∀ c ∈ l.sign.chars, Text.isBlank c = false := by
    cases l.sign with
    | none => exact nofun
    | plus => exact forall_mem_of_all (by decide)
    | minus => exact forall_mem_of_all (by decide)
  have hmarker : ∀ c ∈ l.base.marker, Text.isBlank c = false := by
    cases l.base with
    | decimal => exact nofun
    | hexadecimal capital =>
      cases capital with
      | false => exact forall_mem_of_all (by decide)
      | true => exact forall_mem_of_all (by decide)
  have hdigits : ∀ c ∈ l.digits, Text.isBlank c = false := fun c hc =>
    isBlank_of_isHexDigit (l.base.isHexDigit_of_isDigit (l.valid c hc))
  exact List.forall_mem_append.2 ⟨List.forall_mem_append.2 ⟨hsign, hmarker⟩, hdigits⟩

theorem parse_text (l : IntegerLiteral) : Scalar.parse (String.ofList l.text) = l.scalar := by
  have htrim : Text.trim l.text = l.text := Text.trim_of_forall l.isBlank_text
  rw [Scalar.parse, String.toList_ofList, htrim, scan?_text]
  exact if_pos rfl

/-- An integer of 64 bits is read back from its source text in base 10 or 16, and an integer literal
of any length is read as the integer it stands for or as too large.  The least integer in base 16 is
the exception to both. -/
theorem parse_literal_and_scan_text (value : Int64) (radix : Nat) (l : IntegerLiteral) :
    (radix = 10 ∨ radix = 16 → ¬(radix = 16 ∧ value.toInt = least) →
      Scalar.parse (Scalar.literal (.integer value radix)) = .integer value radix) ∧
    (¬l.IsLeastHexadecimal →
      scan? l.text = some ⟨l.text.length,
        if Is64Bit l.value then .integer (Int64.ofInt l.value) l.base.radix
        else .overflow (String.ofList l.text) .integer⟩) := by
  constructor
  · intro hradix hleast
    obtain ⟨l, htext, hscalar⟩ := exists_scalar_eq value hradix hleast
    have hread := parse_text l
    rwa [htext, String.ofList_toList, hscalar] at hread
  · intro hleast
    have hread := scan?_text l
    simpa only [scalar, hleast, not_false_iff, and_true] using hread

/-- The greatest integer in base 16, the least one in base 10, and `-0X00000000000000000fF`. -/
theorem parse_literal_and_scan_text_limits :
    Scalar.parse (Scalar.literal (.integer Int64.maxValue 16)) = .integer Int64.maxValue 16 ∧
    Scalar.parse (Scalar.literal (.integer Int64.minValue 10)) = .integer Int64.minValue 10 ∧
    scan? "-0X00000000000000000fF".toList = some ⟨22, .integer (-255) 16⟩ := by
  have hlimit := fun value radix => parse_literal_and_scan_text value radix
    ⟨.minus, .hexadecimal true, "00000000000000000fF".toList, by decide,
      forall_mem_of_all (by decide)⟩
  have hread := (hlimit 0 10).2 (by decide)
  rw [if_pos (by decide)] at hread
  exact ⟨(hlimit _ _).1 (.inr rfl) (by decide), (hlimit _ _).1 (.inl rfl) (by decide), hread⟩

/-- The least integer in base 16 is not read back: its literal is too large. -/
theorem least_hexadecimal_not_read_back :
    Scalar.literal (.integer Int64.minValue 16) = "-0x8000000000000000" ∧
    Scalar.parse "-0x8000000000000000" = .overflow "-0x8000000000000000" .integer ∧
    Scalar.parse (Scalar.literal (.integer Int64.minValue 16)) ≠ .integer Int64.minValue 16 := by
  have hliteral : Scalar.literal (.integer Int64.minValue 16) = "-0x8000000000000000" := by decide
  have hread := parse_text
    ⟨.minus, .hexadecimal false, "8000000000000000".toList, by decide,
      forall_mem_of_all (by decide)⟩
  rw [scalar, if_neg (by decide)] at hread
  refine ⟨hliteral, hread, ?_⟩
  rw [hliteral]
  exact fun hsame => Scalar.noConfusion (hread.symm.trans hsame)

end IntegerLiteral

end CommandScript
