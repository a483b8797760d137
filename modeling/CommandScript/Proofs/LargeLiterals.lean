import CommandScript.Evaluation
import CommandScript.Proofs.ExactOperations
import CommandScript.Proofs.IntegerLiterals

/-!
# Large literals

An integer literal with more than 64 bits keeps its text and can still be used as a double.  Its
text is then read once more, by the rules for decimals.  They read every integer literal in base 10,
and below `2 ^ 1023` the double next to an integer is finite.  So such a literal is a number for all
coercions that ask for no integer.

There is one gap.  The rules for decimals know no base 16, so a large literal behind `0x` is no
number at all, however small it is for a double.
-/

namespace CommandScript

/-! ## Doubles next to large integers -/

namespace Real

variable {num : Nat} {exponent : Int}

theorem log2_lt_of_lt {bits : Nat} (hbits : 0 < bits) (h : num < 2 ^ bits) : num.log2 < bits := by
  by_cases hzero : num = 0
  · rw [hzero]
    exact hbits
  · exact (Nat.log2_lt hzero).2 h

/-- An integer in front of its 53rd bit, as long as it is scaled by no less. -/
theorem scaled_lt (h : num.log2 ≤ exponent + 52) :
    (scaled num 1 exponent).1 / (scaled num 1 exponent).2 < 2 * leadingBit := by
  have hnum : num < 2 ^ (num.log2 + 1) := Nat.lt_log2_self
  have hbit : 2 * leadingBit = 2 ^ 53 := by decide
  rw [hbit]
  unfold scaled
  split
  case isTrue hsign =>
    simp only [Nat.pow_eq, Nat.div_one]
    calc num * 2 ^ (-exponent).toNat
      _ < 2 ^ (num.log2 + 1) * 2 ^ (-exponent).toNat :=
        Nat.mul_lt_mul_of_pos_right hnum (Nat.pow_pos (by decide))
      _ = 2 ^ (num.log2 + 1 + (-exponent).toNat) := (Nat.pow_add ..).symm
      _ ≤ 2 ^ 53 := Nat.pow_le_pow_right (by decide) (by omega)
  case isFalse hsign =>
    simp only [Nat.pow_eq, Nat.one_mul]
    refine Nat.div_lt_of_lt_mul ?_
    calc num
      _ < 2 ^ (num.log2 + 1) := hnum
      _ ≤ 2 ^ (exponent.toNat + 53) := Nat.pow_le_pow_right (by decide) (by omega)
      _ = 2 ^ exponent.toNat * 2 ^ 53 := Nat.pow_add ..

theorem roundDiv_le (num den : Nat) : roundDiv num den ≤ num / den + 1 := by
  unfold roundDiv
  dsimp only
  split
  · exact Nat.le_refl _
  · exact Nat.le_succ _

/-- There is room between the 53 bits of a significand and the infinities. -/
theorem pack_lt {significand : Nat} (hsignificand : significand ≤ 2 * leadingBit)
    (hexponent : exponent ≤ 970) : pack significand exponent < infinityBits := by
  have hroom : (exponent - leastExponent).toNat ≤ 2044 := by
    unfold leastExponent
    omega
  unfold pack infinityBits
  unfold leadingBit at hsignificand ⊢
  omega

/-- The double next to an integer of at most 1023 bits is not infinite. -/
theorem nearestBits_lt (h : num.log2 < 1023) : nearestBits num 1 < infinityBits := by
  unfold nearestBits
  split
  · decide
  · have hone : (1 : Nat).log2 = 0 := by decide
    have hround (exponent : Int) (hless : (scaled num 1 exponent).1 / (scaled num 1 exponent).2 <
        2 * leadingBit) :
        roundDiv (scaled num 1 exponent).1 (scaled num 1 exponent).2 ≤ 2 * leadingBit :=
      (roundDiv_le _ _).trans hless
    rw [hone]
    dsimp only
    split
    · rename_i hless
      exact pack_lt (hround _ hless) (by unfold leastExponent; omega)
    · exact pack_lt (hround _ (scaled_lt (by omega))) (by unfold leastExponent; omega)

open Float.Model UnpackedFloat in
/-- A double is finite unless all bits of its exponent are set. -/
theorem isFinite_of_field {bits : UInt64} (h : bits.toNat / leadingBit % 2048 ≠ 2047) :
    (Float.ofBits bits).isFinite = true := by
  have hexponent : @unpackExponent .binary64 bits.toBitVec ≠ -1#11 := by
    intro hset
    have hvalue := congrArg BitVec.toNat hset
    simp [unpackExponent, Nat.shiftRight_eq_div_pow] at hvalue
    exact h hvalue
  have hnumber : @isNaNBits .binary64 bits.toBitVec = false :=
    decide_eq_false fun hnan => hexponent hnan.1
  have hbits : (Float.ofBits bits).toModel.toBits.toBitVec =
      if @isNaNBits .binary64 bits.toBitVec = true then packedNaN .binary64
      else bits.toBitVec := @pack_unpack .binary64 bits.toBitVec (by decide)
  rw [hnumber, if_neg Bool.false_ne_true] at hbits
  change
    (UnpackedFloat.unpack .binary64 (Float.ofBits bits).toModel.toBits.toBitVec).isFinite = true
  rw [hbits]
  unfold UnpackedFloat.unpack
  dsimp only
  rw [if_neg hexponent]
  split
  · split
    · rfl
    · rfl
  · rfl

/-- So bits below those of infinity are those of a finite double, with either sign. -/
theorem isFinite_ofBits (negative : Bool) {bits : Nat} (h : bits < infinityBits) :
    (ofBits negative bits).isFinite = true := by
  apply isFinite_of_field
  unfold infinityBits at h
  unfold signBit leadingBit
  rw [UInt64.toNat_ofNat']
  cases negative with
  | false =>
    simp only [Bool.false_eq_true, if_false]
    omega
  | true =>
    simp only [if_true]
    omega

/-! ## Integers as decimals -/

/-- A decimal of at most 1023 bits without a point and an exponent is a finite double. -/
theorem isFinite_toFloat (negative : Bool) {digits : Nat} (h : digits.log2 < 1023) :
    (Decimal.toFloat ⟨negative, digits, 0⟩).isFinite = true := by
  have hroom : ¬1024 < digits.log2 + 3 * (0 : Int).toNat := by
    simp only [Int.toNat_zero]
    omega
  unfold Decimal.toFloat
  by_cases hzero : digits = 0
  · rw [if_pos hzero]
    exact isFinite_ofBits negative (by decide)
  · rw [if_neg hzero, if_neg (Int.lt_irrefl 0), if_neg hroom]
    simp only [Int.toNat_zero, Nat.pow_eq, Nat.pow_zero, Nat.mul_one]
    exact isFinite_ofBits negative (nearestBits_lt h)

theorem splitSign_append {sign digits : List Char}
    (hsign : sign = [] ∨ sign = ['+'] ∨ sign = ['-']) (hnonempty : digits ≠ [])
    (hdigits : ∀ c ∈ digits, c.isDigit = true) :
    splitSign (sign ++ digits) = (sign == ['-'], digits) := by
  rcases hsign with rfl | rfl | rfl
  · cases digits with
    | nil => exact absurd rfl hnonempty
    | cons c digits =>
      have hdigit := hdigits c (List.mem_cons_self ..)
      have hsign : c ≠ '-' ∧ c ≠ '+' := by
        constructor
        all_goals
          rintro rfl
          exact absurd hdigit (by decide)
      unfold splitSign
      split <;> simp_all
  · rfl
  · rfl

/-- Digits behind a sign or none are a decimal without a point and an exponent. -/
theorem read?_digits {sign digits : List Char}
    (hsign : sign = [] ∨ sign = ['+'] ∨ sign = ['-']) (hnonempty : digits ≠ [])
    (hdigits : ∀ c ∈ digits, c.isDigit = true) :
    Decimal.read? (sign ++ digits) = some ⟨sign == ['-'], natOfDecimal digits, 0⟩ := by
  have hwhole : digits.takeWhile Char.isDigit = digits := List.takeWhile_eq_self_iff.2 hdigits
  have hrest : digits.dropWhile Char.isDigit = [] := List.dropWhile_eq_nil_iff.2 hdigits
  have hsome : digits.isEmpty = false := by simpa using hnonempty
  unfold Decimal.read?
  rw [splitSign_append hsign hnonempty hdigits]
  simp [hwhole, hrest, hsome, readExponent?]

end Real

/-! ## Literals that are too large -/

theorem Numeral.floatScalar_ne (text : List Char) (literal : String) :
    floatScalar text ≠ .overflow literal .integer := by
  unfold floatScalar
  split
  · split
    · exact nofun
    · exact nofun
  · exact nofun

/-- A hexadecimal part that takes all there is. -/
theorem Numeral.eq_cons_of_hexLength {tail : List Char} (hpart : 0 < hexLength tail)
    (hall : hexLength tail = tail.length) :
    ∃ x rest, tail = x :: rest ∧ (x = 'x' ∨ x = 'X') ∧ rest ≠ [] ∧
      ∀ c ∈ rest, isHexDigit c = true := by
  cases tail with
  | nil => cases hpart
  | cons x rest =>
    simp only [hexLength, List.length_cons] at hpart hall
    split at hall
    · rename_i hdigits
      simp only [Bool.and_eq_true, Bool.or_eq_true, beq_iff_eq, decide_eq_true_eq] at hdigits
      have hlength : (rest.takeWhile isHexDigit).length = rest.length := by omega
      have hwhole : rest.takeWhile isHexDigit = rest :=
        (List.takeWhile_prefix isHexDigit).eq_of_length hlength
      refine ⟨x, rest, rfl, hdigits.1, ?_, List.takeWhile_eq_self_iff.1 hwhole⟩
      intro hempty
      simp [hempty] at hdigits
    · cases hall

namespace IntegerLiteral

open Numeral

theorem exists_sign {sign : List Char} (h : sign = [] ∨ sign = ['+'] ∨ sign = ['-']) :
    ∃ given : LiteralSign, given.chars = sign := by
  rcases h with rfl | rfl | rfl
  · exact ⟨.none, rfl⟩
  · exact ⟨.plus, rfl⟩
  · exact ⟨.minus, rfl⟩

/-- Only integer literals are read as integers that are too large. -/
theorem exists_text_eq {cs : List Char} {found : Numeral} {literal : String}
    (hscan : scan? cs = some found) (hlength : found.length = cs.length)
    (hscalar : found.scalar = .overflow literal .integer) : ∃ l : IntegerLiteral, l.text = cs := by
  obtain ⟨sign, digits, tail, hparts⟩ := parts_of_scan? hscan
  obtain ⟨given, hgiven⟩ := exists_sign hparts.sign
  rw [hparts.scan?_eq] at hscan
  cases hscan
  have hall : moreLength digits tail = tail.length := by
    rw [hparts.split, List.length_append, List.length_append] at hlength
    exact Nat.add_left_cancel hlength
  dsimp only at hscalar
  unfold scalarOf at hscalar
  by_cases hpart : 0 < hexPart digits tail
  · rw [moreLength, if_pos hpart] at hall
    have hzero : digits = ['0'] := by
      by_contra hother
      simp [hexPart, hother] at hpart
    subst hzero
    obtain ⟨x, rest, rfl, hx, hnonempty, hrest⟩ := eq_cons_of_hexLength hpart hall
    refine ⟨⟨given, .hexadecimal (x == 'X'), rest, hnonempty, hrest⟩, ?_⟩
    rcases hx with rfl | rfl
    · simp [text, LiteralBase.marker, hgiven, hparts.split]
    · simp [text, LiteralBase.marker, hgiven, hparts.split]
  · by_cases hmore : 0 < moreLength digits tail
    · rw [if_neg hpart, if_pos hmore] at hscalar
      exact absurd hscalar (floatScalar_ne _ literal)
    · have hnone : tail = [] := by
        rw [hall] at hmore
        simpa using hmore
      refine ⟨⟨given, .decimal, digits, hparts.nonempty, hparts.digits⟩, ?_⟩
      simp [text, LiteralBase.marker, hgiven, hparts.split, hnone]

/-- A text is a literal with blanks around it or none. -/
def IsIn (l : IntegerLiteral) (text : String) : Prop := Text.trim text.toList = l.text

instance (l : IntegerLiteral) (text : String) : Decidable (l.IsIn text) :=
  inferInstanceAs (Decidable (_ = _))

theorem IsIn.parse {l : IntegerLiteral} {text : String} (h : l.IsIn text) :
    Scalar.parse text = l.scalar := by
  have htrim : Text.trim text.toList = l.text := h
  simp [Scalar.parse, htrim, scan?_text]

theorem exists_isIn {text literal : String}
    (h : Scalar.parse text = .overflow literal .integer) : ∃ l : IntegerLiteral, l.IsIn text := by
  unfold Scalar.parse at h
  dsimp only at h
  split at h
  · rename_i found hscan
    split at h
    · rename_i hlength
      obtain ⟨l, hl⟩ := exists_text_eq hscan hlength h
      exact ⟨l, hl.symm⟩
    · cases h
  · cases h

/-- A literal in base 10 is a double once more. -/
theorem toFloat_decimal {l : IntegerLiteral} (hbase : l.base = .decimal)
    (hbits : l.magnitude.log2 < 1023) :
    ∃ x, Scalar.toFloat (.overflow (String.ofList l.text) .integer) = .ok x ∧
      x.isFinite = true := by
  obtain ⟨sign, base, digits, hnonempty, hvalid⟩ := l
  subst hbase
  have hread := Real.read?_digits sign.chars_cases hnonempty hvalid
  have hspelled : (Real.natOfDecimal digits).log2 < 1023 := by
    rw [Real.natOfDecimal, Real.valueOfDigits_eq_ofDigits]
    exact hbits
  have hfinite := Real.isFinite_toFloat (sign.chars == ['-']) hspelled
  refine ⟨_, ?_, hfinite⟩
  simp only [Scalar.toFloat, text, LiteralBase.marker, List.append_nil, String.toList_ofList, hread,
    hfinite, if_true]

/-- What coercions to a number make of a text that is a double once more. -/
theorem coerce_number {given : TextValue} {x : Float} {wanted : Coercion}
    (hread : given.scalar.toFloat = .ok x) (hwanted : wanted = .number ∨ wanted = .real)
    (fuel : Nat) (scope : Scope) (store : Store) :
    Evaluation.coerce (fuel + 1) wanted (.text given) scope store = .done (.text given) store := by
  have hconvert : Evaluation.asNumber wanted (.text given) store = .done (.text given) store := by
    simp only [Evaluation.asNumber, hread]
    rfl
  rcases hwanted with rfl | rfl
  · exact hconvert
  · exact hconvert

/-- A text that is read as an integer too large for 64 bits is an integer literal.  In base 10 and
below `2 ^ 1023` it is a finite double, and the coercions to a number accept it as it stands. -/
theorem parse_tooLarge_usable {text literal : String}
    (hread : Scalar.parse text = .overflow literal .integer) :
    (∃ l : IntegerLiteral, l.IsIn text) ∧
      ∀ l : IntegerLiteral, l.IsIn text → l.base = .decimal → l.magnitude < 2 ^ 1023 →
        (∃ x, Scalar.toFloat (.overflow literal .integer) = .ok x ∧ x.isFinite = true) ∧
        ∀ (given : TextValue) (wanted : Coercion) (fuel : Nat) (scope : Scope) (store : Store),
          given.scalar = .overflow literal .integer → wanted = .number ∨ wanted = .real →
          Evaluation.coerce (fuel + 1) wanted (.text given) scope store =
            .done (.text given) store := by
  refine ⟨exists_isIn hread, ?_⟩
  intro l hl hbase hmagnitude
  have hliteral : literal = String.ofList l.text := by
    rw [hl.parse, scalar] at hread
    split at hread
    · cases hread
    · cases hread
      rfl
  subst hliteral
  obtain ⟨x, hx, hfinite⟩ := toFloat_decimal hbase (Real.log2_lt_of_lt (by decide) hmagnitude)
  refine ⟨⟨x, hx, hfinite⟩, ?_⟩
  intro given wanted fuel scope store hgiven hwanted
  rw [← hgiven] at hx
  exact coerce_number hx hwanted fuel scope store

/-- A literal of 20 digits with a sign and blanks, which has more than 64 bits. -/
theorem parse_tooLarge_usable_negative :
    let l : IntegerLiteral :=
      ⟨.minus, .decimal, "99999999999999999999".toList, by decide, forall_mem_of_all (by decide)⟩
    Scalar.parse " -99999999999999999999 " = .overflow "-99999999999999999999" .integer ∧
      l.IsIn " -99999999999999999999 " ∧ l.base = .decimal ∧ l.magnitude < 2 ^ 1023 ∧
      (∃ x, Scalar.toFloat (.overflow "-99999999999999999999" .integer) = .ok x ∧
        x.isFinite = true) ∧
      Evaluation.coerce 1 .number (.ofString " -99999999999999999999 ") (.frame (.root 0)) .empty =
        .done (.ofString " -99999999999999999999 ") .empty := by
  intro l
  have hin : l.IsIn " -99999999999999999999 " := by decide
  have hread : Scalar.parse " -99999999999999999999 " =
      .overflow "-99999999999999999999" .integer :=
    hin.parse.trans (if_neg (by decide))
  have hless : l.magnitude < 2 ^ 67 := by decide
  have hmore {bits : Nat} (hbits : 67 ≤ bits) : l.magnitude < 2 ^ bits :=
    hless.trans_le (Nat.pow_le_pow_right (by decide) hbits)
  have hsmall : l.magnitude < 2 ^ 1023 := hmore (by decide)
  obtain ⟨-, husable⟩ := parse_tooLarge_usable hread
  obtain ⟨hfloat, hcoerce⟩ := husable l hin rfl hsmall
  exact ⟨hread, hin, rfl, hsmall, hfloat, hcoerce _ _ _ _ _ hread (.inl rfl)⟩

/-- The first integer with more than 64 bits is no number in base 16. -/
theorem tooLarge_hexadecimal_unusable :
    let l : IntegerLiteral :=
      ⟨.none, .hexadecimal false, "8000000000000000".toList, by decide,
        forall_mem_of_all (by decide)⟩
    let given := Value.ofString "0x8000000000000000"
    Scalar.parse "0x8000000000000000" = .overflow "0x8000000000000000" .integer ∧
      l.IsIn "0x8000000000000000" ∧ l.magnitude = 2 ^ 63 ∧
      Scalar.toFloat (.overflow "0x8000000000000000" .integer) =
        .error (.overflow "0x8000000000000000" .real) ∧
      Evaluation.coerce 1 .number given (.frame (.root 0)) .empty =
        .failed (.of (.constraint given (.scalar (.overflow "0x8000000000000000" .real))))
          .empty := by
  intro l given
  have hin : l.IsIn "0x8000000000000000" := by decide
  have hread : Scalar.parse "0x8000000000000000" = .overflow "0x8000000000000000" .integer :=
    hin.parse.trans (if_neg (by decide))
  have hfloat : Scalar.toFloat (.overflow "0x8000000000000000" .integer) =
      .error (.overflow "0x8000000000000000" .real) := rfl
  refine ⟨hread, hin, by decide, hfloat, ?_⟩
  have hgiven : (TextValue.plain "0x8000000000000000").scalar.toFloat =
      .error (.overflow "0x8000000000000000" .real) := by
    rw [← hfloat]
    exact congrArg Scalar.toFloat hread
  change Evaluation.asNumber .number given .empty = _
  simp only [given, Value.ofString, Evaluation.asNumber, hgiven]
  rfl

end IntegerLiteral

end CommandScript
