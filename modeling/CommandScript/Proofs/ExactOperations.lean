import Mathlib
import CommandScript.Primitive

/-!
# Exact operations

An operation on two exact integers gives the integer it has on paper, if that has 64 bits.  If not,
it gives a double, or a number too large to use, but no integer that is off.

Division and remainder look at the divisor as a double first.  Only the two zeros are zero as
doubles, and the double nearest to an integer other than zero is none of them.

There are two gaps, where the result has 64 bits and comes as a double nevertheless.

* The remainder of the least integer by -1 is 0.  It is refused together with the quotient, which is
  too large.
* A power of -1, 0 or 1 always has 64 bits.  It is refused if the exponent has more than 32 bits.
-/

namespace CommandScript

/-! ## Doubles next to integers -/

namespace Real

open Float.Model UnpackedFloat in
/-- Only the two zeros are equal to zero. -/
theorem ofBits_beq_zero {bits : UInt64} (h : bits.toNat % signBit ≠ 0) :
    (Float.ofBits bits == 0) = false := by
  have hbits : (Float.ofBits bits).toModel.toBits.toBitVec =
      if @isNaNBits .binary64 bits.toBitVec = true then packedNaN .binary64
      else bits.toBitVec := @pack_unpack .binary64 bits.toBitVec (by decide)
  have hzero : (0 : Float).toModel.toBits.toBitVec = packedZero .binary64 .positive := by
    decide +kernel
  rw [Bool.eq_false_iff]
  intro hequal
  obtain ⟨hnumber, -, hsame⟩ := (unpack_beq_unpack_iff (Float.ofBits bits).toModel.valid
    (0 : Float).toModel.valid).1 hequal
  rw [hbits] at hnumber hsame
  have hplain : @isNaNBits .binary64 bits.toBitVec ≠ true := fun hnan =>
    hnumber (if_pos hnan)
  rw [if_neg hplain, hzero] at hsame
  have hvalue : bits.toNat = 0 ∨ bits.toNat = signBit := by
    rcases hsame with hpositive | ⟨hpositive, -⟩ | ⟨hnegative, -⟩
    · exact .inl (congrArg BitVec.toNat hpositive)
    · exact .inl (congrArg BitVec.toNat hpositive)
    · exact .inr (congrArg BitVec.toNat hnegative)
  rcases hvalue with hvalue | hvalue
  · exact h (by rw [hvalue]; rfl)
  · exact h (by rw [hvalue]; rfl)

/-- A fraction of at least one, scaled by no more than its own magnitude, has a whole part. -/
theorem one_le_scaled {num : Nat} {exponent : Int} (hnum : 0 < num)
    (h : exponent ≤ num.log2) :
    1 ≤ (scaled num 1 exponent).1 / (scaled num 1 exponent).2 := by
  unfold scaled
  split
  next =>
    rw [Nat.div_one]
    exact Nat.mul_pos hnum (Nat.pow_pos (by decide))
  next hsign =>
    have hpower : Nat.pow 2 exponent.toNat ≤ num :=
      (Nat.pow_le_pow_right (by decide) (by omega)).trans (Nat.log2_self_le (by omega))
    rw [Nat.one_mul]
    exact Nat.div_pos hpower (Nat.pow_pos (by decide))

theorem le_roundDiv (num den : Nat) : num / den ≤ roundDiv num den := by
  unfold roundDiv
  dsimp only
  split
  next => exact Nat.le_succ _
  next => exact Nat.le_refl _

theorem pack_bounds {significand : Nat} {exponent : Int} (h : 1 ≤ significand) :
    1 ≤ pack significand exponent ∧ pack significand exponent ≤ infinityBits := by
  unfold pack infinityBits
  omega

/-- The bits of the double nearest to a positive integer are neither all clear nor too many. -/
theorem nearestBits_bounds {num : Nat} (h : 0 < num) :
    1 ≤ nearestBits num 1 ∧ nearestBits num 1 ≤ infinityBits := by
  have hlog : (1 : Nat).log2 = 0 := by decide
  have hround {exponent : Int} (hexponent : exponent ≤ num.log2) :
      1 ≤ roundDiv (scaled num 1 exponent).1 (scaled num 1 exponent).2 :=
    (one_le_scaled h hexponent).trans (le_roundDiv _ _)
  unfold nearestBits
  rw [if_neg (by omega), hlog]
  dsimp only
  split
  next => exact pack_bounds (hround (by unfold leastExponent; omega))
  next => exact pack_bounds (hround (by unfold leastExponent; omega))

/-- The double nearest to an integer other than zero is not zero. -/
theorem ofInteger_beq_zero {n : Int} (h : n ≠ 0) : (ofInteger n == 0) = false := by
  obtain ⟨hleast, hgreatest⟩ := nearestBits_bounds (Int.natAbs_pos.2 h)
  refine ofBits_beq_zero ?_
  unfold infinityBits at hgreatest
  unfold signBit
  rw [UInt64.toNat_ofNat']
  split <;> omega

end Real

/-! ## Results on paper -/

namespace NumberOperation

/-- The result of an operation on integers, if it has one.  A divisor must not be zero, and an
exponent not negative.  Division gives doubles only. -/
def onIntegers? : NumberOperation → Int → Int → Option Int
  | .add, m, n => some (m + n)
  | .subtract, m, n => some (m - n)
  | .multiply, m, n => some (m * n)
  | .intDivide, m, n => if n = 0 then none else some (m.tdiv n)
  | .modulus, m, n => if n = 0 then none else some (m.tmod n)
  | .exponent, m, n => if n < 0 then none else some (m ^ n.toNat)
  | .divide, _, _ => none

/-- The operation gives no integer, although the result may have 64 bits. -/
inductive Misses : NumberOperation → Int → Int → Prop where
  /-- The quotient has more than 64 bits. -/
  | quotient : Misses .modulus (-0x8000000000000000) (-1)
  /-- The exponent has more than 32 bits, and the base is -1, 0 or 1. -/
  | exponent {base exponent : Int} : base.natAbs ≤ 1 → 0x100000000 ≤ exponent →
      Misses .exponent base exponent

end NumberOperation

namespace Scalar

/-- An operation with a given result on paper gives that integer if it has 64 bits, and otherwise
something that is no integer. -/
structure GivesExactly (exact : Int) (outcome : Except ScalarError Scalar) : Prop where
  /-- The result has 64 bits. -/
  fits : Is64Bit exact → outcome = .ok (.ofInt64 (Int64.ofInt exact))
  /-- It has more. -/
  exceeds : ¬Is64Bit exact → ∃ result, outcome = .ok result ∧ result.isInteger = false

theorem isInteger_ofFloat (x : Float) : (ofFloat x).isInteger = false := by
  unfold ofFloat
  split
  next => rfl
  next =>
    split
    next => rfl
    next => rfl

/-! ## Operations -/

variable {onIntegers : Int64 → Int64 → Option Int64} {onFloats : Float → Float → Float}
  {m n : Int64} {r s : Nat} {exact : Int}

theorem binary_some {result : Int64} (h : onIntegers m n = some result) :
    binary onIntegers onFloats (.integer m r) (.integer n s) = .ok (ofInt64 result) := by
  simp only [binary, h]

/-- Without an exact result the operation is done on doubles. -/
theorem binary_none (h : onIntegers m n = none) :
    ∃ result, binary onIntegers onFloats (.integer m r) (.integer n s) = .ok result ∧
      result.isInteger = false := by
  refine ⟨ofFloat (onFloats (Real.ofInteger m.toInt) (Real.ofInteger n.toInt)), ?_,
    isInteger_ofFloat _⟩
  simp only [binary, h]
  rfl

theorem binary_givesExactly (h : onIntegers m n = int64OfInt? exact) :
    GivesExactly exact (binary onIntegers onFloats (.integer m r) (.integer n s)) where
  fits hfits := binary_some (h.trans (int64OfInt?_of_is64Bit hfits))
  exceeds hexceeds := binary_none (h.trans (int64OfInt?_of_not_is64Bit hexceeds))

/-- The divisor is no obstacle unless it is zero. -/
theorem divisor_integer (h : n.toInt ≠ 0) :
    divisor (.integer n s) = .ok (Real.ofInteger n.toInt) := by
  change (if Real.ofInteger n.toInt == 0 then throw ScalarError.divisionByZero
    else pure (Real.ofInteger n.toInt)) = _
  rw [Real.ofInteger_beq_zero h]
  rfl

/-- A quotient has 64 bits, except for that of the least integer by -1. -/
theorem is64Bit_tdiv {m n : Int} (hm : Is64Bit m) (hn : n ≠ 0)
    (h : ¬(m = -0x8000000000000000 ∧ n = -1)) : Is64Bit (m.tdiv n) := by
  have habs : (m.tdiv n).natAbs = m.natAbs / n.natAbs := Int.natAbs_tdiv m n
  unfold Is64Bit at hm ⊢
  rcases Nat.lt_or_ge n.natAbs 2 with hsmall | hlarge
  · obtain rfl | rfl : n = 1 ∨ n = -1 := by omega
    · rw [Int.tdiv_one]
      exact hm
    · rw [Int.tdiv_neg, Int.tdiv_one]
      omega
  · have hhalf : m.natAbs / n.natAbs ≤ m.natAbs / 2 := Nat.div_le_div_left hlarge (by decide)
    omega

/-- A base other than -1, 0 and 1 outgrows 64 bits. -/
theorem not_is64Bit_pow {base : Int} {exponent : Nat} (hbase : 2 ≤ base.natAbs)
    (hexponent : 64 ≤ exponent) : ¬Is64Bit (base ^ exponent) := by
  have hpower : 2 ^ 64 ≤ (base ^ exponent).natAbs := by
    rw [Int.natAbs_pow]
    exact (Nat.pow_le_pow_left hbase 64).trans (Nat.pow_le_pow_right (by omega) hexponent)
  unfold Is64Bit
  omega

/-- A base of -1, 0 or 1 has its powers in 64 bits. -/
theorem integerPower?_of_unit (hbase : m.toInt.natAbs ≤ 1) (hnonneg : 0 ≤ n.toInt)
    (hexponent : n.toInt < 0x100000000) :
    integerPower? m n = int64OfInt? (m.toInt ^ n.toInt.toNat) := by
  have hrange : ¬(decide (n.toInt < 0) || decide (0x100000000 ≤ n.toInt)) = true := by
    simp only [Bool.or_eq_true, decide_eq_true_eq]
    omega
  unfold integerPower?
  dsimp only
  rw [if_neg hrange]
  obtain ⟨exponent, hn⟩ := Int.eq_ofNat_of_zero_le hnonneg
  rw [hn, Int.toNat_natCast]
  obtain hm | hm | hm : m.toInt = 0 ∨ m.toInt = 1 ∨ m.toInt = -1 := by omega
  · rw [hm, if_pos rfl]
    cases exponent with
    | zero => rfl
    | succ exponent =>
      rw [zero_pow (Nat.succ_ne_zero exponent), if_neg (by omega)]
      rfl
  · rw [hm, if_neg (by decide), if_pos rfl, one_pow]
    rfl
  · rw [hm, if_neg (by decide), if_neg (by decide), if_pos rfl]
    rcases Nat.even_or_odd exponent with heven | hodd
    · have hrest := Nat.even_iff.1 heven
      rw [heven.neg_one_pow, if_pos (by omega)]
      rfl
    · have hrest := Nat.odd_iff.1 hodd
      rw [hodd.neg_one_pow, if_neg (by omega)]
      rfl

/-- Every other base either stays in 64 bits below the exponent 64, or outgrows them. -/
theorem integerPower?_of_large (hbase : 2 ≤ m.toInt.natAbs) (hnonneg : 0 ≤ n.toInt) :
    integerPower? m n = int64OfInt? (m.toInt ^ n.toInt.toNat) := by
  unfold integerPower?
  dsimp only
  by_cases hlarge : 64 ≤ n.toInt
  · rw [int64OfInt?_of_not_is64Bit (not_is64Bit_pow hbase (by omega))]
    rw [if_neg (by omega : ¬m.toInt = 0), if_neg (by omega : ¬m.toInt = 1),
      if_neg (by omega : ¬m.toInt = -1), if_pos hlarge, ite_self]
  · rw [if_neg (by simp only [Bool.or_eq_true, decide_eq_true_eq]; omega), if_neg (by omega),
      if_neg (by omega), if_neg (by omega), if_neg hlarge]
    rfl

theorem integerPower?_eq (hnonneg : 0 ≤ n.toInt)
    (h : ¬NumberOperation.Misses .exponent m.toInt n.toInt) :
    integerPower? m n = int64OfInt? (m.toInt ^ n.toInt.toNat) := by
  rcases Nat.lt_or_ge m.toInt.natAbs 2 with hunit | hlarge
  · refine integerPower?_of_unit (by omega) hnonneg (Int.not_le.1 fun hexponent => h ?_)
    exact .exponent (by omega) hexponent
  · exact integerPower?_of_large hlarge hnonneg

theorem add_givesExactly :
    GivesExactly (m.toInt + n.toInt) (add (.integer m r) (.integer n s)) := by
  unfold add
  exact binary_givesExactly rfl

theorem sub_givesExactly :
    GivesExactly (m.toInt - n.toInt) (sub (.integer m r) (.integer n s)) := by
  unfold sub
  exact binary_givesExactly rfl

theorem mul_givesExactly :
    GivesExactly (m.toInt * n.toInt) (mul (.integer m r) (.integer n s)) := by
  unfold mul
  exact binary_givesExactly rfl

theorem wholeDiv_integers (h : n.toInt ≠ 0) :
    wholeDiv (.integer m r) (.integer n s) =
      binary (fun m n => int64OfInt? (m.toInt.tdiv n.toInt)) (fun x y => Real.truncate (x / y))
        (.integer m r) (.integer n s) := by
  unfold wholeDiv
  rw [divisor_integer h]
  rfl

theorem wholeDiv_givesExactly (h : n.toInt ≠ 0) :
    GivesExactly (m.toInt.tdiv n.toInt) (wholeDiv (.integer m r) (.integer n s)) := by
  rw [wholeDiv_integers h]
  exact binary_givesExactly rfl

theorem rem_integers (h : n.toInt ≠ 0) :
    rem (.integer m r) (.integer n s) =
      binary (fun m n => (int64OfInt? (m.toInt.tdiv n.toInt)).bind fun _ =>
        int64OfInt? (m.toInt.tmod n.toInt)) Real.remainder (.integer m r) (.integer n s) := by
  unfold rem
  rw [divisor_integer h]
  rfl

/-- The remainder is exact where the quotient is. -/
theorem rem_givesExactly (h : n.toInt ≠ 0)
    (hfound : ¬NumberOperation.Misses .modulus m.toInt n.toInt) :
    GivesExactly (m.toInt.tmod n.toInt) (rem (.integer m r) (.integer n s)) := by
  have hquotient : Is64Bit (m.toInt.tdiv n.toInt) := by
    refine is64Bit_tdiv (is64Bit_toInt m) h fun ⟨hm, hn⟩ => hfound ?_
    rw [hm, hn]
    exact .quotient
  rw [rem_integers h]
  refine binary_givesExactly ?_
  rw [int64OfInt?_of_is64Bit hquotient]
  rfl

theorem pow_givesExactly (hnonneg : 0 ≤ n.toInt)
    (hfound : ¬NumberOperation.Misses .exponent m.toInt n.toInt) :
    GivesExactly (m.toInt ^ n.toInt.toNat) (pow (.integer m r) (.integer n s)) :=
  binary_givesExactly (integerPower?_eq hnonneg hfound)

theorem neg_givesExactly (m : Int64) (r : Nat) :
    GivesExactly (-m.toInt) (neg (.integer m r)) where
  fits hfits := by simp only [neg, int64OfInt?_of_is64Bit hfits]
  exceeds hexceeds := by
    refine ⟨ofFloat (-Real.ofInteger m.toInt), ?_, isInteger_ofFloat _⟩
    simp only [neg, int64OfInt?_of_not_is64Bit hexceeds]
    rfl

end Scalar

namespace NumberOperation

open Scalar

variable {op : NumberOperation} {m n : Int64}

/-- In the gaps the operation is done on doubles. -/
theorem Misses.inexact (h : op.Misses m.toInt n.toInt) (r s : Nat) :
    ∃ result, op.apply (.integer m r) (.integer n s) = .ok result ∧ result.isInteger = false := by
  generalize hm : m.toInt = left at h
  generalize hn : n.toInt = right at h
  cases h with
  | quotient =>
    simp only [apply]
    rw [rem_integers (by omega)]
    refine binary_none ?_
    rw [hm, hn]
    rfl
  | exponent hbase hexponent =>
    refine binary_none ?_
    unfold integerPower?
    rw [hn]
    exact if_pos (by simp only [Bool.or_eq_true, decide_eq_true_eq]; omega)

/-- Every operation on two exact integers that has an integer for its result gives it exactly, but
for the two gaps, and so does the change of a sign. -/
theorem apply_givesExactly (m n : Int64) (r s : Nat) :
    (∀ (op : NumberOperation) (exact : Int),
      op.onIntegers? m.toInt n.toInt = some exact → ¬op.Misses m.toInt n.toInt →
        GivesExactly exact (op.apply (.integer m r) (.integer n s))) ∧
    GivesExactly (-m.toInt) (Scalar.neg (.integer m r)) := by
  refine ⟨fun op exact hexact hfound => ?_, neg_givesExactly m r⟩
  cases op with
  | add =>
    cases hexact
    exact add_givesExactly
  | subtract =>
    cases hexact
    exact sub_givesExactly
  | multiply =>
    cases hexact
    exact mul_givesExactly
  | divide => cases hexact
  | intDivide =>
    obtain ⟨hzero, rfl⟩ : n.toInt ≠ 0 ∧ m.toInt.tdiv n.toInt = exact := by
      simpa [onIntegers?] using hexact
    exact wholeDiv_givesExactly hzero
  | modulus =>
    obtain ⟨hzero, rfl⟩ : n.toInt ≠ 0 ∧ m.toInt.tmod n.toInt = exact := by
      simpa [onIntegers?] using hexact
    exact rem_givesExactly hzero hfound
  | exponent =>
    obtain ⟨hnonneg, rfl⟩ : 0 ≤ n.toInt ∧ m.toInt ^ n.toInt.toNat = exact := by
      simpa [onIntegers?] using hexact
    exact pow_givesExactly hnonneg hfound

/-- A power that is the least integer, and the quotient that is one more than the greatest. -/
theorem apply_givesExactly_limits :
    (NumberOperation.exponent.onIntegers? (-2) 63 = some (-0x8000000000000000) ∧
      ¬Misses .exponent (-2) 63 ∧
      NumberOperation.exponent.apply (.integer (-2) 16) (.integer 63 10) =
        .ok (.ofInt64 (-0x8000000000000000))) ∧
    NumberOperation.intDivide.onIntegers? (-0x8000000000000000) (-1) = some 0x8000000000000000 ∧
      ¬Misses .intDivide (-0x8000000000000000) (-1) ∧
      ∃ result, NumberOperation.intDivide.apply (.integer (-0x8000000000000000) 10)
          (.integer (-1) 10) = .ok result ∧ result.isInteger = false := by
  have hpower : ¬Misses .exponent (-2) 63 := by
    rintro ⟨⟩
    omega
  have hquotient : ¬Misses .intDivide (-0x8000000000000000) (-1) := nofun
  refine ⟨⟨rfl, hpower, ?_⟩, rfl, hquotient, ?_⟩
  · exact ((apply_givesExactly (-2) 63 16 10).1 .exponent _ rfl hpower).fits (by decide)
  · exact ((apply_givesExactly (-0x8000000000000000) (-1) 10 10).1 .intDivide _ rfl
      hquotient).exceeds (by decide)

/-- The remainder of the least integer by -1 is 0, and 1 is all its powers, but neither comes out as
an integer. -/
theorem not_givesExactly_missed :
    NumberOperation.modulus.onIntegers? (-0x8000000000000000) (-1) = some 0 ∧
    ¬GivesExactly 0 (NumberOperation.modulus.apply (.integer (-0x8000000000000000) 10)
      (.integer (-1) 10)) ∧
    NumberOperation.exponent.onIntegers? 1 0x100000000 = some 1 ∧
    ¬GivesExactly 1 (NumberOperation.exponent.apply (.integer 1 10) (.integer 0x100000000 10)) := by
  have hinexact {outcome : Except ScalarError Scalar} {exact : Int} (hfits : Is64Bit exact)
      (h : ∃ result, outcome = .ok result ∧ result.isInteger = false) :
      ¬GivesExactly exact outcome := by
    obtain ⟨result, rfl, hresult⟩ := h
    intro hgives
    rw [Except.ok.inj (hgives.fits hfits)] at hresult
    cases hresult
  refine ⟨rfl, hinexact (by decide) (Misses.inexact .quotient 10 10), ?_, ?_⟩
  · rw [onIntegers?, if_neg (by decide), one_pow]
  · exact hinexact (by decide) (Misses.inexact (.exponent (by decide) (by decide)) 10 10)

end NumberOperation

end CommandScript
