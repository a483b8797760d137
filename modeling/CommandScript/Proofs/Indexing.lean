import Mathlib.Tactic.ByContra
import Mathlib.Tactic.SplitIfs
import CommandScript.Scope

/-!
# Items by number

The items of a list are numbered from one, and once more from minus one backwards.  So each item has
two numbers, and every other number has no item.

Places are computed with 64-bit integers.  A list has fewer items than there are such integers that
are not negative, for all of it is in memory, and then no place leaves them on the way.  From there
on numbers are those of mathematics, and everything about items and ranges follows from the one
equivalence `offset?_eq_some_iff`.
-/

namespace CommandScript

namespace Sequence

variable {length : Nat} {index first last : Int64} {items : List Value}

/-- A number that has an item in a list of a given length. -/
def InRange (length : Nat) (index : Int64) : Prop :=
  1 ≤ index.toInt ∧ index.toInt ≤ length ∨ -length ≤ index.toInt ∧ index.toInt ≤ -1

/-! ## Places -/

theorem one_le_iff : 1 ≤ index ↔ 1 ≤ index.toInt := Int64.le_iff_toInt_le

theorem le_neg_one_iff : index ≤ -1 ↔ index.toInt ≤ -1 := Int64.le_iff_toInt_le

/-- No place leaves the integers of 64 bits. -/
theorem place?_exact {length place : Int64} (hlength : 0 ≤ length.toInt)
    (h : place? length index = some place) :
    1 ≤ index.toInt ∧ place.toInt = index.toInt - 1 ∨
      index.toInt ≤ -1 ∧ place.toInt = length.toInt + index.toInt := by
  have hindex := is64Bit_toInt index
  have hfits := is64Bit_toInt length
  unfold Is64Bit at hindex hfits
  unfold place? at h
  split_ifs at h with hfront hback
  -- Both sums lie between the least integer and the largest, for the length is not negative.
  · cases h
    rw [one_le_iff] at hfront
    refine .inl ⟨hfront, ?_⟩
    rw [Int64.toInt_sub]
    exact Int.bmod_eq_of_le (by simp; omega) (by simp; omega)
  · cases h
    rw [le_neg_one_iff] at hback
    refine .inr ⟨hback, ?_⟩
    rw [Int64.toInt_add]
    exact Int.bmod_eq_of_le (by omega) (by omega)

/-- Only zero counts to no place. -/
theorem place?_isSome {length : Int64} (h : index.toInt ≠ 0) :
    ∃ place, place? length index = some place := by
  unfold place?
  split_ifs with hfront hback
  · exact ⟨_, rfl⟩
  · exact ⟨_, rfl⟩
  · rw [one_le_iff] at hfront
    rw [le_neg_one_iff] at hback
    omega

/-- An item has two numbers, one from either end. -/
theorem offset?_eq_some_iff (hlength : Is64Bit length) {offset : Nat} :
    offset? length index = some offset ↔ offset < length ∧
      (index.toInt = offset + 1 ∨ index.toInt = offset - (length : Int)) := by
  have hless : length < 0x8000000000000000 := by
    unfold Is64Bit at hlength
    omega
  have hsize : (Int64.ofNat length).toInt = length := hlength.toInt_ofInt
  simp only [offset?, if_pos hless, placeWithin?, Option.bind_eq_bind, Option.bind_eq_some_iff,
    Int64.le_iff_toInt_le, Int64.lt_iff_toInt_lt, hsize, Int64.toInt_zero]
  constructor
  · rintro ⟨place, hplace, h⟩
    split_ifs at h with hinside
    cases h
    have hexact := place?_exact (by omega) hplace
    rw [hsize] at hexact
    rw [← Int64.toNat_toInt]
    omega
  · rintro ⟨hinside, hindex⟩
    obtain ⟨place, hplace⟩ : ∃ place, place? (Int64.ofNat length) index = some place :=
      place?_isSome (by omega)
    have hexact := place?_exact (by omega) hplace
    rw [hsize] at hexact
    refine ⟨place, hplace, ?_⟩
    rw [if_pos (by omega), ← Int64.toNat_toInt, Option.some.injEq]
    omega

/-- An index has a place if and only if it is in range, from the front or from the back. -/
theorem offset?_isSome_iff (hlength : Is64Bit length) :
    (∃ offset, offset? length index = some offset) ↔ InRange length index := by
  simp only [offset?_eq_some_iff hlength, InRange]
  constructor
  · rintro ⟨offset, hless, hindex⟩
    omega
  · rintro (hfront | hback)
    · exact ⟨(index.toInt - 1).toNat, by omega⟩
    · exact ⟨(length + index.toInt).toNat, by omega⟩

theorem offset?_eq_none_iff (hlength : Is64Bit length) :
    offset? length index = none ↔ ¬InRange length index := by
  rw [← offset?_isSome_iff hlength, Option.eq_none_iff_forall_ne_some, not_exists]

/-! ## Items and ranges -/

/-- The error of a number without an item. -/
abbrev outOfRange (index : Int64) : EvalError :=
  .of (.constraint (.ofInt64 index) .indexOutOfRange)

/-- An index in range gives its item. -/
theorem listItem_of_offset? {offset : Nat} (hlength : Is64Bit items.length)
    (h : offset? items.length index = some offset) :
    ∃ value, items[offset]? = some value ∧ listItem items index = .ok value := by
  have hless := ((offset?_eq_some_iff hlength).1 h).1
  refine ⟨items[offset], List.getElem?_eq_getElem hless, ?_⟩
  unfold listItem item
  rw [h, Option.bind_some, List.getElem?_eq_getElem hless]
  rfl

/-- Any other is an error that has the index. -/
theorem listItem_of_none (h : offset? items.length index = none) :
    listItem items index = .error (outOfRange index) := by
  unfold listItem item
  rw [h, Option.bind_none]
  rfl

/-- A range has the items from its first to its last place, and none if they are the other way
around. -/
theorem listRange_of_offset? {start stop : Nat} (hfirst : offset? items.length first = some start)
    (hlast : offset? items.length last = some stop) :
    listRange items first last = .ok ((items.drop start).take (stop + 1 - start)) := by
  unfold listRange range
  rw [hfirst]
  dsimp only
  rw [hlast]
  rfl

/-- The first index is looked at before the last. -/
theorem listRange_of_none (h : offset? items.length first = none) :
    listRange items first last = .error (outOfRange first) := by
  unfold listRange range
  rw [h]
  rfl

theorem listRange_of_last_none {start : Nat} (hfirst : offset? items.length first = some start)
    (hlast : offset? items.length last = none) :
    listRange items first last = .error (outOfRange last) := by
  unfold listRange range
  rw [hfirst]
  dsimp only
  rw [hlast]
  rfl

/-- What a number stands for in a list. -/
structure Numbers (items : List Value) (index : Int64) : Prop where
  /-- The place it counts to is computed without leaving the integers of 64 bits. -/
  exact {place : Int64} : place? (Int64.ofNat items.length) index = some place →
    1 ≤ index.toInt ∧ place.toInt = index.toInt - 1 ∨
      index.toInt ≤ -1 ∧ place.toInt = items.length + index.toInt
  /-- From one on it counts from the front. -/
  front : 1 ≤ index.toInt → index.toInt ≤ items.length →
    offset? items.length index = some (index.toInt - 1).toNat
  /-- From minus one on it counts from the back. -/
  back : -items.length ≤ index.toInt → index.toInt ≤ -1 →
    offset? items.length index = some (items.length + index.toInt).toNat
  /-- No other number counts to a place in the list. -/
  outside : ¬InRange items.length index → offset? items.length index = none
  /-- It stands for the item at its place. -/
  item {offset : Nat} : offset? items.length index = some offset →
    ∃ value, items[offset]? = some value ∧ listItem items index = .ok value
  /-- No other number stands for an item. -/
  failed : ¬InRange items.length index → listItem items index = .error (outOfRange index)
  /-- An item has a number from either end. -/
  fromBack : 1 ≤ index.toInt → index.toInt ≤ items.length →
    listItem items index = listItem items (Int64.ofInt (index.toInt - items.length - 1))

/-- What two numbers stand for as the ends of a range. -/
structure Bounds (items : List Value) (first last : Int64) : Prop where
  /-- The first end has no item. -/
  firstFailed : ¬InRange items.length first →
    listRange items first last = .error (outOfRange first)
  /-- Only the last end has no item. -/
  lastFailed : InRange items.length first → ¬InRange items.length last →
    listRange items first last = .error (outOfRange last)
  /-- The items from one end through the other, in order. -/
  found {start stop : Nat} : offset? items.length first = some start →
    offset? items.length last = some stop → ∃ found, listRange items first last = .ok found ∧
      found.length = stop + 1 - start ∧ ∀ k < found.length, found[k]? = items[start + k]?
  /-- There are none if the range runs backwards. -/
  backwards {start stop : Nat} : offset? items.length first = some start →
    offset? items.length last = some stop → stop < start → listRange items first last = .ok []

/-- Single items, for any index. -/
theorem numbers (hlength : Is64Bit items.length) (index : Int64) : Numbers items index where
  exact hplace := by
    have hsize : (Int64.ofNat items.length).toInt = items.length := hlength.toInt_ofInt
    have hexact := place?_exact (by omega) hplace
    rwa [hsize] at hexact
  front _ _ := (offset?_eq_some_iff hlength).2 (by omega)
  back _ _ := (offset?_eq_some_iff hlength).2 (by omega)
  outside h := (offset?_eq_none_iff hlength).2 h
  item h := listItem_of_offset? hlength h
  failed h := listItem_of_none ((offset?_eq_none_iff hlength).2 h)
  fromBack hpos hle := by
    have hindex := is64Bit_toInt index
    have hnumber : (Int64.ofInt (index.toInt - items.length - 1)).toInt =
        index.toInt - items.length - 1 :=
      Is64Bit.toInt_ofInt (by unfold Is64Bit at *; omega)
    obtain ⟨value, hvalue, hitem⟩ := listItem_of_offset? hlength
      ((offset?_eq_some_iff hlength).2 (by omega) :
        offset? items.length index = some (index.toInt - 1).toNat)
    obtain ⟨value', hvalue', hitem'⟩ := listItem_of_offset? hlength
      ((offset?_eq_some_iff hlength).2 (by omega) :
        offset? items.length (Int64.ofInt (index.toInt - items.length - 1)) =
          some (index.toInt - 1).toNat)
    rw [hitem, hitem', Option.some.inj (hvalue.symm.trans hvalue')]

/-- Ranges, for any two of them. -/
theorem bounds (hlength : Is64Bit items.length) (first last : Int64) :
    Bounds items first last where
  firstFailed h := listRange_of_none ((offset?_eq_none_iff hlength).2 h)
  lastFailed hfirst hlast := by
    obtain ⟨start, hstart⟩ := (offset?_isSome_iff hlength).2 hfirst
    exact listRange_of_last_none hstart ((offset?_eq_none_iff hlength).2 hlast)
  found {start stop} hfirst hlast := by
    have hstart := ((offset?_eq_some_iff hlength).1 hfirst).1
    have hstop := ((offset?_eq_some_iff hlength).1 hlast).1
    refine ⟨_, listRange_of_offset? hfirst hlast, ?_, fun k hk => ?_⟩
    · rw [List.length_take, List.length_drop]
      omega
    · rw [List.length_take] at hk
      rw [List.getElem?_take_of_lt (by omega), List.getElem?_drop]
  backwards {start stop} hfirst hlast hless := by
    rw [listRange_of_offset? hfirst hlast, Nat.sub_eq_zero_of_le hless, List.take_zero]

/-- In a list that 64-bit integers can count, as every list in memory is, the numbers from one up to
its length and from minus one down stand for its items, from either end, and no other number stands
for an item.  A range fails just if one of its ends stands for no item, and holds the items from one
end through the other.  From one through minus one it is the list, unless that is empty. -/
theorem indexing_exact {items : List Value} (hlength : Is64Bit items.length) :
    (∀ index, Numbers items index ∧
      ((∃ value, listItem items index = .ok value) ↔ InRange items.length index)) ∧
    (∀ first last, Bounds items first last ∧
      ((∃ error, listRange items first last = .error error) ↔
        ¬InRange items.length first ∨ ¬InRange items.length last)) ∧
    (0 < items.length → listRange items 1 (-1) = .ok items) := by
  refine ⟨fun index => ⟨numbers hlength index, ?_⟩, fun first last =>
    ⟨bounds hlength first last, ?_⟩, fun hpos => ?_⟩
  · constructor
    · rintro ⟨value, hvalue⟩
      by_contra houtside
      rw [(numbers hlength index).failed houtside] at hvalue
      cases hvalue
    · intro hinside
      obtain ⟨offset, hoffset⟩ := (offset?_isSome_iff hlength).2 hinside
      obtain ⟨value, -, hitem⟩ := (numbers hlength index).item hoffset
      exact ⟨value, hitem⟩
  · constructor
    · rintro ⟨error, herror⟩
      by_contra! hinside
      obtain ⟨start, hstart⟩ := (offset?_isSome_iff hlength).2 hinside.1
      obtain ⟨stop, hstop⟩ := (offset?_isSome_iff hlength).2 hinside.2
      rw [listRange_of_offset? hstart hstop] at herror
      cases herror
    · intro houtside
      by_cases hfirst : InRange items.length first
      · exact ⟨_, (bounds hlength first last).lastFailed hfirst
          (houtside.resolve_left (not_not_intro hfirst))⟩
      · exact ⟨_, (bounds hlength first last).firstFailed hfirst⟩
  · have hone : (1 : Int64).toInt = 1 := rfl
    have hminus : (-1 : Int64).toInt = -1 := rfl
    have hfirst : offset? items.length 1 = some 0 :=
      (offset?_eq_some_iff hlength).2 ⟨hpos, .inl hone⟩
    have hlast : offset? items.length (-1) = some (items.length - 1) :=
      (offset?_eq_some_iff hlength).2 (by omega)
    rw [listRange_of_offset? hfirst hlast, List.drop_zero,
      List.take_of_length_le (by omega)]

/-- The last number there is, and a range over all of three items but the last. -/
theorem indexing_exact_limits :
    let items : List Value := [.ofInt64 7, .boolean true, .nothing]
    Is64Bit items.length ∧
      listItem items Int64.minValue = .error (outOfRange Int64.minValue) ∧
      listItem items 2 = listItem items (-2) ∧
      (∃ found, listRange items 1 (-2) = .ok found ∧ found.length = 2 ∧
        ∀ k < found.length, found[k]? = items[0 + k]?) ∧
      listRange items 1 (-1) = .ok items := by
  intro items
  have hlength : Is64Bit items.length := by decide
  obtain ⟨hnumbers, hbounds, hwhole⟩ := indexing_exact hlength
  refine ⟨hlength, (hnumbers _).1.failed ?_, (hnumbers 2).1.fromBack ?_ ?_, ?_, hwhole (by decide)⟩
  · unfold InRange
    decide
  · decide
  · decide
  · have hfirst : offset? items.length 1 = some 0 := (offset?_eq_some_iff hlength).2 (by decide)
    have hlast : offset? items.length (-2) = some 1 := (offset?_eq_some_iff hlength).2 (by decide)
    exact (hbounds 1 (-2)).1.found hfirst hlast

end Sequence

end CommandScript
