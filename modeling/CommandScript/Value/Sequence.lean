import CommandScript.Value

/-!
# Items of a list by number

Items are counted from one, and a negative number counts back from the end.  Zero and numbers beyond
either end have no item.  Places are computed with 64-bit integers.
-/

namespace CommandScript.Sequence

/-- The place that a number counts to in a list of a given length, inside the list or not. -/
def place? (length index : Int64) : Option Int64 :=
  if 1 ≤ index then some (index - 1)
  else if index ≤ -1 then some (length + index)
  else none

/-- The place of an item by its number, in a list whose length is a 64-bit integer. -/
def placeWithin? (length index : Int64) : Option Nat := do
  let place ← place? length index
  if 0 ≤ place ∧ place < length then some place.toNatClampNeg else none

/-- The place of an item by its number, in a list of a given length. -/
def offset? (length : Nat) (index : Int64) : Option Nat :=
  if length < 0x8000000000000000 then placeWithin? (Int64.ofNat length) index else none

/-- An item by its number, or the number if it is out of range. -/
def item (items : List Value) (index : Int64) : Except Int64 Value :=
  match (offset? items.length index).bind (items[·]?) with
  | some value => .ok value
  | none => .error index

/-- The items from one number through another, or the number that is out of range.  A range that
runs backwards is empty. -/
def range (items : List Value) (first last : Int64) : Except Int64 (List Value) :=
  match offset? items.length first with
  | none => .error first
  | some start =>
    match offset? items.length last with
    | none => .error last
    | some stop => .ok ((items.drop start).take (stop + 1 - start))

/-- All items but the first. -/
def rest (items : List Value) : List Value := items.drop 1

end CommandScript.Sequence
