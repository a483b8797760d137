/-!
# Ranges of code points

The properties of characters are read off tables: ranges of code points for a property, and runs of
equal distance for a change of case.  A run with step 2 skips every other code point, as where the
capital and the small letter of a pair stand side by side.
-/

namespace CommandScript.Text

/-- Ranges of code points, both ends included, in ascending order. -/
abbrev Ranges := List (Nat × Nat)

/-- Whether a code point lies in one of the ranges. -/
def Ranges.contains (ranges : Ranges) (code : Nat) : Bool :=
  ranges.any fun range => range.1 ≤ code && code ≤ range.2

/-- A run of code points that all lie at the same distance from their counterparts. -/
structure CaseRun where
  /-- The first code point of the run. -/
  first : Nat
  /-- The last code point of the run. -/
  last : Nat
  /-- The distance between neighbours in the run. -/
  step : Nat
  /-- The counterpart of the first code point. -/
  target : Nat

/-- The counterpart of a code point, if it belongs to the run. -/
def CaseRun.counterpart? (run : CaseRun) (code : Nat) : Option Nat :=
  if run.first ≤ code && code ≤ run.last && (code - run.first) % run.step == 0 then
    some (run.target + (code - run.first))
  else
    none

/-- The counterparts of a character: its expansion, the letter its run gives, or itself. -/
def counterparts (runs : List CaseRun) (expansions : List (Nat × List Nat)) (c : Char) :
    List Char :=
  match expansions.lookup c.toNat with
  | some codes => codes.map Char.ofNat
  | none =>
    match runs.findSome? fun run => run.counterpart? c.toNat with
    | some code => [Char.ofNat code]
    | none => [c]

end CommandScript.Text
