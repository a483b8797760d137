import CommandScript.Bridge
import CommandScript.Scalar.Arithmetic

/-!
# Primitive handlers

The handlers that are not written in the language itself.  What each does when it is called is said
where calls are evaluated.
-/

namespace CommandScript

/-- An operation on two numbers. -/
inductive NumberOperation where
  | exponent
  | multiply
  | divide
  | intDivide
  | modulus
  | add
  | subtract
deriving DecidableEq, Repr

/-- The operation on scalars. -/
def NumberOperation.apply : NumberOperation → Scalar → Scalar → Except ScalarError Scalar
  | .exponent => Scalar.pow
  | .multiply => Scalar.mul
  | .divide => Scalar.div
  | .intDivide => Scalar.wholeDiv
  | .modulus => Scalar.rem
  | .add => Scalar.add
  | .subtract => Scalar.sub

/-- A test on how two things compare. -/
inductive Comparison where
  | less
  | lessOrEqual
  | equal
  | notEqual
  | greater
  | greaterOrEqual
deriving DecidableEq, Repr

/-- Whether the test accepts an ordering. -/
def Comparison.accepts : Comparison → Ordering → Bool
  | .less, o => o == .lt
  | .lessOrEqual, o => o != .gt
  | .equal, o => o == .eq
  | .notEqual, o => o != .eq
  | .greater, o => o == .gt
  | .greaterOrEqual, o => o != .lt

/-- A connective of two truth values. -/
inductive Connective where
  | and
  | or
  | xor
deriving DecidableEq, Repr

/-- The truth function of a connective. -/
def Connective.apply : Connective → Bool → Bool → Bool
  | .and, a, b => a && b
  | .or, a, b => a || b
  | .xor, a, b => a != b

/-- What a primitive handler does. -/
inductive Primitive where
  /-- Computes with two numbers. -/
  | number (operation : NumberOperation)
  /-- Answers a number as it is. -/
  | positive
  /-- Changes the sign of a number. -/
  | negative
  /-- Compares two numbers. -/
  | testNumbers (test : Comparison)
  /-- Compares two texts, ignoring case. -/
  | testTexts (test : Comparison)
  /-- Negates a truth value. -/
  | not
  /-- Combines two truth values. -/
  | logic (connective : Connective)
  /-- Changes a text to capital letters. -/
  | uppercase
  /-- Changes a text to small letters. -/
  | lowercase
  /-- Joins two texts. -/
  | join
  /-- Counts items, fields or characters. -/
  | count
  /-- Prints a value. -/
  | show
  /-- Answers the code of a value. -/
  | formatCode
  /-- Runs an action if a condition holds. -/
  | ifThen
  /-- Runs an action, and another if the first did nothing. -/
  | orElse
  /-- Runs an action a number of times. -/
  | repeatTimes
  /-- Runs an action as long as a condition holds. -/
  | whileDo
  /-- Runs an action with a target in front of its scope. -/
  | tell
  /-- Stores a value under a name. -/
  | store
  /-- Defines a handler written in the language. -/
  | defineHandler
  /-- Coerces a value. -/
  | coerce
  /-- Tests whether a value can be coerced. -/
  | isA
  /-- Reads arguments one after the other, each through a bridge or as it is, and answers their
  list. -/
  | collect (reads : List (Option Bridge))
deriving DecidableEq, Repr

end CommandScript
