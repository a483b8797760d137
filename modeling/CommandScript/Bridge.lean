/-!
# Bridges

A bridge names a host type and the way a value becomes a host value and a host value a value.  The
bridges to options and lists are built on another bridge.
-/

namespace CommandScript

/-- A way between values and host values. -/
inductive Bridge where
  /-- Truth values. -/
  | bool
  /-- Texts. -/
  | text
  /-- Numbers, exact or not. -/
  | scalar
  /-- 64-bit integers. -/
  | integer
  /-- Doubles. -/
  | real
  /-- Tags. -/
  | tag
  /-- Evaluated values of any kind. -/
  | value
  /-- Values as written, not evaluated. -/
  | expression
  /-- Coercions. -/
  | coercion
  /-- Lists, records and references, as targets of commands. -/
  | reference
  /-- Parameters of handlers. -/
  | parameter
  /-- A host value or none. -/
  | optional (inner : Bridge)
  /-- A list of host values. -/
  | list (item : Bridge)
deriving DecidableEq, Repr

end CommandScript
