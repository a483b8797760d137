import CommandScript.Coercion

/-!
# The coercions and constants of the library

A coercion is stored under its own name, and the coercion of texts under `string` too.  One that is
built on another coercion is stored with `anything` inside, and calling it builds the one that is
wanted, as in `list(text)`.
-/

namespace CommandScript.Library

/-- Every coercion of the library. -/
def coercions : List Coercion :=
  [.anything, .value, .expression, .text, .boolean, .number, .integer, .real, .tag, .recordKey,
   .list .anything, .record .anything, .coercion, .handler, .reference, .noResult, .lazy .anything,
   .optional .anything, .default .nothing .anything]

/-- Other names of coercions. -/
def coercionAliases : List (String × Coercion) := [("string", .text)]

/-- The coercions under all their names. -/
def namedCoercions : List (String × Coercion) :=
  coercions.map (fun c => (c.name, c)) ++ coercionAliases

/-- The double nearest to the ratio of a circle's circumference to its diameter. -/
def pi : Float := .ofBits 0x400921fb54442d18

/-- Every constant of the library. -/
def constants : List (String × Value) :=
  [("nothing", .nothing),
   ("true", .boolean true),
   ("false", .boolean false),
   ("π", .ofScalar (.ofFloat pi))]

end CommandScript.Library
