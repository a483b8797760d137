import CommandScript.Value

/-!
# Coercions as things to name and call

Every coercion has a name.  Called as a handler, most coercions convert their one argument.  Those
that are built on another coercion build a new one instead: `list(text)` is the coercion of lists of
texts.
-/

namespace CommandScript.Coercion

/-- The name of a coercion. -/
def name : Coercion → String
  | .anything => "anything"
  | .value => "value"
  | .expression => "expression"
  | .boolean => "boolean"
  | .text => "text"
  | .number => "number"
  | .integer => "integer"
  | .real => "real"
  | .tag => "tag"
  | .recordKey => "record_key"
  | .noResult => "no_result"
  | .coercion => "coercion"
  | .handler => "handler"
  | .reference => "reference"
  | .list _ => "list"
  | .record _ => "record"
  | .optional _ => "optional"
  | .lazy _ => "lazy"
  | .default .. => "default"

/-- Whether the coercion is `anything`. -/
def isAnything : Coercion → Bool
  | .anything => true
  | _ => false

/-- Whether calling the coercion builds a new one. -/
def buildsCoercion : Coercion → Bool
  | .list _ | .record _ | .optional _ | .lazy _ | .default .. => true
  | _ => false

/-- The parameter for the coercion to build on. -/
def typeParameter : Parameter :=
  .ofName (.ofString "type") (.default (.coercion .anything) .coercion)

/-- The signature of the coercion called as a handler. -/
def interface (c : Coercion) : Interface where
  name := .ofString c.name
  parameters :=
    match c with
    | .list _ | .record _ | .optional _ | .lazy _ => [typeParameter]
    | .default .. => [.ofName (.ofString "value") .anything, typeParameter]
    | other => [.ofName (.ofString "value") other]
  returns := if c.buildsCoercion then .coercion else c

end CommandScript.Coercion
