import CommandScript.Eval

/-!
# Coercing the items of collections

Items are coerced in order.  The collection itself is there, so a missing item is an error that
can't be recovered from.  A computed record gets its keys first, each before its value.
-/

namespace CommandScript.Evaluation

/-- An item of a collection, coerced. -/
def coerceItem (e : Evaluator) (scope : Scope) (wanted : Coercion) (item : Value) : Eval Value :=
  (e.coerce wanted item scope).mapError (.permanent item wanted)

/-- The items of a list, coerced. -/
def coerceItems (e : Evaluator) (scope : Scope) (wanted : Coercion) (items : List Value) :
    Eval (List Value) :=
  Eval.forEach (coerceItem e scope wanted) items

/-- A value that must be a key. -/
def asKey (value : Value) : Eval Key :=
  match value.toKey? with
  | some key => return key
  | none => Eval.failWith (.coercion value .recordKey)

/-- A field of a record, its value coerced. -/
def coerceField (e : Evaluator) (scope : Scope) (wanted : Coercion) (entry : Key × Value) :
    Eval (Key × Value) := do
  let value ← coerceItem e scope wanted entry.2
  return (entry.1, value)

/-- A pair of a computed record, its key evaluated and its value coerced. -/
def computeField (e : Evaluator) (scope : Scope) (wanted : Coercion) (pair : Value × Value) :
    Eval (Key × Value) := do
  let keyValue ← coerceItem e scope .recordKey pair.1
  let key ← asKey keyValue
  let value ← coerceItem e scope wanted pair.2
  return (key, value)

/-- A record with given fields.  Its keys must be unique. -/
def recordOf (entries : List (Key × Value)) : Eval Record :=
  match Record.ofFields entries with
  | .ok record => return record
  | .error key => Eval.failWith (.constraint (.ofKey key) .repeatedKey)

/-- A record with its keys evaluated and its values coerced. -/
def resolve (e : Evaluator) (scope : Scope) (wanted : Coercion) : Record → Eval Record
  | .fields entries => do
    let entries ← Eval.forEach (coerceField e scope wanted) entries
    recordOf entries
  | .computed pairs => do
    let entries ← Eval.forEach (computeField e scope wanted) pairs
    recordOf entries

end CommandScript.Evaluation
