import CommandScript.Value

/-!
# Records

A record with fields has unique keys and keeps the order of its fields.  A computed record has no
fields yet.
-/

namespace CommandScript.Record

/-- The record without fields. -/
def empty : Record := .fields []

/-- The first key that equals one before it. -/
def repeatedKey? : (earlier : List Key) → List (Key × Value) → Option Key
  | _, [] => none
  | earlier, (key, _) :: rest =>
    if earlier.contains key then some key else repeatedKey? (key :: earlier) rest

/-- The record with given fields, or the first key that is repeated. -/
def ofFields (entries : List (Key × Value)) : Except Key Record :=
  match repeatedKey? [] entries with
  | some key => .error key
  | none => .ok (.fields entries)

/-- Whether the keys are known. -/
def hasKeys : Record → Bool
  | .fields _ => true
  | .computed _ => false

/-- The number of fields, or of pairs. -/
def size : Record → Nat
  | .fields entries => entries.length
  | .computed pairs => pairs.length

/-- Whether there is no field and no pair. -/
def isEmpty (record : Record) : Bool := record.size == 0

/-- The fields in order. -/
def entries : Record → List (Key × Value)
  | .fields entries => entries
  | .computed _ => []

/-- The value of the field with a given key. -/
def get? (record : Record) (key : Key) : Option Value := record.entries.lookup key

/-- The value of the field with a given name, which may be a tag or else a text. -/
def field? (record : Record) (name : Name) : Option Value :=
  match record.get? (.tag name) with
  | some value => some value
  | none => record.get? (.text (.plain name.text))

/-- Keys and values in order. -/
def pairs : Record → List (Value × Value)
  | .fields entries => entries.map fun (key, value) => (.ofKey key, value)
  | .computed pairs => pairs

end CommandScript.Record
