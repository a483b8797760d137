import Std.Data.HashMap
import CommandScript.Value

/-!
# Indexes of keys

An index tells where the field with each key stands, so that a field is found without a look at the
others.  It is a hash map, and its hash goes with equality of keys: small and capital letters make
no difference in a tag.
-/

namespace CommandScript

/-- Equal keys have the same hash.  Texts and tags are kept apart. -/
instance : Hashable Key where
  hash
    | .text t => mixHash 0 (hash t.content)
    | .tag name => mixHash 1 (hash name.key)

/-- Where the field with each key stands. -/
abbrev KeyIndex : Type := Std.HashMap Key Nat

namespace KeyIndex

/-- An index with the keys of more fields, the first of which stands at a given place, or the first
key that it already has. -/
def extend : (index : KeyIndex) → (place : Nat) → List (Key × Value) → Except Key KeyIndex
  | index, _, [] => .ok index
  | index, place, (key, _) :: rest =>
    let (known, index) := index.containsThenInsert key place
    if known then .error key else extend index (place + 1) rest

/-- The index of given fields, or the first key that is repeated. -/
def ofFields (entries : List (Key × Value)) : Except Key KeyIndex := extend ∅ 0 entries

/-- The value of the field with a given key, found through an index. -/
def find? (index : KeyIndex) (entries : List (Key × Value)) (key : Key) : Option Value := do
  let place ← index[key]?
  let entry ← entries[place]?
  return entry.2

end KeyIndex

end CommandScript
