import CommandScript.Store
import CommandScript.Value.Sequence

/-!
# Looking up names

A name is looked up from a scope outwards.  A frame answers with its slot, or asks its parent.  A
target in front of a scope answers with its attribute, and only if it has none is the scope asked.
The answer comes with the scope that owns it, in which a handler found there will run.

Lists answer `count` and `length`, `first`, `last`, `rest` and `items`.  Records answer their
fields, then `count` and `length`, `keys` and `values`.  A frame answers what can be looked up from
it.
-/

namespace CommandScript

/-! ## Attributes of collections -/

/-- An item of a list by its number. -/
def listItem (items : List Value) (index : Int64) : Except EvalError Value :=
  (Sequence.item items index).mapError fun i => .of (.constraint (.ofInt64 i) .indexOutOfRange)

/-- The items of a list from one number through another. -/
def listRange (items : List Value) (first last : Int64) : Except EvalError (List Value) :=
  (Sequence.range items first last).mapError fun i =>
    .of (.constraint (.ofInt64 i) .indexOutOfRange)

/-- An attribute of a list. -/
def listAttribute (items : List Value) (name : Name) : Except EvalError Value :=
  if name.key == "count" || name.key == "length" then .ok (.ofCount items.length)
  else if name.key == "first" then listItem items 1
  else if name.key == "last" then listItem items (-1)
  else if name.key == "rest" then .ok (.list (Sequence.rest items))
  else if name.key == "items" then .ok (.list items)
  else .error (.of (.valueNotFound name.text))

/-- An attribute of a record. -/
def recordAttribute (record : Record) (name : Name) : Except EvalError Value :=
  match record.field? name with
  | some value => .ok value
  | none =>
    if name.key == "count" || name.key == "length" then .ok (.ofCount record.size)
    else if name.key == "keys" then
      .ok (.list (record.entries.map fun entry => .ofKey entry.1))
    else if name.key == "values" then .ok (.list (record.entries.map Prod.snd))
    else .error (.of (.valueNotFound name.text))

/-! ## Names -/

/-- What was found under a name, with a handler joined to the scope that owns it. -/
def bindOwner (name : Name) : Option (Value × Scope) → Except EvalError Value
  | some (.handler handler, owner) => .ok (.closure handler owner)
  | some (value, _) => .ok value
  | none => .error (.of (.valueNotFound name.text))

/-- An attribute, or none if the target has no such attribute. -/
def orAbsent (name : Name) : Except EvalError Value → Except EvalError (Option Value)
  | .ok value => .ok (some value)
  | .error error => if error.isUnknownName name then .ok none else .error error

mutual

/-- The value under a name and the scope that owns it, from a frame outwards. -/
def Environment.lookup (store : Store) (name : Name) :
    Environment → Except EvalError (Option (Value × Scope))
  | .root id =>
    .ok (((store.frame id).slot? name).map fun slot => (slot.value, .frame (.root id)))
  | .child id parent =>
    match (store.frame id).slot? name with
    | some slot => .ok (some (slot.value, .frame (.child id parent)))
    | none => parent.lookup store name
termination_by structural environment => environment

/-- The value under a name and the scope that owns it, from a scope outwards. -/
def Scope.lookup (store : Store) (name : Name) : Scope → Except EvalError (Option (Value × Scope))
  | .frame environment => environment.lookup store name
  | .tell target parent =>
    match orAbsent name (target.get store name) with
    | .ok (some value) => .ok (some (value, .receiver target))
    | .ok none => parent.lookup store name
    | .error error => .error error
  | .receiver target =>
    match orAbsent name (target.get store name) with
    | .ok value => .ok (value.map fun value => (value, .receiver target))
    | .error error => .error error
termination_by structural scope => scope

/-- An attribute of a target. -/
def Target.get (store : Store) (name : Name) : Target → Except EvalError Value
  | .list items => listAttribute items name
  | .record record => recordAttribute record name
  | .frame environment =>
    match environment.lookup store name with
    | .ok found => bindOwner name found
    | .error error => .error error
termination_by structural target => target

end

/-- The value of a name in a scope. -/
def Scope.get (store : Store) (name : Name) (scope : Scope) : Except EvalError Value :=
  match scope.lookup store name with
  | .ok found => bindOwner name found
  | .error error => .error error

/-! ## Storing -/

/-- The store with an attribute of a target changed.  Only frames can be changed. -/
def Target.set (target : Target) (name : Name) (value : Value) (store : Store) :
    Except EvalError Store :=
  match target with
  | .list _ | .record _ => .error (.of (.readOnlyValue name.text))
  | .frame environment => environment.assign name value false false store

/-- The store with a value stored under a name, from a scope outwards. -/
def Scope.put (name : Name) (value : Value) (readOnly : Bool) (store : Store) :
    Scope → Except EvalError Store
  | .frame environment => environment.assign name value readOnly false store
  | .tell _ parent => parent.put name value readOnly store
  | .receiver target => target.set name value store
termination_by structural scope => scope

end CommandScript
