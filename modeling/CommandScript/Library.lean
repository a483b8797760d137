import CommandScript.Library.Handlers
import CommandScript.Library.Operators
import CommandScript.Library.Values
import CommandScript.Store

/-!
# Loading the library

The library goes into a registry and into a root frame: its operators into the one, its handlers,
coercions and constants into the other, all of them read-only.  Loading stops at the first thing
that can't be added.  What was added before stays.
-/

namespace CommandScript

/-- Why the library was not loaded. -/
inductive LibraryError where
  /-- An operator can't be registered. -/
  | operator (problem : RegistrationError)
  /-- A name can't be defined. -/
  | definition (problem : EvalError)

/-- The wording of an error. -/
def LibraryError.message (frames : FrameDescription) : LibraryError → String
  | .operator problem => "Can’t register operator: " ++ problem.message
  | .definition problem => "Can’t define library value: " ++ problem.message frames

namespace Library

/-- A change of the store that may be refused. -/
abbrev Change := Store → Except EvalError Store

/-- A handler added to a frame, with a number of its own. -/
def installHandler (root : Environment) (definition : Definition) : Change := fun store =>
  let (id, store) := store.newId
  root.installHandler (.primitive id definition.interface definition.body) store

/-- A read-only value added to a frame under a name. -/
def addValue (root : Environment) (name : String) (value : Value) : Change :=
  root.define (.ofString name) value true

/-- Everything but the operators, in the order it is added to a frame. -/
def changes (root : Environment) : List Change :=
  handlers.map (installHandler root) ++
    namedCoercions.map (fun (name, c) => addValue root name (.coercion c)) ++
    constants.map (fun (name, value) => addValue root name value)

/-- The store after changes in order, up to the first that is refused, and why it is. -/
def applyChanges : List Change → Store → Store × Option EvalError
  | [], store => (store, none)
  | change :: rest, store =>
    match change store with
    | .ok store => applyChanges rest store
    | .error problem => (store, some problem)

/-- How loading ended. -/
structure Loading where
  /-- The registry that was reached. -/
  registry : Registry
  /-- The store that was reached. -/
  store : Store
  /-- Why loading stopped before the end, if it did. -/
  failure : Option LibraryError

/-- The library loaded into a registry and a root frame. -/
def load (root : Environment) (registry : Registry) (store : Store) : Loading :=
  match registry.addAll operators with
  | .error problem => ⟨registry, store, some (.operator problem)⟩
  | .ok registry =>
    let (store, failure) := applyChanges (changes root) store
    ⟨registry, store, failure.map .definition⟩

end Library

end CommandScript
