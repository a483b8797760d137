import CommandScript.EvalError

/-!
# The store

A store holds the slots of every frame and what was printed.  It also counts the thunks, handlers
and references made so far, so that each gets a number of its own.

A slot keeps the spelling of its first definition.  A slot that is read-only never changes again.
-/

namespace CommandScript

/-- A named place for a value. -/
structure Slot where
  /-- Its name, as first written. -/
  name : Name
  /-- The value in it. -/
  value : Value
  /-- Whether it can't be changed. -/
  readOnly : Bool

/-- The slots of a frame, in the order they were made. -/
abbrev Frame := List Slot

namespace Frame

/-- The slot with a given name. -/
def slot? (frame : Frame) (name : Name) : Option Slot := frame.find? fun slot => slot.name == name

/-- Whether there is a slot with a given name. -/
def holds (frame : Frame) (name : Name) : Bool := (frame.slot? name).isSome

/-- The frame with a value in the slot with a given name, which is made if there is none. -/
def put (name : Name) (value : Value) (readOnly : Bool) : Frame → Frame
  | [] => [⟨name, value, readOnly⟩]
  | slot :: slots =>
    if slot.name == name then ⟨slot.name, value, readOnly⟩ :: slots
    else slot :: put name value readOnly slots

/-- The names of the slots, ordered by their keys. -/
def names (frame : Frame) : List Name :=
  (frame.map Slot.name).mergeSort fun a b => decide (a.key ≤ b.key)

end Frame

/-- The state of an evaluation. -/
structure Store where
  /-- The frames, by their numbers. -/
  frames : Array Frame
  /-- What was printed, or nothing if printing is switched off. -/
  printed : Option String
  /-- The next number for a thunk, handler or reference. -/
  nextId : Nat

namespace Store

/-- The store without frames. -/
def empty : Store := ⟨#[], some "", 0⟩

/-- The store without frames, where nothing is printed. -/
def silent : Store := ⟨#[], none, 0⟩

/-- The slots of a frame. -/
def frame (store : Store) (id : Nat) : Frame := store.frames[id]?.getD []

/-- The store with one more frame, and the number of that frame. -/
def newFrame (store : Store) : Nat × Store :=
  (store.frames.size, { store with frames := store.frames.push [] })

/-- The store with one number used up, and that number. -/
def newId (store : Store) : Nat × Store :=
  (store.nextId, { store with nextId := store.nextId + 1 })

/-- The store with a value in a slot of a frame. -/
def put (store : Store) (id : Nat) (name : Name) (value : Value) (readOnly : Bool) : Store :=
  { store with frames := store.frames.modify id (Frame.put name value readOnly) }

/-- The store after a line was printed. -/
def print (store : Store) (line : String) : Store :=
  { store with printed := store.printed.map (· ++ line ++ "\n") }

/-- A frame in words: its depth and how many slots it has. -/
def describe (store : Store) : FrameDescription := fun environment =>
  "Environment \x7b depth: " ++ toString environment.depth ++ ", slots: " ++
    toString (store.frame environment.id).length ++ ", .. \x7d"

end Store

/-! ## Making and changing slots -/

mutual

/-- The nearest frame that holds a name, from a frame outwards. -/
def Environment.owner? (store : Store) (name : Name) : Environment → Option Nat
  | .root id => if (store.frame id).holds name then some id else none
  | .child id parent =>
    if (store.frame id).holds name then some id else parent.owner? store name
termination_by structural environment => environment

/-- The nearest frame that holds a name, from a scope outwards.  A target in front of a scope is
passed over, and a target alone ends the search. -/
def Scope.owner? (store : Store) (name : Name) : Scope → Option Nat
  | .frame environment => environment.owner? store name
  | .tell _ parent => parent.owner? store name
  | .receiver _ => none
termination_by structural scope => scope

end

namespace Environment

/-- The store with a value assigned to a name.  It goes into the nearest frame that holds the name,
or into this frame if none does.  Only this frame is looked at if asked for. -/
def assign (environment : Environment) (name : Name) (value : Value) (readOnly : Bool)
    (thisFrameOnly : Bool) (store : Store) : Except EvalError Store :=
  let owner :=
    if thisFrameOnly then environment.id
    else (environment.owner? store name).getD environment.id
  match (store.frame owner).slot? name with
  | some slot =>
    if slot.readOnly then .error (.of (.readOnlyValue name.text))
    else .ok (store.put owner name value readOnly)
  | none => .ok (store.put owner name value readOnly)

/-- The store with a slot made or changed in this frame. -/
def define (environment : Environment) (name : Name) (value : Value) (readOnly : Bool)
    (store : Store) : Except EvalError Store :=
  environment.assign name value readOnly true store

/-- The store with a read-only slot for a handler, under the handler's name. -/
def installHandler (environment : Environment) (handler : Handler) (store : Store) :
    Except EvalError Store :=
  environment.define handler.interface.name (.handler handler) true store

/-- The store with a read-only slot for a coercion, under the coercion's name. -/
def installCoercion (environment : Environment) (added : Coercion) (store : Store) :
    Except EvalError Store :=
  environment.define (.ofString added.name) (.coercion added) true store

end Environment

/-- The store with one more frame in front of a scope, and that frame. -/
def Scope.child (scope : Scope) (store : Store) : Environment × Store :=
  let (id, store) := store.newFrame
  (.child id scope, store)

/-- The store with one more frame that has nothing behind it, and that frame. -/
def Store.newRoot (store : Store) : Environment × Store :=
  let (id, store) := store.newFrame
  (.root id, store)

end CommandScript
