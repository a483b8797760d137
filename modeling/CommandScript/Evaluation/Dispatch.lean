import CommandScript.Evaluation.Call

/-!
# Handling commands

A command goes to what its name stands for in a scope.  A target in front of a scope is tried first,
and only if it does not know the name is the scope asked.

Lists know `item` with one number and `items` with two, and records know `get` with a key.  Any
other command goes to the attribute with its name.
-/

namespace CommandScript.Evaluation

/-- The answer of what a command's name stands for, from a scope outwards. -/
def handleByName (e : Evaluator) (command : Command) (caller receiver : Scope)
    (wanted : Coercion) : Eval Value := do
  match ← Eval.lookup fun store => receiver.lookup store command.name with
  | some (value, owner) => callFound e command caller owner wanted value
  | none => Eval.failWith (.handlerNotFound command.name.text)

/-- The number of an item that an argument stands for. -/
def indexOf (e : Evaluator) (caller : Scope) (argument : Argument) : Eval Int64 := do
  match ← e.coerce .anything argument.value caller with
  | .text text =>
    match text.scalar.toInt64 with
    | .ok index => return index
    | .error problem => Eval.failWith (.constraint (.text text) (.scalar problem))
  | other => Eval.failWith (.constraint other .indexNotWhole)

/-- The failure of a command that needs one argument and has another number of them. -/
def needsOneArgument {α : Type} (command : Command) : Eval α := do
  let text ← Eval.read (commandText command)
  Eval.failWith
    (.unrecognizedArgument command.name.text 1 command.arguments.length text)

/-- The answer of a list to a command. -/
def handleList (e : Evaluator) (command : Command) (caller : Scope) (wanted : Coercion)
    (items : List Value) : Eval Value :=
  if command.name.key == "item" then
    match command.arguments with
    | [argument] => do
      let index ← indexOf e caller argument
      let answer ← Eval.ofExcept (listItem items index)
      e.coerce wanted answer caller
    | _ => needsOneArgument command
  else
    match command.name.key == "items", command.arguments with
    | true, [first, last] => do
      let first ← indexOf e caller first
      let last ← indexOf e caller last
      let answer ← Eval.ofExcept (listRange items first last)
      e.coerce wanted (.list answer) caller
    | _, _ => handleByName e command caller (.receiver (.list items)) wanted

/-- The value of a field, by the value of its key. -/
def fieldOf (record : Record) (keyValue : Value) : Eval Value :=
  match keyValue.toKey? with
  | none => Eval.failWith (.coercion keyValue .recordKey)
  | some key =>
    match record.get? key with
    | some value => return value
    | none => Eval.failWith (.valueNotFound key.content)

/-- The answer of a record to a command. -/
def handleRecord (e : Evaluator) (command : Command) (caller : Scope) (wanted : Coercion)
    (record : Record) : Eval Value :=
  if command.name.key == "get" then
    match command.arguments with
    | [argument] => do
      let keyValue ← e.coerce .recordKey argument.value caller
      let answer ← fieldOf record keyValue
      e.coerce wanted answer caller
    | _ => needsOneArgument command
  else
    handleByName e command caller (.receiver (.record record)) wanted

/-- The answer of a target to a command. -/
def handleTarget (e : Evaluator) (command : Command) (caller : Scope) (wanted : Coercion) :
    Target → Eval Value
  | .list items => handleList e command caller wanted items
  | .record record => handleRecord e command caller wanted record
  | .frame environment => handleByName e command caller (.frame environment) wanted

/-- The answer to a command in a scope. -/
def handle (e : Evaluator) (command : Command) (caller : Scope) (wanted : Coercion) :
    Scope → Eval Value
  | .frame environment => handleByName e command caller (.frame environment) wanted
  | .tell target parent =>
    Eval.recover (EvalError.isUnknownName command.name)
      (handleTarget e command caller wanted target)
      (handle e command caller wanted parent)
  | .receiver target => handleTarget e command caller wanted target
termination_by structural scope => scope

end CommandScript.Evaluation
