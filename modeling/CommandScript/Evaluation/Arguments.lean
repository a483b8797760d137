import CommandScript.Eval

/-!
# Matching arguments to parameters

Parameters are matched in order, and only the first argument that is left is ever looked at.  It is
taken if it has no label or the parameter's.  If it is not taken, this parameter and all after it go
without an argument, since a later match would change the order.  A parameter without an argument
gets nothing, coerced.

Arguments are evaluated where the command was written.  Arguments that are left over are an error,
except for event handlers.
-/

namespace CommandScript.Evaluation

/-- Whether an argument can go to a parameter. -/
def argumentFits (argument : Argument) (parameter : Parameter) : Bool :=
  match argument.label with
  | none => true
  | some label => label == parameter.label

/-- The expression for the next parameter, the arguments left, and whether matching goes on. -/
def nextArgument (parameter : Parameter) (matching : Bool) :
    List Argument → Value × List Argument × Bool
  | [] => (.nothing, [], false)
  | argument :: rest =>
    if matching && argumentFits argument parameter then (argument.value, rest, true)
    else (.nothing, argument :: rest, false)

/-- The values of parameters, and the arguments left over. -/
def bindParameters (e : Evaluator) (handler : Name) (caller : Scope) :
    List Parameter → (matching : Bool) → List Argument → Eval (List Value × List Argument)
  | [], _, arguments => return ([], arguments)
  | parameter :: parameters, matching, arguments => do
    let (expression, arguments, matching) := nextArgument parameter matching arguments
    let value ← (e.coerce parameter.coercion expression caller).mapError
      (.caused (.badArgument handler.text parameter.label.text expression))
    let (values, arguments) ← bindParameters e handler caller parameters matching arguments
    return (value :: values, arguments)

/-- A command as code. -/
def commandText (command : Command) (store : Store) : String := command.display store.describe

/-- The values of a handler's parameters. -/
def bindArguments (e : Evaluator) (interface : Interface) (command : Command) (caller : Scope)
    (isEvent : Bool) : Eval (List Value) := do
  let (values, leftOver) ←
    bindParameters e interface.name caller interface.parameters true command.arguments
  if isEvent || leftOver.isEmpty then return values
  else
    let text ← Eval.read (commandText command)
    Eval.failWith (.unrecognizedArgument interface.name.text interface.parameters.length
      command.arguments.length text)

end CommandScript.Evaluation
