import CommandScript.Evaluation.Primitive

/-!
# Calling

A call has two scopes.  The caller is where the command was written, and arguments are evaluated
there.  The owner is where the handler was found, and the body of a handler runs in a new frame in
front of it, in which the parameters have their values.

Whatever is called, its answer is coerced to what the caller wants.  A plain value answers a command
without arguments with itself.
-/

namespace CommandScript.Evaluation

/-- Parameters defined in a frame. -/
def defineParameters (body : Environment) : List Parameter → List Value → Eval Unit
  | parameter :: parameters, value :: values => do
    Eval.change (body.define parameter.binding value false)
    defineParameters body parameters values
  | _, _ => return ()

/-- The failure of a handler on a command. -/
def handlerFailure (name : Name) (command : Command) (store : Store) : Failure :=
  .handlerFailed name.text (commandText command store)

/-- The answer of a handler to a command. -/
def callHandler (e : Evaluator) (command : Command) (caller owner : Scope) (wanted : Coercion) :
    Handler → Eval Value
  | .native _ interface action isEvent => do
    let values ← bindArguments e interface command caller isEvent
    let body ← Eval.make owner.child
    defineParameters body interface.parameters values
    let answer ← (e.coerce interface.returns action (.frame body)).causing
      (handlerFailure interface.name command)
    e.coerce wanted answer caller
  | .primitive _ interface body => do
    let values ← bindArguments e interface command caller false
    let answer ← (perform e ⟨command, caller, values⟩ body).causing
      (handlerFailure interface.name command)
    e.coerce wanted answer caller

/-- The coercion a value must be. -/
def coercionOf : Value → Eval Coercion
  | .coercion given => return given
  | other => Eval.failWith (.coercion other .coercion)

/-- What a coercion makes of the values of its parameters. -/
def applyCoercion : Coercion → List Value → Eval Value
  | .list _, [item] => do return .coercion (.list (← coercionOf item))
  | .record _, [field] => do return .coercion (.record (← coercionOf field))
  | .optional _, [inner] => do return .coercion (.optional (← coercionOf inner))
  | .lazy _, [inner] => do return .coercion (.lazy (← coercionOf inner))
  | .default .., [fallback, inner] => do
    return .coercion (.default fallback (← coercionOf inner))
  | _, [value] => return value
  | _, _ => Eval.failWith (.internal "coercion interface mismatch")

/-- The answer of a coercion to a command. -/
def callCoercion (e : Evaluator) (command : Command) (caller : Scope) (wanted : Coercion)
    (callee : Coercion) : Eval Value := do
  let values ← bindArguments e callee.interface command caller false
  let answer ← applyCoercion callee values
  e.coerce wanted answer caller

/-- The answer of whatever a command's name stands for. -/
def callFound (e : Evaluator) (command : Command) (caller owner : Scope) (wanted : Coercion)
    (callee : Value) : Eval Value :=
  match callee with
  | .handler handler => callHandler e command caller owner wanted handler
  | .closure handler scope => callHandler e command caller scope wanted handler
  | .coercion given =>
    if command.arguments.isEmpty then e.coerce wanted callee caller
    else callCoercion e command caller wanted given
  | _ =>
    if command.arguments.isEmpty then e.coerce wanted callee caller
    else Eval.failWith (.handlerNotFound command.name.text)

end CommandScript.Evaluation
