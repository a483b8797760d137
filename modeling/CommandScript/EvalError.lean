import CommandScript.Value.Display

/-!
# Errors of evaluation

An error is a failure and the failures that caused it.  Its message tells the oldest cause first.
A null failure means that there was no value, and can be recovered from.  No other can.

A failure holds the values it is about, and shows them when its message is asked for.  A command is
shown when the failure arises.
-/

namespace CommandScript

/-- What is wrong with a value that has the right form. -/
inductive Constraint where
  /-- The number of an item is out of range. -/
  | indexOutOfRange
  /-- The number of an item is no number. -/
  | indexNotWhole
  /-- A key occurs twice. -/
  | repeatedKey
  /-- The value has nothing to count. -/
  | uncountable
  /-- The list describes no parameter. -/
  | malformedParameter
  /-- The number can't be used. -/
  | scalar (problem : ScalarError)
  /-- A problem in words of its own. -/
  | stated (message : String)

/-- The wording of a problem. -/
def Constraint.message : Constraint → String
  | .indexOutOfRange => "Index is out of range"
  | .indexNotWhole => "Index must be a whole number"
  | .repeatedKey => "Record keys must be unique"
  | .uncountable => "Can’t count the items of"
  | .malformedParameter => "A parameter needs a name, an optional label and an optional coercion"
  | .scalar problem => problem.message
  | .stated message => message

/-- Why an evaluation failed. -/
inductive Failure where
  /-- A value can't be coerced. -/
  | coercion (value : Value) (wanted : Coercion)
  /-- There is no value to coerce. -/
  | nullCoercion (wanted : Coercion)
  /-- A value breaks a rule. -/
  | constraint (value : Value) (problem : Constraint)
  /-- A name has no value. -/
  | valueNotFound (name : String)
  /-- A name has no handler. -/
  | handlerNotFound (name : String)
  /-- A slot can't be changed. -/
  | readOnlyValue (name : String)
  /-- A handler failed on a command. -/
  | handlerFailed (handler command : String)
  /-- A parameter does not accept its argument. -/
  | badArgument (handler parameter : String) (argument : Value)
  /-- A command has arguments that no parameter takes. -/
  | unrecognizedArgument (handler : String) (expected received : Nat) (command : String)
  /-- A rule of the evaluator itself is broken. -/
  | internal (message : String)

/-- The wording of a failure. -/
def Failure.message (frames : FrameDescription) : Failure → String
  | .coercion value wanted =>
    "Can’t coerce the following " ++ value.noun ++ " to " ++ wanted.display frames ++ ": " ++
      value.display frames
  | .nullCoercion wanted => "Can’t coerce nothing to " ++ wanted.display frames ++ "."
  | .constraint value problem => problem.message ++ ": " ++ value.display frames
  | .valueNotFound name => "Can’t find a value named “" ++ name ++ "”."
  | .handlerNotFound name => "Can’t find a handler named “" ++ name ++ "”."
  | .readOnlyValue name => "Can’t replace the non-editable value named “" ++ name ++ "”."
  | .handlerFailed handler command =>
    "The ‘" ++ handler ++ "’ handler failed on the following command: " ++ command
  | .badArgument handler parameter argument =>
    "The ‘" ++ handler ++ "’ handler’s ‘" ++ parameter ++
      "’ parameter can’t accept the following argument: " ++ argument.display frames
  | .unrecognizedArgument handler expected received command =>
    "The ‘" ++ handler ++ "’ handler expected " ++ toString expected ++
      " parameters but received " ++ toString received ++ ": " ++ command
  | .internal message => "Internal error: " ++ message

/-- An error. -/
structure EvalError where
  /-- The failure itself. -/
  failure : Failure
  /-- What caused it, the nearest cause first. -/
  causes : List Failure

namespace EvalError

/-- An error without a cause. -/
def of (failure : Failure) : EvalError := ⟨failure, []⟩

/-- A failure caused by an error. -/
def caused (failure : Failure) (cause : EvalError) : EvalError :=
  ⟨failure, cause.failure :: cause.causes⟩

/-- The error of the direct cause. -/
def cause? (error : EvalError) : Option EvalError :=
  match error.causes with
  | [] => none
  | failure :: causes => some ⟨failure, causes⟩

/-- The failure that started it. -/
def origin (error : EvalError) : Failure := error.causes.getLastD error.failure

/-- Whether the error means only that there is no value. -/
def isAbsence (error : EvalError) : Bool :=
  match error.failure with
  | .nullCoercion _ => true
  | _ => false

/-- An error that can't be recovered from: the absence of a value becomes a failure to coerce it. -/
def permanent (value : Value) (wanted : Coercion) (error : EvalError) : EvalError :=
  if error.isAbsence then caused (.coercion value wanted) error else error

/-- Whether the error says, without a cause, that nothing has a given name. -/
def isUnknownName (name : Name) (error : EvalError) : Bool :=
  match error.failure with
  | .valueNotFound missing | .handlerNotFound missing =>
    error.causes.isEmpty && Text.lowercase missing == name.key
  | _ => false

/-- The wording of an error: the oldest cause first, each failure on a line of its own. -/
def message (frames : FrameDescription) (error : EvalError) : String :=
  "\n↳ ".intercalate ((error.failure :: error.causes).reverse.map (·.message frames))

end EvalError

end CommandScript
