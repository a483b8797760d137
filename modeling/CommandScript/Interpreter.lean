import CommandScript.Evaluation
import CommandScript.Library
import CommandScript.Parser

/-!
# The interpreter

An interpreter has a registry of operators, a frame of globals in front of a root frame, and a
store.  The scripts it runs share the globals, so what one script stores is there for the next.

A script is read as a whole before any of it runs.  When a script fails, what it stored and printed
before stays.
-/

namespace CommandScript

/-! ## Errors of scripts -/

/-- Why a script failed. -/
inductive ScriptError where
  /-- It can't be read. -/
  | syntactic (problem : SyntaxError)
  /-- It can't be evaluated. -/
  | evaluation (problem : EvalError)
  /-- There is no library to run it with. -/
  | library (problem : LibraryError)

namespace ScriptError

/-- The wording of an error. -/
def message (frames : FrameDescription) : ScriptError → String
  | .syntactic problem => "Syntax error: " ++ problem.message
  | .evaluation problem => problem.message frames
  | .library problem => "Can’t load the standard library: " ++ problem.message frames

/-- The wording of an error for a user, who is shown the place of a syntax error. -/
def render (frames : FrameDescription) (source : String) : ScriptError → String
  | .syntactic problem => "Syntax error at " ++ problem.render source
  | other => other.message frames

end ScriptError

/-! ## Interpreters -/

/-- The state of an interpreter. -/
structure Interpreter where
  /-- Its operators. -/
  registry : Registry
  /-- The frame that scripts run in. -/
  globals : Environment
  /-- Its store. -/
  store : Store

/-- How a script ended. -/
inductive ScriptOutcome where
  /-- With a result. -/
  | done (result : Value) (after : Interpreter)
  /-- With an error. -/
  | failed (error : ScriptError) (after : Interpreter)
  /-- Without an answer, for lack of fuel. -/
  | outOfFuel

namespace Interpreter

/-- The interpreter with a new frame of globals in front of a root frame. -/
def ofRoot (registry : Registry) (root : Environment) (store : Store) : Interpreter :=
  let (globals, store) := (Scope.frame root).child store
  ⟨registry, globals, store⟩

/-- The interpreter without a library. -/
def bare (root : Environment) (store : Store) : Interpreter := ofRoot .empty root store

/-- The interpreter with the library loaded into a root frame. -/
def withLibrary (root : Environment) (store : Store) : Except LibraryError Interpreter :=
  let loading := Library.load root .empty store
  match loading.failure with
  | some problem => .error problem
  | none => .ok (ofRoot loading.registry root loading.store)

/-- The interpreter with the library in a new root frame. -/
def standard : Except LibraryError Interpreter :=
  let (root, store) := Store.empty.newRoot
  withLibrary root store

/-- A script that was read, run in the globals. -/
def runScript (fuel : Nat) (interpreter : Interpreter) (statements : List Value) : ScriptOutcome :=
  match Evaluation.coerce fuel .anything (.block statements) (.frame interpreter.globals)
      interpreter.store with
  | .done result store => .done result { interpreter with store := store }
  | .failed problem store => .failed (.evaluation problem) { interpreter with store := store }
  | .outOfFuel => .outOfFuel

/-- A source text read and run. -/
def evaluate (fuel : Nat) (interpreter : Interpreter) (source : String) : ScriptOutcome :=
  match readScript interpreter.registry source with
  | .error problem => .failed (.syntactic problem) interpreter
  | .ok statements => interpreter.runScript fuel statements

/-- What scripts have printed so far. -/
def printed (interpreter : Interpreter) : String := interpreter.store.printed.getD ""

/-- An error of a script, for a user. -/
def render (interpreter : Interpreter) (source : String) (error : ScriptError) : String :=
  error.render interpreter.store.describe source

end Interpreter

end CommandScript
