import CommandScript.Scope

/-!
# Evaluations

An evaluation starts from a store and ends in one of three ways.  It gives a result, it fails with
an error, or it runs out of fuel.  In the first two cases the store it reached comes along: what
was stored or printed before a failure stays so.

Evaluating a value may evaluate any other, so the rules are written for a given evaluator, which
knows how to coerce and to run the values inside.  The evaluators are tied together at the end, one
for each amount of fuel.
-/

namespace CommandScript

/-- How an evaluation ended. -/
inductive Outcome (α : Type) where
  /-- With a result. -/
  | done (result : α) (store : Store)
  /-- With an error. -/
  | failed (error : EvalError) (store : Store)
  /-- Without an answer, for lack of fuel. -/
  | outOfFuel

/-- An evaluation. -/
def Eval (α : Type) : Type := Store → Outcome α

namespace Eval

/-- The evaluation that gives a result at once. -/
@[always_inline, inline] def done {α : Type} (result : α) : Eval α := fun store =>
  .done result store

/-- One evaluation after another. -/
@[always_inline, inline] def andThen {α β : Type} (first : Eval α) (next : α → Eval β) : Eval β :=
  fun store =>
    match first store with
    | .done result store => next result store
    | .failed error store => .failed error store
    | .outOfFuel => .outOfFuel

instance : Monad Eval where
  pure := done
  bind := andThen

/-- The evaluation that fails. -/
@[always_inline, inline] def fail {α : Type} (error : EvalError) : Eval α := fun store =>
  .failed error store

/-- The evaluation that fails without a cause. -/
@[always_inline, inline] def failWith {α : Type} (failure : Failure) : Eval α := fail (.of failure)

/-- The evaluation that has no fuel. -/
def exhausted {α : Type} : Eval α := fun _ => .outOfFuel

/-- A result that is already there, or an error. -/
def ofExcept {α : Type} : Except EvalError α → Eval α
  | .ok result => done result
  | .error error => fail error

/-- What can be read off the store. -/
@[always_inline, inline] def read {α : Type} (look : Store → α) : Eval α := fun store =>
  .done (look store) store

/-- What can be looked up in the store. -/
@[always_inline, inline] def lookup {α : Type} (look : Store → Except EvalError α) : Eval α :=
  fun store =>
    match look store with
    | .ok result => .done result store
    | .error error => .failed error store

/-- A change of the store that may be refused. -/
@[always_inline, inline] def change (update : Store → Except EvalError Store) : Eval Unit :=
  fun store =>
    match update store with
    | .ok store => .done () store
    | .error error => .failed error store

/-- A change of the store that makes something. -/
@[always_inline, inline] def make {α : Type} (update : Store → α × Store) : Eval α := fun store =>
  let (result, store) := update store
  .done result store

/-- A line to print. -/
def print (line : String) : Eval Unit := fun store => .done () (store.print line)

/-- An evaluation whose error, if it has one, is told differently. -/
@[always_inline, inline] def mapError {α : Type} (retell : EvalError → EvalError)
    (action : Eval α) : Eval α :=
  fun store =>
    match action store with
    | .done result store => .done result store
    | .failed error store => .failed (retell error) store
    | .outOfFuel => .outOfFuel

/-- An evaluation whose error, if it has one, causes a failure.  The failure is told in view of the
store that was reached. -/
@[always_inline, inline] def causing {α : Type} (tell : Store → Failure) (action : Eval α) :
    Eval α :=
  fun store =>
    match action store with
    | .done result store => .done result store
    | .failed error store => .failed (.caused (tell store) error) store
    | .outOfFuel => .outOfFuel

/-- An evaluation, and another one in place of certain errors. -/
@[always_inline, inline] def recover {α : Type} (catches : EvalError → Bool) (action : Eval α)
    (instead : Eval α) : Eval α :=
  fun store =>
    match action store with
    | .done result store => .done result store
    | .failed error store => if catches error then instead store else .failed error store
    | .outOfFuel => .outOfFuel

/-- An evaluation for each of some things, in order. -/
def forEach {α β : Type} (action : α → Eval β) : List α → Eval (List β)
  | [] => done []
  | a :: rest => do
    let b ← action a
    let others ← forEach action rest
    return b :: others

end Eval

/-- How values are evaluated. -/
structure Evaluator where
  /-- A value coerced in a scope. -/
  coerce : Coercion → Value → Scope → Eval Value
  /-- A value run in a scope, its result as it is. -/
  run : Value → Scope → Eval Value
  /-- How often a loop may go round. -/
  rounds : Nat

end CommandScript
