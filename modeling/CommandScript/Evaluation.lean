import CommandScript.Evaluation.Conversion
import CommandScript.Evaluation.Dispatch

/-!
# Evaluation

Evaluating a value means coercing it.  An expression runs first, and what it answers is coerced.

* An identifier stands for the value of its name.
* A command goes to its handler.
* A block runs its expressions in order and answers the last.
* A thunk is evaluated in the scope it was written in.

Nothing can't be coerced, and the error says so in a way that can be recovered from.  `anything` and
`value` recover with nothing, `optional` too, and `default` with another value.

`coerce` and `run` tie the rules together.  Every coercion of a value inside another uses up a unit
of fuel.
-/

namespace CommandScript.Evaluation

/-- The expressions of a block run in order, and the last answer coerced. -/
def runStatements (e : Evaluator) (scope : Scope) (wanted : Coercion) : List Value → Eval Value
  | [] => e.coerce wanted .nothing scope
  | [last] => do
    let answer ← e.run last scope
    e.coerce wanted answer scope
  | item :: items => do
    let _ ← e.coerce .anything item scope
    runStatements e scope wanted items

/-- An expression run and its answer coerced, or something else for any other value. -/
def runOr (e : Evaluator) (scope : Scope) (wanted : Coercion) (value : Value)
    (otherwise : Eval Value) : Eval Value :=
  match value with
  | .identifier name => do
    let found ← Eval.lookup fun store => scope.get store name
    e.coerce wanted found scope
  | .command command => handle e command scope wanted scope
  | .block items => runStatements e scope wanted items
  | .thunk _ body captured inner => do
    let answer ← e.coerce inner body captured
    e.coerce wanted answer scope
  | _ => otherwise

/-- A value run, its answer as it is. -/
def runWith (e : Evaluator) (value : Value) (scope : Scope) : Eval Value :=
  runOr e scope .expression value (Eval.done value)

/-- An expression run and its answer coerced, nothing refused, and any other value converted. -/
def runOrConvert (e : Evaluator) (scope : Scope) (wanted : Coercion) (value : Value)
    (convert : Value → Eval Value) : Eval Value :=
  runOr e scope wanted value
    (if value.isNothing then Eval.failWith (.nullCoercion wanted) else convert value)

/-- `nothing` in place of `didNothing`. -/
def collapse : Value → Value
  | .didNothing => .nothing
  | other => other

/-- A value coerced to anything at all. -/
def coerceAnything (e : Evaluator) (wanted : Coercion) (value : Value) (scope : Scope) :
    Eval Value :=
  Eval.recover EvalError.isAbsence
    (do
      let answer ← runOrConvert e scope wanted value (asAnything e scope wanted)
      return collapse answer)
    (Eval.done .nothing)

/-- A value coerced. -/
def coerceWith (e : Evaluator) (wanted : Coercion) (value : Value) (scope : Scope) : Eval Value :=
  match wanted with
  | .expression => return value
  | .lazy inner => do
    let id ← Eval.make Store.newId
    return .thunk id value scope inner
  | .anything => coerceAnything e .anything value scope
  | .value => coerceAnything e .value value scope
  | .optional inner =>
    Eval.recover EvalError.isAbsence (e.coerce inner value scope) (Eval.done .nothing)
  | .default fallback inner =>
    Eval.recover EvalError.isAbsence (e.coerce inner value scope) (Eval.done fallback)
  | .noResult => do
    let _ ← e.coerce .anything value scope
    return .nothing
  | .boolean => runOrConvert e scope wanted value asBoolean
  | .text => runOrConvert e scope wanted value asText
  | .number => runOrConvert e scope wanted value (asNumber .number)
  | .real => runOrConvert e scope wanted value (asNumber .real)
  | .integer => runOrConvert e scope wanted value asInteger
  | .tag => runOrConvert e scope wanted value asTag
  | .recordKey => runOrConvert e scope wanted value asRecordKey
  | .list item => runOrConvert e scope wanted value (asList e scope item)
  | .record field => runOrConvert e scope wanted value (asRecord e scope field)
  | .coercion => runOrConvert e scope wanted value asCoercion
  | .handler => runOrConvert e scope wanted value asCallable
  | .reference => runOr e scope wanted value (asTarget e scope value)

mutual

/-- A value coerced in a scope, with a given amount of fuel. -/
def coerce : (fuel : Nat) → Coercion → Value → Scope → Eval Value
  | 0, _, _, _ => Eval.exhausted
  | fuel + 1, wanted, value, scope =>
    coerceWith ⟨coerce fuel, run fuel, fuel⟩ wanted value scope
termination_by structural fuel => fuel

/-- A value run in a scope, its answer as it is, with a given amount of fuel. -/
def run : (fuel : Nat) → Value → Scope → Eval Value
  | 0, _, _ => Eval.exhausted
  | fuel + 1, value, scope => runWith ⟨coerce fuel, run fuel, fuel⟩ value scope
termination_by structural fuel => fuel

end

/-- The evaluator with a given amount of fuel. -/
def evaluator (fuel : Nat) : Evaluator := ⟨coerce fuel, run fuel, fuel⟩

end CommandScript.Evaluation
