import CommandScript.Bridge.Unbox
import CommandScript.Evaluation.Arguments

/-!
# What primitive handlers do

A primitive handler reads its arguments one after the other and answers a value.  Its parameters
have coerced them already, so most are only taken apart here.  A parameter for an expression gets
the code itself, which the handler evaluates as often as it needs.

`if`, `repeat` and `while` answer `didNothing` when their action never ran.  Only `else` looks for
it: it runs its first action, and takes the answer as it is unless it is `didNothing`.
-/

namespace CommandScript.Evaluation

/-- A call of a primitive handler. -/
structure Call where
  /-- The command that called. -/
  command : Command
  /-- The scope the command was written in. -/
  caller : Scope
  /-- The values of the parameters. -/
  arguments : List Value

namespace Call

/-- The value of a parameter by its number, from zero. -/
def argument (call : Call) (index : Nat) : Eval Value :=
  match call.arguments[index]? with
  | some value => return value
  | none => Eval.failWith (.internal "primitive read more arguments than it declares")

/-- The value of a parameter as a host value. -/
def read (e : Evaluator) (call : Call) (bridge : Bridge) (index : Nat) : Eval bridge.Host := do
  let value ← call.argument index
  bridge.unbox e call.caller value

end Call

/-- A number computed for a value, which a failure is about. -/
def answerScalar (subject : Value) : Except ScalarError Scalar → Eval Value
  | .ok scalar => return .ofScalar scalar
  | .error problem => Eval.failWith (.constraint subject (.scalar problem))

/-! ## Numbers, texts and truth values -/

/-- An operation on two numbers. -/
def computeNumbers (e : Evaluator) (call : Call) (operation : NumberOperation) : Eval Value := do
  let left ← call.read e .scalar 0
  let right ← call.read e .scalar 1
  answerScalar (.command call.command) (operation.apply left right)

/-- The number with the other sign. -/
def negate (e : Evaluator) (call : Call) : Eval Value := do
  let right ← call.read e .scalar 0
  answerScalar (.ofScalar right) right.neg

/-- A comparison of two numbers. -/
def testNumbers (e : Evaluator) (call : Call) (test : Comparison) : Eval Value := do
  let left ← call.read e .scalar 0
  let right ← call.read e .scalar 1
  match left.compareTo right with
  | .ok ordering => return .boolean (test.accepts ordering)
  | .error problem => Eval.failWith (.constraint (.command call.command) (.scalar problem))

/-- A comparison of two texts in small letters. -/
def testTexts (e : Evaluator) (call : Call) (test : Comparison) : Eval Value := do
  let left ← call.read e .text 0
  let right ← call.read e .text 1
  return .boolean (test.accepts (compare (Text.lowercase left) (Text.lowercase right)))

/-- A text changed as a whole. -/
def mapText (e : Evaluator) (call : Call) (change : String → String) : Eval Value := do
  let content ← call.read e .text 0
  return .ofString (change content)

/-- How many items, fields or characters a value has. -/
def countOf : Value → Eval Nat
  | .list items => return items.length
  | .record record => return record.size
  | .text text => return text.content.length
  | .tag name => return name.text.length
  | other => Eval.failWith (.constraint other .uncountable)

/-- How a value is printed: a text as it is, and any other value as code. -/
def printedText (value : Value) (store : Store) : String :=
  match value with
  | .text text => text.content
  | other => other.display store.describe

/-! ## Loops -/

/-- An action run a number of times, and the last answer. -/
def repeatLoop (action : Eval Value) : (count : Nat) → (last : Value) → Eval Value
  | 0, last => return last
  | count + 1, _ => do
    let answer ← action
    repeatLoop action count answer

/-- An action run as long as a condition holds, and the last answer.  The fuel is how often the loop
may go round. -/
def whileLoop (condition : Eval Bool) (action : Eval Value) :
    (fuel : Nat) → (last : Value) → Eval Value
  | 0, _ => Eval.exhausted
  | fuel + 1, last => do
    let holds ← condition
    if holds then
      let answer ← action
      whileLoop condition action fuel answer
    else
      return last

/-! ## Storing and defining -/

/-- A value stored under a name in the caller's scope. -/
def storeValue (e : Evaluator) (call : Call) : Eval Value := do
  let name ← call.read e .text 0
  let value ← call.read e .value 1
  let readOnly ← call.read e .bool 2
  Eval.change fun store => call.caller.put (.ofString name) value readOnly store
  return value

/-- A handler defined in the caller's scope. -/
def defineHandler (e : Evaluator) (call : Call) : Eval Value := do
  let text ← call.read e .text 0
  let parameters ← call.read e (.list .parameter) 1
  let returns ← call.read e .coercion 2
  let action ← call.read e .expression 3
  let isEvent ← call.read e .bool 4
  let name := Name.ofString text
  let id ← Eval.make Store.newId
  let handler := Value.handler (.native id ⟨name, parameters, returns⟩ action isEvent)
  Eval.change fun store => call.caller.put name handler true store
  return handler

/-! ## Coercing -/

/-- Whether an error says that a value is not of the wanted kind. -/
def isRefusal (error : EvalError) : Bool :=
  match error.failure with
  | .coercion .. | .nullCoercion _ | .constraint .. => true
  | _ => false

/-- Whether a value can be coerced. -/
def testCoercion (e : Evaluator) (call : Call) : Eval Value := do
  let value ← call.read e .expression 0
  let wanted ← call.read e .coercion 1
  Eval.recover isRefusal
    (do let _ ← e.coerce wanted value call.caller; return .boolean true)
    (Eval.done (.boolean false))

/-! ## Reading arguments -/

/-- An argument read through a bridge and boxed again, or taken as it is. -/
def readThrough (e : Evaluator) (call : Call) (index : Nat) : Option Bridge → Eval Value
  | none => call.argument index
  | some bridge => do
    let host ← call.read e bridge index
    return bridge.box host

/-- Arguments read one after the other, from a given one on. -/
def collect (e : Evaluator) (call : Call) : (index : Nat) → List (Option Bridge) → Eval (List Value)
  | _, [] => return []
  | index, read :: reads => do
    let value ← readThrough e call index read
    let values ← collect e call (index + 1) reads
    return value :: values

/-! ## All of them -/

/-- What a primitive handler answers to a call. -/
def perform (e : Evaluator) (call : Call) : Primitive → Eval Value
  | .number operation => computeNumbers e call operation
  | .positive => do
    let right ← call.read e .scalar 0
    return .ofScalar right
  | .negative => negate e call
  | .testNumbers test => testNumbers e call test
  | .testTexts test => testTexts e call test
  | .not => do
    let right ← call.read e .bool 0
    return .boolean !right
  | .logic connective => do
    let left ← call.read e .bool 0
    let right ← call.read e .bool 1
    return .boolean (connective.apply left right)
  | .uppercase => mapText e call Text.uppercase
  | .lowercase => mapText e call Text.lowercase
  | .join => do
    let left ← call.read e .text 0
    let right ← call.read e .text 1
    return .ofString (left ++ right)
  | .count => do
    let value ← call.read e .value 0
    let count ← countOf value
    return .ofCount count
  | .show => do
    let value ← call.argument 0
    let line ← Eval.read (printedText value)
    Eval.print line
    return .nothing
  | .formatCode => do
    let value ← call.argument 0
    let code ← Eval.read fun store => value.display store.describe
    return .ofString code
  | .ifThen => do
    let condition ← call.read e .bool 0
    let action ← call.read e .expression 1
    if condition then e.coerce .anything action call.caller else return .didNothing
  | .orElse => do
    let action ← call.read e .expression 0
    let alternative ← call.read e .expression 1
    match ← e.run action call.caller with
    | .didNothing => e.coerce .anything alternative call.caller
    | answer => return answer
  | .repeatTimes => do
    let count ← call.read e .integer 0
    let action ← call.read e .expression 1
    repeatLoop (e.coerce .anything action call.caller) count.toInt.toNat .didNothing
  | .whileDo => do
    let condition ← call.read e .expression 0
    let action ← call.read e .expression 1
    whileLoop (Bridge.bool.unbox e call.caller condition)
      (e.coerce .anything action call.caller) e.rounds .didNothing
  | .tell => do
    let reference ← call.read e .reference 0
    let action ← call.read e .expression 1
    e.coerce .anything action (.tell reference.target call.caller)
  | .store => storeValue e call
  | .defineHandler => defineHandler e call
  | .coerce => do
    let value ← call.read e .expression 0
    let wanted ← call.read e .coercion 1
    e.coerce wanted value call.caller
  | .isA => testCoercion e call
  | .collect reads => do
    let values ← collect e call 0 reads
    return .list values

end CommandScript.Evaluation
