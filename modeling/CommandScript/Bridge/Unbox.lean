import CommandScript.Bridge.Host
import CommandScript.Eval

/-!
# From values to host values

A value is coerced first, so a bridge accepts what its coercion accepts.

A parameter is described by its name, or by a list with the name, with the name and a coercion, or
with a label, the name and a coercion.
-/

namespace CommandScript.Bridge

/-- The failure of a coerced value to be what was wanted. -/
def mismatch {α : Type} (given : Value) (wanted : Coercion) : Eval α :=
  Eval.failWith (.coercion given wanted)

/-- A use of a number that may be refused. -/
def useScalar {α : Type} (t : TextValue) : Except ScalarError α → Eval α
  | .ok number => return number
  | .error problem => Eval.failWith (.constraint (.text t) (.scalar problem))

/-- The name in the description of a parameter. -/
def parameterName : Value → Eval Name
  | .text t => if t.isEmpty then mismatch (.text t) .text else return .ofString t.content
  | .tag name => return name
  | other => mismatch other .text

/-- A coercion on the host side. -/
def unboxCoercion (e : Evaluator) (scope : Scope) (given : Value) : Eval Coercion := do
  match ← e.coerce .coercion given scope with
  | .coercion host => return host
  | other => mismatch other .coercion

/-- A parameter on the host side. -/
def unboxParameter (e : Evaluator) (scope : Scope) (given : Value) : Eval Parameter := do
  match ← e.coerce .value given scope with
  | .list [binding] =>
    let name ← parameterName binding
    return .ofName name .anything
  | .list [binding, type] =>
    let name ← parameterName binding
    let wanted ← unboxCoercion e scope type
    return .ofName name wanted
  | .list [label, binding, type] =>
    let label ← parameterName label
    let binding ← parameterName binding
    let wanted ← unboxCoercion e scope type
    return ⟨label, binding, wanted⟩
  | .list items => Eval.failWith (.constraint (.list items) .malformedParameter)
  | other =>
    let name ← parameterName other
    return .ofName name .anything

/-- A target on the host side.  A list or record becomes a new reference. -/
def unboxReference (e : Evaluator) (scope : Scope) (given : Value) : Eval Reference := do
  match ← e.coerce .reference given scope with
  | .nothing | .didNothing => Eval.failWith (.nullCoercion .reference)
  | .reference id target => return ⟨id, target⟩
  | .list items =>
    let id ← Eval.make Store.newId
    return ⟨id, .list items⟩
  | .record record =>
    let id ← Eval.make Store.newId
    return ⟨id, .record record⟩
  | other => mismatch other .reference

/-- The host value of a value. -/
def unbox (e : Evaluator) (scope : Scope) : (b : Bridge) → Value → Eval b.Host
  | .bool, given => do
    match ← e.coerce .boolean given scope with
    | .boolean flag => return flag
    | other => mismatch other .boolean
  | .text, given => do
    match ← e.coerce .text given scope with
    | .text t => return t.content
    | other => mismatch other .text
  | .scalar, given => do
    match ← e.coerce .number given scope with
    | .text t => return t.scalar
    | other => mismatch other .number
  | .integer, given => do
    match ← e.coerce .integer given scope with
    | .text t => useScalar t t.scalar.toInt64
    | other => mismatch other .integer
  | .real, given => do
    match ← e.coerce .real given scope with
    | .text t => useScalar t t.scalar.toFloat
    | other => mismatch other .real
  | .tag, given => do
    match ← e.coerce .tag given scope with
    | .tag name => return name
    | other => mismatch other .tag
  | .value, given => e.coerce .value given scope
  | .expression, given => Eval.done given
  | .coercion, given => unboxCoercion e scope given
  | .reference, given => unboxReference e scope given
  | .parameter, given => unboxParameter e scope given
  | .optional inner, given =>
    Eval.recover EvalError.isAbsence
      (do let host ← inner.unbox e scope given; return some host)
      (Eval.done none)
  | .list item, given => do
    match ← e.coerce (.list item.wanted) given scope with
    | .list items =>
      Eval.forEach
        (fun v => (item.unbox e scope v).mapError (.permanent v item.wanted)) items
    | other => mismatch other (.list item.wanted)

end CommandScript.Bridge
