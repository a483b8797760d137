import CommandScript.Evaluation.Collection

/-!
# Converting values that are there

How a value that is no expression, and not nothing, becomes what is wanted.

* Any value is itself, with the items of a collection coerced in turn.
* A truth value is itself.  A text is false when it is empty or says `false`, and a list when it is
  empty.
* A text is itself.  A truth value and a tag become the text that names them.
* A number is a text with a numeric reading.  A whole double becomes an integer where one is wanted.
* A tag is itself.  A text that is not empty becomes the tag with its name.
* A list has its items coerced.  A record becomes the list of its pairs, and any other value a list
  with one item.
* A record has its fields coerced.  The empty list becomes the empty record.
-/

namespace CommandScript.Evaluation

/-- The failure to convert a value. -/
def refuse (value : Value) (wanted : Coercion) : Eval Value :=
  Eval.failWith (.coercion value wanted)

/-- Any value. -/
def asAnything (e : Evaluator) (scope : Scope) (wanted : Coercion) : Value → Eval Value
  | .list items => do
    let items ← coerceItems e scope wanted items
    return .list items
  | .record record => do
    let record ← resolve e scope wanted record
    return .record record
  | .pair key value => do
    let value ← e.coerce wanted value scope
    return .pair key value
  | other => return other

/-- A truth value. -/
def asBoolean : Value → Eval Value
  | .boolean flag => return .boolean flag
  | .text text => return .boolean !(text.isEmpty || Text.eqIgnoringAsciiCase text.content "false")
  | .list items => return .boolean !items.isEmpty
  | other => refuse other .boolean

/-- A text. -/
def asText : Value → Eval Value
  | .text text => return .text text
  | .boolean flag => return .ofString (if flag then "true" else "false")
  | .tag name => return .ofString name.text
  | other => refuse other .text

/-- A text checked by its numeric reading.  A text that is no number can't be converted, and a
number that can't be used breaks a rule. -/
def checkScalar {α : Type} (wanted : Coercion) (text : TextValue) (use : α → Value) :
    Except ScalarError α → Eval Value
  | .ok number => return use number
  | .error (.invalid _) => refuse (.text text) wanted
  | .error problem => Eval.failWith (.constraint (.text text) (.scalar problem))

/-- A number, used as a double. -/
def asNumber (wanted : Coercion) : Value → Eval Value
  | .text text => checkScalar wanted text (fun _ => .text text) text.scalar.toFloat
  | other => refuse other wanted

/-- A whole number. -/
def asInteger : Value → Eval Value
  | .text text =>
    checkScalar .integer text
      (fun number => if text.scalar.isInteger then .text text else .ofInt64 number)
      text.scalar.toInt64
  | other => refuse other .integer

/-- A tag. -/
def asTag : Value → Eval Value
  | .tag name => return .tag name
  | .text text =>
    if text.isEmpty then refuse (.text text) .tag else return .tag (.ofString text.content)
  | other => refuse other .tag

/-- A text or a tag. -/
def asRecordKey : Value → Eval Value
  | .text text => return .text text
  | .tag name => return .tag name
  | other => refuse other .recordKey

/-- A list. -/
def asList (e : Evaluator) (scope : Scope) (item : Coercion) : Value → Eval Value
  | .list items => do
    let items ← coerceItems e scope item items
    return .list items
  | .record record => do
    let resolved ← resolve e scope .anything record
    let pairs := resolved.entries.map fun entry => .pair (.ofKey entry.1) entry.2
    let items ← coerceItems e scope item pairs
    return .list items
  | other => do
    let value ← coerceItem e scope item other
    return .list [value]

/-- A record. -/
def asRecord (e : Evaluator) (scope : Scope) (field : Coercion) : Value → Eval Value
  | .record record => do
    let record ← resolve e scope field record
    return .record record
  | .list [] => return .record .empty
  | other => refuse other (.record field)

/-- A coercion. -/
def asCoercion : Value → Eval Value
  | .coercion given => return .coercion given
  | other => refuse other .coercion

/-- Something to call. -/
def asCallable (value : Value) : Eval Value :=
  if value.isCallable then return value else refuse value .handler

/-- A target of commands, or nothing.  A computed record gets its fields. -/
def asTarget (e : Evaluator) (scope : Scope) : Value → Eval Value
  | .nothing | .didNothing => return .nothing
  | .record (.computed pairs) => do
    let record ← resolve e scope .anything (.computed pairs)
    return .record record
  | .list items => return .list items
  | .record record => return .record record
  | .reference id target => return .reference id target
  | other => refuse other .reference

end CommandScript.Evaluation
