import CommandScript.Coercion
import CommandScript.Parser.State

/-!
# The grammar

An expression is an operand and the operations behind it, as long as they bind more tightly than
the code around it asks for.  The token behind an operand says how tightly it binds.  Closers,
separators, line breaks and the end of the code bind loosely, so that they end the expression.

An operand is a literal, a name, a command, a bracketed form, or an expression that starts with an
operator.

* `(…)` is a group, which is its expression.
* `[…]` is a list, or a record if all its elements have a key.  `[:]` is the empty record.  A bare
  name as a key is a tag.
* `{…}` is a block of statements.
* `name(…)` with no blank between is a command.  So is a name in front of a literal, a list, a name
  or an operator that only starts expressions, which is then its one argument.

Reading an expression may read others inside it, so the rules are written for a given grammar, which
knows how to read those.  The grammars are tied together at the end, one for each amount of fuel.
-/

namespace CommandScript.Parser

/-- How the code inside is read. -/
structure Grammar where
  /-- An expression whose operations bind more tightly than a precedence. -/
  expression : Int → Parser Value
  /-- An operand. -/
  operand : Parser Value
  /-- How often a loop may go round. -/
  rounds : Nat

/-! ## Precedences -/

/-- How tightly `:` binds. -/
def colonPrecedence : Int := 2

/-- How tightly a token binds to the operand before it.  Some tokens can only start an expression.
-/
def precedence? : TokenKind → Option Int
  | .operator found => found.continuing?.map Operator.precedence
  | .pairSeparator => some colonPrecedence
  | .listClose | .blockClose | .groupClose => some (-2)
  | .itemSeparator | .statementSeparator => some (-4)
  | .lineBreak => some (-100)
  | .endOfCode => some (-10000)
  | _ => none

/-! ## Closers -/

/-- What ends a sequence. -/
inductive Closer where
  /-- The end of a list. -/
  | list
  /-- The end of a group. -/
  | group
  /-- The end of a block. -/
  | block
  /-- The end of the code. -/
  | code
deriving DecidableEq, Repr

/-- Whether a token is the closer. -/
def Closer.accepts : Closer → TokenKind → Bool
  | .list, .listClose => true
  | .group, .groupClose => true
  | .block, .blockClose => true
  | .code, .endOfCode => true
  | _, _ => false

/-- The closer in words. -/
def Closer.text : Closer → String
  | .list => "“]”"
  | .group => "“)”"
  | .block => "“\x7d”"
  | .code => "end of code"

/-- Whether a token separates statements. -/
def isSeparator : TokenKind → Bool
  | .lineBreak | .itemSeparator | .statementSeparator => true
  | _ => false

/-- Whether a token is the end of the code. -/
def isEnd : TokenKind → Bool
  | .endOfCode => true
  | _ => false

/-! ## Elements of lists and arguments -/

/-- An element of a bracketed sequence. -/
inductive Element where
  /-- A value alone. -/
  | item (value : Value)
  /-- A key and a value, and whether the key stood in parentheses. -/
  | pair (key value : Value) (grouped : Bool)

/-- The value of an element among arguments. -/
def Element.asArgument : Element → Value
  | .item value => value
  | .pair key value _ => .pair key value

/-- An element. -/
def element (g : Grammar) : Parser Element := do
  let grouped := match ← nextKind with
    | .groupOpen => true
    | _ => false
  let first ← g.expression colonPrecedence
  match ← nextKind with
  | .pairSeparator =>
    let _ ← advance
    let value ← g.expression colonPrecedence
    return .pair first value grouped
  | _ => return .item first

/-- Elements with commas between them, up to a closer, which is read. -/
def elementsLoop (g : Grammar) (closer : Closer) : (fuel : Nat) → Parser (List Element)
  | 0 => exhausted
  | fuel + 1 => do
    let first ← element g
    let kind ← nextKind
    match kind with
    | .itemSeparator =>
      let _ ← advance
      let others ← elementsLoop g closer fuel
      return first :: others
    | _ =>
      if closer.accepts kind then
        let _ ← advance
        return [first]
      else
        expected ("“,” or " ++ closer.text)

/-- Elements up to a closer, perhaps none. -/
def elements (g : Grammar) (closer : Closer) : Parser (List Element) := do
  if closer.accepts (← nextKind) then
    let _ ← advance
    return []
  else
    elementsLoop g closer g.rounds

/-- Arguments behind their parenthesis. -/
def arguments (g : Grammar) : Parser (List Value) :=
  countingLineBreaks false do
    let found ← elements g .group
    return found.map Element.asArgument

/-- A key of a record: a bare name is a tag, and anything else is evaluated with the record. -/
def recordKey (grouped : Bool) : Value → Value
  | .identifier name => if grouped then .identifier name else .tag name
  | other => other

/-- The values of elements, if none has a key. -/
def itemsOf? : List Element → Option (List Value)
  | [] => some []
  | .item value :: rest => (itemsOf? rest).map (value :: ·)
  | .pair .. :: _ => none

/-- The keys and values of elements, if all have a key. -/
def pairsOf? : List Element → Option (List (Value × Value))
  | [] => some []
  | .pair key value grouped :: rest =>
    (pairsOf? rest).map ((recordKey grouped key, value) :: ·)
  | .item _ :: _ => none

/-- The fields of a record, if all its keys are literal. -/
def fieldsOf? : List (Value × Value) → Option (List (Key × Value))
  | [] => some []
  | (key, value) :: rest => do
    let key ← key.toKey?
    let fields ← fieldsOf? rest
    return (key, value) :: fields

/-- The list or record that elements make. -/
def collectionOf (found : List Element) (span : Span) : Except SyntaxError Value :=
  match itemsOf? found with
  | some items => .ok (.list items)
  | none =>
    match pairsOf? found with
    | none => .error ⟨.mixedItems, "list", span⟩
    | some pairs =>
      match fieldsOf? pairs with
      | none => .ok (.record (.computed pairs))
      | some fields =>
        match Record.ofFields fields with
        | .ok record => .ok (.record record)
        | .error key => .error ⟨.repeatedKey key, "record", span⟩

/-- A list or record behind its bracket. -/
def collection (g : Grammar) (start : Nat) : Parser Value :=
  countingLineBreaks false do
    match ← nextKind with
    | .pairSeparator =>
      let _ ← advance
      let _ ← expect Closer.list.accepts Closer.list.text
      return .record .empty
    | _ =>
      let found ← elements g .list
      match collectionOf found ⟨start, ← lastStop⟩ with
      | .ok value => return value
      | .error error => fail error

/-! ## Groups, blocks and statements -/

/-- A group behind its parenthesis. -/
def group (g : Grammar) : Parser Value :=
  countingLineBreaks false do
    let value ← g.expression 0
    let _ ← expect Closer.group.accepts Closer.group.text
    return value

/-- Separators, all of which are read. -/
def skipSeparators : (fuel : Nat) → Parser Unit
  | 0 => exhausted
  | fuel + 1 => do
    if isSeparator (← nextKind) then
      let _ ← advance
      skipSeparators fuel
    else
      return ()

/-- Statements up to a closer, which is read. -/
def statementsLoop (g : Grammar) (closer : Closer) : (fuel : Nat) → Parser (List Value)
  | 0 => exhausted
  | fuel + 1 => do
    skipSeparators g.rounds
    let kind ← nextKind
    if closer.accepts kind then
      let _ ← advance
      return []
    else if isEnd kind then expected closer.text
    else
      let first ← g.expression 0
      let kind ← nextKind
      if isSeparator kind || closer.accepts kind then
        let others ← statementsLoop g closer fuel
        return first :: others
      else
        expected ("a line break, “;” or " ++ closer.text)

/-- Statements up to a closer, with line breaks counting. -/
def statements (g : Grammar) (closer : Closer) : Parser (List Value) :=
  countingLineBreaks true (statementsLoop g closer g.rounds)

/-- The block that must follow a keyword. -/
def requiredBlock (g : Grammar) (keyword : String) : Parser (List Value) := do
  match ← nextKind with
  | .blockOpen =>
    let _ ← advance
    statements g .block
  | _ => fun state =>
    .failed ⟨.missingBlock keyword, state.current.kind.describe, state.current.span⟩ state

/-! ## Definitions of handlers -/

/-- A coercion behind a word, or `anything` without the word. -/
def coercionAfter (g : Grammar) (word : String) : Parser Value := do
  if ← takeWord word then g.operand else return .coercion .anything

/-- A parameter: its label, its binding and its coercion, as a list. -/
def parameter (g : Grammar) : Parser Value := do
  let label ← takeName "a parameter name"
  let binding ← do
    match ← nextKind with
    | .pairSeparator =>
      let _ ← advance
      takeName "a parameter name"
    | _ => pure label
  let wanted ← coercionAfter g "as"
  return .list [.ofString label, .ofString binding, wanted]

/-- Parameters with commas between them, up to a parenthesis, which is read. -/
def parametersLoop (g : Grammar) : (fuel : Nat) → Parser (List Value)
  | 0 => exhausted
  | fuel + 1 => do
    let first ← parameter g
    match ← nextKind with
    | .itemSeparator =>
      let _ ← advance
      let others ← parametersLoop g fuel
      return first :: others
    | .groupClose =>
      let _ ← advance
      return [first]
    | _ => expected "“,” or “)”"

/-- Parameters in parentheses, perhaps none. -/
def parameters (g : Grammar) : Parser (List Value) := do
  let _ ← expect (fun | .groupOpen => true | _ => false) "“(”"
  countingLineBreaks false do
    match ← nextKind with
    | .groupClose =>
      let _ ← advance
      return []
    | _ => parametersLoop g g.rounds

/-- The definition of a handler behind its operator, as a command. -/
def definitionCommand (g : Grammar) (op : Operator) (isEvent : Bool) : Parser Value := do
  let name ← takeName "a handler name"
  let found ← parameters g
  let returns ← coercionAfter g "returning"
  let action ← requiredBlock g op.name
  return .command (.ofValues (.ofString op.handler)
    [.ofString name, .list found, returns, .block action, .boolean isEvent])

/-! ## Operators -/

/-- The command an operator stands for. -/
def commandWith (op : Operator) (layout : Layout) (operands : List Value) : Value :=
  .command (.ofOperands (.ofString op.handler) operands ⟨op.name, op.precedence, layout⟩)

/-- An expression that starts with an operator, behind the operator. -/
def startingOperator (g : Grammar) (token : Token) (op : Operator) : Parser Value :=
  match op.form with
  | .atom => return commandWith op .atom []
  | .before => do
    let operand ← g.expression op.precedence
    return commandWith op .before [operand]
  | .keywordBlock => do
    let operand ← g.expression op.precedence
    let body ← requiredBlock g op.name
    return commandWith op .keyword [operand, .block body]
  | .commandHandler => definitionCommand g op false
  | .eventHandler => definitionCommand g op true
  | .between | .betweenRight | .after => fail (.unexpected "an expression" token)

/-- An operation behind its left operand and its operator. -/
def continuingOperator (g : Grammar) (token : Token) (left : Value) (op : Operator) :
    Parser Value :=
  match op.form with
  | .between => do
    let right ← g.expression op.precedence
    return commandWith op .between [left, right]
  | .betweenRight => do
    let right ← g.expression (looser op.precedence)
    return commandWith op .between [left, right]
  | .after => return commandWith op .after [left]
  | .atom | .before | .keywordBlock | .commandHandler | .eventHandler =>
    fail (.unexpected "an infix operator" token)

/-! ## Operands and expressions -/

/-- Whether a token can be the one argument of the name before it. -/
def startsArgument : TokenKind → Bool
  | .text _ | .number .. | .tag _ | .listOpen | .identifier .. => true
  | .operator found => found.starting?.isSome && found.continuing?.isNone
  | _ => false

/-- A name, and the arguments behind it if it is a command. -/
def nameOrCommand (g : Grammar) (name : String) : Parser Value := do
  let kind ← nextKind
  let adjacent ← touchesLast
  match kind, adjacent with
  | .groupOpen, true =>
    let _ ← advance
    let found ← arguments g
    return .command (.ofValues (.ofString name) found)
  | kind, _ =>
    if startsArgument kind then
      let argument ← g.operand
      return .command (.ofValues (.ofString name) [argument])
    else
      return .identifier (.ofString name)

/-- An operand. -/
def operandWith (g : Grammar) : Parser Value := do
  let token ← advance
  match token.kind with
  | .number literal scalar => return .text (.number literal scalar)
  | .text content => return .ofString content
  | .tag name => return .tag (.ofString name)
  | .identifier name _ => nameOrCommand g name
  | .groupOpen => group g
  | .listOpen => collection g token.span.start
  | .blockOpen =>
    let items ← statements g .block
    return .block items
  | .operator found =>
    match found.starting? with
    | some op => startingOperator g token op
    | none => fail ⟨.operatorAtStart found.text, token.kind.describe, token.span⟩
  | _ => fail (.unexpected "an expression" token)

/-- The operation behind a left operand. -/
def operation (g : Grammar) (left : Value) : Parser Value := do
  let token ← advance
  match token.kind with
  | .pairSeparator =>
    let right ← g.expression colonPrecedence
    return .pair left right
  | .operator found =>
    match found.continuing? with
    | some op => continuingOperator g token left op
    | none => fail (.unexpected "an infix operator" token)
  | _ => fail (.unexpected "an operator" token)

/-- The operations behind an operand that bind more tightly than a precedence. -/
def operations (g : Grammar) (least : Int) : (fuel : Nat) → (left : Value) → Parser Value
  | 0, _ => exhausted
  | fuel + 1, left => do
    match precedence? (← nextKind) with
    | some precedence =>
      if precedence ≤ least then return left
      else
        let left ← operation g left
        operations g least fuel left
    | none => return left

/-- An expression whose operations bind more tightly than a precedence. -/
def expressionWith (g : Grammar) (least : Int) : Parser Value := do
  let left ← g.operand
  operations g least g.rounds left

mutual

/-- An expression, with a given amount of fuel. -/
def expressionUpTo : (fuel : Nat) → (least : Int) → Parser Value
  | 0, _ => exhausted
  | fuel + 1, least => expressionWith ⟨expressionUpTo fuel, operandUpTo fuel, fuel⟩ least
termination_by structural fuel => fuel

/-- An operand, with a given amount of fuel. -/
def operandUpTo : (fuel : Nat) → Parser Value
  | 0 => exhausted
  | fuel + 1 => operandWith ⟨expressionUpTo fuel, operandUpTo fuel, fuel⟩
termination_by structural fuel => fuel

end

/-- The grammar with a given amount of fuel. -/
def grammar (fuel : Nat) : Grammar := ⟨expressionUpTo fuel, operandUpTo fuel, fuel⟩

end CommandScript.Parser
