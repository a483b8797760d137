import CommandScript.Parser.Grammar

/-!
# Parsing

The fuel for reading is taken from the number of tokens that are left.  Between an expression and
one inside it, at least one token is read, and an expression reads an operand first.  So two units
per token suffice, with a few for the start.
-/

namespace CommandScript

namespace Parser

/-- The fuel that suffices from a state on. -/
def State.fuel (state : State) : Nat := 2 * state.rest.length + 8

/-- A parser for code of any depth, from a parser for each grammar. -/
def withGrammar {α : Type} (parser : Grammar → Parser α) : Parser α := fun state =>
  parser (grammar state.fuel) state

/-- An expression whose operations bind more tightly than a precedence. -/
def expression (least : Int) : Parser Value := withGrammar fun g => g.expression least

/-- An operand. -/
def operand : Parser Value := withGrammar fun g => g.operand

/-- The parameters of a handler. -/
def parameterList : Parser (List Value) := withGrammar parameters

/-- The block that must follow a keyword. -/
def blockAfter (keyword : String) : Parser (List Value) :=
  withGrammar fun g => requiredBlock g keyword

/-- Every statement up to the end of the code. -/
def script : Parser (List Value) := withGrammar fun g => statements g .code

/-- Whether a token may stand behind a lone expression. -/
def isTrailing : TokenKind → Bool
  | .lineBreak | .statementSeparator => true
  | _ => false

/-- Line breaks and semicolons, all of which are read. -/
def skipTrailing : (fuel : Nat) → Parser Unit
  | 0 => exhausted
  | fuel + 1 => do
    if isTrailing (← nextKind) then
      let _ ← advance
      skipTrailing fuel
    else
      return ()

/-- One expression and nothing behind it but line breaks and semicolons. -/
def loneExpression : Parser Value := do
  let value ← expression 0
  withGrammar fun g => skipTrailing g.rounds
  let _ ← expect isEnd "end of code"
  return value

/-- What a parser makes of a source text.  The fuel always suffices; should it not, the error is
told at the place that was reached last. -/
def runOn {α : Type} (parser : Parser α) (registry : Registry) (source : String) :
    Except SyntaxError α :=
  let start := State.ofSource registry source
  match parser start with
  | .done result _ => .ok result
  | .failed error _ => .error error
  | .outOfFuel => .error (start.error "less code")

end Parser

/-- The statements of a script. -/
def readScript (registry : Registry) (source : String) : Except SyntaxError (List Value) :=
  Parser.runOn Parser.script registry source

/-- The expression that a source text holds. -/
def readExpression (registry : Registry) (source : String) : Except SyntaxError Value :=
  Parser.runOn Parser.loneExpression registry source

end CommandScript
