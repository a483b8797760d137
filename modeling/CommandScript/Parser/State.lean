import CommandScript.SyntaxError
import CommandScript.Token.Lexer

/-!
# Reading tokens

A parser reads the tokens that mean something from the front.  Behind them stands the mark for the
end of the code, which is never read past.  Line breaks count between statements.  Inside
parentheses and square brackets they do not, and are passed over.

Reading ends with a result, with an error, or without an answer for lack of fuel.  A parser that
failed stays where it stopped.
-/

namespace CommandScript

namespace Parser

/-- How far a parser has read. -/
structure State where
  /-- The tokens not yet read, without the end mark. -/
  rest : List Token
  /-- The end mark. -/
  finish : Token
  /-- Where the last token ended. -/
  lastStop : Nat
  /-- Whether line breaks count. -/
  lineBreaks : Bool

/-- How reading ended. -/
inductive Result (α : Type) where
  /-- With a result. -/
  | done (result : α) (state : State)
  /-- With an error. -/
  | failed (error : SyntaxError) (state : State)
  /-- Without an answer, for lack of fuel. -/
  | outOfFuel

end Parser

/-- A reader of tokens. -/
def Parser (α : Type) : Type := Parser.State → Parser.Result α

namespace Parser

instance : Monad Parser where
  pure a := fun state => .done a state
  bind first next := fun state =>
    match first state with
    | .done a state => next a state
    | .failed error state => .failed error state
    | .outOfFuel => .outOfFuel

/-- The parser that fails. -/
def fail {α : Type} (error : SyntaxError) : Parser α := fun state => .failed error state

/-- The parser that has no fuel. -/
def exhausted {α : Type} : Parser α := fun _ => .outOfFuel

/-! ## Tokens -/

namespace State

/-- The start of a source text. -/
def ofSource (registry : Registry) (source : String) : State :=
  let tokens := Lexer.tokensFrom registry 0 false source.toList
  { rest := tokens.dropLast.filter fun token => !token.kind.isTrivia
    finish := tokens.getLastD ⟨.endOfCode, ⟨0, 0⟩⟩
    lastStop := 0
    lineBreaks := true }

/-- The tokens not yet read, without line breaks in front if they do not count. -/
def visible (state : State) : List Token :=
  if state.lineBreaks then state.rest else state.rest.dropWhile fun token => token.kind.isLineBreak

/-- The token to read next. -/
def current (state : State) : Token := state.visible.headD state.finish

end State

/-- The kind of the token to read next. -/
def nextKind : Parser TokenKind := fun state => .done state.current.kind state

/-- The token to read next, which is read. -/
def advance : Parser Token := fun state =>
  match state.visible with
  | [] => .done state.finish { state with rest := [], lastStop := state.finish.span.stop }
  | token :: rest => .done token { state with rest := rest, lastStop := token.span.stop }

/-- Whether the token to read next begins where the last one ended. -/
def touchesLast : Parser Bool := fun state =>
  .done (state.current.span.start == state.lastStop) state

/-- Where the last token ended. -/
def lastStop : Parser Nat := fun state => .done state.lastStop state

/-- The error that something else was expected here. -/
def State.error (state : State) (what : String) : SyntaxError := .unexpected what state.current

/-- The failure that something else was expected here. -/
def expected {α : Type} (what : String) : Parser α := fun state => .failed (state.error what) state

/-- A token that passes a test, which is read. -/
def expect (test : TokenKind → Bool) (what : String) : Parser Token := do
  if test (← nextKind) then advance else expected what

/-- A parser run with line breaks counting or not.  The setting before is restored in any case. -/
def countingLineBreaks {α : Type} (counting : Bool) (parser : Parser α) : Parser α := fun state =>
  match parser { state with lineBreaks := counting } with
  | .done a after => .done a { after with lineBreaks := state.lineBreaks }
  | .failed error after => .failed error { after with lineBreaks := state.lineBreaks }
  | .outOfFuel => .outOfFuel

/-- Whether a token is a given word, as a name without quotes or as an operator. -/
def isWord (word : String) : TokenKind → Bool
  | .identifier name quoted => !quoted && Text.eqIgnoringAsciiCase name word
  | .operator found => Text.eqIgnoringAsciiCase found.text word
  | _ => false

/-- Whether a given word came next.  If so it is read. -/
def takeWord (word : String) : Parser Bool := do
  if isWord word (← nextKind) then
    let _ ← advance
    return true
  else
    return false

/-- A name, with or without quotes. -/
def takeName (what : String) : Parser String := do
  match ← nextKind with
  | .identifier name _ =>
    let _ ← advance
    return name
  | _ => expected what

end Parser

end CommandScript
