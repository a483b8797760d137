import CommandScript.EvalError
import CommandScript.Source.Lines
import CommandScript.Token

/-!
# Errors of reading code

A syntax error is found at one place of the source text.  It says what is wrong there and what was
found.  A token that can't be read reports its own problem, whatever was expected.
-/

namespace CommandScript

/-- What is wrong with a piece of code. -/
inductive SyntaxProblem where
  /-- Something else was expected. -/
  | expected (what : String)
  /-- Some characters can't be read. -/
  | unreadable (problem : Unreadable)
  /-- An operator needs something before it. -/
  | operatorAtStart (operator : String)
  /-- A keyword needs a block. -/
  | missingBlock (keyword : String)
  /-- Some items of a list have a key and others have not. -/
  | mixedItems
  /-- A key occurs twice in a record. -/
  | repeatedKey (key : Key)
  /-- A problem in words of its own. -/
  | stated (message : String)

/-- An error of reading code. -/
structure SyntaxError where
  /-- What is wrong. -/
  problem : SyntaxProblem
  /-- What was found instead. -/
  found : String
  /-- Where it was found. -/
  span : Span

namespace SyntaxError

/-- A token where something else was expected. -/
def unexpected (what : String) (token : Token) : SyntaxError where
  problem :=
    match token.kind with
    | .unknown problem => .unreadable problem
    | _ => .expected what
  found := token.kind.describe
  span := token.span

/-- The wording of an error. -/
def message (error : SyntaxError) : String :=
  match error.problem with
  | .expected what => "Expected " ++ what ++ " but found " ++ error.found
  | .unreadable problem => "Can’t read the code: " ++ problem.message
  | .operatorAtStart operator => "The “" ++ operator ++ "” operator can’t start an expression"
  | .missingBlock keyword => "Expected a block after “" ++ keyword ++ "”"
  | .mixedItems => "A list can’t mix “key: value” pairs with other items"
  | .repeatedKey key => Constraint.message .repeatedKey ++ ": " ++ Display.key key
  | .stated message => message

/-- The message with its place, the line it is about, and a mark under the place. -/
def render (source : String) (error : SyntaxError) : String :=
  let lines := SourceLines.ofString source
  let (line, column) := lines.position error.span.start
  toString line ++ ":" ++ toString column ++ ": " ++ error.message ++ "\n  " ++
    lines.textOfLine line ++ "\n  " ++ String.ofList (List.replicate (column - 1) ' ') ++ "^"

end SyntaxError

end CommandScript
