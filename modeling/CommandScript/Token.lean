import CommandScript.Operator.Registry
import CommandScript.Scalar
import CommandScript.Source.Span

/-!
# Tokens

The pieces a source text is cut into.  Whitespace and notes are trivia and mean nothing.  What
can't be read becomes a token too, and says what is wrong with it.
-/

namespace CommandScript

/-- Why some characters can't be read. -/
inductive Unreadable where
  /-- A character that starts nothing. -/
  | unexpectedCharacter (c : Char)
  /-- A note without its end. -/
  | openNote
  /-- A text without its closing quote. -/
  | openText
  /-- Quotes with no name between them. -/
  | emptyName
  /-- A quoted name without its closing quote. -/
  | openName (name : String)
  /-- A `#` with no name behind it. -/
  | tagWithoutName
  /-- A number that runs into a name. -/
  | malformedNumber (text : String)
  /-- No number where one should start. -/
  | missingNumber
  /-- A symbol that starts no operator. -/
  | unknownSymbol (c : Char)
deriving DecidableEq, Repr

/-- The wording of a problem. -/
def Unreadable.message : Unreadable → String
  | .unexpectedCharacter c => "unexpected character “" ++ c.toString ++ "”"
  | .openNote => "unterminated annotation: missing “»”"
  | .openText => "unterminated text: missing closing quote"
  | .emptyName => "empty quoted name"
  | .openName name => "unterminated quoted name “" ++ name ++ "”"
  | .tagWithoutName => "“#” must be followed by a name"
  | .malformedNumber text => "malformed number “" ++ text ++ "”"
  | .missingNumber => "missing number"
  | .unknownSymbol c => "unknown symbol “" ++ c.toString ++ "”"

/-- What a token is. -/
inductive TokenKind where
  /-- The mark in front of all tokens. -/
  | startOfCode
  /-- The mark behind all tokens. -/
  | endOfCode
  /-- A note: a text between guillemets, which may nest. -/
  | note (content : String)
  /-- The bracket that opens a list. -/
  | listOpen
  /-- The bracket that closes a list. -/
  | listClose
  /-- The brace that opens a block. -/
  | blockOpen
  /-- The brace that closes a block. -/
  | blockClose
  /-- The parenthesis that opens a group. -/
  | groupOpen
  /-- The parenthesis that closes a group. -/
  | groupClose
  /-- A comma. -/
  | itemSeparator
  /-- A colon. -/
  | pairSeparator
  /-- A semicolon. -/
  | statementSeparator
  /-- The end of a line. -/
  | lineBreak
  /-- A quoted text, its escapes resolved. -/
  | text (content : String)
  /-- A number, as written and as read. -/
  | number (literal : String) (scalar : Scalar)
  /-- A tag, without its `#` and quotes. -/
  | tag (name : String)
  /-- A name, and whether it was quoted. -/
  | identifier (name : String) (quoted : Bool)
  /-- An operator. -/
  | operator (found : KnownSpelling)
  /-- Blanks within a line. -/
  | whitespace
  /-- Characters that can't be read. -/
  | unknown (problem : Unreadable)

/-- A token and where it stands. -/
structure Token where
  /-- What it is. -/
  kind : TokenKind
  /-- The bytes it takes. -/
  span : Span

namespace TokenKind

/-- Whether the token means nothing. -/
def isTrivia : TokenKind → Bool
  | .whitespace | .note _ => true
  | _ => false

/-- Whether the token ends a line. -/
def isLineBreak : TokenKind → Bool
  | .lineBreak => true
  | _ => false

/-- Whether the token can end an operand.  A sign behind such a token is an operator, and anywhere
else it may belong to a number. -/
def canEndOperand : TokenKind → Bool
  | .listClose | .blockClose | .groupClose => true
  | .text _ | .number .. | .tag _ | .identifier .. => true
  | .operator found =>
    (found.starting?.any fun op => op.fixity == .atom) ||
      (found.continuing?.any fun op => op.fixity == .after)
  | _ => false

/-- A token in words. -/
def describe : TokenKind → String
  | .startOfCode => "start of code"
  | .endOfCode => "end of code"
  | .note content => "annotation «" ++ content ++ "»"
  | .listOpen => "“[”"
  | .listClose => "“]”"
  | .blockOpen => "“\x7b”"
  | .blockClose => "“\x7d”"
  | .groupOpen => "“(”"
  | .groupClose => "“)”"
  | .itemSeparator => "“,”"
  | .pairSeparator => "“:”"
  | .statementSeparator => "“;”"
  | .lineBreak => "line break"
  | .text content => "text “" ++ content ++ "”"
  | .number literal _ => "number " ++ literal
  | .tag name => "tag #" ++ name
  | .identifier name _ => "name “" ++ name ++ "”"
  | .operator found => "operator “" ++ found.text ++ "”"
  | .whitespace => "whitespace"
  | .unknown problem => problem.message

end TokenKind

end CommandScript
