import CommandScript.Text.Blank
import CommandScript.Text.Numeric

/-!
# Character classes

What a character can be part of.  Names hold letters, digits and underscores, and start with no
digit.  A symbol is any character that is not part of a name, not blank, not a control character,
and has no fixed meaning of its own.
-/

namespace CommandScript.Character

/-- Brackets and separators, each a token of its own. -/
def isPunctuation (c : Char) : Bool :=
  c == '[' || c == ']' || c == '{' || c == '}' || c == '(' || c == ')' ||
    c == ',' || c == ':' || c == ';'

/-- The quotes around a text, any of which opens and closes it. -/
def isTextQuote (c : Char) : Bool := c == '"' || c == '“' || c == '”'

/-- The quotes around a name, any of which opens and closes it. -/
def isNameQuote (c : Char) : Bool := c == '\x27' || c == '‘' || c == '’'

/-- Whether a character can start a name. -/
def startsName (c : Char) : Bool := Text.isAlphabetic c || c == '_'

/-- Whether a character can stand inside a name. -/
def continuesName (c : Char) : Bool := Text.isAlphanumeric c || c == '_'

/-- Whether a character can be part of a symbol. -/
def isSymbol (c : Char) : Bool :=
  !(Text.isAlphanumeric c || Text.isBlank c || Text.isControl c || c == '_' || c == '#' ||
    isPunctuation c || isTextQuote c || isNameQuote c || c == '«' || c == '»')

/-- Whether some characters are a name that needs no quotes. -/
def needsNoQuotes : List Char → Bool
  | [] => false
  | c :: cs => startsName c && cs.all continuesName

/-- Whether some characters are a run of symbols. -/
def isSymbolRun (cs : List Char) : Bool := !cs.isEmpty && cs.all isSymbol

end CommandScript.Character
