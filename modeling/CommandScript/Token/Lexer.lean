import CommandScript.Scalar.Numeral
import CommandScript.Source.Bytes
import CommandScript.Token

/-!
# Cutting a source text into tokens

The tokens of a source text lie side by side and cover all of it.  One token is read off its first
character and those that follow: each reader says what the token is and how many characters beyond
the first it takes.  So a token takes at least one character, and the rest is shorter.

Any quote closes what any quote of its kind opened.  Inside a text a backslash gives the next
character another meaning, or stands for itself.  A sign belongs to the number behind it unless the
last token that is not trivia can end an operand.
-/

namespace CommandScript.Lexer

/-! ## Readers -/

/-- The punctuation token a character is. -/
def punctuation? : Char → Option TokenKind
  | '[' => some .listOpen
  | ']' => some .listClose
  | '{' => some .blockOpen
  | '}' => some .blockClose
  | '(' => some .groupOpen
  | ')' => some .groupClose
  | ',' => some .itemSeparator
  | ':' => some .pairSeparator
  | ';' => some .statementSeparator
  | _ => none

/-- The inside of a note `depth` levels within another, up to its end, and how many characters
were read.  Nothing if the end is missing. -/
def noteBody? : (depth : Nat) → List Char → Option (List Char × Nat)
  | _, [] => none
  | depth, c :: cs =>
    let more (depth : Nat) :=
      (noteBody? depth cs).map fun (text, count) => (c :: text, count + 1)
    if c = '»' then
      match depth with
      | 0 => some ([], 1)
      | depth + 1 => more depth
    else if c = '«' then more (depth + 1)
    else more depth

/-- What a backslash and the next character stand for. -/
def unescape (c : Char) : List Char :=
  if c = 'n' then ['\n']
  else if c = 't' then ['\t']
  else if c = 'r' then ['\r']
  else if c = '\\' || Character.isTextQuote c then [c]
  else ['\\', c]

/-- The inside of a text up to its closing quote, and how many characters were read.  Nothing if the
quote is missing. -/
def textBody? : List Char → Option (List Char × Nat)
  | [] => none
  | c :: cs =>
    if Character.isTextQuote c then some ([], 1)
    else if c = '\\' then
      match cs with
      | [] => none
      | e :: cs => (textBody? cs).map fun (text, count) => (unescape e ++ text, count + 2)
    else (textBody? cs).map fun (text, count) => (c :: text, count + 1)

/-- A quoted name behind its opening quote, and how many characters were read. -/
def quotedName (cs : List Char) : Except Unreadable String × Nat :=
  let name := cs.takeWhile fun c => !Character.isNameQuote c && !Text.isLineBreak c
  match (cs.drop name.length).head? with
  | some c =>
    if Character.isNameQuote c then
      (if name.isEmpty then .error .emptyName else .ok (String.ofList name), name.length + 1)
    else (.error (.openName (String.ofList name)), name.length)
  | none => (.error (.openName (String.ofList name)), name.length)

/-- The token for a name or tag that may have been unreadable. -/
def orUnknown (make : String → TokenKind) : Except Unreadable String → TokenKind
  | .ok name => make name
  | .error problem => .unknown problem

/-- A tag behind its `#`. -/
def tagToken (cs : List Char) : TokenKind × Nat :=
  match cs with
  | c :: rest =>
    if Character.isNameQuote c then
      let (name, count) := quotedName rest
      (orUnknown .tag name, count + 1)
    else if Character.startsName c then
      let name := cs.takeWhile Character.continuesName
      (.tag (String.ofList name), name.length)
    else (.unknown .tagWithoutName, 0)
  | [] => (.unknown .tagWithoutName, 0)

/-- A number that starts with `c`.  It must not run into a name. -/
def numberToken (c : Char) (cs : List Char) : TokenKind × Nat :=
  match Numeral.scan? (c :: cs) with
  | none => (.unknown .missingNumber, 0)
  | some found =>
    let count := found.length - 1
    let tail := (cs.drop count).takeWhile Character.continuesName
    if tail.isEmpty then
      (.number (String.ofList (c :: cs.take count)) found.scalar, count)
    else
      let count := count + tail.length
      (.unknown (.malformedNumber (String.ofList (c :: cs.take count))), count)

/-- A word that starts with `c`: an operator if it is registered, and a name otherwise. -/
def wordToken (registry : Registry) (c : Char) (cs : List Char) : TokenKind × Nat :=
  let tail := cs.takeWhile Character.continuesName
  let word := String.ofList (c :: tail)
  match registry.find? word with
  | some found => (.operator found, tail.length)
  | none => (.identifier word false, tail.length)

/-- The longest registered run of symbols that starts with `c`. -/
def symbolsToken (registry : Registry) (c : Char) (cs : List Char) : TokenKind × Nat :=
  match registry.findSymbols? (c :: cs) with
  | some (found, count) => (.operator found, count - 1)
  | none => (.unknown (.unknownSymbol c), 0)

/-! ## Tokens -/

/-- The token that starts with `c`, and how many of the characters behind it belong to it. -/
def scan (registry : Registry) (afterOperand : Bool) (c : Char) (cs : List Char) :
    TokenKind × Nat :=
  if Text.isLineBreak c then
    (.lineBreak, if c = '\r' && cs.head? == some '\n' then 1 else 0)
  else if Text.isInlineBlank c then
    (.whitespace, (cs.takeWhile Text.isInlineBlank).length)
  else
    match punctuation? c with
    | some kind => (kind, 0)
    | none =>
      if c = '«' then
        match noteBody? 0 cs with
        | some (text, count) => (.note (String.ofList text), count)
        | none => (.unknown .openNote, cs.length)
      else if c = '#' then tagToken cs
      else if Character.isTextQuote c then
        match textBody? cs with
        | some (text, count) => (.text (String.ofList text), count)
        | none => (.unknown .openText, cs.length)
      else if Character.isNameQuote c then
        let (name, count) := quotedName cs
        (orUnknown (.identifier · true) name, count)
      else if c.isDigit then numberToken c cs
      else if (c = '+' || c = '-') && !afterOperand && cs.head?.any Char.isDigit then
        numberToken c cs
      else if Character.startsName c then wordToken registry c cs
      else if Character.isSymbol c then symbolsToken registry c cs
      else (.unknown (.unexpectedCharacter c), 0)

/-- The tokens of the rest of a source text, which begins at byte `offset`. -/
def tokensFrom (registry : Registry) (offset : Nat) (afterOperand : Bool) :
    List Char → List Token
  | [] => [⟨.endOfCode, .ofOffsets offset offset⟩]
  | c :: cs =>
    let (kind, count) := scan registry afterOperand c cs
    let stop := offset + byteLength (c :: cs.take count)
    let afterOperand := if kind.isTrivia then afterOperand else kind.canEndOperand
    ⟨kind, .ofOffsets offset stop⟩ :: tokensFrom registry stop afterOperand (cs.drop count)
termination_by cs => cs.length
decreasing_by
  rw [List.length_drop, List.length_cons]
  omega

end CommandScript.Lexer

namespace CommandScript

/-- The tokens of a source text, between the marks for its start and its end. -/
def tokenize (registry : Registry) (source : String) : List Token :=
  ⟨.startOfCode, ⟨0, 0⟩⟩ :: Lexer.tokensFrom registry 0 false source.toList

end CommandScript
