import CommandScript.Text.Case.Context
import CommandScript.Text.Case.Lower
import CommandScript.Text.Case.Upper

/-!
# Small and capital letters of a text

A text is changed character by character, and a character may become several.  One rule looks
further: a capital sigma that ends a word becomes `ς`, and any other becomes `σ`.  It ends a word
when the nearest character before it that is not ignorable is cased, and the nearest after it is
not.
-/

namespace CommandScript.Text

/-- The small letters of a character, wherever it stands. -/
def lowerChar (c : Char) : List Char :=
  if c.toNat < 128 then [c.toLower] else counterparts lowerRuns lowerExpansions c

/-- The capital letters of a character. -/
def upperChar (c : Char) : List Char :=
  if c.toNat < 128 then [c.toUpper] else counterparts upperRuns upperExpansions c

/-- Whether the first character that is not ignorable is cased. -/
def nextIsCased (cs : List Char) : Bool :=
  match cs.dropWhile isCaseIgnorable with
  | [] => false
  | c :: _ => isCased c

/-- The small letters of a text.  `before` holds the characters on its left, nearest first. -/
def lowerFrom (before : List Char) : List Char → List Char
  | [] => []
  | c :: rest =>
    let small :=
      if c = 'Σ' then
        if nextIsCased before && !nextIsCased rest then ['ς'] else ['σ']
      else
        lowerChar c
    small ++ lowerFrom (c :: before) rest

/-- A text in small letters. -/
def lowercase (s : String) : String := String.ofList (lowerFrom [] s.toList)

/-- A text in capital letters. -/
def uppercase (s : String) : String := String.ofList (s.toList.flatMap upperChar)

/-- Whether two texts are equal up to the case of the letters of ASCII. -/
def eqIgnoringAsciiCase (a b : String) : Bool :=
  a.toList.map Char.toLower == b.toList.map Char.toLower

end CommandScript.Text
