import CommandScript.Source.Bytes

/-!
# Lines and columns

Only a line feed starts a new line here.  Lines and columns count from one, and columns count
characters.  An offset beyond the end stands for the end.  An offset inside a character has column
one.
-/

namespace CommandScript

/-- A source text cut at its line feeds. -/
structure SourceLines where
  /-- The lines in order, without their line feeds.  There is at least one. -/
  lines : List (List Char)

/-- Some characters cut at their line feeds. -/
def splitLines : List Char → List (List Char)
  | [] => [[]]
  | c :: cs =>
    if c = '\n' then [] :: splitLines cs
    else
      match splitLines cs with
      | [] => [[c]]
      | line :: lines => (c :: line) :: lines

namespace SourceLines

/-- The lines of a source text. -/
def ofString (source : String) : SourceLines := ⟨splitLines source.toList⟩

/-- The line and column of a byte offset, counting lines from `line`.  The last line takes every
offset that is left, and any other line takes those up to its line feed. -/
def locate (line : Nat) : List (List Char) → Nat → Nat × Nat
  | [], _ => (line, 1)
  | [last], offset =>
    match splitBytes? (min offset (byteLength last)) last with
    | some (front, _) => (line, front.length + 1)
    | none => (line, 1)
  | text :: next :: lines, offset =>
    if offset ≤ byteLength text then
      match splitBytes? offset text with
      | some (front, _) => (line, front.length + 1)
      | none => (line, 1)
    else
      locate (line + 1) (next :: lines) (offset - byteLength text - 1)

/-- The line and column of a byte offset. -/
def position (source : SourceLines) (offset : Nat) : Nat × Nat := locate 1 source.lines offset

/-- A line by its number, without its line break.  Line zero is the first, and a line beyond the
last is empty. -/
def textOfLine (source : SourceLines) (line : Nat) : String :=
  match source.lines[line - 1]? with
  | some text => String.ofList (text.reverse.dropWhile (· == '\r')).reverse
  | none => ""

end SourceLines

end CommandScript
