import CommandScript.Source.Bytes

/-!
# Cursors

A cursor walks forward over a source text and knows the byte offset it has reached.  It keeps the
characters behind it, so that a piece of what was read can be cut out again.
-/

namespace CommandScript

/-- A place in a source text. -/
structure Cursor where
  /-- The characters already read, in order. -/
  behind : List Char
  /-- The characters not yet read. -/
  ahead : List Char

namespace Cursor

/-- The start of a source text. -/
def ofString (source : String) : Cursor := ⟨[], source.toList⟩

/-- All the characters of the source text. -/
def source (c : Cursor) : List Char := c.behind ++ c.ahead

/-- The byte offset of the cursor. -/
def offset (c : Cursor) : Nat := byteLength c.behind

/-- Whether everything has been read. -/
def atEnd (c : Cursor) : Bool := c.ahead.isEmpty

/-- The character under the cursor. -/
def current? (c : Cursor) : Option Char := c.ahead.head?

/-- The character `n` places after the one under the cursor. -/
def peek? (c : Cursor) (n : Nat) : Option Char := c.ahead[n]?

/-- The cursor moved over the next `count` characters. -/
def skip (c : Cursor) (count : Nat) : Cursor :=
  ⟨c.behind ++ c.ahead.take count, c.ahead.drop count⟩

/-- The cursor moved over one character, and that character. -/
def advance (c : Cursor) : Option Char × Cursor := (c.current?, c.skip 1)

/-- The cursor moved over `count` bytes.  It stops at the end, and in front of a character that does
not fit. -/
def skipBytes (c : Cursor) (count : Nat) : Cursor := c.skip (charactersIn count c.ahead)
where
  /-- How many characters fit into `count` bytes. -/
  charactersIn (count : Nat) : List Char → Nat
    | [] => 0
    | x :: xs => if x.utf8Size ≤ count then charactersIn (count - x.utf8Size) xs + 1 else 0

/-- The cursor moved over the characters that pass a test, and those characters. -/
def takeWhile (c : Cursor) (test : Char → Bool) : List Char × Cursor :=
  (c.ahead.takeWhile test, c.skip (c.ahead.takeWhile test).length)

/-- The text from a byte offset up to the cursor. -/
def textSince (c : Cursor) (start : Nat) : List Char :=
  (sliceBytes? c.behind start c.offset).getD []

/-- Moving the cursor keeps the source text. -/
@[simp] theorem source_skip (c : Cursor) (count : Nat) : (c.skip count).source = c.source := by
  simp [source, skip]

end Cursor

end CommandScript
