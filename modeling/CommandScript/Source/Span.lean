/-!
# Spans

A span is a range of bytes of a source text, from its start up to its end.  Offsets beyond
`2 ^ 32 - 1` are cut down to it.
-/

namespace CommandScript

/-- A range of bytes of a source text. -/
structure Span where
  /-- The offset of the first byte. -/
  start : Nat
  /-- The offset after the last byte. -/
  stop : Nat
deriving DecidableEq, Repr, Inhabited

namespace Span

/-- The largest offset a span can hold. -/
def maxOffset : Nat := 0xFFFFFFFF

/-- The span between two offsets. -/
def ofOffsets (start stop : Nat) : Span := ⟨min start maxOffset, min stop maxOffset⟩

/-- Nothing is cut down if both offsets fit. -/
theorem ofOffsets_eq_iff {start stop : Nat} :
    ofOffsets start stop = ⟨start, stop⟩ ↔ start ≤ maxOffset ∧ stop ≤ maxOffset := by
  rw [ofOffsets, Span.mk.injEq]
  omega

/-- The smallest span that covers both. -/
def merge (a b : Span) : Span := ⟨min a.start b.start, max a.stop b.stop⟩

/-- The number of bytes. -/
def length (s : Span) : Nat := s.stop - s.start

/-- Whether the span holds no byte. -/
def isEmpty (s : Span) : Bool := s.length == 0

/-- A span as its two offsets. -/
def describe (s : Span) : String := toString s.start ++ ".." ++ toString s.stop

end Span

end CommandScript
