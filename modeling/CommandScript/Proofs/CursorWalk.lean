import CommandScript.Proofs.Lexemes
import CommandScript.Source.Cursor

/-!
# Walking over a source text

The lexer reads a list of characters and adds up their bytes.  A cursor walks over the source text
and knows how far it has come.  Both say the same: the tokens of a text are what a cursor passes, one
token after another, from the start of the text to its end.

A cursor never leaves its text, and stands between two characters wherever it is moved.  What it has
passed since some earlier place can be cut out of the text again.
-/

namespace CommandScript

namespace Cursor

variable {c last : Cursor} {front rest : List Char}

/-! ## Moves -/

/-- Looking ahead is looking from further on. -/
theorem current?_skip (c : Cursor) (count : Nat) : (c.skip count).current? = c.peek? count :=
  List.head?_drop

/-- Characters fill their bytes, and none that follows fits in. -/
theorem charactersIn_append (front rest : List Char) :
    skipBytes.charactersIn (byteLength front) (front ++ rest) = front.length := by
  induction front with
  | nil =>
    cases rest with
    | nil => rfl
    | cons x rest =>
      have hpos := x.utf8Size_pos
      exact if_neg (by rw [byteLength_nil]; omega)
  | cons x front ih =>
    rw [List.cons_append, skipBytes.charactersIn, byteLength_cons, if_pos (Nat.le_add_right ..),
      Nat.add_sub_cancel_left, ih, List.length_cons]

/-- A cursor is moved over some characters by their bytes. -/
theorem skipBytes_eq (h : c.ahead = front ++ rest) :
    c.skipBytes (byteLength front) = ⟨c.behind ++ front, rest⟩ := by
  rw [skipBytes, h, charactersIn_append, skip, h, List.take_left, List.drop_left]

/-- What was passed since some place is cut out of the text. -/
theorem textSince_eq (behind passed rest : List Char) :
    textSince ⟨behind ++ passed, rest⟩ (byteLength behind) = passed := by
  have hslice := sliceBytes?_append behind passed []
  rw [List.append_nil] at hslice
  rw [textSince, offset, byteLength_append, hslice, Option.getD_some]

/-- A run of characters that pass a test is what the cursor passes, and it stops in front of one that
does not. -/
theorem takeWhile_spec (c : Cursor) (test : Char → Bool) :
    (c.takeWhile test).1 = (c.takeWhile test).2.textSince c.offset ∧
      ∀ x ∈ (c.takeWhile test).2.current?, test x = false := by
  have htake : c.ahead.take (c.ahead.takeWhile test).length = c.ahead.takeWhile test :=
    List.prefix_iff_eq_take.1 (List.takeWhile_prefix test) |>.symm
  constructor
  · rw [takeWhile, skip, htake]
    exact (textSince_eq _ _ _).symm
  · intro x hx
    have hstop := List.head?_dropWhile_not test c.ahead
    rw [takeWhile, skip, Lexer.drop_length_takeWhile, current?, Option.mem_def] at hx
    rwa [hx] at hstop

/-! ## The tokens that are passed -/

/-- A cursor passes some tokens on its way to another place.  Each takes a byte at least, has the
offsets in front of it and behind it as its span, and carries what the cursor has passed. -/
inductive Walk : Cursor → List Token → Cursor → Prop where
  /-- The cursor stays. -/
  | stay (c : Cursor) : Walk c [] c
  /-- The cursor passes a token. -/
  | pass {c last : Cursor} {token : Token} {others : List Token} {count : Nat} : 0 < count →
      (c.skipBytes count).offset = c.offset + count →
      token.span = .ofOffsets c.offset (c.offset + count) →
      (∀ text ∈ token.kind.written?,
        text = String.ofList ((c.skipBytes count).textSince c.offset)) →
      Walk (c.skipBytes count) others last → Walk c (token :: others) last

/-- A walk does not leave the text. -/
theorem Walk.source_eq {tokens : List Token} (h : c.Walk tokens last) : last.source = c.source := by
  induction h with
  | stay => rfl
  | pass _ _ _ _ _ ih => rw [ih, skipBytes, source_skip]

/-- Lexemes in their places are passed one after another. -/
theorem walk_placeFrom {lexemes : List Lexeme} (c : Cursor)
    (hwhole : ∀ lexeme ∈ lexemes, Lexer.IsWhole lexeme)
    (hahead : c.ahead = Lexer.textOf lexemes ++ rest) :
    c.Walk (Lexer.placeFrom c.offset lexemes) ⟨c.behind ++ Lexer.textOf lexemes, rest⟩ := by
  induction lexemes generalizing c with
  | nil =>
    obtain rfl : c.ahead = rest := hahead
    rw [Lexer.textOf_nil, List.append_nil]
    exact .stay c
  | cons lexeme others ih =>
    obtain ⟨hlexeme, hothers⟩ := List.forall_mem_cons.1 hwhole
    rw [Lexer.textOf_cons, List.append_assoc] at hahead
    have hskip := skipBytes_eq hahead
    have hoffset : (c.skipBytes (byteLength lexeme.text)).offset =
        c.offset + byteLength lexeme.text := by
      rw [hskip, offset, offset, byteLength_append]
    have hwalk := ih (c.skipBytes (byteLength lexeme.text)) hothers (by rw [hskip])
    rw [hoffset, hskip, List.append_assoc, ← Lexer.textOf_cons, ← hskip] at hwalk
    refine .pass (byteLength_pos hlexeme.nonempty) hoffset rfl ?_ hwalk
    rw [hskip, offset, textSince_eq]
    exact hlexeme.written

end Cursor

/-- The tokens of a source text are what a cursor passes from its start to its end.  This holds of
texts of any size, also of those with offsets that are cut down in the spans. -/
theorem tokenize_walk (registry : Registry) (source : String) :
    ∃ tokens last,
      tokenize registry source = ⟨.startOfCode, ⟨0, 0⟩⟩ :: (tokens ++
        [⟨.endOfCode, .ofOffsets last.offset last.offset⟩]) ∧
      (Cursor.ofString source).Walk tokens last ∧ last.atEnd = true := by
  have htext := Lexer.textOf_lexemesFrom registry false source.toList
  have hwhole : ∀ lexeme ∈ Lexer.lexemesFrom registry false source.toList, Lexer.IsWhole lexeme :=
    fun _ => Lexer.isWhole_of_mem
  have hahead : (Cursor.ofString source).ahead =
      Lexer.textOf (Lexer.lexemesFrom registry false source.toList) ++ [] := by
    rw [htext, List.append_nil]
    rfl
  refine ⟨_, _, ?_, Cursor.walk_placeFrom _ hwhole hahead, rfl⟩
  rw [tokenize, Lexer.tokensFrom_eq_placeFrom, htext, Nat.zero_add]
  rfl

end CommandScript
