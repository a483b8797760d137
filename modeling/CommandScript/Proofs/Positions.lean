import Mathlib.Data.List.DropRight
import CommandScript.SyntaxError
import CommandScript.Proofs.Lexemes

/-!
# Lines and columns of offsets

An offset between two characters is told by the characters before it.  Its line is counted by the
line feeds among them, and its column by the characters behind the last of these.  So the offsets of
a text between its characters stand in the order of their lines and columns.

A text is looked at line by line.  The first line is passed by if its line feed stands before the
offset.  Otherwise the offset is in that line.
-/

namespace CommandScript

variable {line before middle after rest : List Char}

/-! ## The line around an offset -/

/-- Whether a character is in a line, and does not end it. -/
def inLine (c : Char) : Bool := c ≠ '\n'

/-- The characters behind the last line feed. -/
def lastLine (before : List Char) : List Char := before.rtakeWhile inLine

/-- The characters up to the first line feed. -/
def firstLine (after : List Char) : List Char := after.takeWhile inLine

theorem inLine_of_mem (hline : '\n' ∉ line) : ∀ c ∈ line, inLine c = true := by
  intro c hc
  exact decide_eq_true fun heq => hline (heq ▸ hc)

theorem lastLine_of_not_mem (hline : '\n' ∉ line) : lastLine line = line :=
  List.rtakeWhile_eq_self_iff.2 (inLine_of_mem hline)

/-- The last line starts behind the last line feed. -/
theorem lastLine_append_cons (line rest : List Char) :
    lastLine (line ++ '\n' :: rest) = lastLine rest := by
  unfold lastLine List.rtakeWhile
  rw [List.reverse_append, List.reverse_cons, List.append_assoc, List.takeWhile_append]
  split
  next hall =>
    have hnone : (['\n'] ++ line.reverse).takeWhile inLine = [] := rfl
    rw [hnone, List.append_nil, (List.takeWhile_prefix inLine).eq_of_length hall]
  next => rfl

theorem lastLine_append_of_not_mem (hmiddle : '\n' ∉ middle) :
    lastLine (before ++ middle) = lastLine before ++ middle := by
  unfold lastLine List.rtakeWhile
  rw [List.reverse_append, List.takeWhile_append_of_pos fun c hc =>
    inLine_of_mem hmiddle c (List.mem_reverse.1 hc), List.reverse_append, List.reverse_reverse]

/-- The first line goes up to the first line feed. -/
theorem firstLine_append_of_not_mem (hline : '\n' ∉ line) :
    firstLine (line ++ rest) = line ++ firstLine rest :=
  List.takeWhile_append_of_pos (inLine_of_mem hline)

/-- What holds of the last line, and of a text if it holds of the lines behind the first, holds of
every text. -/
theorem line_induction {P : List Char → Prop} (hlast : ∀ line, '\n' ∉ line → P line)
    (hnext : ∀ line rest, '\n' ∉ line → P rest → P (line ++ '\n' :: rest)) (text : List Char) :
    P text := by
  by_cases hmem : '\n' ∈ text
  · obtain ⟨line, rest, htext, hline⟩ := List.eq_append_cons_of_mem hmem
    have hshorter : rest.length < text.length := by
      rw [htext, List.length_append, List.length_cons]
      omega
    rw [htext]
    exact hnext line rest hline (line_induction hlast hnext rest)
  · exact hlast text hmem
termination_by text.length

/-- A text is split at each line feed. -/
theorem splitLines_append_cons (hline : '\n' ∉ line) (rest : List Char) :
    splitLines (line ++ '\n' :: rest) = line :: splitLines rest := by
  induction line with
  | nil => rfl
  | cons c line ih =>
    obtain ⟨hc, hline⟩ := not_or.1 (mt List.mem_cons.2 hline)
    rw [List.cons_append, splitLines, if_neg (Ne.symm hc), ih hline]

theorem splitLines_eq_cons (text : List Char) :
    ∃ lines, splitLines text = firstLine text :: lines := by
  induction text with
  | nil => exact ⟨[], rfl⟩
  | cons c text ih =>
    obtain ⟨lines, hlines⟩ := ih
    by_cases hc : c = '\n'
    · subst hc
      exact ⟨splitLines text, rfl⟩
    · refine ⟨lines, ?_⟩
      rw [splitLines, if_neg hc, hlines, firstLine, firstLine,
        List.takeWhile_cons_of_pos (p := inLine) (decide_eq_true hc)]

namespace SourceLines

/-- An offset in the first line is located by the characters before it. -/
theorem locate_append (number : Nat) (front back : List Char) (lines : List (List Char)) :
    locate number ((front ++ back) :: lines) (byteLength front) = (number, front.length + 1) := by
  have hle : byteLength front ≤ byteLength (front ++ back) :=
    byteLength_le_of_prefix (List.prefix_append front back)
  cases lines with
  | nil => rw [locate, Nat.min_eq_left hle, splitBytes?_append]
  | cons next lines => rw [locate, if_pos hle, splitBytes?_append]

/-- An offset behind the first line is located in the others. -/
theorem locate_beyond (number : Nat) (line : List Char) {lines : List (List Char)}
    (hlines : lines ≠ []) (offset : Nat) :
    locate number (line :: lines) (byteLength line + (offset + 1)) =
      locate (number + 1) lines offset := by
  obtain ⟨next, lines, rfl⟩ := List.exists_cons_of_ne_nil hlines
  rw [locate, if_neg (by omega)]
  congr 1
  omega

/-- The line feeds before an offset count its line, and the characters behind the last of them its
column. -/
theorem locate_splitLines (number : Nat) (before after : List Char) :
    locate number (splitLines (before ++ after)) (byteLength before) =
      (number + before.count '\n', (lastLine before).length + 1) := by
  induction before using line_induction generalizing number with
  | hlast line hline =>
    obtain ⟨lines, hlines⟩ := splitLines_eq_cons (line ++ after)
    rw [hlines, firstLine_append_of_not_mem hline, locate_append, List.count_eq_zero.2 hline,
      lastLine_of_not_mem hline]
    rfl
  | hnext line rest hline ih =>
    obtain ⟨lines, hlines⟩ := splitLines_eq_cons (rest ++ after)
    have hlength : byteLength (line ++ '\n' :: rest) =
        byteLength line + (byteLength rest + 1) := by
      rw [byteLength_append, byteLength_cons, show '\n'.utf8Size = 1 from rfl, Nat.add_comm 1]
    rw [List.append_assoc, List.cons_append, splitLines_append_cons hline, hlength,
      locate_beyond number line (by rw [hlines]; exact List.cons_ne_nil _ _), ih,
      lastLine_append_cons, List.count_append, List.count_cons_self, List.count_eq_zero.2 hline]
    congr 1
    omega

/-- The line with an offset in it. -/
theorem getElem?_splitLines (before after : List Char) :
    (splitLines (before ++ after))[before.count '\n']? =
      some (lastLine before ++ firstLine after) := by
  induction before using line_induction with
  | hlast line hline =>
    obtain ⟨lines, hlines⟩ := splitLines_eq_cons (line ++ after)
    rw [hlines, List.count_eq_zero.2 hline, lastLine_of_not_mem hline, List.getElem?_cons_zero,
      firstLine_append_of_not_mem hline]
  | hnext line rest hline ih =>
    rw [List.append_assoc, List.cons_append, splitLines_append_cons hline, List.count_append,
      List.count_cons_self, List.count_eq_zero.2 hline, Nat.zero_add, List.getElem?_cons_succ, ih,
      lastLine_append_cons]

variable {source : String}

theorem position_ofString (h : source.toList = before ++ after) :
    (ofString source).position (byteLength before) =
      (1 + before.count '\n', (lastLine before).length + 1) := by
  rw [position, ofString, h, locate_splitLines]

theorem textOfLine_ofString (h : source.toList = before ++ after) :
    (ofString source).textOfLine (1 + before.count '\n') =
      String.ofList ((lastLine before ++ firstLine after).rdropWhile (· == '\r')) := by
  rw [textOfLine, ofString, h, Nat.add_sub_cancel_left, getElem?_splitLines]
  rfl

/-! ## The starts of lines -/

/-- Where lines start, the first of them at a given offset. -/
def startsFrom : (start : Nat) → List (List Char) → List Nat
  | _, [] => []
  | start, line :: lines => start :: startsFrom (start + byteLength line + 1) lines

theorem le_of_mem_startsFrom {start : Nat} {lines : List (List Char)} :
    ∀ other ∈ startsFrom start lines, start ≤ other := by
  induction lines generalizing start with
  | nil => exact List.forall_mem_nil _
  | cons line lines ih =>
    refine List.forall_mem_cons.2 ⟨Nat.le_refl _, fun other hother => ?_⟩
    have hmore := ih other hother
    omega

/-- A line that starts at or before an offset is counted with the lines behind it. -/
theorem countP_startsFrom (start : Nat) (line : List Char) (lines : List (List Char))
    (offset : Nat) : (startsFrom start (line :: lines)).countP (· ≤ start + offset) =
      (startsFrom (start + byteLength line + 1) lines).countP (· ≤ start + offset) + 1 :=
  List.countP_cons_of_pos (p := (· ≤ start + offset)) (decide_eq_true (Nat.le_add_right ..))

/-- The line of an offset is counted by the lines that start there or before. -/
theorem locate_fst (number start : Nat) (line : List Char) (lines : List (List Char))
    (offset : Nat) : (locate number (line :: lines) offset).1 + 1 =
      number + (startsFrom start (line :: lines)).countP (· ≤ start + offset) := by
  rw [countP_startsFrom]
  induction lines generalizing number start line offset with
  | nil =>
    rw [locate]
    split <;> rfl
  | cons next lines ih =>
    rw [locate]
    split
    next hinside =>
      have hlater : (startsFrom (start + byteLength line + 1) (next :: lines)).countP
          (· ≤ start + offset) = 0 := by
        rw [List.countP_eq_zero]
        intro other hother
        have hle := le_of_mem_startsFrom other hother
        rw [decide_eq_true_iff]
        omega
      rw [hlater]
      split <;> rfl
    next hbehind =>
      have hoffset : start + offset =
          start + byteLength line + 1 + (offset - byteLength line - 1) := by omega
      rw [ih (number + 1) (start + byteLength line + 1), hoffset, countP_startsFrom]
      omega

/-- The position of an offset is found by the starts of the lines, whatever the offset. -/
theorem position_fst (source : String) (offset : Nat) :
    ((ofString source).position offset).1 =
      (startsFrom 0 (splitLines source.toList)).countP (· ≤ offset) := by
  obtain ⟨lines, hlines⟩ := splitLines_eq_cons source.toList
  have hcount := locate_fst 1 0 (firstLine source.toList) lines offset
  rw [Nat.zero_add, ← hlines, Nat.add_comm 1] at hcount
  exact Nat.succ.inj hcount

/-! ## The order of positions -/

/-- Behind more characters the line is a later one, or the column of the same line is. -/
theorem position_append (h : source.toList = before ++ middle ++ after) (hmiddle : middle ≠ []) :
    Prod.Lex (· < ·) (· < ·) ((ofString source).position (byteLength before))
      ((ofString source).position (byteLength (before ++ middle))) := by
  rw [position_ofString h, position_ofString (h.trans (List.append_assoc ..)), List.count_append]
  by_cases hfeed : '\n' ∈ middle
  · have hmore := List.count_pos_iff.2 hfeed
    exact .left _ _ (by omega)
  · have hmore := List.length_pos_iff.2 hmiddle
    rw [List.count_eq_zero.2 hfeed, lastLine_append_of_not_mem hfeed, List.length_append]
    exact .right _ (by omega)

end SourceLines

/-! ## Offsets between characters -/

/-- An offset between two characters of a text, or at one of its ends. -/
def IsBoundary (text : List Char) (offset : Nat) : Prop :=
  ∃ before after, text = before ++ after ∧ byteLength before = offset

theorem IsBoundary.le_byteLength {text : List Char} {offset : Nat} (h : IsBoundary text offset) :
    offset ≤ byteLength text := by
  obtain ⟨before, after, rfl, rfl⟩ := h
  exact byteLength_le_of_prefix (List.prefix_append before after)

/-- Of two beginnings of a text the shorter one begins the other. -/
theorem exists_middle {before' after' : List Char} (h : before ++ after = before' ++ after')
    (hless : byteLength before < byteLength before') :
    ∃ middle, middle ≠ [] ∧ before' = before ++ middle := by
  rcases List.append_eq_append_iff.1 h with ⟨middle, rfl, -⟩ | ⟨middle, rfl, -⟩
  · refine ⟨middle, ?_, rfl⟩
    rintro rfl
    rw [List.append_nil] at hless
    exact Nat.lt_irrefl _ hless
  · rw [byteLength_append] at hless
    omega

/-- Positions are in the order of their offsets. -/
theorem IsBoundary.position_lt {source : String} {offset offset' : Nat}
    (h : IsBoundary source.toList offset) (h' : IsBoundary source.toList offset')
    (hless : offset < offset') :
    Prod.Lex (· < ·) (· < ·) ((SourceLines.ofString source).position offset)
      ((SourceLines.ofString source).position offset') := by
  obtain ⟨before, after, htext, rfl⟩ := h
  obtain ⟨before', after', htext', rfl⟩ := h'
  obtain ⟨middle, hmiddle, rfl⟩ := exists_middle (htext.symm.trans htext') hless
  exact SourceLines.position_append htext' hmiddle

theorem not_lex_self (position : Nat × Nat) :
    ¬Prod.Lex (· < ·) (· < ·) position position := by
  rw [Prod.lex_def]
  omega

theorem IsBoundary.position_inj {source : String} {offset offset' : Nat}
    (h : IsBoundary source.toList offset) (h' : IsBoundary source.toList offset')
    (heq : (SourceLines.ofString source).position offset =
      (SourceLines.ofString source).position offset') : offset = offset' := by
  rcases Nat.lt_trichotomy offset offset' with hless | hsame | hmore
  · exact absurd (heq ▸ h.position_lt h' hless) (not_lex_self _)
  · exact hsame
  · exact absurd (heq ▸ h'.position_lt h hmore) (not_lex_self _)

/-- A syntax error is shown with the line and column of its start, and with the whole line. -/
theorem SyntaxError.render_eq {source : String} {error : SyntaxError}
    (h : source.toList = before ++ after) (hstart : byteLength before = error.span.start) :
    error.render source =
      toString (1 + before.count '\n') ++ ":" ++ toString ((lastLine before).length + 1) ++ ": " ++
        error.message ++ "\n  " ++
        String.ofList ((lastLine before ++ firstLine after).rdropWhile (· == '\r')) ++ "\n  " ++
        String.ofList (List.replicate (lastLine before).length ' ') ++ "^" := by
  unfold SyntaxError.render
  dsimp only
  rw [← hstart, SourceLines.position_ofString h]
  dsimp only
  rw [SourceLines.textOfLine_ofString h, Nat.add_sub_cancel]

end CommandScript
