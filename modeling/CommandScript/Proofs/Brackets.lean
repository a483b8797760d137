import CommandScript.Proofs.ParserSteps

/-!
# Brackets

Parentheses, square brackets and braces nest.  An automaton with a stack reads the tokens of a text
one by one and keeps the brackets that are open.  It stops at a closer that does not fit, and what
is left on the stack at the end was never closed.

Which bracket is the innermost tells whether line breaks count: between the statements of a block
and outside all brackets they do, and inside parentheses and square brackets they do not.
-/

namespace CommandScript

/-- A pair of brackets. -/
inductive Bracket where
  /-- Parentheses. -/
  | group
  /-- Square brackets. -/
  | list
  /-- Braces. -/
  | block
deriving DecidableEq, Repr

/-- The open brackets behind a token, the innermost first, from those in front of it.  A closer must
fit the innermost one. -/
def TokenKind.turn : TokenKind → List Bracket → Option (List Bracket)
  | .groupOpen, nest => some (.group :: nest)
  | .listOpen, nest => some (.list :: nest)
  | .blockOpen, nest => some (.block :: nest)
  | .groupClose, .group :: nest => some nest
  | .listClose, .list :: nest => some nest
  | .blockClose, .block :: nest => some nest
  | .groupClose, _ | .listClose, _ | .blockClose, _ => none
  | _, nest => some nest

/-- The open brackets behind some tokens. -/
def unclosed : (nest : List Bracket) → List Token → Option (List Bracket)
  | nest, [] => some nest
  | nest, token :: others => (token.kind.turn nest).bind fun nest => unclosed nest others

/-- Whether line breaks count inside some brackets. -/
def breaksCount : List Bracket → Bool
  | .group :: _ | .list :: _ => false
  | _ => true

variable {nest : List Bracket}

@[simp] theorem unclosed_nil : unclosed nest [] = some nest := rfl

theorem unclosed_cons (token : Token) (others : List Token) :
    unclosed nest (token :: others) =
      (token.kind.turn nest).bind fun nest => unclosed nest others :=
  rfl

/-- The brackets that are open are carried from token to token. -/
theorem unclosed_append (tokens others : List Token) :
    unclosed nest (tokens ++ others) =
      (unclosed nest tokens).bind fun nest => unclosed nest others := by
  induction tokens generalizing nest with
  | nil => rfl
  | cons token tokens ih =>
    rw [List.cons_append, unclosed_cons, unclosed_cons, Option.bind_assoc]
    exact Option.bind_congr fun _ _ => ih

/-- Blanks and notes open no bracket and close none. -/
theorem turn_of_isTrivia {kind : TokenKind} (h : kind.isTrivia = true) :
    kind.turn nest = some nest := by
  cases kind with
  | whitespace | note _ => rfl
  | _ => cases h

theorem turn_of_isLineBreak {kind : TokenKind} (h : kind.isLineBreak = true) :
    kind.turn nest = some nest := by
  cases kind with
  | lineBreak => rfl
  | _ => cases h

/-- Line breaks open and close nothing. -/
theorem unclosed_lineBreaks {tokens : List Token}
    (h : ∀ token ∈ tokens, token.kind.isLineBreak = true) : unclosed nest tokens = some nest := by
  induction tokens with
  | nil => rfl
  | cons token others ih =>
    obtain ⟨htoken, hothers⟩ := List.forall_mem_cons.1 h
    rw [unclosed_cons, turn_of_isLineBreak htoken, Option.bind_some, ih hothers]

/-- What means nothing opens and closes nothing. -/
theorem unclosed_meaningful (tokens : List Token) :
    unclosed nest (Parser.meaningful tokens) = unclosed nest tokens := by
  induction tokens generalizing nest with
  | nil => rfl
  | cons token others ih =>
    cases htrivia : token.kind.isTrivia with
    | true =>
      rw [Parser.meaningful_cons_trivia htrivia, ih, unclosed_cons, turn_of_isTrivia htrivia,
        Option.bind_some]
    | false =>
      rw [Parser.meaningful_cons htrivia, unclosed_cons, unclosed_cons]
      exact Option.bind_congr fun _ _ => ih

end CommandScript
