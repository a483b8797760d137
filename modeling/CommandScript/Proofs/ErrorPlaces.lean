import CommandScript.Parser
import CommandScript.Proofs.ParserSteps
import CommandScript.Proofs.Positions

/-!
# Where syntax errors are found

A syntax error is found at a token, at the end of the code, or at a whole list or record.  Tokens
and the end of the code stand between characters, one behind the other.  A list or record reaches
from its bracket to the end of the last token that was read, and that one is not before the bracket:
the parser goes forward only.

A parser *points* into a text when it keeps to the order of the tokens and fails only at places in
the text.  There is one rule for each way to build a parser, and one statement for each rule of the
grammar.
-/

namespace CommandScript

/-! ## Places in a text -/

/-- A span that starts and stops between characters of a text. -/
structure Span.Marks (span : Span) (text : List Char) : Prop where
  /-- It starts between characters. -/
  start : IsBoundary text span.start
  /-- It stops between characters. -/
  stop : IsBoundary text span.stop
  /-- It does not stop before it starts. -/
  ordered : span.start ≤ span.stop

/-- A text that is split after some bytes is the two parts, and the first has that many bytes. -/
theorem splitBytes?_eq_some {count : Nat} {text front rest : List Char}
    (h : splitBytes? count text = some (front, rest)) :
    text = front ++ rest ∧ byteLength front = count := by
  induction text generalizing count front with
  | nil =>
    cases count with
    | zero =>
      cases h
      exact ⟨rfl, rfl⟩
    | succ count => cases h
  | cons c text ih =>
    cases count with
    | zero =>
      cases h
      exact ⟨rfl, rfl⟩
    | succ count =>
      rw [splitBytes?] at h
      split at h
      next hfits =>
        obtain ⟨⟨others, rest'⟩, hothers, hfront⟩ := Option.map_eq_some_iff.1 h
        cases hfront
        obtain ⟨rfl, hlength⟩ := ih hothers
        exact ⟨rfl, by rw [byteLength_cons, hlength]; omega⟩
      next => cases h

/-- What shows a slice of a text starts and stops between characters. -/
theorem Token.Shows.marks {text : List Char} {token : Token} (h : token.Shows text) :
    token.span.Marks text := by
  obtain ⟨slice, hslice, -⟩ := h
  simp only [sliceBytes?, Option.bind_eq_bind, Option.bind_eq_some_iff] at hslice
  obtain ⟨⟨front, rest⟩, hfront, hslice⟩ := hslice
  split at hslice
  next => cases hslice
  next hordered =>
    obtain ⟨⟨piece, back⟩, hpiece, -⟩ := Option.bind_eq_some_iff.1 hslice
    obtain ⟨rfl, hstart⟩ := splitBytes?_eq_some hfront
    obtain ⟨rfl, hlength⟩ := splitBytes?_eq_some hpiece
    refine ⟨⟨front, _, rfl, hstart⟩, ⟨front ++ piece, back, (List.append_assoc ..).symm, ?_⟩,
      Nat.le_of_not_lt hordered⟩
    rw [byteLength_append]
    omega

/-- Tokens side by side stand one behind the other. -/
theorem Tile.pairwise {start stop : Nat} {tokens : List Token} (h : Tile start tokens stop) :
    tokens.Pairwise (fun token later => token.span.stop ≤ later.span.start) ∧
      start ≤ stop ∧ ∀ token ∈ tokens, start ≤ token.span.start ∧ token.span.stop ≤ stop := by
  induction tokens generalizing start with
  | nil => exact ⟨.nil, Nat.le_of_eq h, List.forall_mem_nil _⟩
  | cons token tokens ih =>
    obtain ⟨hstart, hless, hrest⟩ := h
    obtain ⟨hpairwise, hle, hinside⟩ := ih hrest
    refine ⟨.cons (fun later hlater => (hinside later hlater).1) hpairwise, by omega,
      List.forall_mem_cons.2 ⟨⟨Nat.le_of_eq hstart.symm, hle⟩, fun later hlater => ?_⟩⟩
    have hlater' := hinside later hlater
    omega

namespace Parser

/-- The tokens that are left stand in a text one behind the other, behind those that were read, and
the end mark stands behind them. -/
structure State.Stands (text : List Char) (state : State) : Prop where
  /-- They stand in the text. -/
  marked : ∀ token ∈ state.rest ++ [state.finish], token.span.Marks text
  /-- They stand one behind the other. -/
  ordered : (state.rest ++ [state.finish]).Pairwise fun token later =>
    token.span.stop ≤ later.span.start
  /-- They stand behind the tokens that were read. -/
  ahead : ∀ token ∈ state.rest ++ [state.finish], state.lastStop ≤ token.span.start
  /-- The end mark has no characters. -/
  finish : state.finish.span.stop ≤ state.finish.span.start
  /-- The last token stopped between characters. -/
  boundary : IsBoundary text state.lastStop

variable {text : List Char} {state : State}

/-- How line breaks count does not move the parser. -/
theorem State.Stands.counting (h : state.Stands text) (flag : Bool) :
    State.Stands text { state with lineBreaks := flag } :=
  ⟨h.marked, h.ordered, h.ahead, h.finish, h.boundary⟩

/-- What the parser sees is a part of what it has left. -/
theorem State.visible_sublist (state : State) : state.visible.Sublist state.rest := by
  unfold State.visible
  split
  · exact .refl _
  · exact List.dropWhile_sublist _

/-- The current token is one of those that are left, or the mark of the end. -/
theorem State.current_mem (state : State) : state.current ∈ state.rest ++ [state.finish] := by
  unfold State.current
  cases hvisible : state.visible with
  | nil => exact List.mem_append_right _ (List.mem_singleton_self _)
  | cons token others =>
    have hmem : token ∈ state.visible := hvisible ▸ List.mem_cons_self
    exact List.mem_append_left _ (state.visible_sublist.mem hmem)

/-- So its span is in the text. -/
theorem State.Stands.current (h : state.Stands text) : state.current.span.Marks text :=
  h.marked _ state.current_mem

/-- A state behind one of the tokens that are left. -/
theorem State.Stands.behind {token : Token} {others : List Token} (h : state.Stands text)
    (hleft : (token :: others).Sublist state.rest) :
    State.Stands text { state with rest := others, lastStop := token.span.stop } := by
  have hall : (token :: (others ++ [state.finish])).Sublist (state.rest ++ [state.finish]) :=
    hleft.append (.refl [state.finish])
  obtain ⟨hahead, hordered⟩ := List.pairwise_cons.1 (h.ordered.sublist hall)
  exact ⟨fun later hlater => h.marked later (hall.mem (List.mem_cons_of_mem _ hlater)), hordered,
    hahead, h.finish, (h.marked token (hall.mem List.mem_cons_self)).stop⟩

/-- The end mark is read again and again. -/
theorem State.Stands.atEnd (h : state.Stands text) :
    State.Stands text { state with rest := [], lastStop := state.finish.span.stop } := by
  have hfinish : state.finish.span.Marks text := h.marked _ (by simp)
  exact ⟨List.forall_mem_singleton.2 hfinish, List.pairwise_singleton ..,
    List.forall_mem_singleton.2 h.finish, h.finish, hfinish.stop⟩

/-- The parser reads the token it stands at, and stands behind it. -/
theorem State.Stands.advance (h : state.Stands text) :
    ∃ after, Parser.advance state = .done state.current after ∧ after.Stands text ∧
      after.lastStop = state.current.span.stop := by
  have hvisible := state.visible_sublist
  unfold Parser.advance State.current
  cases hleft : state.visible with
  | nil => exact ⟨_, rfl, h.atEnd, rfl⟩
  | cons token others =>
    rw [hleft] at hvisible
    exact ⟨_, rfl, h.behind hvisible, rfl⟩

/-! ## Parsers that point into a text -/

/-- How reading ended that went on from a place in a text: further on, or with an error in the
text. -/
def Result.Points {α : Type} (text : List Char) (place : Nat) : Result α → Prop
  | .done _ after => after.Stands text ∧ place ≤ after.lastStop
  | .failed error _ => error.span.Marks text
  | .outOfFuel => True

/-- What points behind a place points behind any earlier one. -/
theorem Result.Points.mono {α : Type} {result : Result α} {earlier place : Nat}
    (h : result.Points text place) (hle : earlier ≤ place) : result.Points text earlier := by
  cases result with
  | done value after => exact ⟨h.1, Nat.le_trans hle h.2⟩
  | failed error after => exact h
  | outOfFuel => trivial

end Parser

/-- Behind a place in a text the parser keeps to the order of the tokens, and fails only at places
in the text. -/
def Parser.Points {α : Type} (text : List Char) (least : Nat) (parser : Parser α) : Prop :=
  ∀ state : Parser.State, state.Stands text → least ≤ state.lastStop →
    (parser state).Points text state.lastStop

namespace Parser

namespace Points

variable {α β : Type} {least : Nat}

theorem pure {result : α} : (Pure.pure result : Parser α).Points text least :=
  fun _ h _ => ⟨h, Nat.le_refl _⟩

/-- An error with a span in the text. -/
theorem fail {error : SyntaxError} (h : error.span.Marks text) :
    (Parser.fail error : Parser α).Points text least :=
  fun _ _ _ => h

theorem exhausted : (Parser.exhausted : Parser α).Points text least :=
  fun _ _ _ => trivial

/-- A failure at the token to read next. -/
theorem failHere {error : State → SyntaxError}
    (h : ∀ state, (error state).span = state.current.span) :
    Parser.Points (α := α) text least fun state => .failed (error state) state := by
  intro state hstands _
  change (error state).span.Marks text
  rw [h]
  exact hstands.current

/-- A missing token is told at the token that stands in its place. -/
theorem expected {what : String} : (Parser.expected what : Parser α).Points text least :=
  failHere fun _ => rfl

/-- In a sequence both parts point into the text; the second starts where the first one ended. -/
theorem bind {first : Parser α} {next : α → Parser β} (h : first.Points text least)
    (hnext : ∀ value, (next value).Points text least) : (first >>= next).Points text least := by
  intro state hstands hleast
  have hfirst := h state hstands hleast
  cases hrun : first state with
  | done value middle =>
    rw [hrun] at hfirst
    obtain ⟨hmiddle, hle⟩ := hfirst
    rw [bind_of_done hrun]
    exact (hnext value middle hmiddle (Nat.le_trans hleast hle)).mono hle
  | failed error middle =>
    rw [hrun] at hfirst
    rw [bind_of_failed hrun]
    exact hfirst
  | outOfFuel =>
    have hnone : (first >>= next) state = .outOfFuel := by simp [Bind.bind, hrun]
    rw [hnone]
    trivial

/-- What is only looked at is not read. -/
theorem look {look : State → β} {next : β → Parser α}
    (h : ∀ seen, (next seen).Points text least) :
    Parser.Points text least ((fun state => .done (look state) state : Parser β) >>= next) :=
  bind (fun _ hstands _ => ⟨hstands, Nat.le_refl _⟩) h

/-- A token that is read stands behind those that were read before. -/
theorem taken : advance.Points text least := by
  intro state hstands _
  obtain ⟨after, hread, hafter, hstop⟩ := hstands.advance
  have hahead := hstands.ahead _ state.current_mem
  have hordered := hstands.current.ordered
  rw [hread]
  exact ⟨hafter, by omega⟩

/-- Reading goes on behind the token that was read. -/
theorem read {next : Token → Parser α}
    (h : ∀ token, token.span.Marks text → (next token).Points text token.span.stop) :
    (advance >>= next).Points text least := by
  intro state hstands hleast
  obtain ⟨after, hread, hafter, hstop⟩ := hstands.advance
  have htaken := taken state hstands hleast
  rw [hread] at htaken
  rw [bind_of_done hread]
  exact (h _ hstands.current after hafter (Nat.le_of_eq hstop.symm)).mono htaken.2

/-- How line breaks count has no part in where errors point. -/
theorem countingLineBreaks {counting : Bool} {parser : Parser α} (h : parser.Points text least) :
    (Parser.countingLineBreaks counting parser).Points text least := by
  intro state hstands hleast
  have hparser := h _ (hstands.counting counting) hleast
  unfold Parser.countingLineBreaks
  cases hrun : parser { state with lineBreaks := counting } with
  | done result after =>
    rw [hrun] at hparser
    exact ⟨hparser.1.counting _, hparser.2⟩
  | failed error after =>
    rw [hrun] at hparser
    exact hparser
  | outOfFuel => trivial

/-- The last token that was read stopped between characters. -/
theorem stopped {next : Nat → Parser α}
    (h : ∀ stop, IsBoundary text stop → least ≤ stop → (next stop).Points text least) :
    (lastStop >>= next).Points text least := by
  intro state hstands hleast
  exact h state.lastStop hstands.boundary hleast state hstands hleast

end Points

variable {g : Grammar} {least : Nat}

/-- A grammar whose expressions and operands point into a text. -/
structure Grammar.Points (g : Grammar) (text : List Char) : Prop where
  /-- Its expressions do. -/
  expression (power : Int) (least : Nat) : (g.expression power).Points text least
  /-- Its operands do. -/
  operand (least : Nat) : g.operand.Points text least

/-! ## Elements and collections -/

theorem element_points (hg : g.Points text) : (element g).Points text least := by
  refine .look fun kind => .bind (hg.expression _ _) fun first => .look fun kind => ?_
  split
  next => exact .read fun _ _ => .bind (hg.expression _ _) fun value => .pure
  next => exact .pure

theorem elementsLoop_points (hg : g.Points text) (closer : Closer) (fuel : Nat) :
    (elementsLoop g closer fuel).Points text least := by
  induction fuel generalizing least with
  | zero => exact .exhausted
  | succ fuel ih =>
    refine .bind (element_points hg) fun first => .look fun kind => ?_
    split
    next => exact .read fun _ _ => .bind ih fun others => .pure
    next =>
      split
      next => exact .read fun _ _ => .pure
      next => exact .expected

/-- Elements up to a closing bracket. -/
theorem elements_points (hg : g.Points text) (closer : Closer) :
    (elements g closer).Points text least := by
  refine .look fun kind => ?_
  split
  next => exact .read fun _ _ => .pure
  next => exact elementsLoop_points hg closer g.rounds

theorem arguments_points (hg : g.Points text) : (arguments g).Points text least :=
  .countingLineBreaks (.bind (elements_points hg .group) fun _ => .pure)

/-- The error of a list or record is about the whole of it. -/
theorem span_of_collectionOf {found : List Element} {span : Span} {error : SyntaxError}
    (h : collectionOf found span = .error error) : error.span = span := by
  unfold collectionOf at h
  repeat'
    split at h
  all_goals
    cases h
  all_goals rfl

/-- A fixed token that is missing is told at the one that stands there. -/
theorem expect_points (test : TokenKind → Bool) (what : String) :
    (expect test what).Points text least := by
  refine .look fun kind => ?_
  split
  next => exact .taken
  next => exact .expected

/-- An error about the whole collection points at it from its opening bracket. -/
theorem collection_points {start : Nat} (hg : g.Points text) (hstart : IsBoundary text start)
    (hle : start ≤ least) : (collection g start).Points text least := by
  refine .countingLineBreaks (.look fun kind => ?_)
  split
  next => exact .read fun _ _ => .bind (expect_points _ _) fun _ => .pure
  next =>
    refine .bind (elements_points hg .list) fun found => .stopped fun stop hstop hleast => ?_
    split
    next => exact .pure
    next error herror =>
      -- The bracket was read before the elements, and the elements only go on from there.
      refine .fail ?_
      rw [span_of_collectionOf herror]
      exact ⟨hstart, hstop, Nat.le_trans hle hleast⟩

/-! ## Groups, blocks and statements -/

theorem group_points (hg : g.Points text) : (group g).Points text least :=
  .countingLineBreaks (.bind (hg.expression _ _) fun _ => .bind (expect_points _ _) fun _ => .pure)

theorem skipSeparators_points (fuel : Nat) : (skipSeparators fuel).Points text least := by
  induction fuel generalizing least with
  | zero => exact .exhausted
  | succ fuel ih =>
    refine .look fun kind => ?_
    split
    next => exact .read fun _ _ => ih
    next => exact .pure

theorem statementsLoop_points (hg : g.Points text) (closer : Closer) (fuel : Nat) :
    (statementsLoop g closer fuel).Points text least := by
  induction fuel generalizing least with
  | zero => exact .exhausted
  | succ fuel ih =>
    refine .bind (skipSeparators_points _) fun _ => .look fun kind => ?_
    split
    next => exact .read fun _ _ => .pure
    next =>
      split
      next => exact .expected
      next =>
        refine .bind (hg.expression _ _) fun first => .look fun kind => ?_
        split
        next => exact .bind ih fun others => .pure
        next => exact .expected

/-- The statements of a block or a script. -/
theorem statements_points (hg : g.Points text) (closer : Closer) :
    (statements g closer).Points text least :=
  .countingLineBreaks (statementsLoop_points hg closer g.rounds)

/-- A keyword without its block is told at the token that stands there. -/
theorem requiredBlock_points (hg : g.Points text) (keyword : String) :
    (requiredBlock g keyword).Points text least := by
  refine .look fun kind => ?_
  cases kind with
  | blockOpen => exact .read fun _ _ => statements_points hg .block
  | _ => exact .failHere fun _ => rfl

/-! ## Definitions of handlers -/

theorem takeWord_points (word : String) : (takeWord word).Points text least := by
  refine .look fun kind => ?_
  split
  next => exact .read fun _ _ => .pure
  next => exact .pure

theorem takeName_points (what : String) : (takeName what).Points text least := by
  refine .look fun kind => ?_
  split
  next => exact .read fun _ _ => .pure
  next => exact .expected

theorem coercionAfter_points (hg : g.Points text) (word : String) :
    (coercionAfter g word).Points text least := by
  refine .bind (takeWord_points word) fun came => ?_
  split
  next => exact hg.operand _
  next => exact .pure

theorem parameter_points (hg : g.Points text) : (parameter g).Points text least := by
  refine .bind (takeName_points _) fun label => .look fun kind => ?_
  have hrest (place : Nat) (binding : String) : Points text place do
      let wanted ← coercionAfter g "as"
      return Value.list [.ofString label, .ofString binding, wanted] :=
    .bind (coercionAfter_points hg _) fun _ => .pure
  dsimp only
  split
  next => exact .read fun _ _ => .bind (takeName_points _) (hrest _)
  next => exact .bind .pure (hrest _)

theorem parametersLoop_points (hg : g.Points text) (fuel : Nat) :
    (parametersLoop g fuel).Points text least := by
  induction fuel generalizing least with
  | zero => exact .exhausted
  | succ fuel ih =>
    refine .bind (parameter_points hg) fun first => .look fun kind => ?_
    split
    next => exact .read fun _ _ => .bind ih fun others => .pure
    next => exact .read fun _ _ => .pure
    next => exact .expected

theorem parameters_points (hg : g.Points text) : (parameters g).Points text least := by
  refine .bind (expect_points _ _) fun _ => .countingLineBreaks (.look fun kind => ?_)
  split
  next => exact .read fun _ _ => .pure
  next => exact parametersLoop_points hg g.rounds

/-- A definition of a handler fails in one of its parts. -/
theorem definitionCommand_points (hg : g.Points text) (op : Operator) (isEvent : Bool) :
    (definitionCommand g op isEvent).Points text least :=
  .bind (takeName_points _) fun _ => .bind (parameters_points hg) fun _ =>
    .bind (coercionAfter_points hg _) fun _ => .bind (requiredBlock_points hg _) fun _ => .pure

/-! ## Operators -/

/-- An operator that can't start an expression is told at its own token. -/
theorem startingOperator_points (hg : g.Points text) {token : Token}
    (htoken : token.span.Marks text) (op : Operator) :
    (startingOperator g token op).Points text least := by
  unfold startingOperator
  split
  next => exact .pure
  next => exact .bind (hg.expression _ _) fun _ => .pure
  next =>
    exact .bind (hg.expression _ _) fun _ => .bind (requiredBlock_points hg _) fun _ => .pure
  next => exact definitionCommand_points hg op false
  next => exact definitionCommand_points hg op true
  all_goals exact .fail htoken

/-- So is one that can't go on with an expression. -/
theorem continuingOperator_points (hg : g.Points text) {token : Token}
    (htoken : token.span.Marks text) (left : Value) (op : Operator) :
    (continuingOperator g token left op).Points text least := by
  unfold continuingOperator
  split
  next => exact .bind (hg.expression _ _) fun _ => .pure
  next => exact .bind (hg.expression _ _) fun _ => .pure
  next => exact .pure
  all_goals exact .fail htoken

/-! ## Operands and expressions -/

/-- A name by itself never fails; its arguments may. -/
theorem nameOrCommand_points (hg : g.Points text) (name : String) :
    (nameOrCommand g name).Points text least := by
  refine .look fun kind => .look fun adjacent => ?_
  split
  next => exact .read fun _ _ => .bind (arguments_points hg) fun _ => .pure
  next =>
    split
    next => exact .bind (hg.operand _) fun _ => .pure
    next => exact .pure

/-- A token that starts no operand is told at its own span. -/
theorem operandWith_points (hg : g.Points text) : (operandWith g).Points text least := by
  refine .read fun token htoken => ?_
  split
  next => exact .pure
  next => exact .pure
  next => exact .pure
  next => exact nameOrCommand_points hg _
  next => exact group_points hg
  next => exact collection_points hg htoken.start htoken.ordered
  next => exact .bind (statements_points hg .block) fun _ => .pure
  next =>
    split
    next op _ => exact startingOperator_points hg htoken op
    next => exact .fail htoken
  next => exact .fail htoken

theorem operation_points (hg : g.Points text) (left : Value) :
    (operation g left).Points text least := by
  refine .read fun token htoken => ?_
  split
  next => exact .bind (hg.expression _ _) fun _ => .pure
  next =>
    split
    next op _ => exact continuingOperator_points hg htoken left op
    next => exact .fail htoken
  next => exact .fail htoken

/-- Each round of operators starts where the last one ended. -/
theorem operations_points (hg : g.Points text) (power : Int) (fuel : Nat) (left : Value) :
    (operations g power fuel left).Points text least := by
  induction fuel generalizing least left with
  | zero => exact .exhausted
  | succ fuel ih =>
    refine .look fun kind => ?_
    split
    next =>
      split
      next => exact .pure
      next => exact .bind (operation_points hg left) fun next => ih next
    next => exact .pure

/-- With any fuel the grammar points into the text.  The induction is on the fuel, as the grammar is
built. -/
theorem grammar_points (text : List Char) (fuel : Nat) : (grammar fuel).Points text := by
  induction fuel with
  | zero => exact ⟨fun _ _ => .exhausted, fun _ => .exhausted⟩
  | succ fuel ih =>
    refine ⟨fun power _ => ?_, fun _ => operandWith_points ih⟩
    exact .bind (ih.operand _) fun left => operations_points ih power fuel left

/-! ## Whole texts -/

/-- A parser that has the grammar's fuel from what is left. -/
theorem withGrammar_points {α : Type} {parser : Grammar → Parser α}
    (h : ∀ g, g.Points text → (parser g).Points text least) :
    (withGrammar parser).Points text least :=
  fun state => h _ (grammar_points text state.fuel) state

/-- A script points into its text. -/
theorem script_points : script.Points text least :=
  withGrammar_points fun _ hg => statements_points hg .code

theorem skipTrailing_points (fuel : Nat) : (skipTrailing fuel).Points text least := by
  induction fuel generalizing least with
  | zero => exact .exhausted
  | succ fuel ih =>
    refine .look fun kind => ?_
    split
    next => exact .read fun _ _ => ih
    next => exact .pure

/-- So does an expression by itself, also when something is left behind it. -/
theorem loneExpression_points : loneExpression.Points text least :=
  .bind (withGrammar_points fun _ hg => hg.expression _ _) fun _ =>
    .bind (withGrammar_points fun g _ => skipTrailing_points g.rounds) fun _ =>
      .bind (expect_points _ _) fun _ => .pure

variable {registry : Registry} {source : String}

/-- The tokens of a source text stand in it. -/
theorem State.ofSource_stands (registry : Registry)
    (hsize : byteLength source.toList ≤ Span.maxOffset) :
    (State.ofSource registry source).Stands source.toList := by
  have hwhole : ∀ lexeme ∈ Lexer.lexemesFrom registry false source.toList, Lexer.IsWhole lexeme :=
    fun _ => Lexer.isWhole_of_mem
  have htext := Lexer.textOf_lexemesFrom registry false source.toList
  have htokens := Lexer.tokensFrom_eq_placeFrom registry 0 false source.toList
  have htile := Lexer.tile_placeFrom hwhole (by rwa [htext, Nat.zero_add])
  have hshows := Lexer.shows_placeFrom hwhole (by rwa [List.nil_append, htext])
  rw [htext, Nat.zero_add] at htile
  rw [List.nil_append, htext] at hshows
  rw [State.ofSource_eq htokens, Span.ofOffsets, Nat.zero_add, Nat.min_eq_left hsize]
  obtain ⟨hpairwise, -, hinside⟩ := htile.pairwise
  have hend : IsBoundary source.toList (byteLength source.toList) :=
    ⟨source.toList, [], (List.append_nil _).symm, rfl⟩
  have hmeaningful : (meaningful (Lexer.placeFrom 0
      (Lexer.lexemesFrom registry false source.toList))).Sublist _ := List.filter_sublist
  constructor
  case marked =>
    refine List.forall_mem_append.2 ⟨fun token htoken => ?_, List.forall_mem_singleton.2 ?_⟩
    · exact (hshows token (hmeaningful.mem htoken)).2.marks
    · exact ⟨hend, hend, Nat.le_refl _⟩
  case ordered =>
    refine List.pairwise_append.2 ⟨hpairwise.sublist hmeaningful, List.pairwise_singleton .., ?_⟩
    intro token htoken
    exact List.forall_mem_singleton.2 (hinside token (hmeaningful.mem htoken)).2
  case ahead => exact fun _ _ => Nat.zero_le _
  case finish => exact Nat.le_refl _
  case boundary => exact ⟨[], source.toList, rfl, rfl⟩

/-- A parser that points into a source text fails only in it, with or without fuel. -/
theorem runOn_marks {α : Type} {parser : Parser α} {error : SyntaxError}
    (h : parser.Points source.toList 0) (hsize : byteLength source.toList ≤ Span.maxOffset)
    (hrun : runOn parser registry source = .error error) : error.span.Marks source.toList := by
  have hstands := State.ofSource_stands registry hsize
  have hends := h _ hstands (Nat.zero_le _)
  unfold runOn at hrun
  dsimp only at hrun
  split at hrun
  next => cases hrun
  next hfailed =>
    cases hrun
    rw [hfailed] at hends
    exact hends
  next =>
    -- Without fuel the error is told at the first token.
    cases hrun
    exact hstands.current

end Parser

/-! ## Syntax errors -/

/-- A syntax error is about a part of a source text, and is shown with the line and column of its
start and with the whole line. -/
structure SyntaxError.PlacedIn (error : SyntaxError) (source : String) : Prop where
  /-- The part starts and stops between characters. -/
  marks : error.span.Marks source.toList
  /-- It does not reach beyond the text. -/
  inside : error.span.stop ≤ byteLength source.toList
  /-- Its start has a line and a column. -/
  shown : ∃ before after, source.toList = before ++ after ∧
    byteLength before = error.span.start ∧
    error.render source =
      toString (1 + before.count '\n') ++ ":" ++ toString ((lastLine before).length + 1) ++ ": " ++
        error.message ++ "\n  " ++
        String.ofList ((lastLine before ++ firstLine after).rdropWhile (· == '\r')) ++ "\n  " ++
        String.ofList (List.replicate (lastLine before).length ' ') ++ "^"

/-- A span in the text has a line and a column. -/
theorem SyntaxError.PlacedIn.of_marks {error : SyntaxError} {source : String}
    (h : error.span.Marks source.toList) : error.PlacedIn source := by
  obtain ⟨before, after, htext, hstart⟩ := h.start
  exact ⟨h, h.stop.le_byteLength, before, after, htext, hstart, render_eq htext hstart⟩

/-- The positions of a source text. -/
structure SourceLines.TellsApart (source : String) : Prop where
  /-- A line is counted by the line feeds before an offset, and a column by the characters behind
  the last of them. -/
  position {before after : List Char} : source.toList = before ++ after →
    (ofString source).position (byteLength before) =
      (1 + before.count '\n', (lastLine before).length + 1)
  /-- The line of any offset is also found by where the lines start. -/
  line (offset : Nat) : ((ofString source).position offset).1 =
    (startsFrom 0 (splitLines source.toList)).countP (· ≤ offset)
  /-- Positions are in the order of their offsets. -/
  increasing {offset offset' : Nat} : IsBoundary source.toList offset →
    IsBoundary source.toList offset' → offset < offset' →
    Prod.Lex (· < ·) (· < ·) ((ofString source).position offset)
      ((ofString source).position offset')
  /-- Other offsets between characters have other positions. -/
  distinct {offset offset' : Nat} : IsBoundary source.toList offset →
    IsBoundary source.toList offset' → offset ≠ offset' →
    (ofString source).position offset ≠ (ofString source).position offset'

/-- Every syntax error of a source text whose offsets fit into a span, whether it was read as a
script or as an expression and whatever the operators, is about a part of the text, and is shown
where it is.  Offsets between characters are told apart by their lines and columns. -/
theorem syntax_errors_placed (registry : Registry) {source : String}
    (hsize : byteLength source.toList ≤ Span.maxOffset) :
    (∀ error, readScript registry source = .error error → error.PlacedIn source) ∧
    (∀ error, readExpression registry source = .error error → error.PlacedIn source) ∧
    SourceLines.TellsApart source := by
  refine ⟨fun error h => ?_, fun error h => ?_, ?_⟩
  · exact .of_marks (Parser.runOn_marks Parser.script_points hsize h)
  · exact .of_marks (Parser.runOn_marks Parser.loneExpression_points hsize h)
  · exact ⟨SourceLines.position_ofString, SourceLines.position_fst source,
      fun h h' => h.position_lt h', fun h h' hne heq => hne (h.position_inj h' heq)⟩

/-- A list in the second line, behind a letter of two bytes, mixes keys and other items.  The error
is about the whole list. -/
theorem syntax_errors_placed_list :
    byteLength "é\n [a: 1, b]".toList ≤ Span.maxOffset ∧
      ∃ error, readScript .empty "é\n [a: 1, b]" = .error error ∧ error.span = ⟨4, 13⟩ ∧
        error.PlacedIn "é\n [a: 1, b]" ∧
        (SourceLines.ofString "é\n [a: 1, b]").position 4 = (2, 2) := by
  have hsize : byteLength "é\n [a: 1, b]".toList ≤ Span.maxOffset := by decide
  obtain ⟨hscript, -, hpositions⟩ := syntax_errors_placed .empty hsize
  have hspan : (match readScript .empty "é\n [a: 1, b]" with
      | .error error => decide (error.span = ⟨4, 13⟩)
      | .ok _ => false) = true := by decide +kernel
  have hsplit : "é\n [a: 1, b]".toList = "é\n ".toList ++ "[a: 1, b]".toList := by decide
  cases hread : readScript .empty "é\n [a: 1, b]" with
  | ok statements =>
    rw [hread] at hspan
    cases hspan
  | error error =>
    rw [hread] at hspan
    exact ⟨hsize, error, rfl, of_decide_eq_true hspan, hscript error hread,
      hpositions.position hsplit⟩

end CommandScript
