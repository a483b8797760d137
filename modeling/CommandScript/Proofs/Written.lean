import CommandScript.Proofs.Lexing
import CommandScript.Proofs.ParserSteps

/-!
# Code that was written

A token is *faithful* when it says what its characters say: a number is read as that number on its
own, a name could be written between quotes, and an operator is the one that the registry knows.

A value is *written* when it has the form that code has.  Its numbers, names and operators come from
faithful tokens, and its commands have the operands that their operators take.  Everything that is
read from faithful tokens is written.

The parsers here also tell how far they get.  They leave some of the tokens at the end, and an
expression takes at least one.
-/

namespace CommandScript

/-- A text that could be a name between quotes. -/
abbrev IsName (text : String) : Prop := Lexer.IsQuotable text.toList

/-- A token that says what its characters say.  The end mark has none. -/
def TokenKind.Faithful (registry : Registry) : TokenKind → Prop
  | .number literal scalar => Numeral.scan? literal.toList = some ⟨literal.toList.length, scalar⟩
  | .tag name | .identifier name _ => IsName name
  | .operator found => registry.find? found.text = some found
  | .endOfCode => False
  | _ => True

/-- A value that has the form of code. -/
inductive Value.Written (registry : Registry) : Value → Prop where
  | number {literal : String} {scalar : Scalar} :
      Numeral.scan? literal.toList = some ⟨literal.toList.length, scalar⟩ →
      Written registry (.text (.number literal scalar))
  | text {content : String} : Written registry (.ofString content)
  | tag {name : String} : IsName name → Written registry (.tag (.ofString name))
  | identifier {name : String} : IsName name → Written registry (.identifier (.ofString name))
  | boolean {flag : Bool} : Written registry (.boolean flag)
  | coercion {given : Coercion} : Written registry (.coercion given)
  | list {items : List Value} : (∀ item ∈ items, Written registry item) →
      Written registry (.list items)
  | record {found : Record} : Written registry (.record found)
  | pair {key value : Value} : Written registry key → Written registry value →
      Written registry (.pair key value)
  | block {items : List Value} : (∀ item ∈ items, Written registry item) →
      Written registry (.block items)
  | call {name : String} {values : List Value} : IsName name →
      (∀ value ∈ values, Written registry value) →
      Written registry (.command (.ofValues (.ofString name) values))
  | definition {name : Name} {first second third fourth : Value} {isEvent : Bool} :
      Written registry (.command (.ofValues name [first, second, third, fourth, .boolean isEvent]))
  | atom {key : String} {op : Operator} : registry.starting? key = some op → op.form = .atom →
      Written registry (Parser.commandWith op .atom [])
  | before {key : String} {op : Operator} {operand : Value} :
      registry.starting? key = some op → op.form = .before → Written registry operand →
      Written registry (Parser.commandWith op .before [operand])
  | keyword {key : String} {op : Operator} {operand : Value} {body : List Value} :
      registry.starting? key = some op → op.form = .keywordBlock → Written registry operand →
      (∀ item ∈ body, Written registry item) →
      Written registry (Parser.commandWith op .keyword [operand, .block body])
  | between {key : String} {op : Operator} {left right : Value} :
      registry.continuing? key = some op → op.form = .between ∨ op.form = .betweenRight →
      Written registry left → Written registry right →
      Written registry (Parser.commandWith op .between [left, right])
  | after {key : String} {op : Operator} {operand : Value} :
      registry.continuing? key = some op → op.form = .after → Written registry operand →
      Written registry (Parser.commandWith op .after [operand])

namespace Parser

variable {registry : Registry} {α β : Type} {P : α → Prop} {Q : β → Prop}

/-- A state in front of faithful tokens. -/
structure State.Faithful (registry : Registry) (state : State) : Prop where
  /-- Behind all tokens stands the end mark. -/
  finish : state.finish.kind = .endOfCode
  /-- The tokens are faithful. -/
  rest : ∀ token ∈ state.rest, token.kind.Faithful registry

/-- What the parser sees is the end of what it has left: only line breaks are passed over. -/
theorem State.visible_suffix (state : State) : state.visible <:+ state.rest := by
  unfold State.visible
  split
  next => exact List.suffix_rfl
  next => exact List.dropWhile_suffix _

/-- A state further on. -/
structure State.Leads (state after : State) : Prop where
  /-- The end mark stays. -/
  finish : after.finish = state.finish
  /-- Line breaks count as before. -/
  lineBreaks : after.lineBreaks = state.lineBreaks
  /-- The tokens that are left are the last ones. -/
  rest : after.rest <:+ state.rest

theorem State.Leads.refl (state : State) : state.Leads state :=
  ⟨rfl, rfl, List.suffix_rfl⟩

/-- Two runs after each other take tokens off the same front. -/
theorem State.Leads.trans {state middle after : State} (h : state.Leads middle)
    (h' : middle.Leads after) : state.Leads after :=
  ⟨h'.finish.trans h.finish, h'.lineBreaks.trans h.lineBreaks, h'.rest.trans h.rest⟩

/-- The tokens that are left stay faithful, being a part of what was there. -/
theorem State.Leads.faithful {state after : State} (h : state.Leads after)
    (hstate : state.Faithful registry) : after.Faithful registry :=
  ⟨h.finish ▸ hstate.finish, fun token htoken => hstate.rest token (h.rest.subset htoken)⟩

/-- The parser goes forward, and what it reads from faithful tokens has a property. -/
def Takes (registry : Registry) (P : α → Prop) (parser : Parser α) : Prop :=
  ∀ state result after, state.Faithful registry → parser state = .done result after →
    state.Leads after ∧ P result

namespace Takes

/-- A parser that takes nothing returns what it was given. -/
theorem pure {result : α} (h : P result) : Takes registry P (Pure.pure result) := by
  rintro state _ _ - ⟨⟩
  exact ⟨.refl state, h⟩

/-- A parser that fails promises nothing, since no result comes out of it. -/
theorem fail {error : SyntaxError} : Takes registry P (Parser.fail error) := by
  rintro _ _ _ - ⟨⟩

theorem expected {what : String} : Takes registry P (Parser.expected what) := by
  rintro _ _ _ - ⟨⟩

theorem exhausted : Takes registry P Parser.exhausted := by
  rintro _ _ _ - ⟨⟩

/-- In a sequence the second parser may use what the first one promises of its result. -/
theorem bind {first : Parser α} {next : α → Parser β} (h : Takes registry P first)
    (hnext : ∀ value, P value → Takes registry Q (next value)) :
    Takes registry Q (first >>= next) := by
  intro state result after hstate hrun
  obtain ⟨value, middle, hfirst, hlast⟩ := bind_eq_done hrun
  obtain ⟨hleads, hvalue⟩ := h state value middle hstate hfirst
  obtain ⟨hleads', hresult⟩ := hnext value hvalue middle result after (hleads.faithful hstate) hlast
  exact ⟨hleads.trans hleads', hresult⟩

theorem look {next : TokenKind → Parser β} (h : ∀ kind, Takes registry Q (next kind)) :
    Takes registry Q (nextKind >>= next) :=
  fun state _ _ hstate hrun => h state.current.kind _ _ _ hstate hrun

theorem stopped {next : Nat → Parser β} (h : ∀ stop, Takes registry Q (next stop)) :
    Takes registry Q (lastStop >>= next) :=
  fun state _ _ hstate hrun => h state.lastStop _ _ _ hstate hrun

/-- A token that is read is faithful, or the end mark. -/
theorem advance :
    Takes registry (fun token => token.kind.Faithful registry ∨ token.kind = .endOfCode)
      Parser.advance := by
  intro state token after hstate hrun
  unfold Parser.advance at hrun
  have hvisible := state.visible_suffix
  cases hrest : state.visible with
  | nil =>
    rw [hrest] at hrun
    cases hrun
    exact ⟨⟨rfl, rfl, List.nil_suffix⟩, .inr hstate.finish⟩
  | cons first others =>
    rw [hrest] at hrun hvisible
    cases hrun
    refine ⟨⟨rfl, rfl, (List.suffix_cons _ _).trans hvisible⟩, .inl ?_⟩
    exact hstate.rest token (hvisible.subset (List.mem_cons_self ..))

/-- A parser that reads a token may count on it to be faithful or the end of the source. -/
theorem read {next : Token → Parser β}
    (h : ∀ token, token.kind.Faithful registry ∨ token.kind = .endOfCode →
      Takes registry Q (next token)) :
    Takes registry Q (Parser.advance >>= next) :=
  bind advance h

/-- How line breaks count changes nothing about the tokens that are left. -/
theorem countingLineBreaks {counting : Bool} {parser : Parser α} (h : Takes registry P parser) :
    Takes registry P (Parser.countingLineBreaks counting parser) := by
  intro state result after hstate hrun
  unfold Parser.countingLineBreaks at hrun
  split at hrun
  next hparser =>
    cases hrun
    have hset : State.Faithful registry { state with lineBreaks := counting } :=
      ⟨hstate.finish, hstate.rest⟩
    obtain ⟨hleads, hresult⟩ := h _ _ _ hset hparser
    exact ⟨⟨hleads.finish, rfl, hleads.rest⟩, hresult⟩
  next => cases hrun
  next => cases hrun

end Takes

/-- A grammar whose expressions and operands are written. -/
structure Grammar.Takes (registry : Registry) (g : Grammar) : Prop where
  /-- Its expressions are. -/
  expression (least : Int) : Parser.Takes registry (Value.Written registry) (g.expression least)
  /-- Its operands are. -/
  operand : Parser.Takes registry (Value.Written registry) g.operand

/-- The values of elements, all written. -/
def Element.Written (registry : Registry) : Element → Prop
  | .item value => value.Written registry
  | .pair key value _ => key.Written registry ∧ value.Written registry

section Rules

variable {g : Grammar}

/-- A result that does not matter. -/
abbrev anyResult {α : Type} : α → Prop := fun _ => True

/-- A fixed token is only taken away; nothing is made of its text. -/
theorem expect_takes (test : TokenKind → Bool) (what : String) :
    Takes registry anyResult (expect test what) := by
  refine .look fun kind => ?_
  split
  next => exact fun state _ _ hstate hrun => ⟨(Takes.advance state _ _ hstate hrun).1, trivial⟩
  next => exact .expected

/-! ## Elements and collections -/

/-- An element holds only written values, on both sides of its colon. -/
theorem element_takes (hg : g.Takes registry) :
    Takes registry (Element.Written registry) (element g) := by
  refine .look fun kind => .bind (hg.expression _) fun first hfirst => .look fun kind => ?_
  split
  next =>
    refine .read fun _ _ => .bind (hg.expression _) fun value hvalue => ?_
    exact .pure ⟨hfirst, hvalue⟩
  next => exact .pure hfirst

theorem elementsLoop_takes (hg : g.Takes registry) (closer : Closer) (fuel : Nat) :
    Takes registry (fun found => ∀ one ∈ found, one.Written registry)
      (elementsLoop g closer fuel) := by
  induction fuel with
  | zero => exact .exhausted
  | succ fuel ih =>
    refine .bind (element_takes hg) fun first hfirst => .look fun kind => ?_
    split
    next =>
      refine .read fun _ _ => .bind ih fun others hothers => ?_
      exact .pure (List.forall_mem_cons.2 ⟨hfirst, hothers⟩)
    next =>
      split
      next => exact .read fun _ _ => .pure (by simpa using hfirst)
      next => exact .expected

/-- So do all the elements up to a closing bracket. -/
theorem elements_takes (hg : g.Takes registry) (closer : Closer) :
    Takes registry (fun found => ∀ one ∈ found, one.Written registry) (elements g closer) := by
  refine .look fun kind => ?_
  split
  next => exact .read fun _ _ => .pure (List.forall_mem_nil _)
  next => exact elementsLoop_takes hg closer g.rounds

/-- A labelled argument of a call is a pair with the label for its key. -/
theorem asArgument_written {one : Element} (h : one.Written registry) :
    one.asArgument.Written registry := by
  cases one with
  | item value => exact h
  | pair key value grouped => exact .pair h.1 h.2

theorem arguments_takes (hg : g.Takes registry) :
    Takes registry (fun found => ∀ value ∈ found, value.Written registry) (arguments g) := by
  refine .countingLineBreaks (.bind (elements_takes hg .group) fun found hfound => .pure ?_)
  intro value hvalue
  obtain ⟨one, hone, rfl⟩ := List.mem_map.1 hvalue
  exact asArgument_written (hfound one hone)

/-- Elements without keys give the items of a list. -/
theorem itemsOf?_written {found : List Element} {items : List Value}
    (hfound : ∀ one ∈ found, one.Written registry) (h : itemsOf? found = some items) :
    ∀ item ∈ items, item.Written registry := by
  induction found generalizing items with
  | nil =>
    cases h
    exact List.forall_mem_nil _
  | cons one rest ih =>
    obtain ⟨hone, hrest⟩ := List.forall_mem_cons.1 hfound
    cases one with
    | item value =>
      obtain ⟨others, hothers, rfl⟩ := Option.map_eq_some_iff.1 h
      exact List.forall_mem_cons.2 ⟨hone, ih hrest hothers⟩
    | pair key value grouped => cases h

/-- The elements become the items of a list, or the fields of a record, which has no more to show.
-/
theorem collectionOf_written {found : List Element} {span : Span} {value : Value}
    (hfound : ∀ one ∈ found, one.Written registry) (h : collectionOf found span = .ok value) :
    value.Written registry := by
  unfold collectionOf at h
  split at h
  next items hitems =>
    cases h
    exact .list (itemsOf?_written hfound hitems)
  next =>
    split at h
    next => cases h
    next =>
      split at h
      next =>
        cases h
        exact .record
      next =>
        split at h
        next =>
          cases h
          exact .record
        next => cases h

theorem collection_takes (hg : g.Takes registry) (start : Nat) :
    Takes registry (Value.Written registry) (collection g start) := by
  refine .countingLineBreaks (.look fun kind => ?_)
  split
  next => exact .read fun _ _ => .bind (expect_takes _ _) fun _ _ => .pure .record
  next =>
    refine .bind (elements_takes hg .list) fun found hfound => .stopped fun stop => ?_
    split
    next value hvalue => exact .pure (collectionOf_written hfound hvalue)
    next => exact .fail

/-! ## Groups, blocks and statements -/

theorem group_takes (hg : g.Takes registry) :
    Takes registry (Value.Written registry) (group g) := by
  refine .countingLineBreaks (.bind (hg.expression 0) fun value hvalue => ?_)
  exact .bind (expect_takes _ _) fun _ _ => .pure hvalue

theorem skipSeparators_takes (fuel : Nat) : Takes registry anyResult (skipSeparators fuel) := by
  induction fuel with
  | zero => exact .exhausted
  | succ fuel ih =>
    refine .look fun kind => ?_
    split
    next => exact .read fun _ _ => ih
    next => exact .pure trivial

theorem statementsLoop_takes (hg : g.Takes registry) (closer : Closer) (fuel : Nat) :
    Takes registry (fun found => ∀ value ∈ found, value.Written registry)
      (statementsLoop g closer fuel) := by
  induction fuel with
  | zero => exact .exhausted
  | succ fuel ih =>
    refine .bind (skipSeparators_takes _) fun _ _ => .look fun kind => ?_
    split
    next => exact .read fun _ _ => .pure (List.forall_mem_nil _)
    next =>
      split
      next => exact .expected
      next =>
        refine .bind (hg.expression 0) fun first hfirst => .look fun kind => ?_
        split
        next =>
          refine .bind ih fun others hothers => ?_
          exact .pure (List.forall_mem_cons.2 ⟨hfirst, hothers⟩)
        next => exact .expected

/-- A block or a script holds only written statements. -/
theorem statements_takes (hg : g.Takes registry) (closer : Closer) :
    Takes registry (fun found => ∀ value ∈ found, value.Written registry) (statements g closer) :=
  .countingLineBreaks (statementsLoop_takes hg closer g.rounds)

/-- The block that a keyword asks for holds only written statements. -/
theorem requiredBlock_takes (hg : g.Takes registry) (keyword : String) :
    Takes registry (fun found => ∀ value ∈ found, value.Written registry)
      (requiredBlock g keyword) := by
  refine .look fun kind => ?_
  cases kind with
  | blockOpen => exact .read fun _ _ => statements_takes hg .block
  | _ => rintro _ _ _ - ⟨⟩

/-! ## Definitions of handlers -/

theorem takeWord_takes (word : String) : Takes registry anyResult (takeWord word) := by
  refine .look fun kind => ?_
  split
  next => exact .read fun _ _ => .pure trivial
  next => exact .pure trivial

theorem takeName_takes (what : String) : Takes registry anyResult (takeName what) := by
  refine .look fun kind => ?_
  split
  next => exact .read fun _ _ => .pure trivial
  next => exact .expected

/-- The coercion after a word, or the one that stands for it where the word is missing. -/
theorem coercionAfter_takes (hg : g.Takes registry) (word : String) :
    Takes registry (Value.Written registry) (coercionAfter g word) := by
  refine .bind (takeWord_takes word) fun came _ => ?_
  split
  next => exact hg.operand
  next => exact .pure .coercion

theorem parameter_takes (hg : g.Takes registry) : Takes registry anyResult (parameter g) := by
  refine .bind (takeName_takes _) fun label _ => .look fun kind => ?_
  have hrest (binding : String) : Takes registry anyResult do
      let wanted ← coercionAfter g "as"
      return Value.list [.ofString label, .ofString binding, wanted] :=
    .bind (coercionAfter_takes hg "as") fun _ _ => .pure trivial
  dsimp only
  split
  next => exact .read fun _ _ => .bind (takeName_takes _) fun binding _ => hrest binding
  next => exact hrest label

theorem parametersLoop_takes (hg : g.Takes registry) (fuel : Nat) :
    Takes registry anyResult (parametersLoop g fuel) := by
  induction fuel with
  | zero => exact .exhausted
  | succ fuel ih =>
    refine .bind (parameter_takes hg) fun first _ => .look fun kind => ?_
    split
    next => exact .read fun _ _ => .bind ih fun _ _ => .pure trivial
    next => exact .read fun _ _ => .pure trivial
    next => exact .expected

theorem parameters_takes (hg : g.Takes registry) : Takes registry anyResult (parameters g) := by
  refine .bind (expect_takes _ _) fun _ _ => .countingLineBreaks (.look fun kind => ?_)
  split
  next => exact .read fun _ _ => .pure trivial
  next => exact parametersLoop_takes hg g.rounds

/-- A definition of a handler has its own form, whatever its parameters are. -/
theorem definitionCommand_takes (hg : g.Takes registry) (op : Operator) (isEvent : Bool) :
    Takes registry (Value.Written registry) (definitionCommand g op isEvent) := by
  refine .bind (takeName_takes _) fun name _ => .bind (parameters_takes hg) fun found _ => ?_
  refine .bind (coercionAfter_takes hg _) fun returns _ => ?_
  exact .bind (requiredBlock_takes hg _) fun action _ => .pure .definition

/-! ## Operators -/

/-- An operator that starts an expression is found in the table under its own key, so the command it
makes is named as a definition of the registry has it. -/
theorem startingOperator_takes (hg : g.Takes registry) (token : Token) {key : String}
    {op : Operator} (hop : registry.starting? key = some op) :
    Takes registry (Value.Written registry) (startingOperator g token op) := by
  unfold startingOperator
  split
  next hform => exact .pure (.atom hop hform)
  next hform =>
    exact .bind (hg.expression _) fun operand hoperand => .pure (.before hop hform hoperand)
  next hform =>
    refine .bind (hg.expression _) fun operand hoperand => ?_
    refine .bind (requiredBlock_takes hg _) fun body hbody => ?_
    exact .pure (.keyword hop hform hoperand hbody)
  next => exact definitionCommand_takes hg op false
  next => exact definitionCommand_takes hg op true
  all_goals exact .fail

/-- The same after a left operand, which was written already. -/
theorem continuingOperator_takes (hg : g.Takes registry) (token : Token) {key : String}
    {op : Operator} {left : Value} (hop : registry.continuing? key = some op)
    (hleft : left.Written registry) :
    Takes registry (Value.Written registry) (continuingOperator g token left op) := by
  unfold continuingOperator
  split
  next hform =>
    refine .bind (hg.expression _) fun right hright => ?_
    exact .pure (.between hop (.inl hform) hleft hright)
  next hform =>
    refine .bind (hg.expression _) fun right hright => ?_
    exact .pure (.between hop (.inr hform) hleft hright)
  next hform => exact .pure (.after hop hform hleft)
  all_goals exact .fail

/-- What is known about a spelling comes from the two tables. -/
theorem find?_tables {registry : Registry} {text : String} {found : KnownSpelling}
    (h : registry.find? text = some found) :
    found.starting? = registry.starting? (Text.lowercase text) ∧
      found.continuing? = registry.continuing? (Text.lowercase text) := by
  unfold Registry.find? at h
  dsimp only at h
  split at h
  next => cases h
  next =>
    cases h
    exact ⟨rfl, rfl⟩

/-! ## Operands and expressions -/

/-- A name by itself, or the call that touches it. -/
theorem nameOrCommand_takes (hg : g.Takes registry) {name : String} (hname : IsName name) :
    Takes registry (Value.Written registry) (nameOrCommand g name) := by
  intro state result after hstate hrun
  have hopened : Takes registry (Value.Written registry) do
      let _ ← advance
      let found ← arguments g
      return Value.command (.ofValues (.ofString name) found) :=
    .read fun _ _ => .bind (arguments_takes hg) fun found hfound => .pure (.call hname hfound)
  have halone (kind : TokenKind) :
      Takes registry (Value.Written registry) (loneArgument g name kind) := by
    unfold loneArgument
    split
    next =>
      refine .bind hg.operand fun argument hargument => .pure (.call hname ?_)
      simpa using hargument
    next => exact .pure (.identifier hname)
  by_cases hopens : state.OpensArguments
  · rw [nameOrCommand_opened hopens] at hrun
    exact hopened _ _ _ hstate hrun
  · rw [nameOrCommand_alone hopens] at hrun
    exact halone _ _ _ _ hstate hrun

/-- An operand behind its first token. -/
def operandAfter (g : Grammar) (token : Token) : Parser Value :=
  match token.kind with
  | .number literal scalar => return .text (.number literal scalar)
  | .text content => return .ofString content
  | .tag name => return .tag (.ofString name)
  | .identifier name _ => nameOrCommand g name
  | .groupOpen => group g
  | .listOpen => collection g token.span.start
  | .blockOpen => do
    let items ← statements g .block
    return .block items
  | .operator found =>
    match found.starting? with
    | some op => startingOperator g token op
    | none => fail ⟨.operatorAtStart found.text, token.kind.describe, token.span⟩
  | _ => fail (.unexpected "an expression" token)

theorem operandWith_eq (g : Grammar) : operandWith g = advance >>= operandAfter g := rfl

/-- After a faithful token every operand is written: literals carry their token's value, and names
their text. -/
theorem operandAfter_takes (hg : g.Takes registry) {token : Token}
    (htoken : token.kind.Faithful registry) :
    Takes registry (Value.Written registry) (operandAfter g token) := by
  unfold operandAfter
  cases hkind : token.kind with
  | number literal scalar =>
    rw [hkind] at htoken
    exact .pure (.number htoken)
  | text content => exact .pure .text
  | tag name =>
    rw [hkind] at htoken
    exact .pure (.tag htoken)
  | identifier name quoted =>
    rw [hkind] at htoken
    exact nameOrCommand_takes hg htoken
  | groupOpen => exact group_takes hg
  | listOpen => exact collection_takes hg token.span.start
  | blockOpen => exact .bind (statements_takes hg .block) fun items hitems => .pure (.block hitems)
  | operator found =>
    rw [hkind] at htoken
    have hstarting := (find?_tables htoken).1
    dsimp only
    split
    next op hop => exact startingOperator_takes hg token (hstarting.symm.trans hop)
    next => exact .fail
  | _ => exact .fail

/-- An operand begins with a token that the parser has, so the one above applies. -/
theorem operandWith_takes (hg : g.Takes registry) :
    Takes registry (Value.Written registry) (operandWith g) := by
  refine .read fun token htoken => ?_
  rcases htoken with hfaithful | hend
  · exact operandAfter_takes hg hfaithful
  · rw [hend]
    exact .fail

theorem operation_takes (hg : g.Takes registry) {left : Value} (hleft : left.Written registry) :
    Takes registry (Value.Written registry) (operation g left) := by
  refine .read fun token htoken => ?_
  cases hkind : token.kind with
  | pairSeparator => exact .bind (hg.expression _) fun right hright => .pure (.pair hleft hright)
  | operator found =>
    rw [hkind] at htoken
    have hcontinuing := (find?_tables (htoken.resolve_right (by rintro ⟨⟩))).2
    dsimp only
    split
    next op hop => exact continuingOperator_takes hg token (hcontinuing.symm.trans hop) hleft
    next => exact .fail
  | _ => exact .fail

/-- Each round of operators wraps the left operand in one more written command. -/
theorem operations_takes (hg : g.Takes registry) {left : Value} (hleft : left.Written registry)
    (least : Int) (fuel : Nat) :
    Takes registry (Value.Written registry) (operations g least fuel left) := by
  induction fuel generalizing left with
  | zero => exact .exhausted
  | succ fuel ih =>
    refine .look fun kind => ?_
    split
    next =>
      split
      next => exact .pure hleft
      next => exact .bind (operation_takes hg hleft) fun next hnext => ih hnext
    next => exact .pure hleft

/-- With any fuel the grammar reads written values only.  The induction is on the fuel: a step of
the grammar is built from the grammar with less. -/
theorem grammar_takes (fuel : Nat) : (grammar fuel).Takes registry := by
  induction fuel with
  | zero => exact ⟨fun _ => .exhausted, .exhausted⟩
  | succ fuel ih =>
    refine ⟨fun least => ?_, operandWith_takes ih⟩
    exact .bind ih.operand fun left hleft => operations_takes ih hleft least fuel

/-- An operand takes a token at least. -/
theorem operandWith_shorter (hg : g.Takes registry) {state after : State} {result : Value}
    (hstate : state.Faithful registry) (hrun : operandWith g state = .done result after) :
    after.rest.length < state.rest.length := by
  have hvisible := state.visible_suffix
  rw [operandWith_eq] at hrun
  obtain ⟨token, middle, htoken, hlast⟩ := bind_eq_done hrun
  unfold advance at htoken
  cases hrest : state.visible with
  | nil =>
    rw [hrest] at htoken
    cases htoken
    rw [operandAfter, hstate.finish] at hlast
    cases hlast
  | cons first others =>
    rw [hrest] at htoken hvisible
    cases htoken
    have hleads : state.Leads { state with rest := others, lastStop := token.span.stop } :=
      ⟨rfl, rfl, (List.suffix_cons _ _).trans hvisible⟩
    have hfaithful := hstate.rest token (hvisible.subset (List.mem_cons_self ..))
    obtain ⟨hleads', -⟩ := operandAfter_takes hg hfaithful _ _ _ (hleads.faithful hstate) hlast
    calc after.rest.length
      _ ≤ others.length := hleads'.rest.length_le
      _ < (token :: others).length := Nat.lt_succ_self _
      _ ≤ state.rest.length := hvisible.length_le

/-- An expression takes a token at least. -/
theorem expression_shorter {fuel : Nat} {least : Int} {state after : State} {result : Value}
    (hstate : state.Faithful registry)
    (hrun : (grammar fuel).expression least state = .done result after) :
    after.rest.length < state.rest.length := by
  match fuel with
  | 0 => cases hrun
  | 1 =>
    obtain ⟨left, middle, hleft, -⟩ := bind_eq_done hrun
    cases hleft
  | fuel + 2 =>
    obtain ⟨left, middle, hleft, hlast⟩ := bind_eq_done hrun
    have hg : (grammar fuel).Takes registry := grammar_takes fuel
    have hg' : (grammar (fuel + 1)).Takes registry := grammar_takes (fuel + 1)
    obtain ⟨hleads, hwritten⟩ := hg'.operand _ _ _ hstate hleft
    obtain ⟨hleads', -⟩ :=
      operations_takes hg' hwritten least (fuel + 1) _ _ _ (hleads.faithful hstate) hlast
    calc after.rest.length
      _ ≤ middle.rest.length := hleads'.rest.length_le
      _ < state.rest.length := operandWith_shorter hg hstate hleft

end Rules

end Parser

/-! ## Tokens of a source text -/

namespace Lexer

variable {registry : Registry}

/-- What can stand in a name can stand in one between quotes. -/
theorem isQuotable_of_continuesName {c : Char} (h : Character.continuesName c = true) :
    isQuotable c = true := by
  have hothers : ∀ c ∈ ['\x27', '‘', '’', '\n', '\r', '\u2028', '\u2029'],
      Character.continuesName c = false :=
    forall_mem_of_all (by decide +kernel)
  cases hquotable : isQuotable c with
  | true => rfl
  | false =>
    have hmem : c ∈ ['\x27', '‘', '’', '\n', '\r', '\u2028', '\u2029'] := by
      simp only [isQuotable, Character.isNameQuote, Text.isLineBreak, Bool.and_eq_false_iff,
        Bool.not_eq_false', Bool.or_eq_true, beq_iff_eq] at hquotable
      grind
    exact absurd h (Bool.eq_false_iff.1 (hothers c hmem))

/-- A word is a name. -/
theorem isName_word {c : Char} (cs : List Char) (h : Character.startsName c = true) :
    IsName (String.ofList (c :: cs.takeWhile Character.continuesName)) := by
  rw [IsName, String.toList_ofList]
  refine ⟨List.cons_ne_nil _ _, fun d hd => isQuotable_of_continuesName ?_⟩
  rcases List.mem_cons.1 hd with rfl | hd
  · exact continuesName_of_startsName h
  · exact List.mem_takeWhile_imp hd

/-- A quoted name can be quoted again. -/
theorem isName_quoted {cs : List Char} {name : String} {count : Nat}
    (h : quotedName cs = (.ok name, count)) : IsName name := by
  obtain ⟨body, close, tail, -, hbody, -, rfl, -⟩ := eq_of_quotedName h
  rwa [IsName, String.toList_ofList]

theorem orUnknown_faithful {make : String → TokenKind} {cs : List Char}
    (hmake : ∀ name, IsName name → (make name).Faithful registry) :
    (orUnknown make (quotedName cs).1).Faithful registry := by
  cases hname : (quotedName cs).1 with
  | ok name => exact hmake name (isName_quoted (Prod.ext hname rfl))
  | error problem => trivial

/-- A tag's name can be quoted, or is no name and the token is unknown. -/
theorem tagToken_faithful (cs : List Char) : (tagToken cs).1.Faithful registry := by
  cases cs with
  | nil => trivial
  | cons c cs =>
    simp only [tagToken]
    split
    next => exact orUnknown_faithful fun _ hname => hname
    next =>
      split
      next hstarts =>
        rw [List.takeWhile_cons_of_pos (continuesName_of_startsName hstarts)]
        exact isName_word cs hstarts
      next => trivial

/-- A number token carries what its text reads as. -/
theorem numberToken_faithful (c : Char) (cs : List Char) :
    (numberToken c cs).1.Faithful registry := by
  unfold numberToken
  split
  next => trivial
  next found hfound =>
    dsimp only
    split
    next =>
      have hlength := Numeral.scan?_le hfound
      have hsucc : found.length = found.length - 1 + 1 := by omega
      have htake : c :: cs.take (found.length - 1) = (c :: cs).take found.length := by
        rw [hsucc, List.take_succ_cons, Nat.add_sub_cancel]
      have hcount : ((c :: cs).take found.length).length = found.length := by
        rw [List.length_take, Nat.min_eq_left hlength.2]
      rw [TokenKind.Faithful, String.toList_ofList, htake, hcount]
      exact Numeral.scan?_take hfound
    next => trivial

/-- A known spelling stands for operators of the registry. -/
theorem find?_faithful {text : String} {found : KnownSpelling}
    (h : registry.find? text = some found) : (TokenKind.operator found).Faithful registry := by
  rw [TokenKind.Faithful, Registry.find?_text h]
  exact h

/-- A word is a name as it stands, or the spelling of an operator. -/
theorem wordToken_faithful {c : Char} (cs : List Char) (h : Character.startsName c = true) :
    (wordToken registry c cs).1.Faithful registry := by
  simp only [wordToken]
  split
  next found hfound => exact find?_faithful hfound
  next => exact isName_word cs h

/-- A run of symbols is the spelling of an operator, or unknown. -/
theorem symbolsToken_faithful (c : Char) (cs : List Char) :
    (symbolsToken registry c cs).1.Faithful registry := by
  unfold symbolsToken
  split
  next found count hfound =>
    simp only [Registry.findSymbols?, Option.bind_eq_bind, Option.bind_eq_some_iff] at hfound
    obtain ⟨length, -, known, hknown, hfound⟩ := hfound
    cases hfound
    exact find?_faithful hknown
  next => trivial

theorem punctuation?_faithful {c : Char} {kind : TokenKind} (h : punctuation? c = some kind) :
    kind.Faithful registry := by
  unfold punctuation? at h
  split at h
  all_goals
    cases h
    try trivial

/-- Every token that is read says what its characters say. -/
theorem scan_faithful (afterOperand : Bool) (c : Char) (cs : List Char) :
    (scan registry afterOperand c cs).1.Faithful registry := by
  have hreads := scan_reads registry afterOperand c cs
  generalize scan registry afterOperand c cs = found at hreads
  cases hreads with
  | lineBreak _ | blanks | unexpected => trivial
  | punctuation hkind => exact punctuation?_faithful hkind
  | note =>
    unfold noteToken
    split <;> trivial
  | tag => exact tagToken_faithful cs
  | text =>
    unfold textToken
    split <;> trivial
  | quoted => exact orUnknown_faithful fun _ hname => hname
  | number => exact numberToken_faithful c cs
  | word hword => exact wordToken_faithful cs hword
  | symbols => exact symbolsToken_faithful c cs

/-- The tokens of a source text are faithful, and the end mark stands behind them. -/
theorem tokensFrom_faithful (registry : Registry) (offset : Nat) (afterOperand : Bool)
    (cs : List Char) :
    ∃ tokens mark, tokensFrom registry offset afterOperand cs = tokens ++ [mark] ∧
      mark.kind = .endOfCode ∧ ∀ token ∈ tokens, token.kind.Faithful registry := by
  fun_induction tokensFrom registry offset afterOperand cs with
  | case1 offset afterOperand => exact ⟨[], _, rfl, rfl, List.forall_mem_nil _⟩
  | case2 offset afterOperand c cs kind count hscan stop after ih =>
    obtain ⟨tokens, mark, htokens, hmark, hfaithful⟩ := ih
    have hkind : (scan registry afterOperand c cs).1 = kind := by rw [hscan]
    refine ⟨⟨kind, .ofOffsets offset stop⟩ :: tokens, mark, ?_, hmark, ?_⟩
    · rw [htokens, List.cons_append]
    · refine List.forall_mem_cons.2 ⟨?_, hfaithful⟩
      rw [← hkind]
      exact scan_faithful afterOperand c cs

end Lexer

/-- A source text is read from faithful tokens. -/
theorem Parser.State.ofSource_faithful (registry : Registry) (source : String) :
    (Parser.State.ofSource registry source).Faithful registry := by
  obtain ⟨tokens, mark, htokens, hmark, hfaithful⟩ :=
    Lexer.tokensFrom_faithful registry 0 false source.toList
  rw [State.ofSource_eq htokens]
  exact ⟨hmark, fun token htoken => hfaithful token (List.mem_filter.1 htoken).1⟩

end CommandScript
