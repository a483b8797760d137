import CommandScript.Proofs.ParserSteps
import CommandScript.Proofs.Policy

/-!
# What is read

Code that was read is made of literals, names, commands, collections and blocks.  No thunk and no
answer of a control structure is in it, so it obeys every policy.

A parser *yields* a property when all its results have it.  There is one rule for each way to build
a parser, and one statement for each rule of the grammar, about any grammar whose expressions and
operands obey the policy.  By induction on the fuel, those of every grammar do.
-/

namespace CommandScript

/-- Every result of the parser has a property. -/
def Parser.Yields {α : Type} (P : α → Prop) (parser : Parser α) : Prop :=
  ∀ state result after, parser state = .done result after → P result

namespace Parser

namespace Yields

variable {α β : Type} {P : α → Prop} {Q : β → Prop}

/-- Nothing is asked of what is read. -/
theorem any {parser : Parser α} : parser.Yields fun _ => True :=
  fun _ _ _ _ => trivial

/-- What is returned has the property if it is known to have it. -/
theorem pure {result : α} (h : P result) : (Pure.pure result : Parser α).Yields P := by
  intro state found after hrun
  cases hrun
  exact h

/-- A failure reads nothing. -/
theorem fail {error : SyntaxError} : (Parser.fail error : Parser α).Yields P :=
  fun _ _ _ hrun => nomatch hrun

theorem expected {what : String} : (Parser.expected what : Parser α).Yields P :=
  fun _ _ _ hrun => nomatch hrun

theorem exhausted : (Parser.exhausted : Parser α).Yields P :=
  fun _ _ _ hrun => nomatch hrun

/-- What comes second may rely on what came first. -/
theorem bind {first : Parser α} {next : α → Parser β} (h : first.Yields P)
    (hnext : ∀ value, P value → (next value).Yields Q) : (first >>= next).Yields Q := by
  intro state result after hrun
  cases hfirst : first state with
  | done value middle =>
    have hlast : next value middle = .done result after := by
      simpa [Bind.bind, hfirst] using hrun
    exact hnext value (h state value middle hfirst) middle result after hlast
  | failed error middle => simp [Bind.bind, hfirst] at hrun
  | outOfFuel => simp [Bind.bind, hfirst] at hrun

/-- A parser whose result does not matter comes first. -/
theorem skip {first : Parser α} {next : α → Parser β} (h : ∀ value, (next value).Yields Q) :
    (first >>= next).Yields Q :=
  bind any fun value _ => h value

/-- Whether line breaks count makes no difference to what may be read. -/
theorem countingLineBreaks {counting : Bool} {parser : Parser α} (h : parser.Yields P) :
    (Parser.countingLineBreaks counting parser).Yields P := by
  intro state result after hrun
  unfold Parser.countingLineBreaks at hrun
  split at hrun
  next hparser =>
    cases hrun
    exact h _ _ _ hparser
  next => cases hrun
  next => cases hrun

end Yields

variable {p : Policy} {g : Grammar}

/-- A grammar whose expressions and operands obey a policy. -/
structure Grammar.Obeys (g : Grammar) (p : Policy) : Prop where
  /-- Its expressions do. -/
  expression (least : Int) : (g.expression least).Yields (·.Obeys p)
  /-- Its operands do. -/
  operand : g.operand.Yields (·.Obeys p)

/-! ## Elements and collections -/

/-- An element made of values that obey a policy. -/
def Element.Obeys (p : Policy) : Element → Prop
  | .item value => value.Obeys p
  | .pair key value _ => key.Obeys p ∧ value.Obeys p

/-- An element has what its expressions have. -/
theorem element_yields (hg : g.Obeys p) : (element g).Yields (Element.Obeys p) := by
  refine .skip fun kind => ?_
  refine .bind (hg.expression _) fun first hfirst => ?_
  refine .skip fun kind => ?_
  split
  next =>
    refine .skip fun _ => .bind (hg.expression _) fun value hvalue => ?_
    exact .pure ⟨hfirst, hvalue⟩
  next => exact .pure hfirst

/-- So have all elements up to a closer. -/
theorem elementsLoop_yields (hg : g.Obeys p) (closer : Closer) (fuel : Nat) :
    (elementsLoop g closer fuel).Yields fun found => ∀ one ∈ found, one.Obeys p := by
  induction fuel with
  | zero => exact .exhausted
  | succ fuel ih =>
    refine .bind (element_yields hg) fun first hfirst => ?_
    refine .skip fun kind => ?_
    split
    next =>
      refine .skip fun _ => .bind ih fun others hothers => ?_
      exact .pure (List.forall_mem_cons.2 ⟨hfirst, hothers⟩)
    next =>
      split
      next => exact .skip fun _ => .pure (by simpa using hfirst)
      next => exact .expected

theorem elements_yields (hg : g.Obeys p) (closer : Closer) :
    (elements g closer).Yields fun found => ∀ one ∈ found, one.Obeys p := by
  refine .skip fun kind => ?_
  split
  next => exact .skip fun _ => .pure (List.forall_mem_nil _)
  next => exact elementsLoop_yields hg closer g.rounds

/-- An element among arguments is an expression, or a pair of two. -/
theorem asArgument_obeys {one : Element} (h : one.Obeys p) : one.asArgument.Obeys p := by
  cases one with
  | item value => exact h
  | pair key value grouped => exact .pair h.1 h.2

theorem arguments_yields (hg : g.Obeys p) :
    (arguments g).Yields fun found => ∀ value ∈ found, value.Obeys p := by
  refine .countingLineBreaks (.bind (elements_yields hg .group) fun found hfound => .pure ?_)
  intro value hvalue
  obtain ⟨one, hone, rfl⟩ := List.mem_map.1 hvalue
  exact asArgument_obeys (hfound one hone)

/-- A bare name as a key becomes a tag, of which no policy asks anything. -/
theorem recordKey_obeys {key : Value} (grouped : Bool) (h : key.Obeys p) :
    (recordKey grouped key).Obeys p := by
  unfold recordKey
  split
  next =>
    split
    next => exact h
    next => exact .tag
  next => exact h

/-- The items of a list are the elements that were read. -/
theorem itemsOf?_obeys {found : List Element} {items : List Value}
    (hfound : ∀ one ∈ found, one.Obeys p) (h : itemsOf? found = some items) :
    ∀ item ∈ items, item.Obeys p := by
  induction found generalizing items with
  | nil =>
    cases h
    exact List.forall_mem_nil _
  | cons one rest ih =>
    obtain ⟨hone, hrest⟩ := List.forall_mem_cons.1 hfound
    cases one with
    | item value =>
      obtain ⟨others, hothers, rfl⟩ := Option.map_eq_some_iff.1 h
      exact List.forall_mem_cons.2 ⟨hone, ih hrest hothers⟩
    | pair key value grouped => cases h

/-- The keys and the values of a record were read as elements. -/
theorem pairsOf?_obeys {found : List Element} {pairs : List (Value × Value)}
    (hfound : ∀ one ∈ found, one.Obeys p) (h : pairsOf? found = some pairs) :
    ∀ pair ∈ pairs, pair.1.Obeys p ∧ pair.2.Obeys p := by
  induction found generalizing pairs with
  | nil =>
    cases h
    exact List.forall_mem_nil _
  | cons one rest ih =>
    obtain ⟨hone, hrest⟩ := List.forall_mem_cons.1 hfound
    cases one with
    | item value => cases h
    | pair key value grouped =>
      obtain ⟨others, hothers, rfl⟩ := Option.map_eq_some_iff.1 h
      have hkey := recordKey_obeys grouped hone.1
      exact List.forall_mem_cons.2 ⟨⟨hkey, hone.2⟩, ih hrest hothers⟩

/-- A record with literal keys has the values that were read. -/
theorem fieldsOf?_obeys {pairs : List (Value × Value)} {fields : List (Key × Value)}
    (hpairs : ∀ pair ∈ pairs, pair.1.Obeys p ∧ pair.2.Obeys p) (h : fieldsOf? pairs = some fields) :
    ∀ entry ∈ fields, entry.2.Obeys p := by
  induction pairs generalizing fields with
  | nil =>
    cases h
    exact List.forall_mem_nil _
  | cons pair rest ih =>
    obtain ⟨hpair, hrest⟩ := List.forall_mem_cons.1 hpairs
    obtain ⟨key, value⟩ := pair
    simp only [fieldsOf?, Option.bind_eq_bind, Option.bind_eq_some_iff] at h
    obtain ⟨name, -, others, hothers, hfields⟩ := h
    cases hfields
    exact List.forall_mem_cons.2 ⟨hpair.2, ih hrest hothers⟩

/-- A list or a record obeys a policy if all its elements do. -/
theorem collectionOf_obeys {found : List Element} {span : Span} {value : Value}
    (hfound : ∀ one ∈ found, one.Obeys p) (h : collectionOf found span = .ok value) :
    value.Obeys p := by
  unfold collectionOf at h
  split at h
  next items hitems =>
    cases h
    exact .list (itemsOf?_obeys hfound hitems)
  next =>
    split at h
    next => cases h
    next pairs hpairs =>
      have hobeys := pairsOf?_obeys hfound hpairs
      split at h
      next =>
        cases h
        exact Value.obeys_computed.2 hobeys
      next fields hfields =>
        unfold Record.ofFields at h
        split at h
        next record hrecord =>
          split at hrecord
          next => cases hrecord
          next =>
            cases hrecord
            cases h
            exact .fields (fieldsOf?_obeys hobeys hfields)
        next => cases h

/-- Between square brackets stands a collection that obeys. -/
theorem collection_yields (hg : g.Obeys p) (start : Nat) :
    (collection g start).Yields (·.Obeys p) := by
  refine .countingLineBreaks (.skip fun kind => ?_)
  split
  next => exact .skip fun _ => .skip fun _ => .pure (.fields (List.forall_mem_nil _))
  next =>
    refine .bind (elements_yields hg .list) fun found hfound => ?_
    refine .skip fun stop => ?_
    split
    next value hvalue => exact .pure (collectionOf_obeys hfound hvalue)
    next => exact .fail

/-! ## Groups, blocks and statements -/

/-- Parentheses change nothing about the expression between them. -/
theorem group_yields (hg : g.Obeys p) : (group g).Yields (·.Obeys p) := by
  refine .countingLineBreaks (.bind (hg.expression 0) fun value hvalue => ?_)
  exact .skip fun _ => .pure hvalue

/-- All statements up to a closer obey. -/
theorem statementsLoop_yields (hg : g.Obeys p) (closer : Closer) (fuel : Nat) :
    (statementsLoop g closer fuel).Yields fun found => ∀ value ∈ found, value.Obeys p := by
  induction fuel with
  | zero => exact .exhausted
  | succ fuel ih =>
    refine .skip fun _ => .skip fun kind => ?_
    split
    next => exact .skip fun _ => .pure (List.forall_mem_nil _)
    next =>
      split
      next => exact .expected
      next =>
        refine .bind (hg.expression 0) fun first hfirst => ?_
        refine .skip fun kind => ?_
        split
        next =>
          refine .bind ih fun others hothers => ?_
          exact .pure (List.forall_mem_cons.2 ⟨hfirst, hothers⟩)
        next => exact .expected

theorem statements_yields (hg : g.Obeys p) (closer : Closer) :
    (statements g closer).Yields fun found => ∀ value ∈ found, value.Obeys p :=
  .countingLineBreaks (statementsLoop_yields hg closer g.rounds)

/-- A block that a keyword asks for has statements that obey. -/
theorem requiredBlock_yields (hg : g.Obeys p) (keyword : String) :
    (requiredBlock g keyword).Yields fun found => ∀ value ∈ found, value.Obeys p := by
  refine .skip fun kind => ?_
  cases kind with
  | blockOpen => exact .skip fun _ => statements_yields hg .block
  | _ => exact fun _ _ _ hrun => nomatch hrun

/-! ## Commands -/

/-- A command obeys if all its arguments do, with whatever name. -/
theorem obeys_ofValues {name : Name} {values : List Value} (h : ∀ value ∈ values, value.Obeys p) :
    (Value.command (.ofValues name values)).Obeys p := by
  refine .command fun argument hargument => ?_
  obtain ⟨value, hvalue, rfl⟩ := List.mem_map.1 hargument
  have hobeys := h value hvalue
  unfold Argument.ofValue
  split
  next => exact (Value.obeys_pair.1 hobeys).2
  next => exact hobeys

/-- An operator becomes a command of its operands. -/
theorem obeys_commandWith {op : Operator} {layout : Layout} {operands : List Value}
    (h : ∀ value ∈ operands, value.Obeys p) : (commandWith op layout operands).Obeys p := by
  refine .command fun argument hargument => ?_
  obtain ⟨value, hvalue, rfl⟩ := List.mem_map.1 hargument
  exact h value hvalue

/-- A coercion behind a word is an expression, and `anything` stands for it if there is none. -/
theorem coercionAfter_yields (hg : g.Obeys p) (word : String) :
    (coercionAfter g word).Yields (·.Obeys p) := by
  refine .skip fun came => ?_
  split
  next => exact hg.operand
  next => exact .pure (.coercion (.simple rfl))

/-- A parameter becomes a list of its label, its binding and its coercion. -/
theorem parameter_yields (hg : g.Obeys p) : (parameter g).Yields (·.Obeys p) := by
  refine .skip fun label => .skip fun kind => ?_
  have hrest (binding : String) : Yields (·.Obeys p) do
      let wanted ← coercionAfter g "as"
      return Value.list [.ofString label, .ofString binding, wanted] := by
    refine .bind (coercionAfter_yields hg "as") fun wanted hwanted => .pure ?_
    have htext (content : String) : (Value.ofString content).Obeys p := .text
    simp [htext, hwanted]
  dsimp only
  split
  next => exact .skip fun _ => .skip hrest
  next => exact .skip hrest

theorem parametersLoop_yields (hg : g.Obeys p) (fuel : Nat) :
    (parametersLoop g fuel).Yields fun found => ∀ value ∈ found, value.Obeys p := by
  induction fuel with
  | zero => exact .exhausted
  | succ fuel ih =>
    refine .bind (parameter_yields hg) fun first hfirst => .skip fun kind => ?_
    split
    next =>
      refine .skip fun _ => .bind ih fun others hothers => ?_
      exact .pure (List.forall_mem_cons.2 ⟨hfirst, hothers⟩)
    next => exact .skip fun _ => .pure (by simpa using hfirst)
    next => exact .expected

/-- The parameters of a definition obey, as each of them does. -/
theorem parameters_yields (hg : g.Obeys p) :
    (parameters g).Yields fun found => ∀ value ∈ found, value.Obeys p := by
  refine .skip fun _ => .countingLineBreaks (.skip fun kind => ?_)
  split
  next => exact .skip fun _ => .pure (List.forall_mem_nil _)
  next => exact parametersLoop_yields hg g.rounds

/-- A definition becomes a command of what was read for it. -/
theorem definitionCommand_yields (hg : g.Obeys p) (op : Operator) (isEvent : Bool) :
    (definitionCommand g op isEvent).Yields (·.Obeys p) := by
  refine .skip fun name => .bind (parameters_yields hg) fun found hfound => ?_
  refine .bind (coercionAfter_yields hg "returning") fun returns hreturns => ?_
  refine .bind (requiredBlock_yields hg op.name) fun action haction => .pure ?_
  have hname : (Value.ofString name).Obeys p := .text
  have hflag : (Value.boolean isEvent).Obeys p := .boolean
  refine obeys_ofValues ?_
  simp only [List.forall_mem_cons]
  exact ⟨hname, .list hfound, hreturns, .block haction, hflag, List.forall_mem_nil _⟩

/-- What starts with an operator obeys, whatever the form of the operator. -/
theorem startingOperator_yields (hg : g.Obeys p) (token : Token) (op : Operator) :
    (startingOperator g token op).Yields (·.Obeys p) := by
  unfold startingOperator
  split
  next => exact .pure (obeys_commandWith (List.forall_mem_nil _))
  next =>
    refine .bind (hg.expression _) fun operand hoperand => ?_
    exact .pure (obeys_commandWith (by simpa using hoperand))
  next =>
    refine .bind (hg.expression _) fun operand hoperand => ?_
    refine .bind (requiredBlock_yields hg op.name) fun body hbody => ?_
    exact .pure (obeys_commandWith (by simpa using ⟨hoperand, hbody⟩))
  next => exact definitionCommand_yields hg op false
  next => exact definitionCommand_yields hg op true
  all_goals exact .fail

/-- What goes on with an operator obeys if what stands in front does. -/
theorem continuingOperator_yields {left : Value} (hg : g.Obeys p) (hleft : left.Obeys p)
    (token : Token) (op : Operator) :
    (continuingOperator g token left op).Yields (·.Obeys p) := by
  unfold continuingOperator
  split
  next =>
    refine .bind (hg.expression _) fun right hright => ?_
    exact .pure (obeys_commandWith (by simpa using ⟨hleft, hright⟩))
  next =>
    refine .bind (hg.expression _) fun right hright => ?_
    exact .pure (obeys_commandWith (by simpa using ⟨hleft, hright⟩))
  next => exact .pure (obeys_commandWith (by simpa using hleft))
  all_goals exact .fail

/-! ## Operands and expressions -/

/-- A name stands for itself or gets arguments that obey. -/
theorem nameOrCommand_yields (hg : g.Obeys p) (name : String) :
    (nameOrCommand g name).Yields (·.Obeys p) := by
  refine .skip fun kind => .skip fun adjacent => ?_
  split
  next =>
    refine .skip fun _ => .bind (arguments_yields hg) fun found hfound => ?_
    exact .pure (obeys_ofValues hfound)
  next =>
    split
    next =>
      refine .bind hg.operand fun argument hargument => ?_
      exact .pure (obeys_ofValues (by simpa using hargument))
    next => exact .pure .identifier

/-- All operands obey, if expressions inside them do. -/
theorem operandWith_yields (hg : g.Obeys p) : (operandWith g).Yields (·.Obeys p) := by
  refine .skip fun token => ?_
  split
  next => exact .pure .text
  next => exact .pure .text
  next => exact .pure .tag
  next name _ _ => exact nameOrCommand_yields hg name
  next => exact group_yields hg
  next => exact collection_yields hg token.span.start
  next => exact .bind (statements_yields hg .block) fun items hitems => .pure (.block hitems)
  next =>
    split
    next op _ => exact startingOperator_yields hg token op
    next => exact .fail
  next => exact .fail

/-- An operation takes up what obeys and gives what obeys. -/
theorem operation_yields {left : Value} (hg : g.Obeys p) (hleft : left.Obeys p) :
    (operation g left).Yields (·.Obeys p) := by
  refine .skip fun token => ?_
  split
  next =>
    refine .bind (hg.expression _) fun right hright => ?_
    exact .pure (.pair hleft hright)
  next =>
    split
    next op _ => exact continuingOperator_yields hg hleft token op
    next => exact .fail
  next => exact .fail

/-- So do any number of operations, one after another. -/
theorem operations_yields {left : Value} (hg : g.Obeys p) (hleft : left.Obeys p) (least : Int)
    (fuel : Nat) : (operations g least fuel left).Yields (·.Obeys p) := by
  induction fuel generalizing left with
  | zero => exact .exhausted
  | succ fuel ih =>
    refine .skip fun kind => ?_
    split
    next =>
      split
      next => exact .pure hleft
      next => exact .bind (operation_yields hg hleft) fun next hnext => ih hnext
    next => exact .pure hleft

/-- By induction on the fuel, everything that can be read obeys. -/
theorem grammar_obeys (p : Policy) (fuel : Nat) : (grammar fuel).Obeys p := by
  induction fuel with
  | zero => exact ⟨fun _ => .exhausted, .exhausted⟩
  | succ fuel ih =>
    refine ⟨fun least => ?_, operandWith_yields ih⟩
    exact .bind ih.operand fun left hleft => operations_yields ih hleft least fuel

end Parser

/-- The statements of a script obey every policy. -/
theorem readScript_obeys (p : Policy) {registry : Registry} {source : String}
    {statements : List Value} (h : readScript registry source = .ok statements) :
    ∀ value ∈ statements, value.Obeys p := by
  obtain ⟨after, hrun⟩ := Parser.runOn_eq_ok_iff.1 h
  exact Parser.statements_yields (Parser.grammar_obeys p _) .code _ _ _ hrun

end CommandScript
