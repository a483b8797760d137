import CommandScript.Proofs.Statements

/-!
# Spelled code

Which tokens spell which expression, said as a relation, without a parser: the printed form of code,
where an operand that needs them has its parentheses.  The parser reads every spelling as the
expression it spells.

Where an operand needs parentheses is a matter of its edges.  An operation is read off from left to
right, as long as operators bind tightly enough.  So code that looks for operations tighter than a
precedence must not stop inside the operand, and must stop behind it.  The *reach* of an expression
is how tightly its outermost operation binds, and its *slack* is how tightly what follows may bind
without becoming a part of it.  Bracketed code has neither.

The fuel is counted in tokens, two units each.
-/

namespace CommandScript.Parser

/-! ## Edges -/

/-- How far the operations of an expression extend to both sides. -/
structure Edge where
  /-- How tightly the outermost operation binds that can be cut off on the right. -/
  reach : Option Int
  /-- How tightly an operator may bind that does not become a part of it. -/
  slack : Option Int

namespace Edge

/-- The edge of code that is one operand. -/
def closed : Edge := ⟨none, none⟩

/-- Code that wants operations tighter than a precedence reads the expression to its end. -/
def Within (edge : Edge) (least : Int) : Prop := ∀ reach ∈ edge.reach, least < reach

/-- Operators of a precedence don't become a part of the expression. -/
def Leaves (edge : Edge) (precedence : Int) : Prop := ∀ slack ∈ edge.slack, precedence ≤ slack

/-- Code that wants operations tighter than a precedence reads the expression and no more. -/
structure Fits (edge : Edge) (least : Int) : Prop where
  /-- It reads no less. -/
  within : edge.Within least
  /-- It reads no more. -/
  leaves : edge.Leaves least

/-- A closed value fits anywhere: nothing reaches into it and it reaches into nothing. -/
theorem closed_fits (least : Int) : closed.Fits least := ⟨nofun, nofun⟩

/-- An operator that binds less tightly is left alone too. -/
theorem Leaves.mono {edge : Edge} {least other : Int} (h : edge.Leaves least)
    (hle : other ≤ least) : edge.Leaves other := by
  intro slack hslack
  have := h slack hslack
  omega

/-- What fits under a precedence fits under any looser one. -/
theorem Fits.mono {edge : Edge} {least other : Int} (h : edge.Fits least) (hle : other ≤ least) :
    edge.Fits other := by
  refine ⟨fun reach hreach => ?_, h.leaves.mono hle⟩
  have := h.within reach hreach
  omega

/-- A token may stand behind an expression without becoming a part of it. -/
structure Borders (edge : Edge) (kind : TokenKind) : Prop where
  /-- It is not the argument of a name. -/
  argument : startsArgument kind = false
  /-- Nor the parenthesis before the arguments of a name. -/
  opening : kind ≠ .groupOpen
  /-- Nor an operator that binds to the last operand. -/
  leaves : ∀ precedence ∈ precedence? kind, edge.Leaves precedence

end Edge

/-- A token ends an expression of operations tighter than a precedence. -/
structure EndsExpression (least : Int) (kind : TokenKind) : Prop where
  /-- It is not the argument of a name. -/
  argument : startsArgument kind = false
  /-- Nor the parenthesis before the arguments of a name. -/
  opening : kind ≠ .groupOpen
  /-- Nor an operator that binds tightly enough. -/
  loose : ∀ precedence ∈ precedence? kind, precedence ≤ least

/-- What ends an expression borders on a value that leaves operators of its precedence alone. -/
theorem EndsExpression.borders {least : Int} {kind : TokenKind} {edge : Edge}
    (h : EndsExpression least kind) (hedge : edge.Leaves least) : edge.Borders kind :=
  ⟨h.argument, h.opening, fun precedence hprecedence =>
    hedge.mono (h.loose precedence hprecedence)⟩

/-- A token that ends an expression ends the tighter ones too. -/
theorem EndsExpression.mono {least other : Int} {kind : TokenKind} (h : EndsExpression least kind)
    (hle : least ≤ other) : EndsExpression other kind := by
  refine ⟨h.argument, h.opening, fun precedence hprecedence => ?_⟩
  have := h.loose precedence hprecedence
  omega

theorem endsExpression_pairSeparator : EndsExpression colonPrecedence .pairSeparator where
  argument := rfl
  opening := nofun
  loose := by rintro precedence ⟨⟩; exact Int.le_refl _

theorem endsExpression_blockOpen (least : Int) : EndsExpression least .blockOpen :=
  ⟨rfl, nofun, nofun⟩

/-- Commas, semicolons and line breaks end any expression of a statement or an item. -/
theorem endsExpression_separator {kind : TokenKind} (h : isSeparator kind = true) :
    EndsExpression 0 kind := by
  cases kind with
  | lineBreak | itemSeparator | statementSeparator =>
    refine ⟨rfl, nofun, ?_⟩
    rintro precedence ⟨⟩
    decide
  | _ => cases h

/-- So does the bracket that closes the sequence. -/
theorem endsExpression_closer {closer : Closer} {kind : TokenKind}
    (h : closer.accepts kind = true) :
    EndsExpression 0 kind := by
  cases closer <;> cases kind <;> simp only [Closer.accepts, Bool.false_eq_true] at h
  all_goals
    refine ⟨rfl, nofun, ?_⟩
    rintro precedence ⟨⟩
    decide

/-! ## Spellings -/

/-- The precedence that the operations in the right operand of an operator must exceed. -/
def rightLevel (op : Operator) : Int :=
  match op.form with
  | .betweenRight => looser op.precedence
  | _ => op.precedence

/-- What tokens may spell. -/
inductive Form where
  /-- An expression with an edge. -/
  | value (value : Value) (edge : Edge)
  /-- An element of a bracketed sequence. -/
  | element (found : Element)
  /-- Elements with commas between them. -/
  | elements (found : List Element)
  /-- Statements with semicolons between them. -/
  | statements (items : List Value)

/-- Tokens that spell something. -/
inductive Spells : Form → List Token → Prop where
  /-- A number. -/
  | number {token : Token} {literal : String} {scalar : Scalar} :
      token.kind = .number literal scalar →
      Spells (.value (.text (.number literal scalar)) .closed) [token]
  /-- A text. -/
  | text {token : Token} {content : String} : token.kind = .text content →
      Spells (.value (.ofString content) .closed) [token]
  /-- A tag. -/
  | tag {token : Token} {name : String} : token.kind = .tag name →
      Spells (.value (.tag (.ofString name)) .closed) [token]
  /-- A name. -/
  | identifier {token : Token} {name : String} {quoted : Bool} :
      token.kind = .identifier name quoted →
      Spells (.value (.identifier (.ofString name)) .closed) [token]
  /-- A name and arguments, with no blank between. -/
  | call {token opening closing : Token} {name : String} {quoted : Bool} {found : List Element}
      {tokens : List Token} : token.kind = .identifier name quoted →
      opening.kind = .groupOpen → opening.span.start = token.span.stop →
      closing.kind = .groupClose → Spells (.elements found) tokens →
      Spells (.value (.command (.ofValues (.ofString name) (found.map Element.asArgument)))
        .closed) (token :: opening :: (tokens ++ [closing]))
  /-- A list, or a record that is not empty. -/
  | collection {opening closing : Token} {found : List Element} {tokens : List Token}
      {value : Value} : opening.kind = .listOpen → closing.kind = .listClose →
      Spells (.elements found) tokens → (∀ span, collectionOf found span = .ok value) →
      Spells (.value value .closed) (opening :: (tokens ++ [closing]))
  /-- The empty record. -/
  | emptyRecord {opening colon closing : Token} : opening.kind = .listOpen →
      colon.kind = .pairSeparator → closing.kind = .listClose →
      Spells (.value (.record .empty) .closed) [opening, colon, closing]
  /-- A group. -/
  | group {opening closing : Token} {value : Value} {edge : Edge} {tokens : List Token} :
      opening.kind = .groupOpen → closing.kind = .groupClose →
      Spells (.value value edge) tokens →
      Spells (.value value .closed) (opening :: (tokens ++ [closing]))
  /-- A block. -/
  | block {opening closing : Token} {items : List Value} {tokens : List Token} :
      opening.kind = .blockOpen → closing.kind = .blockClose →
      Spells (.statements items) tokens →
      Spells (.value (.block items) .closed) (opening :: (tokens ++ [closing]))
  /-- An operator alone. -/
  | atom {token : Token} {found : KnownSpelling} {op : Operator} :
      token.kind = .operator found → found.starting? = some op → op.form = .atom →
      Spells (.value (commandWith op .atom []) .closed) [token]
  /-- An operator before its operand. -/
  | before {token : Token} {found : KnownSpelling} {op : Operator} {value : Value} {edge : Edge}
      {tokens : List Token} :
      token.kind = .operator found → found.starting? = some op → op.form = .before →
      colonPrecedence ≤ op.precedence → edge.Fits op.precedence →
      Spells (.value value edge) tokens →
      Spells (.value (commandWith op .before [value]) ⟨none, some op.precedence⟩)
        (token :: tokens)
  /-- An operator before its operand and a block. -/
  | keyword {token opening closing : Token} {found : KnownSpelling} {op : Operator}
      {value : Value} {edge : Edge} {items : List Value} {tokens others : List Token} :
      token.kind = .operator found → found.starting? = some op → op.form = .keywordBlock →
      edge.Within op.precedence → Spells (.value value edge) tokens →
      opening.kind = .blockOpen → closing.kind = .blockClose →
      Spells (.statements items) others →
      Spells (.value (commandWith op .keyword [value, .block items]) .closed)
        (token :: (tokens ++ opening :: (others ++ [closing])))
  /-- An operator between its operands. -/
  | between {token : Token} {found : KnownSpelling} {op : Operator} {left right : Value}
      {leftEdge rightEdge : Edge} {tokens others : List Token} :
      token.kind = .operator found → found.continuing? = some op → op.fixity = .between →
      Edge.Fits ⟨some op.precedence, some (rightLevel op)⟩ colonPrecedence →
      (∀ reach ∈ leftEdge.reach, op.precedence ≤ reach) → leftEdge.Leaves op.precedence →
      rightEdge.Fits (rightLevel op) →
      Spells (.value left leftEdge) tokens → Spells (.value right rightEdge) others →
      Spells (.value (commandWith op .between [left, right])
        ⟨some op.precedence, some (rightLevel op)⟩) (tokens ++ token :: others)
  /-- An element without a key. -/
  | item {value : Value} {edge : Edge} {tokens : List Token} : Spells (.value value edge) tokens →
      Spells (.element (.item value)) tokens
  /-- An element with a key that is not in parentheses. -/
  | pair {first colon : Token} {key value : Value} {edge : Edge} {tokens others : List Token} :
      first.kind ≠ .groupOpen → Spells (.value key .closed) (first :: tokens) →
      colon.kind = .pairSeparator → Spells (.value value edge) others →
      Spells (.element (.pair key value false)) (first :: tokens ++ colon :: others)
  /-- No elements. -/
  | noElements : Spells (.elements []) []
  /-- The last element. -/
  | lastElement {found : Element} {tokens : List Token} : Spells (.element found) tokens →
      Spells (.elements [found]) tokens
  /-- An element and others. -/
  | moreElements {comma : Token} {found next : Element} {rest : List Element}
      {tokens others : List Token} : Spells (.element found) tokens →
      comma.kind = .itemSeparator → Spells (.elements (next :: rest)) others →
      Spells (.elements (found :: next :: rest)) (tokens ++ comma :: others)
  /-- No statements. -/
  | noStatements : Spells (.statements []) []
  /-- The last statement. -/
  | lastStatement {value : Value} {edge : Edge} {tokens : List Token} :
      Spells (.value value edge) tokens → Spells (.statements [value]) tokens
  /-- A statement and others. -/
  | moreStatements {mark : Token} {value next : Value} {edge : Edge} {rest : List Value}
      {tokens others : List Token} : Spells (.value value edge) tokens →
      mark.kind = .statementSeparator → Spells (.statements (next :: rest)) others →
      Spells (.statements (value :: next :: rest)) (tokens ++ mark :: others)

/-- Every expression that is spelled can be an element. -/
theorem Spells.fits {value : Value} {edge : Edge} {tokens : List Token}
    (h : Spells (.value value edge) tokens) : edge.Fits colonPrecedence := by
  cases h with
  | before _ _ _ hprecedence _ _ =>
    refine ⟨nofun, ?_⟩
    rintro slack ⟨⟩
    exact hprecedence
  | between _ _ _ hfits => exact hfits
  | _ => exact Edge.closed_fits _

/-- Whether a token can start an operand. -/
def startsOperand : TokenKind → Bool
  | .number .. | .text _ | .tag _ | .identifier .. | .operator _ => true
  | .groupOpen | .listOpen | .blockOpen => true
  | _ => false

/-- Some tokens start with one that starts an operand. -/
def Opens (tokens : List Token) : Prop :=
  ∃ first others, tokens = first :: others ∧ startsOperand first.kind = true

theorem opens_cons {first : Token} {others : List Token} (h : startsOperand first.kind = true) :
    Opens (first :: others) := ⟨first, others, rfl, h⟩

theorem Opens.append {tokens : List Token} (h : Opens tokens) (others : List Token) :
    Opens (tokens ++ others) := by
  obtain ⟨first, rest, rfl, hfirst⟩ := h
  exact opens_cons hfirst

/-- What is spelled starts with an operand, unless there is nothing. -/
def Starts : Form → List Token → Prop
  | .elements [], tokens => tokens = []
  | .statements [], tokens => tokens = []
  | _, tokens => Opens tokens

/-- Whatever is spelled starts with a token that starts an operand, unless nothing is spelled. -/
theorem Spells.starts {form : Form} {tokens : List Token} (h : Spells form tokens) :
    Starts form tokens := by
  induction h with
  | number h | text h | tag h | identifier h | call h | collection h | emptyRecord h | group h
  | block h | atom h | before h | keyword h => exact opens_cons (by rw [h]; rfl)
  | between _ _ _ _ _ _ _ _ _ ihleft _ => exact ihleft.append _
  | item _ ih => exact ih
  | pair _ _ _ _ ihkey _ => exact ihkey.append _
  | lastElement _ ih => exact ih
  | moreElements _ _ _ ih _ => exact ih.append _
  | lastStatement _ ih => exact ih
  | moreStatements _ _ _ ih _ => exact ih.append _
  | noElements | noStatements => rfl

/-! ## Reading what is spelled -/

/-- The kind of the next token, with given tokens left. -/
def State.kindAt (state : State) (rest : List Token) : TokenKind :=
  ({ state with rest := rest } : State).current.kind

variable {state : State} {token : Token} {tokens others rest : List Token}

theorem State.current_of_rest (hrest : state.rest = token :: others)
    (htoken : token.kind.isLineBreak = false) : state.current = token := by
  simp [State.current, State.visible, hrest, htoken]

theorem State.kindAt_cons (state : State) (htoken : token.kind.isLineBreak = false) :
    state.kindAt (token :: others) = token.kind :=
  congrArg Token.kind (State.current_of_rest rfl htoken)

/-- Reading a token that is no line break moves behind it. -/
theorem advance_of_rest (hrest : state.rest = token :: others)
    (htoken : token.kind.isLineBreak = false) :
    advance state = .done token (state.behind token others) := by
  simp [advance, State.visible, hrest, htoken, State.behind]

/-- The state with line breaks counting or not. -/
def State.counting (state : State) (lineBreaks : Bool) : State :=
  { state with lineBreaks := lineBreaks }

/-- A parser that reads some tokens under another setting reads them under this one. -/
theorem countingLineBreaks_behind {α : Type} {lineBreaks : Bool} {parser : Parser α} {result : α}
    {last : Token}
    (h : parser (state.counting lineBreaks) =
      .done result ((state.counting lineBreaks).behind last rest)) :
    countingLineBreaks lineBreaks parser state = .done result (state.behind last rest) := by
  unfold State.counting at h
  unfold countingLineBreaks
  rw [h]
  rfl

/-- A fixed token that stands there is taken. -/
theorem expect_of_rest {test : TokenKind → Bool} (what : String)
    (hrest : state.rest = token :: others) (htoken : token.kind.isLineBreak = false)
    (htest : test token.kind = true) :
    expect test what state = .done token (state.behind token others) := by
  rw [expect_eq, State.current_of_rest hrest htoken, if_pos htest, advance_of_rest hrest htoken]

/-- What is read off the tokens that spell it. -/
def Reads : Form → List Token → Prop
  | .value value edge, tokens =>
    ∀ {fuel : Nat} {least : Int} {state : State} {rest : List Token},
      state.rest = tokens ++ rest → 2 * tokens.length < fuel → edge.Within least →
      edge.Borders (state.kindAt rest) →
      ∃ rounds last, fuel ≤ rounds + tokens.length ∧
        expressionUpTo (fuel + 1) least state =
          operations (grammar fuel) least rounds value (state.behind last rest)
  | .element found, tokens =>
    ∀ {fuel : Nat} {state : State} {rest : List Token},
      state.rest = tokens ++ rest → 2 * tokens.length < fuel →
      EndsExpression 0 (state.kindAt rest) →
      ∃ last, element (grammar (fuel + 1)) state = .done found (state.behind last rest)
  | .elements found, tokens => found ≠ [] →
    ∀ {fuel rounds : Nat} {closer : Closer} {state : State} {closing : Token}
      {rest : List Token},
      state.rest = tokens ++ closing :: rest → 2 * tokens.length < fuel →
      tokens.length < rounds → closer.accepts closing.kind = true →
      elementsLoop (grammar (fuel + 1)) closer rounds state =
        .done found (state.behind closing rest)
  | .statements items, tokens =>
    ∀ {fuel rounds : Nat} {state : State} {closing : Token} {rest : List Token},
      state.lineBreaks = true → state.rest = tokens ++ closing :: rest →
      2 * tokens.length < fuel → tokens.length < rounds → closing.kind = .blockClose →
      statementsLoop (grammar (fuel + 1)) .block rounds state =
        .done items (state.behind closing rest)

/-- An operand is read off tokens. -/
def ReadsOperand (value : Value) (edge : Edge) (tokens : List Token) : Prop :=
  ∀ {fuel : Nat} {state : State} {rest : List Token},
    state.rest = tokens ++ rest → 2 * tokens.length < fuel → edge.Borders (state.kindAt rest) →
    ∃ last, operandUpTo fuel state = .done value (state.behind last rest)

/-- A value that is read as an operand is read as an expression: the operators behind it are left to
the expression around it. -/
theorem reads_operand {value : Value} {edge : Edge} (h : ReadsOperand value edge tokens) :
    Reads (.value value edge) tokens := by
  intro fuel least state rest hrest hfuel _ hborders
  obtain ⟨last, hread⟩ := h hrest hfuel hborders
  exact ⟨fuel, last, Nat.le_add_right _ _, bind_of_done hread⟩

/-- Where an expression ends no operator is taken. -/
theorem operations_done {g : Grammar} {least : Int} {rounds : Nat} (hrounds : 0 < rounds)
    (value : Value) (h : EndsExpression least state.current.kind) :
    operations g least rounds value state = .done value state := by
  obtain ⟨rounds, rfl⟩ := Nat.exists_eq_succ_of_ne_zero (Nat.ne_zero_of_lt hrounds)
  rw [operations, bind_of_done (nextKind_eq state)]
  cases hprecedence : precedence? state.current.kind with
  | none => rfl
  | some precedence =>
    have hle := h.loose precedence hprecedence
    simp only [hle, if_true]
    rfl

/-- An expression is read to its end if what follows ends it. -/
theorem Reads.expression {value : Value} {edge : Edge} {fuel : Nat} {least : Int}
    (h : Reads (.value value edge) tokens) (hrest : state.rest = tokens ++ rest)
    (hfuel : 2 * tokens.length < fuel) (hwithin : edge.Within least)
    (hborders : edge.Borders (state.kindAt rest))
    (hends : EndsExpression least (state.kindAt rest)) :
    ∃ last, expressionUpTo (fuel + 1) least state = .done value (state.behind last rest) := by
  obtain ⟨rounds, last, hrounds, hread⟩ := h hrest hfuel hwithin hborders
  refine ⟨last, hread.trans (operations_done (by omega) value ?_)⟩
  exact hends

/-- The same when the value's edges fit the precedence, as they do for every part of a value. -/
theorem Reads.expression_of_fits {value : Value} {edge : Edge} {fuel : Nat} {least : Int}
    (h : Reads (.value value edge) tokens) (hrest : state.rest = tokens ++ rest)
    (hfuel : 2 * tokens.length < fuel) (hedge : edge.Fits least)
    (hends : EndsExpression least (state.kindAt rest)) :
    ∃ last, expressionUpTo (fuel + 1) least state = .done value (state.behind last rest) :=
  h.expression hrest hfuel hedge.within (hends.borders hedge.leaves) hends

/-! ### Operands -/

variable {value : Value} {edge : Edge}

/-- No operand starts with a line break, so nothing is passed over before it. -/
theorem isLineBreak_of_starts {kind : TokenKind} (h : startsOperand kind = true) :
    kind.isLineBreak = false := by
  cases kind with
  | lineBreak => cases h
  | _ => rfl

/-- Nor with a closing bracket, so a sequence goes on before it. -/
theorem accepts_of_starts {kind : TokenKind} (closer : Closer) (h : startsOperand kind = true) :
    closer.accepts kind = false := by
  cases closer <;> cases kind <;> first | rfl | cases h

theorem isLineBreak_of_accepts {closer : Closer} {kind : TokenKind}
    (h : closer.accepts kind = true) : kind.isLineBreak = false := by
  cases kind with
  | lineBreak => cases closer <;> cases h
  | _ => rfl

/-- An operand is read from its first token. -/
theorem operandUpTo_of_rest {fuel : Nat} (hrest : state.rest = token :: others)
    (htoken : startsOperand token.kind = true) :
    operandUpTo (fuel + 1) state =
      operandAfter (grammar fuel) token (state.behind token others) := by
  change operandWith (grammar fuel) state = _
  rw [operandWith_eq, bind_of_done (advance_of_rest hrest (isLineBreak_of_starts htoken))]

/-- Operands of more than one token have fuel for what is inside. -/
theorem exists_fuel {fuel count : Nat} (h : 2 * (count + 1) < fuel) :
    ∃ less, fuel = less + 2 ∧ 2 * count < less := ⟨fuel - 2, by omega, by omega⟩

/-- Operands of one token: scalars, texts, tags and operators that are atoms. -/
theorem readsOperand_literal (hstarts : startsOperand token.kind = true)
    (h : ∀ g, operandAfter g token = pure value) : ReadsOperand value .closed [token] := by
  intro fuel state rest hrest hfuel _
  obtain ⟨fuel, rfl⟩ := Nat.exists_eq_succ_of_ne_zero (Nat.ne_zero_of_lt hfuel)
  refine ⟨token, ?_⟩
  rw [operandUpTo_of_rest hrest hstarts, h]
  rfl

theorem readsOperand_identifier {name : String} {quoted : Bool}
    (hkind : token.kind = .identifier name quoted) :
    ReadsOperand (.identifier (.ofString name)) .closed [token] := by
  intro fuel state rest hrest hfuel hborders
  obtain ⟨fuel, rfl⟩ := Nat.exists_eq_succ_of_ne_zero (Nat.ne_zero_of_lt hfuel)
  refine ⟨token, ?_⟩
  have halone : ¬ (state.behind token rest).OpensArguments := fun h => hborders.opening h.1
  have hargument : startsArgument (state.behind token rest).current.kind = false :=
    hborders.argument
  rw [operandUpTo_of_rest hrest (by rw [hkind]; rfl), operandAfter, hkind]
  change nameOrCommand (grammar fuel) name (state.behind token rest) = _
  rw [nameOrCommand_alone halone, loneArgument, hargument]
  rfl

/-- Elements are read up to their closer. -/
theorem Spells.reads_elements {found : List Element} {fuel : Nat} {closer : Closer}
    {closing : Token} (h : Spells (.elements found) tokens)
    (hreads : Reads (.elements found) tokens)
    (hrest : state.rest = tokens ++ closing :: rest) (hfuel : 2 * tokens.length < fuel)
    (hclosing : closer.accepts closing.kind = true) :
    elements (grammar (fuel + 1)) closer state = .done found (state.behind closing rest) := by
  rw [elements, bind_of_done (nextKind_eq state)]
  cases found with
  | nil =>
    obtain rfl : tokens = [] := h.starts
    have hbreak := isLineBreak_of_accepts hclosing
    rw [State.current_of_rest hrest hbreak, if_pos hclosing,
      bind_of_done (advance_of_rest hrest hbreak)]
    rfl
  | cons first found =>
    obtain ⟨opening, others, rfl, hstarts⟩ : Opens tokens := h.starts
    have hopened := accepts_of_starts closer hstarts
    rw [State.current_of_rest hrest (isLineBreak_of_starts hstarts), hopened, if_neg nofun]
    exact hreads nofun hrest hfuel (by simp only [grammar]; omega) hclosing

/-- A bracketed sequence does not start with a colon. -/
theorem Spells.elements_ne_colon {found : List Element} {closer : Closer} {closing : Token}
    (h : Spells (.elements found) tokens) (hrest : state.rest = tokens ++ closing :: rest)
    (hclosing : closer.accepts closing.kind = true) :
    state.current.kind ≠ .pairSeparator := by
  cases found with
  | nil =>
    obtain rfl : tokens = [] := h.starts
    rw [State.current_of_rest hrest (isLineBreak_of_accepts hclosing)]
    intro hkind
    rw [hkind] at hclosing
    cases closer <;> cases hclosing
  | cons first found =>
    obtain ⟨opening, others, rfl, hstarts⟩ : Opens tokens := h.starts
    rw [State.current_of_rest hrest (isLineBreak_of_starts hstarts)]
    intro hkind
    rw [hkind] at hstarts
    cases hstarts

theorem Spells.reads_arguments {found : List Element} {fuel : Nat} {closing : Token}
    (h : Spells (.elements found) tokens) (hreads : Reads (.elements found) tokens)
    (hrest : state.rest = tokens ++ closing :: rest) (hfuel : 2 * tokens.length < fuel)
    (hclosing : closing.kind = .groupClose) :
    arguments (grammar (fuel + 1)) state =
      .done (found.map Element.asArgument) (state.behind closing rest) := by
  have helements : elements (grammar (fuel + 1)) .group (state.counting false) =
      .done found ((state.counting false).behind closing rest) :=
    h.reads_elements hreads hrest hfuel (by rw [hclosing]; rfl)
  apply countingLineBreaks_behind
  rw [bind_of_done helements]
  rfl

theorem Spells.reads_collection {found : List Element} {fuel start : Nat} {closing : Token}
    (h : Spells (.elements found) tokens) (hreads : Reads (.elements found) tokens)
    (hrest : state.rest = tokens ++ closing :: rest) (hfuel : 2 * tokens.length < fuel)
    (hclosing : closing.kind = .listClose) (hvalue : ∀ span, collectionOf found span = .ok value) :
    Parser.collection (grammar (fuel + 1)) start state =
      .done value (state.behind closing rest) := by
  have haccepts : Closer.list.accepts closing.kind = true := by rw [hclosing]; rfl
  have helements : elements (grammar (fuel + 1)) .list (state.counting false) =
      .done found ((state.counting false).behind closing rest) :=
    h.reads_elements hreads hrest hfuel haccepts
  have hcolon : (state.counting false).current.kind ≠ .pairSeparator :=
    h.elements_ne_colon hrest haccepts
  apply countingLineBreaks_behind
  rw [bind_of_done (nextKind_eq _)]
  cases hkind : (state.counting false).current.kind with
  | pairSeparator => exact absurd hkind hcolon
  | _ =>
    refine (bind_of_done helements).trans ?_
    simp only [hvalue]
    rfl

/-- A call: the name, the bracket that touches it, the arguments and the closing bracket. -/
theorem readsOperand_call {opening closing : Token} {name : String} {quoted : Bool}
    {found : List Element} (hkind : token.kind = .identifier name quoted)
    (hopening : opening.kind = .groupOpen) (htouches : opening.span.start = token.span.stop)
    (hclosing : closing.kind = .groupClose) (h : Spells (.elements found) tokens)
    (hreads : Reads (.elements found) tokens) :
    ReadsOperand (.command (.ofValues (.ofString name) (found.map Element.asArgument))) .closed
      (token :: opening :: (tokens ++ [closing])) := by
  intro fuel state rest hrest hfuel _
  simp only [List.length_cons, List.length_append, List.length_nil] at hfuel
  simp only [List.cons_append, List.append_assoc, List.nil_append] at hrest
  obtain ⟨fuel, rfl, -⟩ := exists_fuel hfuel
  refine ⟨closing, ?_⟩
  have hbreak : opening.kind.isLineBreak = false := by rw [hopening]; rfl
  have hcurrent : (state.behind token (opening :: (tokens ++ closing :: rest))).current = opening :=
    State.current_of_rest rfl hbreak
  have hopens : (state.behind token (opening :: (tokens ++ closing :: rest))).OpensArguments :=
    ⟨by rw [hcurrent, hopening], by rw [hcurrent, htouches]; rfl⟩
  have harguments :
      arguments (grammar (fuel + 1)) (state.behind opening (tokens ++ closing :: rest))
      = .done (found.map Element.asArgument) (state.behind closing rest) :=
    h.reads_arguments hreads rfl (by omega) hclosing
  rw [operandUpTo_of_rest hrest (by rw [hkind]; rfl), operandAfter, hkind]
  change nameOrCommand (grammar (fuel + 1)) name _ = _
  rw [nameOrCommand_opened hopens, bind_of_done (advance_of_rest rfl hbreak)]
  exact bind_of_done harguments

/-- A list or a record between square brackets, as `collectionOf` makes it of the elements. -/
theorem readsOperand_collection {opening closing : Token} {found : List Element}
    (hopening : opening.kind = .listOpen) (hclosing : closing.kind = .listClose)
    (h : Spells (.elements found) tokens) (hreads : Reads (.elements found) tokens)
    (hvalue : ∀ span, collectionOf found span = .ok value) :
    ReadsOperand value .closed (opening :: (tokens ++ [closing])) := by
  intro fuel state rest hrest hfuel _
  simp only [List.length_cons, List.length_append, List.length_nil] at hfuel
  simp only [List.cons_append, List.append_assoc, List.nil_append] at hrest
  obtain ⟨fuel, rfl, -⟩ := exists_fuel hfuel
  refine ⟨closing, ?_⟩
  rw [operandUpTo_of_rest hrest (by rw [hopening]; rfl), operandAfter, hopening]
  exact h.reads_collection hreads rfl (by omega) hclosing hvalue

/-- The empty record, whose colon tells it from the empty list. -/
theorem readsOperand_emptyRecord {opening colon closing : Token}
    (hopening : opening.kind = .listOpen) (hcolon : colon.kind = .pairSeparator)
    (hclosing : closing.kind = .listClose) :
    ReadsOperand (.record .empty) .closed [opening, colon, closing] := by
  intro fuel state rest hrest hfuel _
  obtain ⟨fuel, rfl, -⟩ := exists_fuel hfuel
  refine ⟨closing, ?_⟩
  have hcolon' : colon.kind.isLineBreak = false := by rw [hcolon]; rfl
  have hclosing' : closing.kind.isLineBreak = false := by rw [hclosing]; rfl
  rw [operandUpTo_of_rest hrest (by rw [hopening]; rfl), operandAfter, hopening]
  apply countingLineBreaks_behind
  rw [bind_of_done (nextKind_eq _), State.current_of_rest rfl hcolon', hcolon]
  change (advance >>= fun _ => _ : Parser Value) _ = _
  rw [bind_of_done (advance_of_rest rfl hcolon'),
    bind_of_done (expect_of_rest _ rfl hclosing' (by rw [hclosing]; rfl))]
  rfl

/-- Round brackets close the edges of what they hold. -/
theorem readsOperand_group {opening closing : Token} (hopening : opening.kind = .groupOpen)
    (hclosing : closing.kind = .groupClose) (hedge : edge.Fits colonPrecedence)
    (hreads : Reads (.value value edge) tokens) :
    ReadsOperand value .closed (opening :: (tokens ++ [closing])) := by
  intro fuel state rest hrest hfuel _
  simp only [List.length_cons, List.length_append, List.length_nil] at hfuel
  simp only [List.cons_append, List.append_assoc, List.nil_append] at hrest
  obtain ⟨fuel, rfl, -⟩ := exists_fuel hfuel
  refine ⟨closing, ?_⟩
  have haccepts : Closer.group.accepts closing.kind = true := by rw [hclosing]; rfl
  have hbreak := isLineBreak_of_accepts haccepts
  obtain ⟨last, hread⟩ : ∃ last, expressionUpTo (fuel + 1) 0
      ((state.behind opening (tokens ++ closing :: rest)).counting false) =
        .done value (((state.behind opening (tokens ++ closing :: rest)).counting false).behind last
          (closing :: rest)) :=
    hreads.expression_of_fits rfl (by omega) (hedge.mono (by decide))
      (by rw [State.kindAt_cons _ hbreak]; exact endsExpression_closer haccepts)
  rw [operandUpTo_of_rest hrest (by rw [hopening]; rfl), operandAfter, hopening]
  apply countingLineBreaks_behind
  change (expressionUpTo (fuel + 1) 0 >>= _ : Parser Value) _ = _
  rw [bind_of_done hread, bind_of_done (expect_of_rest _ rfl hbreak haccepts)]
  rfl

/-- Statements are read up to the brace behind them. -/
theorem Reads.statements_block {items : List Value} {fuel : Nat} {closing : Token}
    (hreads : Reads (.statements items) tokens) (hrest : state.rest = tokens ++ closing :: rest)
    (hfuel : 2 * tokens.length < fuel) (hclosing : closing.kind = .blockClose) :
    statements (grammar (fuel + 1)) .block state = .done items (state.behind closing rest) := by
  apply countingLineBreaks_behind
  exact hreads rfl hrest hfuel (by simp only [grammar]; omega) hclosing

theorem Reads.requiredBlock {items : List Value} {fuel : Nat} {keyword : String}
    {opening closing : Token} (hreads : Reads (.statements items) tokens)
    (hrest : state.rest = opening :: (tokens ++ closing :: rest)) (hfuel : 2 * tokens.length < fuel)
    (hopening : opening.kind = .blockOpen) (hclosing : closing.kind = .blockClose) :
    Parser.requiredBlock (grammar (fuel + 1)) keyword state =
      .done items (state.behind closing rest) := by
  have hbreak : opening.kind.isLineBreak = false := by rw [hopening]; rfl
  rw [Parser.requiredBlock, bind_of_done (nextKind_eq _), State.current_of_rest hrest hbreak,
    hopening]
  change (advance >>= fun _ => statements (grammar (fuel + 1)) .block) _ = _
  rw [bind_of_done (advance_of_rest hrest hbreak)]
  exact hreads.statements_block rfl hfuel hclosing

/-- A block of statements between braces. -/
theorem readsOperand_block {opening closing : Token} {items : List Value}
    (hopening : opening.kind = .blockOpen) (hclosing : closing.kind = .blockClose)
    (hreads : Reads (.statements items) tokens) :
    ReadsOperand (.block items) .closed (opening :: (tokens ++ [closing])) := by
  intro fuel state rest hrest hfuel _
  simp only [List.length_cons, List.length_append, List.length_nil] at hfuel
  simp only [List.cons_append, List.append_assoc, List.nil_append] at hrest
  obtain ⟨fuel, rfl, -⟩ := exists_fuel hfuel
  refine ⟨closing, ?_⟩
  rw [operandUpTo_of_rest hrest (by rw [hopening]; rfl), operandAfter, hopening]
  exact bind_of_done (hreads.statements_block rfl (by omega) hclosing)

/-! ### Operators -/

/-- A prefix operator and its operand.  An operator behind it that binds tighter would belong to the
operand. -/
theorem readsOperand_before {found : KnownSpelling} {op : Operator}
    (hkind : token.kind = .operator found) (hop : found.starting? = some op)
    (hform : op.form = .before) (hedge : edge.Fits op.precedence)
    (hreads : Reads (.value value edge) tokens) :
    ReadsOperand (commandWith op .before [value]) ⟨none, some op.precedence⟩ (token :: tokens) := by
  intro fuel state rest hrest hfuel hborders
  rw [List.length_cons] at hfuel
  obtain ⟨fuel, rfl, hless⟩ := exists_fuel hfuel
  have hends : EndsExpression op.precedence (state.kindAt rest) :=
    ⟨hborders.argument, hborders.opening,
      fun precedence hprecedence => hborders.leaves precedence hprecedence _ rfl⟩
  obtain ⟨last, hread⟩ : ∃ last, expressionUpTo (fuel + 1) op.precedence
      (state.behind token (tokens ++ rest)) =
        .done value ((state.behind token (tokens ++ rest)).behind last rest) :=
    hreads.expression_of_fits rfl hless hedge hends
  refine ⟨last, ?_⟩
  rw [operandUpTo_of_rest hrest (by rw [hkind]; rfl)]
  simp only [operandAfter, hkind, hop, startingOperator, hform]
  exact bind_of_done hread

/-- A keyword with an operand and a block. -/
theorem readsOperand_keyword {opening closing : Token} {found : KnownSpelling} {op : Operator}
    {items : List Value} (hkind : token.kind = .operator found) (hop : found.starting? = some op)
    (hform : op.form = .keywordBlock) (hedge : edge.Within op.precedence)
    (hreads : Reads (.value value edge) tokens) (hopening : opening.kind = .blockOpen)
    (hclosing : closing.kind = .blockClose) (hbody : Reads (.statements items) others) :
    ReadsOperand (commandWith op .keyword [value, .block items]) .closed
      (token :: (tokens ++ opening :: (others ++ [closing]))) := by
  intro fuel state rest hrest hfuel _
  simp only [List.length_cons, List.length_append, List.length_nil] at hfuel
  simp only [List.cons_append, List.append_assoc, List.nil_append] at hrest
  obtain ⟨fuel, rfl, -⟩ := exists_fuel hfuel
  have hbreak : opening.kind.isLineBreak = false := by rw [hopening]; rfl
  have hends (least : Int) : EndsExpression least
      (state.kindAt (opening :: (others ++ closing :: rest))) := by
    rw [State.kindAt_cons _ hbreak, hopening]
    exact endsExpression_blockOpen least
  have hborders : edge.Borders (state.kindAt (opening :: (others ++ closing :: rest))) := by
    rw [State.kindAt_cons _ hbreak, hopening]
    exact ⟨rfl, nofun, nofun⟩
  obtain ⟨last, hread⟩ : ∃ last, expressionUpTo (fuel + 1) op.precedence
      (state.behind token (tokens ++ opening :: (others ++ closing :: rest))) =
        .done value (state.behind last (opening :: (others ++ closing :: rest))) :=
    hreads.expression rfl (by omega) hedge hborders (hends _)
  have hblock : requiredBlock (grammar (fuel + 1)) op.name
      (state.behind last (opening :: (others ++ closing :: rest))) =
        .done items (state.behind closing rest) :=
    hbody.requiredBlock rfl (by omega) hopening hclosing
  refine ⟨closing, ?_⟩
  rw [operandUpTo_of_rest hrest (by rw [hkind]; rfl)]
  simp only [operandAfter, hkind, hop, startingOperator, hform]
  change (expressionUpTo (fuel + 1) op.precedence >>= _ : Parser Value) _ = _
  rw [bind_of_done hread, bind_of_done hblock]
  rfl

theorem continuingOperator_between {g : Grammar} {op : Operator} (hop : op.fixity = .between)
    (left : Value) :
    continuingOperator g token left op =
      (do
        let right ← g.expression (rightLevel op)
        return commandWith op .between [left, right]) := by
  unfold Operator.fixity at hop
  unfold continuingOperator rightLevel
  cases hform : op.form with
  | between | betweenRight => rfl
  | _ =>
    rw [hform] at hop
    cases hop

/-- One round of operators: an operator that is tight enough takes what is read so far as its left
operand. -/
theorem operations_succ {g : Grammar} {least precedence : Int} {rounds : Nat} {left next : Value}
    {after : State} (hprecedence : precedence? state.current.kind = some precedence)
    (htight : least < precedence) (hread : operation g left state = .done next after) :
    operations g least (rounds + 1) left state = operations g least rounds next after := by
  rw [operations, bind_of_done (nextKind_eq state), hprecedence]
  simp only [Int.not_le.2 htight, if_false]
  exact bind_of_done hread

/-- An infix operator between two operands.  The left one must not take the operator, nor the right
one an operator that belongs outside. -/
theorem reads_between {found : KnownSpelling} {op : Operator} {left right : Value}
    {leftEdge rightEdge : Edge} (hkind : token.kind = .operator found)
    (hop : found.continuing? = some op) (hfixity : op.fixity = .between)
    (hreach : ∀ reach ∈ leftEdge.reach, op.precedence ≤ reach)
    (hslack : leftEdge.Leaves op.precedence) (hright : rightEdge.Fits (rightLevel op))
    (hleftReads : Reads (.value left leftEdge) tokens)
    (hrightReads : Reads (.value right rightEdge) others) :
    Reads (.value (commandWith op .between [left, right])
      ⟨some op.precedence, some (rightLevel op)⟩) (tokens ++ token :: others) := by
  intro fuel least state rest hrest hfuel hwithin hborders
  simp only [List.length_append, List.length_cons] at hfuel
  rw [List.append_assoc, List.cons_append] at hrest
  have hbreak : token.kind.isLineBreak = false := by rw [hkind]; rfl
  have htight : least < op.precedence := hwithin _ rfl
  have hprecedence : precedence? token.kind = some op.precedence := by
    rw [hkind]
    simp [precedence?, hop]
  have hleftBorders : leftEdge.Borders (state.kindAt (token :: (others ++ rest))) := by
    rw [State.kindAt_cons _ hbreak]
    refine ⟨by rw [hkind]; simp [startsArgument, hop], by rw [hkind]; nofun, ?_⟩
    rw [hprecedence]
    rintro precedence ⟨⟩
    exact hslack
  obtain ⟨rounds, last, hrounds, hleft⟩ := hleftReads hrest
    (show 2 * tokens.length < fuel by omega)
    (fun reach h => Int.lt_of_lt_of_le htight (hreach reach h)) hleftBorders
  obtain ⟨rounds, rfl⟩ := Nat.exists_eq_succ_of_ne_zero (by omega : rounds ≠ 0)
  obtain ⟨fuel, rfl⟩ := Nat.exists_eq_succ_of_ne_zero (Nat.ne_zero_of_lt hfuel)
  have hends : EndsExpression (rightLevel op) (state.kindAt rest) :=
    ⟨hborders.argument, hborders.opening,
      fun precedence hprecedence => hborders.leaves precedence hprecedence _ rfl⟩
  obtain ⟨final, hrightRead⟩ : ∃ final, expressionUpTo (fuel + 1) (rightLevel op)
      (state.behind token (others ++ rest)) =
        .done right ((state.behind token (others ++ rest)).behind final rest) :=
    hrightReads.expression_of_fits rfl (by omega) hright hends
  have hoperation : operation (grammar (fuel + 1)) left
      (state.behind last (token :: (others ++ rest))) =
        .done (commandWith op .between [left, right]) (state.behind final rest) := by
    rw [operation, bind_of_done (advance_of_rest rfl hbreak), hkind]
    simp only [hop, continuingOperator_between hfixity]
    exact bind_of_done hrightRead
  refine ⟨rounds, final, ?_, hleft.trans (operations_succ ?_ htight hoperation)⟩
  · simp only [List.length_append, List.length_cons]
    omega
  · rw [State.current_of_rest rfl hbreak, hprecedence]

/-! ### Sequences -/

theorem EndsExpression.ne_colon {kind : TokenKind} (h : EndsExpression 0 kind) :
    kind ≠ .pairSeparator := by
  rintro rfl
  exact absurd (h.loose _ rfl) (by decide)

theorem reads_item (hedge : edge.Fits colonPrecedence) (hreads : Reads (.value value edge) tokens) :
    Reads (.element (.item value)) tokens := by
  intro fuel state rest hrest hfuel hends
  obtain ⟨last, hread⟩ := hreads.expression_of_fits hrest hfuel hedge (hends.mono (by decide))
  refine ⟨last, ?_⟩
  have hcolon : (state.behind last rest).current.kind ≠ .pairSeparator := hends.ne_colon
  rw [element, bind_of_done (nextKind_eq _)]
  refine (bind_of_done hread).trans ?_
  rw [bind_of_done (nextKind_eq _)]
  cases hkind : (state.behind last rest).current.kind with
  | pairSeparator => exact absurd hkind hcolon
  | _ => rfl

/-- A key, a colon and a value.  A key in round brackets is evaluated, so this one does not start
with one. -/
theorem reads_pair {first colon : Token} {key : Value} (hfirst : first.kind ≠ .groupOpen)
    (hstarts : startsOperand first.kind = true)
    (hkey : Reads (.value key .closed) (first :: tokens))
    (hcolon : colon.kind = .pairSeparator) (hedge : edge.Fits colonPrecedence)
    (hreads : Reads (.value value edge) others) :
    Reads (.element (.pair key value false)) (first :: tokens ++ colon :: others) := by
  intro fuel state rest hrest hfuel hends
  simp only [List.length_append, List.length_cons] at hfuel
  rw [List.append_assoc, List.cons_append] at hrest
  have hbreak : colon.kind.isLineBreak = false := by rw [hcolon]; rfl
  have hcolonEnds : EndsExpression colonPrecedence (state.kindAt (colon :: (others ++ rest))) := by
    rw [State.kindAt_cons _ hbreak, hcolon]
    exact endsExpression_pairSeparator
  obtain ⟨last, hkeyRead⟩ := hkey.expression_of_fits hrest
    (show 2 * (first :: tokens).length < fuel by rw [List.length_cons]; omega)
    (Edge.closed_fits colonPrecedence) hcolonEnds
  obtain ⟨final, hread⟩ : ∃ final, expressionUpTo (fuel + 1) colonPrecedence
      (state.behind colon (others ++ rest)) =
        .done value ((state.behind colon (others ++ rest)).behind final rest) :=
    hreads.expression_of_fits rfl (by omega) hedge (hends.mono (by decide))
  refine ⟨final, ?_⟩
  rw [element, bind_of_done (nextKind_eq _),
    State.current_of_rest hrest (isLineBreak_of_starts hstarts)]
  refine (bind_of_done hkeyRead).trans ?_
  rw [bind_of_done (nextKind_eq _), State.current_of_rest rfl hbreak, hcolon]
  change (advance >>= fun _ => _ : Parser Element) _ = _
  rw [bind_of_done (advance_of_rest rfl hbreak)]
  refine (bind_of_done hread).trans ?_
  cases hkind : first.kind with
  | groupOpen => exact absurd hkind hfirst
  | _ => rfl

theorem reads_lastElement {found : Element} (hreads : Reads (.element found) tokens) :
    Reads (.elements [found]) tokens := by
  intro _ fuel rounds closer state closing rest hrest hfuel hrounds hclosing
  obtain ⟨rounds, rfl⟩ := Nat.exists_eq_succ_of_ne_zero (Nat.ne_zero_of_lt hrounds)
  have hbreak := isLineBreak_of_accepts hclosing
  obtain ⟨last, hread⟩ := hreads hrest hfuel
    (by rw [State.kindAt_cons _ hbreak]; exact endsExpression_closer hclosing)
  rw [elementsLoop, bind_of_done hread, bind_of_done (nextKind_eq _),
    State.current_of_rest rfl hbreak]
  have hdone : (do
      let _ ← advance
      return [found] : Parser (List Element)) (state.behind last (closing :: rest)) =
        .done [found] (state.behind closing rest) := bind_of_done (advance_of_rest rfl hbreak)
  cases hkind : closing.kind with
  | itemSeparator =>
    rw [hkind] at hclosing
    cases closer <;> cases hclosing
  | _ =>
    rw [hkind] at hclosing
    simp only [hclosing, if_true]
    exact hdone

/-- A comma goes between an element and the others. -/
theorem reads_moreElements {found next : Element} {more : List Element} {comma : Token}
    (hreads : Reads (.element found) tokens) (hcomma : comma.kind = .itemSeparator)
    (hmore : Reads (.elements (next :: more)) others) :
    Reads (.elements (found :: next :: more)) (tokens ++ comma :: others) := by
  intro _ fuel rounds closer state closing rest hrest hfuel hrounds hclosing
  simp only [List.length_append, List.length_cons] at hfuel hrounds
  rw [List.append_assoc, List.cons_append] at hrest
  obtain ⟨rounds, rfl⟩ := Nat.exists_eq_succ_of_ne_zero (Nat.ne_zero_of_lt hrounds)
  have hbreak : comma.kind.isLineBreak = false := by rw [hcomma]; rfl
  obtain ⟨last, hread⟩ := hreads hrest (show 2 * tokens.length < fuel by omega)
    (by rw [State.kindAt_cons _ hbreak, hcomma]; exact endsExpression_separator rfl)
  have hothers : elementsLoop (grammar (fuel + 1)) closer rounds
      (state.behind comma (others ++ closing :: rest)) =
        .done (next :: more) (state.behind closing rest) :=
    hmore nofun rfl (by omega) (by omega) hclosing
  rw [elementsLoop, bind_of_done hread, bind_of_done (nextKind_eq _),
    State.current_of_rest rfl hbreak, hcomma]
  change (advance >>= fun _ => _ : Parser (List Element)) _ = _
  rw [bind_of_done (advance_of_rest rfl hbreak)]
  exact bind_of_done hothers

/-- No separator stands in front of an operand or a closer. -/
theorem skipSeparators_none {rounds : Nat} (hrounds : 0 < rounds)
    (h : isSeparator state.current.kind = false) :
    skipSeparators rounds state = .done () state := by
  obtain ⟨rounds, rfl⟩ := Nat.exists_eq_succ_of_ne_zero (Nat.ne_zero_of_lt hrounds)
  rw [skipSeparators_succ, h]
  rfl

theorem isSeparator_of_starts {kind : TokenKind} (h : startsOperand kind = true) :
    isSeparator kind = false ∧ isEnd kind = false := by
  cases kind <;> first | exact ⟨rfl, rfl⟩ | cases h

/-- A statement is read up to what ends it. -/
theorem Reads.statement {fuel : Nat} {closer : Closer} (hopens : Opens tokens)
    (hedge : edge.Fits colonPrecedence) (hreads : Reads (.value value edge) tokens)
    (hrest : state.rest = tokens ++ rest) (hfuel : 2 * tokens.length < fuel)
    (hends : (isSeparator (state.kindAt rest) || closer.accepts (state.kindAt rest)) = true) :
    skipSeparators (fuel + 1) state = .done () state ∧
      ∃ last, ReadsStatement (grammar (fuel + 1)) closer state (state.behind last rest) value := by
  obtain ⟨first, others, rfl, hstarts⟩ := hopens
  have hcurrent : state.current = first :=
    State.current_of_rest hrest (isLineBreak_of_starts hstarts)
  obtain ⟨hseparator, hend⟩ := isSeparator_of_starts hstarts
  have hexpression : EndsExpression 0 (state.kindAt rest) := by
    rcases Bool.or_eq_true_iff.1 hends with hmark | hclosing
    · exact endsExpression_separator hmark
    · exact endsExpression_closer hclosing
  obtain ⟨last, hread⟩ := hreads.expression_of_fits hrest hfuel (hedge.mono (by decide)) hexpression
  refine ⟨skipSeparators_none (Nat.succ_pos _) (by rw [hcurrent]; exact hseparator), last, ?_⟩
  refine ⟨?_, ?_, hread, hends⟩
  · rw [hcurrent]
    exact accepts_of_starts closer hstarts
  · rw [hcurrent]
    exact hend

theorem reads_noStatements : Reads (.statements []) [] := by
  intro fuel rounds state closing rest _ hrest _ hrounds hclosing
  obtain ⟨rounds, rfl⟩ := Nat.exists_eq_succ_of_ne_zero (Nat.ne_zero_of_lt hrounds)
  have hbreak : closing.kind.isLineBreak = false := by rw [hclosing]; rfl
  have hcurrent : state.current = closing := State.current_of_rest hrest hbreak
  have hskip : skipSeparators (fuel + 1) state = .done () state :=
    skipSeparators_none (Nat.succ_pos fuel) (by rw [hcurrent, hclosing]; rfl)
  exact statementsLoop_nil hskip (by rw [hcurrent, hclosing]; rfl) (advance_of_rest hrest hbreak)
    rounds

theorem reads_lastStatement (hopens : Opens tokens) (hedge : edge.Fits colonPrecedence)
    (hreads : Reads (.value value edge) tokens) : Reads (.statements [value]) tokens := by
  intro fuel rounds state closing rest hcount hrest hfuel hrounds hclosing
  obtain ⟨rounds, rfl⟩ := Nat.exists_eq_succ_of_ne_zero (Nat.ne_zero_of_lt hrounds)
  have hlength : 0 < tokens.length := by
    obtain ⟨first, others, rfl, -⟩ := hopens
    exact Nat.succ_pos _
  have hends : (isSeparator (state.kindAt (closing :: rest)) ||
      Closer.block.accepts (state.kindAt (closing :: rest))) = true := by
    rw [State.kindAt_cons _ (by rw [hclosing]; rfl), hclosing]
    rfl
  obtain ⟨hskip, last, hread⟩ := hreads.statement hopens hedge hrest hfuel hends
  have hnone : statementsLoop (grammar (fuel + 1)) .block rounds
      (state.behind last (closing :: rest)) = .done [] (state.behind closing rest) :=
    reads_noStatements (show (state.behind last (closing :: rest)).lineBreaks = true from hcount)
      rfl (Nat.zero_lt_of_lt hfuel) (by rw [List.length_nil]; omega) hclosing
  exact statementsLoop_cons hskip hread hnone

/-- A line break or a semicolon goes between a statement and the others. -/
theorem reads_moreStatements {mark : Token} {next : Value} {more : List Value}
    (hopens : Opens tokens) (hedge : edge.Fits colonPrecedence)
    (hreads : Reads (.value value edge) tokens) (hmark : mark.kind = .statementSeparator)
    (hstarts : Opens others) (hmore : Reads (.statements (next :: more)) others) :
    Reads (.statements (value :: next :: more)) (tokens ++ mark :: others) := by
  intro fuel rounds state closing rest hcount hrest hfuel hrounds hclosing
  simp only [List.length_append, List.length_cons] at hfuel hrounds
  rw [List.append_assoc, List.cons_append] at hrest
  obtain ⟨rounds, rfl⟩ := Nat.exists_eq_succ_of_ne_zero (Nat.ne_zero_of_lt hrounds)
  have hbreak : mark.kind.isLineBreak = false := by rw [hmark]; rfl
  have hends : (isSeparator (state.kindAt (mark :: (others ++ closing :: rest))) ||
      Closer.block.accepts (state.kindAt (mark :: (others ++ closing :: rest)))) = true := by
    rw [State.kindAt_cons _ hbreak, hmark]
    rfl
  obtain ⟨hskip, last, hread⟩ := hreads.statement hopens hedge hrest
    (show 2 * tokens.length < fuel by omega) hends
  have hothers : statementsLoop (grammar (fuel + 1)) .block rounds
      (state.behind mark (others ++ closing :: rest)) =
        .done (next :: more) (state.behind closing rest) :=
    hmore (show (state.behind mark (others ++ closing :: rest)).lineBreaks = true from hcount) rfl
      (by omega) (by omega) hclosing
  -- Behind the semicolon the loop goes on as if it were not there.
  have hmarkSkip :
      skipSeparators (fuel + 1) (state.behind last (mark :: (others ++ closing :: rest)))
      = skipSeparators (fuel + 1) (state.behind mark (others ++ closing :: rest)) := by
    obtain ⟨first, tail, rfl, hfirst⟩ := hstarts
    obtain ⟨fuel, rfl⟩ := Nat.exists_eq_succ_of_ne_zero (Nat.ne_zero_of_lt hfuel)
    have hnone {rounds : Nat} (hrounds : 0 < rounds) : skipSeparators rounds
        (state.behind mark (first :: tail ++ closing :: rest)) = .done ()
          (state.behind mark (first :: tail ++ closing :: rest)) := by
      refine skipSeparators_none hrounds ?_
      rw [State.current_of_rest rfl (isLineBreak_of_starts hfirst)]
      exact (isSeparator_of_starts hfirst).1
    rw [skipSeparators_succ, State.current_of_rest rfl hbreak, hmark]
    refine (bind_of_done (advance_of_rest rfl hbreak)).trans ?_
    exact (hnone (Nat.succ_pos _)).trans (hnone (Nat.succ_pos _)).symm
  exact statementsLoop_cons hskip hread ((statementsLoop_skip hmarkSkip rounds).trans hothers)

/-- What tokens spell is what is read off them. -/
theorem Spells.reads {form : Form} (h : Spells form tokens) : Reads form tokens := by
  induction h with
  | number hkind =>
    exact reads_operand
      (readsOperand_literal (by rw [hkind]; rfl) fun g => by rw [operandAfter, hkind])
  | text hkind =>
    exact reads_operand
      (readsOperand_literal (by rw [hkind]; rfl) fun g => by rw [operandAfter, hkind])
  | tag hkind =>
    exact reads_operand
      (readsOperand_literal (by rw [hkind]; rfl) fun g => by rw [operandAfter, hkind])
  | identifier hkind => exact reads_operand (readsOperand_identifier hkind)
  | call hkind hopening htouches hclosing helements ih =>
    exact reads_operand (readsOperand_call hkind hopening htouches hclosing helements ih)
  | collection hopening hclosing helements hvalue ih =>
    exact reads_operand (readsOperand_collection hopening hclosing helements ih hvalue)
  | emptyRecord hopening hcolon hclosing =>
    exact reads_operand (readsOperand_emptyRecord hopening hcolon hclosing)
  | group hopening hclosing hvalue ih =>
    exact reads_operand (readsOperand_group hopening hclosing hvalue.fits ih)
  | block hopening hclosing _ ih => exact reads_operand (readsOperand_block hopening hclosing ih)
  | atom hkind hop hform =>
    refine reads_operand (readsOperand_literal (by rw [hkind]; rfl) fun g => ?_)
    simp only [operandAfter, hkind, hop, startingOperator, hform]
  | before hkind hop hform _ hedge _ ih =>
    exact reads_operand (readsOperand_before hkind hop hform hedge ih)
  | keyword hkind hop hform hedge _ hopening hclosing _ ih ihbody =>
    exact reads_operand (readsOperand_keyword hkind hop hform hedge ih hopening hclosing ihbody)
  | between hkind hop hfixity _ hreach hslack hright _ _ ihleft ihright =>
    exact reads_between hkind hop hfixity hreach hslack hright ihleft ihright
  | item hvalue ih => exact reads_item hvalue.fits ih
  | pair hfirst hkey hcolon hvalue ihkey ih =>
    obtain ⟨_, _, ⟨⟩, hstarts⟩ := hkey.starts
    exact reads_pair hfirst hstarts ihkey hcolon hvalue.fits ih
  | noElements => exact fun hnone => absurd rfl hnone
  | lastElement _ ih => exact reads_lastElement ih
  | moreElements _ hcomma _ ih ihmore => exact reads_moreElements ih hcomma ihmore
  | noStatements => exact reads_noStatements
  | lastStatement hvalue ih => exact reads_lastStatement hvalue.starts hvalue.fits ih
  | moreStatements hvalue hmark hmore ih ihmore =>
    exact reads_moreStatements hvalue.starts hvalue.fits ih hmark hmore.starts ihmore

end CommandScript.Parser
