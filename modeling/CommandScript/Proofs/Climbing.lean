import CommandScript.Proofs.Printing
import CommandScript.Proofs.Registration

/-!
# Precedence climbing

Literals with operators between them are read as a tree.  In order, the tree has the literals and
the operators that were written, and everywhere in it the operators are grouped as their
precedences and their forms ask for.

The tree is told without a parser, by attaching one operator and its right operand after the other.
The new operator goes down the right side of the tree, past every operator that binds more loosely.
A tree that is grouped is what the parser reads off its tokens, whatever way it came about: this is
where the loop of the parser and its recursion meet, one node at a time.
-/

namespace CommandScript

open CommandScript.Parser

/-! ## Trees of operators -/

/-- Operands with operators between them, in groups. -/
inductive OperatorTree where
  /-- An operand. -/
  | leaf (value : Value)
  /-- An operator between its operands. -/
  | node (op : Operator) (left right : OperatorTree)

namespace Operator

/-- An operator between operands that binds more tightly than separators do. -/
structure IsInfix (op : Operator) : Prop where
  /-- It stands between its operands, and groups to the left or to the right. -/
  form : op.form = .between ∨ op.form = .betweenRight
  /-- It binds. -/
  binds : 1 ≤ op.precedence

/-- An operator may be the outermost one of a left operand.  One that groups to the right must bind
more tightly, for otherwise the upper operator would belong to its right operand. -/
def AllowsLeft (op other : Operator) : Prop :=
  (other.form = .between → op.precedence ≤ other.precedence) ∧
    (other.form = .betweenRight → op.precedence < other.precedence)

/-- An operator may be the outermost one of a right operand. -/
def AllowsRight (op other : Operator) : Prop :=
  (op.form = .between → op.precedence < other.precedence) ∧
    (op.form = .betweenRight → op.precedence ≤ other.precedence)

theorem IsInfix.fixity {op : Operator} (h : op.IsInfix) : op.fixity = .between := by
  rcases h.form with hform | hform
  all_goals
    rw [Operator.fixity, hform]
    rfl

/-- What the right operand must exceed, by the way the operator groups. -/
theorem IsInfix.rightLevel {op : Operator} (h : op.IsInfix) :
    (op.form = .between ∧ Parser.rightLevel op = op.precedence) ∨
      (op.form = .betweenRight ∧ Parser.rightLevel op = op.precedence - 1) := by
  have hbinds := h.binds
  rcases h.form with hform | hform
  · exact .inl ⟨hform, by simp [Parser.rightLevel, hform]⟩
  · refine .inr ⟨hform, ?_⟩
    simp only [Parser.rightLevel, hform, looser, leastPrecedence]
    omega

end Operator

namespace OperatorTree

/-- The code that a tree is. -/
def toValue : OperatorTree → Value
  | leaf value => value
  | node op left right => commandWith op .between [left.toValue, right.toValue]

/-- The operands and the operators in order. -/
def inOrder : OperatorTree → List (Value ⊕ Operator)
  | leaf value => [.inl value]
  | node op left right => left.inOrder ++ .inr op :: right.inOrder

/-- The operator at the root, unless the tree is an operand. -/
def root? : OperatorTree → Option Operator
  | leaf _ => none
  | node op _ _ => some op

/-- Everywhere in the tree the outermost operators of both operands may stand there. -/
inductive Grouped : OperatorTree → Prop
  | leaf (value : Value) : Grouped (.leaf value)
  | node {op : Operator} {left right : OperatorTree} : (∀ other ∈ left.root?, op.AllowsLeft other) →
      (∀ other ∈ right.root?, op.AllowsRight other) → Grouped left → Grouped right →
      Grouped (.node op left right)

/-- All operators of the tree stand between operands. -/
inductive Infixes : OperatorTree → Prop
  | leaf (value : Value) : Infixes (.leaf value)
  | node {op : Operator} {left right : OperatorTree} : op.IsInfix → Infixes left → Infixes right →
      Infixes (.node op left right)

/-- The tree with one more operator and its right operand at the end. -/
def attach (op : Operator) (value : Value) : OperatorTree → OperatorTree
  | leaf first => node op (leaf first) (leaf value)
  | node upper left right =>
    if op.precedence ≤ rightLevel upper then node op (node upper left right) (leaf value)
    else node upper left (attach op value right)

variable {op : Operator} {value : Value} {tree : OperatorTree}

theorem inOrder_attach (op : Operator) (value : Value) (tree : OperatorTree) :
    (tree.attach op value).inOrder = tree.inOrder ++ [.inr op, .inl value] := by
  induction tree with
  | leaf first => rfl
  | node upper left right _ ih =>
    unfold attach
    split
    next => rfl
    next => simp [inOrder, ih]

theorem root?_attach (op : Operator) (value : Value) (tree : OperatorTree) :
    (tree.attach op value).root? = some op ∨ (tree.attach op value).root? = tree.root? := by
  cases tree with
  | leaf first => exact .inl rfl
  | node upper left right =>
    unfold attach
    split
    next => exact .inl rfl
    next => exact .inr rfl

theorem Infixes.attach (h : tree.Infixes) (hop : op.IsInfix) (value : Value) :
    (tree.attach op value).Infixes := by
  induction h with
  | leaf first => exact .node hop (.leaf first) (.leaf value)
  | node hupper hleft hright _ ih =>
    unfold OperatorTree.attach
    split
    next => exact .node hop (.node hupper hleft hright) (.leaf value)
    next => exact .node hupper hleft ih

/-- A tree stays grouped when an operator is attached. -/
theorem Grouped.attach (h : tree.Grouped) (hinfixes : tree.Infixes) (op : Operator)
    (value : Value) : (tree.attach op value).Grouped := by
  induction h with
  | leaf first => exact .node nofun nofun (.leaf first) (.leaf value)
  | @node upper left right hleft hright hleftGrouped hrightGrouped _ ih =>
    cases hinfixes with
    | node hupper hleftInfixes hrightInfixes =>
      have hlevel := hupper.rightLevel
      unfold OperatorTree.attach
      split
      next hloose =>
        refine .node ?_ nofun (.node hleft hright hleftGrouped hrightGrouped) (.leaf value)
        rintro _ ⟨⟩
        simp only [Operator.AllowsLeft]
        grind
      next htight =>
        refine .node hleft ?_ hleftGrouped (ih hrightInfixes)
        intro other hother
        rcases root?_attach op value right with hroot | hroot
        · rw [hroot] at hother
          cases hother
          simp only [Operator.AllowsRight]
          grind
        · rw [hroot] at hother
          exact hright other hother

/-! ## Reading a tree -/

/-- A token that is an operand on its own. -/
structure IsOperand (value : Value) (token : Token) : Prop where
  /-- It starts an operand. -/
  starts : startsOperand token.kind = true
  /-- And there the operand ends. -/
  operand : ∀ g, operandAfter g token = pure value

/-- Tokens that spell a tree, its operands and operators in order. -/
inductive Spelled : OperatorTree → List Token → Prop
  | leaf {value : Value} {token : Token} : IsOperand value token → Spelled (.leaf value) [token]
  | node {op : Operator} {left right : OperatorTree} {token : Token} {tokens others : List Token} :
      Spelled left tokens → StandsBetween op token.kind → Spelled right others →
      Spelled (.node op left right) (tokens ++ token :: others)

/-- How far the operations of a tree extend to both sides. -/
def edge : OperatorTree → Edge
  | leaf _ => .closed
  | node op _ _ => ⟨some op.precedence, some (rightLevel op)⟩

theorem Spelled.attach {tokens : List Token} {sign operand : Token} (h : tree.Spelled tokens)
    (hsign : StandsBetween op sign.kind) (hoperand : IsOperand value operand) :
    (tree.attach op value).Spelled (tokens ++ [sign, operand]) := by
  induction h with
  | leaf hfirst => exact .node (.leaf hfirst) hsign (.leaf hoperand)
  | @node upper left right token tokens others hleft htoken hright _ ih =>
    unfold OperatorTree.attach
    split
    next => exact .node (.node hleft htoken hright) hsign (.leaf hoperand)
    next =>
      rw [List.append_assoc, List.cons_append]
      exact .node hleft htoken ih

/-- The outermost operator of a left operand lets the upper operator follow. -/
theorem Infixes.leaves_left (h : tree.Infixes) {upper : Operator}
    (hroot : ∀ other ∈ tree.root?, upper.AllowsLeft other) :
    (∀ reach ∈ tree.edge.reach, upper.precedence ≤ reach) ∧
      tree.edge.Leaves upper.precedence := by
  cases h with
  | leaf value => exact ⟨nofun, nofun⟩
  | @node op left right hop =>
    have hlevel := hop.rightLevel
    obtain ⟨hbetween, hbetweenRight⟩ := hroot op rfl
    refine ⟨?_, ?_⟩
    · rintro _ ⟨⟩
      grind
    · rintro _ ⟨⟩
      grind

/-- The outermost operator of a right operand belongs to it, and what ends the upper operation ends
the operand. -/
theorem Infixes.fits_right (h : tree.Infixes) {upper : Operator} (hupper : upper.IsInfix)
    (hroot : ∀ other ∈ tree.root?, upper.AllowsRight other) :
    tree.edge.Fits (rightLevel upper) := by
  cases h with
  | leaf value => exact Edge.closed_fits _
  | @node op left right hop =>
    have hlevel := hop.rightLevel
    have hupperLevel := hupper.rightLevel
    obtain ⟨hbetween, hbetweenRight⟩ := hroot op rfl
    refine ⟨?_, ?_⟩
    · rintro _ ⟨⟩
      grind
    · rintro _ ⟨⟩
      grind

/-- A grouped tree is what is read off its tokens. -/
theorem Grouped.reads (h : tree.Grouped) (hinfixes : tree.Infixes) {tokens : List Token}
    (hspelled : tree.Spelled tokens) : Reads (.value tree.toValue tree.edge) tokens := by
  induction h generalizing tokens with
  | leaf value =>
    cases hspelled with
    | leaf hoperand => exact reads_operand (readsOperand_literal hoperand.starts hoperand.operand)
  | node hleft hright _ _ ihleft ihright =>
    cases hinfixes with
    | node hop hleftInfixes hrightInfixes =>
      cases hspelled with
      | node hleftSpelled htoken hrightSpelled =>
        obtain ⟨found, hkind, hfound⟩ := htoken
        obtain ⟨hreach, hslack⟩ := hleftInfixes.leaves_left hleft
        exact reads_between hkind hfound hop.fixity hreach hslack
          (hrightInfixes.fits_right hop hright) (ihleft hleftInfixes hleftSpelled)
          (ihright hrightInfixes hrightSpelled)

/-- A whole tree is read where any operation is wanted. -/
theorem Infixes.fits_zero (h : tree.Infixes) : tree.edge.Fits 0 := by
  cases h with
  | leaf value => exact Edge.closed_fits _
  | @node op left right hop =>
    have hlevel := hop.rightLevel
    have hbinds := hop.binds
    refine ⟨?_, ?_⟩
    · rintro _ ⟨⟩
      omega
    · rintro _ ⟨⟩
      omega

end OperatorTree

/-! ## Chains as written -/

/-- A literal as written, and the value it is read as. -/
inductive IsLiteral : String → Value → Prop
  /-- A number without a sign. -/
  | number {text : String} {c : Char} {cs : List Char} {scalar : Scalar} : text.toList = c :: cs →
      c.isDigit = true → Numeral.scan? text.toList = some ⟨text.toList.length, scalar⟩ →
      IsLiteral text (.text (.number text scalar))
  /-- A text between quotes. -/
  | text {text : String} {quote : Char} {cs content : List Char} : text.toList = quote :: cs →
      Character.isTextQuote quote = true → Lexer.textBody? cs = some (content, cs.length) →
      IsLiteral text (.ofString (String.ofList content))
  /-- A tag. -/
  | tag {text name : String} {cs : List Char} : text.toList = '#' :: cs →
      Lexer.tagToken cs = (.tag name, cs.length) → IsLiteral text (.tag (.ofString name))

/-- A text that an operator can be written as: one of its spellings, or a word that differs from one
only by capital letters. -/
inductive Operator.WrittenAs (op : Operator) (text : String) : Prop
  | spelling : text ∈ op.spellings → op.WrittenAs text
  | word {spelling : String} : spelling ∈ op.spellings →
      Character.needsNoQuotes text.toList = true →
      Text.lowercase text = Text.lowercase spelling → op.WrittenAs text

/-- An operator and its right operand, and how they are written. -/
structure ChainStep where
  /-- The operator. -/
  op : Operator
  /-- The operator as written. -/
  sign : String
  /-- The operand. -/
  value : Value
  /-- The operand as written. -/
  literal : String

/-- The operator is one of some, and both are written as they should be. -/
structure ChainStep.IsOver (step : ChainStep) (ops : List Operator) : Prop where
  /-- The operator is one of them. -/
  registered : step.op ∈ ops
  /-- It stands between its operands. -/
  between : step.op.IsInfix
  /-- It is written as one of its spellings. -/
  sign : step.op.WrittenAs step.sign
  /-- The operand is a literal. -/
  literal : IsLiteral step.literal step.value

/-- The source text of a literal and the steps behind it, with single spaces between. -/
def chainText (first : String) (steps : List ChainStep) : String :=
  " ".intercalate (first :: steps.flatMap fun step => [step.sign, step.literal])

section Tokens

open Lexer

variable {registry : Registry} {before : Bool} {text : String} {value : Value}

/-- A literal is a token wherever it stands, also where a sign would be an operator. -/
theorem IsLiteral.isToken (h : IsLiteral text value) (registry : Registry) (before : Bool) :
    ∃ kind, IsToken registry before text.toList kind ∧
      ∀ token : Token, token.kind = kind → OperatorTree.IsOperand value token := by
  cases h with
  | @number c cs scalar htext hdigit hscan =>
    refine ⟨.number text scalar, ⟨⟨c, cs, htext, ?_⟩, rfl⟩, fun token hkind => ?_⟩
    · have hspelling : String.ofList (c :: cs) = text := by rw [← htext, String.ofList_toList]
      rw [htext] at hscan
      rw [scan_digit hdigit, numberToken, hscan]
      simp [hspelling]
    · exact ⟨by rw [hkind]; rfl, fun g => by simp only [operandAfter, hkind]⟩
  | @text quote cs content htext hquote hbody =>
    refine ⟨.text (String.ofList content), ⟨⟨quote, cs, htext, ?_⟩, rfl⟩, fun token hkind => ?_⟩
    · exact scan_text hquote hbody
    · exact ⟨by rw [hkind]; rfl, fun g => by simp only [operandAfter, hkind]⟩
  | @tag name cs htext htag =>
    refine ⟨.tag name, ⟨⟨'#', cs, htext, htag⟩, rfl⟩, fun token hkind => ?_⟩
    exact ⟨by rw [hkind]; rfl, fun g => by simp only [operandAfter, hkind]⟩

/-- A word is a token, and an operator if there is one with its key. -/
theorem isToken_operatorWord {found : KnownSpelling}
    (hword : Character.needsNoQuotes text.toList = true) (hfound : registry.find? text = some found)
    (before : Bool) : IsToken registry before text.toList (.operator found) := by
  cases htext : text.toList with
  | nil =>
    rw [htext] at hword
    cases hword
  | cons c tail =>
    rw [htext, Character.needsNoQuotes, Bool.and_eq_true, List.all_eq_true] at hword
    refine ⟨⟨c, tail, rfl, ?_⟩, rfl⟩
    have hspelling : String.ofList (c :: tail) = text := by rw [← htext, String.ofList_toList]
    rw [scan_word hword.1, wordToken]
    simp only [List.takeWhile_eq_self_iff.2 hword.2, hspelling, hfound]

/-- So is a run of symbols that is one of the registry. -/
theorem isToken_operatorSymbols {found : KnownSpelling}
    (hrun : Character.isSymbolRun text.toList = true)
    (hhas : registry.symbols.has text.toList = true) (hfound : registry.find? text = some found)
    (before : Bool) : IsToken registry before text.toList (.operator found) := by
  have hspelling : String.ofList text.toList = text := String.ofList_toList
  cases htext : text.toList with
  | nil =>
    rw [htext] at hrun
    cases hrun
  | cons c tail =>
    rw [htext] at hrun hhas hspelling
    rw [Character.isSymbolRun, Bool.and_eq_true, List.all_eq_true] at hrun
    obtain ⟨hc, htail⟩ := List.forall_mem_cons.1 hrun.2
    refine ⟨⟨c, tail, rfl, ?_⟩, rfl⟩
    have hdigit : ∀ d ∈ tail.head?, d.isDigit = false := by
      intro d hd
      have hsymbol := htail d (List.mem_of_mem_head? hd)
      cases hdigit : d.isDigit with
      | false => rfl
      | true => simp [Character.isSymbol, isAlphanumeric_of_isDigit hdigit] at hsymbol
    have hlongest : SymbolSet.longest? (c :: tail) registry.symbols = some (c :: tail).length :=
      SymbolSet.longest?_of_has (List.cons_ne_nil c tail) hhas
    rw [scan_symbol hc hdigit, symbolsToken, Registry.findSymbols?, hlongest]
    simp only [Option.bind_eq_bind, Option.bind_some, List.take_length, hspelling, hfound]
    rfl

/-- A registered operator is a token wherever it stands, however it is written. -/
theorem ChainStep.IsOver.isToken {step : ChainStep} {ops : List Operator} (h : step.IsOver ops)
    (hregistry : registry.Registers ops) (before : Bool) :
    ∃ kind, IsToken registry before step.sign.toList kind ∧ StandsBetween step.op kind := by
  -- A spelling with the same key leads to the operator, and its token is found by that key.
  have hfind {spelling : String} (hspelling : spelling ∈ step.op.spellings)
      (hkey : Text.lowercase step.sign = Text.lowercase spelling) :
      ∃ found, registry.find? step.sign = some found ∧ found.continuing? = some step.op := by
    have hcontinuing : registry.continuing? (Text.lowercase step.sign) = some step.op := by
      rw [hkey]
      exact hregistry.continuing? h.registered (by rw [h.between.fixity]; rfl) hspelling
    refine ⟨⟨step.sign, registry.starting? (Text.lowercase step.sign), some step.op⟩, ?_, rfl⟩
    rw [Registry.find?, hcontinuing]
    cases registry.starting? (Text.lowercase step.sign) <;> rfl
  cases h.sign with
  | spelling hmem =>
    obtain ⟨found, hfound, hop⟩ := hfind hmem rfl
    refine ⟨.operator found, ?_, found, rfl, hop⟩
    rcases hregistry.spelled step.op h.registered step.sign hmem with hword | ⟨hrun, hhas⟩
    · exact isToken_operatorWord hword hfound before
    · exact isToken_operatorSymbols hrun hhas hfound before
  | word hmem hword hkey =>
    obtain ⟨found, hfound, hop⟩ := hfind hmem hkey
    exact ⟨.operator found, isToken_operatorWord hword hfound before, found, rfl, hop⟩

/-- The tokens of the steps behind a literal. -/
inductive StepTokens : List ChainStep → List Token → Prop
  | nil : StepTokens [] []
  | cons {step : ChainStep} {steps : List ChainStep} {sign operand : Token} {tokens : List Token} :
      StandsBetween step.op sign.kind → OperatorTree.IsOperand step.value operand →
      StepTokens steps tokens → StepTokens (step :: steps) (sign :: operand :: tokens)

theorem toList_chainText_nil (first : String) : (chainText first []).toList = first.toList := by
  simp [chainText]

theorem toList_chainText_cons (first : String) (step : ChainStep) (steps : List ChainStep) :
    (chainText first (step :: steps)).toList =
      first.toList ++ ([' '] ++ (step.sign.toList ++ ([' '] ++
        (chainText step.literal steps).toList))) := by
  simp [chainText, String.toList_intercalate, List.intercalate]

/-- What starts with a token does not start with a blank. -/
theorem head_of_isToken {cs : List Char} {kind : TokenKind} (h : IsToken registry before cs kind)
    (rest : List Char) : ∀ c ∈ (cs ++ rest).head?, Text.isInlineBlank c = false := by
  obtain ⟨c, tail, rfl, -, hblank⟩ := h.first
  rintro _ ⟨⟩
  exact hblank

theorem head_chainText {first : String} (hfirst : IsLiteral first value) (registry : Registry)
    (steps : List ChainStep) (rest : List Char) :
    ∀ c ∈ ((chainText first steps).toList ++ rest).head?, Text.isInlineBlank c = false := by
  obtain ⟨kind, htoken, -⟩ := hfirst.isToken registry false
  cases steps with
  | nil =>
    rw [toList_chainText_nil]
    exact head_of_isToken htoken rest
  | cons step steps =>
    rw [toList_chainText_cons, List.append_assoc]
    exact head_of_isToken htoken _

/-- A chain is cut into its literals and operators. -/
theorem covers_chain {ops : List Operator} (hregistry : registry.Registers ops) {first : String}
    {steps : List ChainStep} (hfirst : IsLiteral first value)
    (hsteps : ∀ step ∈ steps, step.IsOver ops) (offset : Nat) (before : Bool) :
    ∃ all after operand tokens,
      Covers registry offset before (chainText first steps).toList [] all after ∧
      meaningful all = operand :: tokens ∧ OperatorTree.IsOperand value operand ∧
      StepTokens steps tokens := by
  induction steps generalizing first value offset before with
  | nil =>
    obtain ⟨kind, htoken, hoperand⟩ := hfirst.isToken registry before
    obtain ⟨token, hkind, -, hcovers⟩ := htoken.covers hregistry.regular ends_nil offset
    rw [← toList_chainText_nil] at hcovers
    refine ⟨_, _, token, [], hcovers, ?_, hoperand token hkind, .nil⟩
    rw [meaningful_cons (hkind ▸ isTrivia_of_starts htoken.starts), meaningful_nil]
  | cons step steps ih =>
    obtain ⟨hstep, hsteps⟩ := List.forall_mem_cons.1 hsteps
    have hends (cs : List Char) : Ends ([' '] ++ cs ++ []) := ends_cons (by decide)
    obtain ⟨kind, htoken, hoperand⟩ := hfirst.isToken registry before
    obtain ⟨operand, hkind, -, hcovers⟩ := htoken.covers hregistry.regular
      (hends (step.sign.toList ++ ([' '] ++ (chainText step.literal steps).toList))) offset
    obtain ⟨sort, hsignToken, hbetween⟩ := hstep.isToken hregistry kind.canEndOperand
    have hhead : ∀ c ∈ (step.sign.toList ++ ([' '] ++ (chainText step.literal steps).toList) ++
        []).head?, Text.isInlineBlank c = false := by
      rw [List.append_assoc]
      exact head_of_isToken hsignToken _
    obtain ⟨blank, hblank, hspace⟩ :=
      covers_space registry hhead (offset + byteLength first.toList) kind.canEndOperand
    obtain ⟨sign, rfl, -, hsign⟩ := hsignToken.covers hregistry.regular
      (hends (chainText step.literal steps).toList)
      (offset + byteLength first.toList + byteLength [' '])
    obtain ⟨blank', hblank', hspace'⟩ := covers_space registry
      (head_chainText hstep.literal registry steps [])
      (offset + byteLength first.toList + byteLength [' '] + byteLength step.sign.toList)
      sign.kind.canEndOperand
    obtain ⟨all, after, next, tokens, hall, hmeaningful, hnext, htokens⟩ :=
      ih hstep.literal hsteps _ sign.kind.canEndOperand
    have hchain := hcovers.append (hspace.append (hsign.append (hspace'.append hall)))
    rw [← toList_chainText_cons] at hchain
    refine ⟨_, after, operand, sign :: next :: tokens, hchain, ?_, hoperand operand hkind,
      .cons hbetween hnext htokens⟩
    simp only [meaningful_cons (hkind ▸ isTrivia_of_starts htoken.starts),
      meaningful_cons (isTrivia_of_starts hsignToken.starts),
      meaningful_cons_trivia (show blank.kind.isTrivia = true by rw [hblank]; rfl),
      meaningful_cons_trivia (show blank'.kind.isTrivia = true by rw [hblank']; rfl),
      hmeaningful, List.nil_append, List.cons_append]

end Tokens

/-! ## Reading a chain -/

/-- The tree with the operators of a chain attached one after the other. -/
def OperatorTree.attachAll (steps : List ChainStep) (tree : OperatorTree) : OperatorTree :=
  steps.foldl (fun tree step => tree.attach step.op step.value) tree

/-- The operands and operators of a chain in order. -/
def chainOrder (value : Value) (steps : List ChainStep) : List (Value ⊕ Operator) :=
  .inl value :: steps.flatMap fun step => [.inr step.op, .inl step.value]

theorem OperatorTree.inOrder_attachAll (steps : List ChainStep) (tree : OperatorTree) :
    (tree.attachAll steps).inOrder =
      tree.inOrder ++ steps.flatMap fun step => [.inr step.op, .inl step.value] := by
  induction steps generalizing tree with
  | nil => simp [attachAll]
  | cons step steps ih =>
    have hrest := ih (tree.attach step.op step.value)
    rw [inOrder_attach, List.append_assoc] at hrest
    exact hrest

/-- A chain of operators leaves a tree grouped, and spelled by the tokens of both. -/
theorem StepTokens.attachAll {ops : List Operator} {steps : List ChainStep} {others : List Token}
    (h : StepTokens steps others) (hsteps : ∀ step ∈ steps, step.IsOver ops) {tree : OperatorTree}
    {tokens : List Token} (hgrouped : tree.Grouped) (hinfixes : tree.Infixes)
    (hspelled : tree.Spelled tokens) :
    (tree.attachAll steps).Grouped ∧ (tree.attachAll steps).Infixes ∧
      (tree.attachAll steps).Spelled (tokens ++ others) := by
  induction h generalizing tree tokens with
  | nil =>
    rw [List.append_nil]
    exact ⟨hgrouped, hinfixes, hspelled⟩
  | @cons step steps sign operand others hsign hoperand _ ih =>
    obtain ⟨hstep, hsteps⟩ := List.forall_mem_cons.1 hsteps
    have hrest := ih hsteps (hgrouped.attach hinfixes step.op step.value)
      (hinfixes.attach hstep.between step.value) (hspelled.attach hsign hoperand)
    rw [List.append_assoc] at hrest
    exact hrest

/-- Literals with registered operators between them, and a space between any two, are read as a
tree.  In order it has the literals and the operators as they were written, and its operators are
grouped by their precedences and their forms. -/
theorem readExpression_chain {ops : List Operator} {registry : Registry}
    (hregistry : Registry.empty.addAll ops = .ok registry) {first : String} {value : Value}
    (hfirst : IsLiteral first value) {steps : List ChainStep}
    (hsteps : ∀ step ∈ steps, step.IsOver ops) :
    ∃ tree : OperatorTree, readExpression registry (chainText first steps) = .ok tree.toValue ∧
      tree.inOrder = chainOrder value steps ∧ tree.Grouped := by
  obtain ⟨all, after, operand, tokens, hcovers, hmeaningful, hoperand, htokens⟩ :=
    covers_chain (Registry.registers_of_addAll hregistry) hfirst hsteps 0 false
  obtain ⟨hgrouped, hinfixes, hspelled⟩ :=
    htokens.attachAll hsteps (.leaf value) (.leaf value) (.leaf hoperand)
  generalize htree : (OperatorTree.leaf value).attachAll steps = tree at hgrouped hinfixes hspelled
  have hinOrder : tree.inOrder = chainOrder value steps := by
    rw [← htree]
    exact OperatorTree.inOrder_attachAll steps (.leaf value)
  refine ⟨tree, ?_, hinOrder, hgrouped⟩
  rw [Lexer.Covers, Lexer.tokensFrom_nil, List.append_nil] at hcovers
  have hstart := State.ofSource_eq hcovers
  rw [hmeaningful] at hstart
  have hreads : Reads (.value tree.toValue tree.edge)
      (State.ofSource registry (chainText first steps)).rest := by
    rw [hstart]
    exact hgrouped.reads hinfixes hspelled
  exact runOn_eq_ok_iff.2
    (loneExpression_of_reads hreads hinfixes.fits_zero fun _ => by rw [hstart]; rfl)

/-- Operators that group both ways on one level, one of them written as a word. -/
theorem readExpression_chain_mixed :
    let plus : Operator := ⟨"+", 5, .between, [], none⟩
    let power : Operator := ⟨"^", 5, .betweenRight, ["to"], none⟩
    let times : Operator := ⟨"**", 6, .between, [], none⟩
    let number (literal : String) (value : Int64) : Value :=
      .text (.number literal (.integer value 10))
    ∃ registry tree, Registry.empty.addAll [plus, power, times] = .ok registry ∧
      readExpression registry "1 + #b ^ “c” To 31 ** 2" = .ok (OperatorTree.toValue tree) ∧
      tree.inOrder = [.inl (number "1" 1), .inr plus, .inl (.tag (.ofString "b")), .inr power,
        .inl (.ofString "c"), .inr power, .inl (number "31" 31), .inr times,
        .inl (number "2" 2)] ∧
      tree.Grouped := by
  intro plus power times number
  have hsome : (Registry.empty.addAll [plus, power, times]).toOption.isSome = true := by
    decide +kernel
  obtain ⟨registry, hregistry⟩ : ∃ registry,
      Registry.empty.addAll [plus, power, times] = .ok registry := by
    cases hmade : Registry.empty.addAll [plus, power, times] with
    | error problem =>
      rw [hmade] at hsome
      cases hsome
    | ok registry => exact ⟨registry, rfl⟩
  have hfirst : IsLiteral "1" (number "1" 1) := .number rfl rfl rfl
  have htag : IsLiteral "#b" (.tag (.ofString "b")) := .tag rfl rfl
  have htext : IsLiteral "“c”" (.ofString "c") := .text rfl rfl rfl
  have hthird : IsLiteral "31" (number "31" 31) := .number rfl rfl rfl
  have hlast : IsLiteral "2" (number "2" 2) := .number rfl rfl rfl
  have hplus : plus.IsInfix := ⟨.inl rfl, by decide⟩
  have hpower : power.IsInfix := ⟨.inr rfl, by decide⟩
  have htimes : times.IsInfix := ⟨.inl rfl, by decide⟩
  let steps : List ChainStep := [⟨plus, "+", .tag (.ofString "b"), "#b"⟩,
    ⟨power, "^", .ofString "c", "“c”"⟩, ⟨power, "To", number "31" 31, "31"⟩,
    ⟨times, "**", number "2" 2, "2"⟩]
  have hsteps : ∀ step ∈ steps, step.IsOver [plus, power, times] := by
    simp only [steps, List.forall_mem_cons, List.not_mem_nil, false_implies, implies_true, and_true]
    refine ⟨⟨by decide, hplus, .spelling (by decide), htag⟩,
      ⟨by decide, hpower, .spelling (by decide), htext⟩, ⟨by decide, hpower, ?_, hthird⟩,
      ⟨by decide, htimes, .spelling (by decide), hlast⟩⟩
    exact .word (show "to" ∈ power.spellings by decide) (by decide +kernel) (by decide +kernel)
  have hsource : chainText "1" steps = "1 + #b ^ “c” To 31 ** 2" := by decide +kernel
  obtain ⟨tree, hread, hinOrder, hgrouped⟩ := readExpression_chain hregistry hfirst hsteps
  rw [hsource] at hread
  exact ⟨registry, tree, hregistry, hread, hinOrder, hgrouped⟩

end CommandScript
