import CommandScript.Proofs.Brackets
import CommandScript.Proofs.Written

/-!
# Readings in lockstep

Two readings keep in step when each of their states belongs to one of the other, token by token.
What a token must do for that depends on the brackets that are open, so the states belong together
inside some brackets.  All that is asked of two such states is that the next tokens are of one kind,
that the states behind them belong together again, and that a parenthesis touches a name in both or
in neither.

Then no rule of the grammar can tell the readings apart.  Both give the same result, or both fail
and say the same.  A result leaves open the brackets that were open before, and no rule runs out of
fuel, for an expression takes a token at least.

The second reading may have another rule for the operations behind an operand (`grammarOf`).  It has
to keep in step where an expression is asked for that binds more tightly than some precedence, and
only some precedences are ever asked for: those of brackets and operators.

The two readings may be the same one.  What is then told about one state is an invariant of reading.
-/

namespace CommandScript

/-- Two errors say the same, perhaps about different places. -/
def SyntaxError.Alike (error other : SyntaxError) : Prop :=
  error.problem = other.problem ∧ error.found = other.found

theorem SyntaxError.unexpected_alike (what : String) {token other : Token}
    (h : token.kind = other.kind) : (unexpected what token).Alike (unexpected what other) := by
  unfold Alike unexpected
  rw [h]
  exact ⟨rfl, rfl⟩

/-- Two readings give the same, or both fail and say the same. -/
def SameReading {α : Type} : Except SyntaxError α → Except SyntaxError α → Prop
  | .ok result, .ok other => result = other
  | .error error, .error other => error.Alike other
  | _, _ => False

namespace Parser

/-! ## Reading one token -/

/-- The state behind the next token. -/
def State.next (state : State) : State :=
  match state.visible with
  | [] => { state with rest := [], lastStop := state.finish.span.stop }
  | token :: rest => { state with rest := rest, lastStop := token.span.stop }

/-- Reading a token is looking at it and going on. -/
theorem advance_eq (state : State) : advance state = .done state.current state.next := by
  unfold advance State.current State.next
  cases state.visible with
  | nil => rfl
  | cons token rest => rfl

/-- At the end the parser stays. -/
theorem State.next_of_nil {state : State} (h : state.visible = []) :
    state.next = { state with rest := [], lastStop := state.finish.span.stop } := by
  rw [State.next, h]

/-- Otherwise it goes behind the first token that it sees. -/
theorem State.next_of_cons {state : State} {token : Token} {others : List Token}
    (h : state.visible = token :: others) : state.next = state.behind token others := by
  rw [State.next, h]
  rfl

/-- Going on takes tokens off the front. -/
theorem State.leads_next (state : State) : state.Leads state.next := by
  have hvisible := state.visible_suffix
  cases hrest : state.visible with
  | nil =>
    rw [State.next_of_nil hrest]
    exact ⟨rfl, rfl, List.nil_suffix⟩
  | cons token others =>
    rw [State.next_of_cons hrest]
    rw [hrest] at hvisible
    exact ⟨rfl, rfl, (List.suffix_cons _ _).trans hvisible⟩

/-- In front of the end there is a token less behind the next one. -/
theorem State.next_shorter {state : State} (hfinish : state.finish.kind = .endOfCode)
    (h : isEnd state.current.kind = false) : state.next.rest.length < state.rest.length := by
  have hvisible := state.visible_suffix
  cases hrest : state.visible with
  | nil =>
    rw [State.current, hrest, List.headD_nil, hfinish] at h
    cases h
  | cons token others =>
    rw [State.next_of_cons hrest]
    rw [hrest] at hvisible
    exact hvisible.length_le

/-- The brackets that a closer closes. -/
def Closer.opened : Closer → List Bracket
  | .list => [.list]
  | .group => [.group]
  | .block => [.block]
  | .code => []

/-- The closing bracket of a sequence takes its opening one off the nest. -/
theorem Closer.turn_of_accepts {closer : Closer} {kind : TokenKind}
    (h : closer.accepts kind = true) (nest : List Bracket) :
    kind.turn (closer.opened ++ nest) = some nest := by
  cases closer with
  | list | group | block | code =>
    cases kind with
    | listClose | groupClose | blockClose | endOfCode => first | rfl | cases h
    | _ => cases h

theorem Closer.isUnknown_of_accepts {closer : Closer} {kind : TokenKind}
    (h : closer.accepts kind = true) : Lexer.isUnknown kind = false := by
  cases kind with
  | unknown problem => cases closer <;> cases h
  | _ => rfl

/-- A token that can be read, opens and closes nothing and is not the end. -/
structure IsPlain (kind : TokenKind) : Prop where
  /-- It is not the end of the code. -/
  inside : isEnd kind = false
  /-- It can be read. -/
  known : Lexer.isUnknown kind = false
  /-- It opens and closes nothing. -/
  turn (nest : List Bracket) : kind.turn nest = some nest

/-- Separators and words neither open nor close a bracket. -/
theorem isPlain_of_isSeparator {kind : TokenKind} (h : isSeparator kind = true) :
    IsPlain kind := by
  cases kind with
  | lineBreak | itemSeparator | statementSeparator => exact ⟨rfl, rfl, fun _ => rfl⟩
  | _ => cases h

theorem isPlain_of_isWord {word : String} {kind : TokenKind} (h : isWord word kind = true) :
    IsPlain kind := by
  cases kind with
  | identifier _ _ | operator _ => exact ⟨rfl, rfl, fun _ => rfl⟩
  | _ => cases h

/-- A token opens a bracket. -/
def OpensWith (bracket : Bracket) (kind : TokenKind) : Prop :=
  ∀ nest, kind.turn nest = some (bracket :: nest)

/-- An opening bracket ends nothing. -/
theorem OpensWith.inside {bracket : Bracket} {kind : TokenKind} (h : OpensWith bracket kind) :
    isEnd kind = false ∧ Lexer.isUnknown kind = false := by
  have hturn := h []
  cases kind with
  | endOfCode | unknown _ => cases hturn
  | _ => exact ⟨rfl, rfl⟩

/-! ## Two readings -/

/-- States of two readings that belong together. -/
structure Lockstep where
  /-- Two states belong together inside some brackets. -/
  Holds : List Bracket → State → State → Prop
  /-- Behind all tokens stands the end mark. -/
  finish {nest : List Bracket} {state other : State} :
    Holds nest state other → state.finish.kind = .endOfCode
  /-- Line breaks count in both or in none. -/
  lineBreaks {nest : List Bracket} {state other : State} :
    Holds nest state other → other.lineBreaks = state.lineBreaks
  /-- It does not matter whether they do. -/
  counting {nest : List Bracket} {state other : State} (flag : Bool) : Holds nest state other →
    Holds nest { state with lineBreaks := flag } { other with lineBreaks := flag }
  /-- The next tokens are of one kind. -/
  kind {nest : List Bracket} {state other : State} : Holds nest state other →
    state.lineBreaks = breaksCount nest → other.current.kind = state.current.kind
  /-- The states behind them belong together inside the brackets that are open then. -/
  next {nest nest' : List Bracket} {state other : State} : Holds nest state other →
    state.lineBreaks = breaksCount nest → Lexer.isUnknown state.current.kind = false →
    state.current.kind.turn nest = some nest' → Holds nest' state.next other.next
  /-- A parenthesis touches a name in both or in neither. -/
  opens {nest : List Bracket} {state other : State} {name : String} {quoted : Bool} :
    Holds nest state other → state.lineBreaks = breaksCount nest →
    state.current.kind = .identifier name quoted →
    (state.next.OpensArguments ↔ other.next.OpensArguments)
  /-- The precedences that expressions are asked to bind more tightly than. -/
  Asks : Int → Prop := fun _ => True
  /-- Between brackets and separators they need not bind tightly. -/
  loosest : Asks 0 := by trivial
  /-- Inside an operation they bind more tightly than around it. -/
  tighter {least precedence : Int} : Asks least → least ≤ precedence → Asks precedence := by
    intros
    trivial
  /-- Behind an operator they bind more tightly than the operator. -/
  leading {nest : List Bracket} {state other : State} {found : KnownSpelling} {op : Operator} :
    Holds nest state other → state.lineBreaks = breaksCount nest →
    state.current.kind = .operator found → found.starting? = some op →
    op.form = .before ∨ op.form = .keywordBlock → Asks op.precedence := by
    intros
    trivial

/-- A rule for the operations behind an operand. -/
abbrev OperationRule : Type := Grammar → Int → (fuel : Nat) → Value → Parser Value

/-- The grammar with a rule of its own for operations, with a given amount of fuel. -/
def grammarOf (rule : OperationRule) : (fuel : Nat) → Grammar
  | 0 => ⟨fun _ => exhausted, exhausted, 0⟩
  | fuel + 1 =>
    let g := grammarOf rule fuel
    ⟨fun least => g.operand >>= rule g least g.rounds, operandWith g, fuel + 1⟩

/-- The grammar is the one whose operations follow its own rule. -/
theorem grammar_eq (fuel : Nat) : grammar fuel = grammarOf operations fuel := by
  induction fuel with
  | zero => rfl
  | succ fuel ih =>
    rw [grammarOf, ← ih]
    rfl

namespace Lockstep

variable {sim : Lockstep} {α β : Type}

/-- A pair asks for no looser values than brackets do. -/
theorem asks_colon (sim : Lockstep) : sim.Asks colonPrecedence :=
  sim.tighter sim.loosest (by decide)

/-- Two readings from a state on end alike, inside some brackets.  A token may have to be taken. -/
inductive Ends (sim : Lockstep) {α : Type} (nest : List Bracket) (takes : Bool) (state : State) :
    Result α → Result α → Prop where
  /-- They give the same result. -/
  | done {result : α} {after after' : State} : state.Leads after →
      (takes = true → after.rest.length < state.rest.length) → sim.Holds nest after after' →
      Ends sim nest takes state (.done result after) (.done result after')
  /-- They fail with the same message. -/
  | failed {error error' : SyntaxError} {after after' : State} : state.Leads after →
      error.Alike error' → Ends sim nest takes state (.failed error after) (.failed error' after')

namespace Ends

variable {nest nest' : List Bracket} {takes : Bool} {state other middle : State}

/-- How reading ends may be told from an earlier state on. -/
theorem behind {found found' : Result α} (h : sim.Ends nest takes middle found found')
    (hleads : state.Leads middle) : sim.Ends nest takes state found found' := by
  cases h with
  | done hmore htakes hholds =>
    exact .done (hleads.trans hmore)
      (fun h => Nat.lt_of_lt_of_le (htakes h) hleads.rest.length_le) hholds
  | failed hmore halike => exact .failed (hleads.trans hmore) halike

/-- If a token was taken before, this is enough. -/
theorem taken {found found' : Result α} (h : sim.Ends nest false middle found found')
    (hleads : state.Leads middle) (hshorter : middle.rest.length < state.rest.length) :
    sim.Ends nest takes state found found' := by
  cases h with
  | done hmore _ hholds =>
    exact .done (hleads.trans hmore)
      (fun _ => Nat.lt_of_le_of_lt hmore.rest.length_le hshorter) hholds
  | failed hmore halike => exact .failed (hleads.trans hmore) halike

/-- A parser that takes a token may be counted as one that perhaps takes none. -/
theorem weaken {found found' : Result α} (h : sim.Ends nest true state found found') :
    sim.Ends nest takes state found found' := by
  cases h with
  | done hleads htakes hholds => exact .done hleads (fun _ => htakes rfl) hholds
  | failed hleads halike => exact .failed hleads halike

/-- Where the first reading is done, so is the second, with the same result. -/
theorem of_done {result : α} {after : State} {found : Result α}
    (h : sim.Ends nest takes state (.done result after) found) :
    ∃ after', found = .done result after' ∧ sim.Holds nest after after' := by
  cases h with
  | done _ _ hholds => exact ⟨_, rfl, hholds⟩

/-- One reading after another: the second goes on where the first gave a result. -/
theorem bind {takes' : Bool} {first first' : Parser α} {next next' : α → Parser β}
    (h : sim.Ends nest takes state (first state) (first' other))
    (hnext : ∀ value after after', state.Leads after →
      (takes = true → after.rest.length < state.rest.length) → sim.Holds nest after after' →
      sim.Ends nest' takes' state (next value after) (next' value after')) :
    sim.Ends nest' takes' state ((first >>= next) state) ((first' >>= next') other) := by
  cases hfirst : first state with
  | done value after =>
    cases hfirst' : first' other with
    | done value' after' =>
      rw [hfirst, hfirst'] at h
      rw [bind_of_done hfirst, bind_of_done hfirst']
      cases h with
      | done hleads htakes hholds => exact hnext _ _ _ hleads htakes hholds
    | failed error after' =>
      rw [hfirst, hfirst'] at h
      cases h
    | outOfFuel =>
      rw [hfirst, hfirst'] at h
      cases h
  | failed error after =>
    cases hfirst' : first' other with
    | failed error' after' =>
      rw [hfirst, hfirst'] at h
      rw [bind_of_failed hfirst, bind_of_failed hfirst']
      cases h with
      | failed hleads halike => exact .failed hleads halike
    | done value' after' =>
      rw [hfirst, hfirst'] at h
      cases h
    | outOfFuel =>
      rw [hfirst, hfirst'] at h
      cases h
  | outOfFuel =>
    rw [hfirst] at h
    cases h

/-- The setting for line breaks is restored. -/
theorem restore {flag : Bool} {parser parser' : Parser α}
    (hsame : other.lineBreaks = state.lineBreaks)
    (h : sim.Ends nest takes { state with lineBreaks := flag }
      (parser { state with lineBreaks := flag }) (parser' { other with lineBreaks := flag })) :
    sim.Ends nest takes state (countingLineBreaks flag parser state)
      (countingLineBreaks flag parser' other) := by
  unfold countingLineBreaks
  generalize parser { state with lineBreaks := flag } = found at h
  generalize parser' { other with lineBreaks := flag } = found' at h
  cases h with
  | done hleads htakes hholds =>
    refine .done ⟨hleads.finish, rfl, hleads.rest⟩ htakes ?_
    rw [hsame]
    exact sim.counting _ hholds
  | failed hleads halike => exact .failed ⟨hleads.finish, rfl, hleads.rest⟩ halike

end Ends

/-- Two parsers keep in step, from states inside some brackets, which they close.  They need not
take more than some number of tokens, and may have to take one. -/
def Keeps (sim : Lockstep) {α : Type} (here : State → State → Prop) (inside : List Bracket)
    (takes : Bool) (size : Nat) (parser parser' : Parser α) : Prop :=
  ∀ nest state other, sim.Holds (inside ++ nest) state other →
    state.lineBreaks = breaksCount (inside ++ nest) → here state other →
    state.rest.length ≤ size → sim.Ends nest takes state (parser state) (parser' other)

/-- Two parsers keep in step that do not look at tokens. -/
def Rests (sim : Lockstep) {α : Type} (parser parser' : Parser α) : Prop :=
  ∀ nest state other, sim.Holds nest state other →
    sim.Ends nest false state (parser state) (parser' other)

/-- Two parsers keep in step that have just read an opening bracket, and close it. -/
def Closes (sim : Lockstep) {α : Type} (bracket : Bracket) (size : Nat)
    (parser parser' : Parser α) : Prop :=
  ∀ nest state other, sim.Holds (bracket :: nest) state other →
    state.lineBreaks = breaksCount nest → state.rest.length ≤ size →
    sim.Ends nest false state (parser state) (parser' other)

/-- Any two states. -/
abbrev anywhere : State → State → Prop := fun _ _ => True

/-- States in front of a token of some kind. -/
abbrev At (kind : TokenKind) : State → State → Prop := fun state _ => state.current.kind = kind

/-- Two parsers that return the same value rest where they are. -/
theorem Rests.pure {result : α} : sim.Rests (Pure.pure result) (Pure.pure result) :=
  fun _ state _ hholds => .done (.refl state) (by rintro ⟨⟩) hholds

/-- Two that fail may differ in the places of their errors only. -/
theorem Rests.fail {error error' : SyntaxError} (h : error.Alike error') :
    sim.Rests (Parser.fail error : Parser α) (Parser.fail error') :=
  fun _ state _ _ => .failed (.refl state) h

namespace Keeps

variable {here : State → State → Prop} {inside : List Bracket} {takes : Bool} {size : Nat}

/-- What is known of the states need not be used. -/
theorem weaken {parser parser' : Parser α}
    (h : sim.Keeps anywhere inside takes size parser parser') :
    sim.Keeps here inside takes size parser parser' :=
  fun nest state other hholds hcount _ => h nest state other hholds hcount trivial

/-- A token may be taken that need not be. -/
theorem taking {parser parser' : Parser α} (h : sim.Keeps here inside true size parser parser') :
    sim.Keeps here inside takes size parser parser' :=
  fun nest state other hholds hcount hhere hsize =>
    (h nest state other hholds hcount hhere hsize).weaken

/-- What holds of a state with many tokens left holds of one with fewer. -/
theorem smaller {size' : Nat} {parser parser' : Parser α}
    (h : sim.Keeps here inside takes size parser parser') (hsize : size' ≤ size) :
    sim.Keeps here inside takes size' parser parser' :=
  fun nest state other hholds hcount hhere hle =>
    h nest state other hholds hcount hhere (hle.trans hsize)

/-- The kind of the next token decides. -/
theorem byKind {parser parser' : Parser α}
    (h : ∀ kind, sim.Keeps (At kind) inside takes size parser parser') :
    sim.Keeps here inside takes size parser parser' :=
  fun nest state other hholds hcount _ => h _ nest state other hholds hcount rfl

/-- A parser that takes nothing keeps both readings where they are. -/
theorem pure {result : α} : sim.Keeps here [] false size (Pure.pure result) (Pure.pure result) :=
  fun _ _ _ hholds _ _ _ => Rests.pure _ _ _ hholds

/-- A parser that fails keeps nothing, but both readings have to fail alike. -/
theorem fail {error error' : SyntaxError} (h : error.Alike error') :
    sim.Keeps here inside takes size (Parser.fail error : Parser α) (Parser.fail error') :=
  fun _ state _ _ _ _ _ => .failed (.refl state) h

/-- Parsers that fail where they are say the same about tokens of one kind. -/
theorem fails {parser parser' : Parser α} {tell : State → SyntaxError}
    (h : ∀ state, parser state = .failed (tell state) state)
    (h' : ∀ state, parser' state = .failed (tell state) state)
    (halike : ∀ state other : State, state.current.kind = other.current.kind →
      (tell state).Alike (tell other)) :
    sim.Keeps here inside takes size parser parser' := by
  intro nest state other hholds hcount _ _
  rw [h, h']
  exact .failed (.refl state) (halike _ _ (sim.kind hholds hcount).symm)

/-- A missing token is told by what it was expected to be. -/
theorem expected {what : String} :
    sim.Keeps here inside takes size (Parser.expected what : Parser α) (Parser.expected what) :=
  fails (fun _ => rfl) (fun _ => rfl) fun _ _ => SyntaxError.unexpected_alike what

/-- What follows may need the brackets that are open. -/
theorem bind {first first' : Parser α} {next next' : α → Parser β}
    (h : sim.Keeps here [] false size first first')
    (hnext : ∀ value, sim.Keeps anywhere inside takes size (next value) (next' value)) :
    sim.Keeps here inside takes size (first >>= next) (first' >>= next') := by
  intro nest state other hholds hcount hhere hsize
  refine .bind (h _ _ _ hholds hcount hhere hsize) fun value after after' hleads _ hholds' => ?_
  exact (hnext value _ _ _ hholds' (hleads.lineBreaks.trans hcount) trivial
    (hleads.rest.length_le.trans hsize)).behind hleads

/-- Behind a token that was taken there are fewer. -/
theorem andThen {first first' : Parser α} {next next' : α → Parser β}
    (h : sim.Keeps here [] true size first first')
    (hnext : ∀ value, ∀ size' < size,
      sim.Keeps anywhere inside false size' (next value) (next' value)) :
    sim.Keeps here inside takes size (first >>= next) (first' >>= next') := by
  intro nest state other hholds hcount hhere hsize
  refine .bind (h _ _ _ hholds hcount hhere hsize) fun value after after' hleads htakes hholds' =>
    ?_
  have hshorter := htakes rfl
  exact (hnext value _ (Nat.lt_of_lt_of_le hshorter hsize) _ _ _ hholds'
    (hleads.lineBreaks.trans hcount) trivial (Nat.le_refl _)).taken hleads hshorter

/-- What follows does not look at tokens. -/
theorem thenRest {first first' : Parser α} {next next' : α → Parser β}
    (h : sim.Keeps here inside false size first first')
    (hnext : ∀ value, sim.Rests (next value) (next' value)) :
    sim.Keeps here inside false size (first >>= next) (first' >>= next') := by
  intro nest state other hholds hcount hhere hsize
  refine .bind (h _ _ _ hholds hcount hhere hsize) fun value after after' hleads _ hholds' => ?_
  exact (hnext value _ _ _ hholds').behind hleads

/-- Both readings look at tokens of the same kind. -/
theorem look {next next' : TokenKind → Parser β}
    (h : ∀ kind, sim.Keeps (At kind) inside takes size (next kind) (next' kind)) :
    sim.Keeps here inside takes size (nextKind >>= next) (nextKind >>= next') := by
  intro nest state other hholds hcount _ hsize
  rw [bind_of_done (nextKind_eq state), bind_of_done (nextKind_eq other), sim.kind hholds hcount]
  exact h _ _ _ _ hholds hcount rfl hsize

/-- A plain token is read. -/
theorem read {kind : TokenKind} (hkind : IsPlain kind) {next next' : Token → Parser β}
    (hnext : ∀ token token', token.kind = kind → token'.kind = kind → ∀ size' < size,
      sim.Keeps anywhere inside false size' (next token) (next' token')) :
    sim.Keeps (At kind) inside takes size (advance >>= next) (advance >>= next') := by
  intro nest state other hholds hcount hhere hsize
  have hsame := sim.kind hholds hcount
  have hshorter := State.next_shorter (sim.finish hholds) (hhere ▸ hkind.inside)
  have hholds' := sim.next hholds hcount (hhere ▸ hkind.known) (hhere ▸ hkind.turn _)
  rw [bind_of_done (advance_eq state), bind_of_done (advance_eq other)]
  exact (hnext _ _ hhere (hsame.trans hhere) _ (Nat.lt_of_lt_of_le hshorter hsize) _ _ _ hholds'
    (state.leads_next.lineBreaks.trans hcount) trivial (Nat.le_refl _)).taken state.leads_next
    hshorter

/-- An opening bracket is read. -/
theorem opened {kind : TokenKind} {bracket : Bracket} (hkind : OpensWith bracket kind)
    {next next' : Token → Parser β}
    (hnext : ∀ token token', token.kind = kind → token'.kind = kind → ∀ size' < size,
      sim.Closes bracket size' (next token) (next' token')) :
    sim.Keeps (At kind) [] takes size (advance >>= next) (advance >>= next') := by
  intro nest state other hholds hcount hhere hsize
  obtain ⟨hinside, hknown⟩ := hkind.inside
  have hsame := sim.kind hholds hcount
  have hshorter := State.next_shorter (sim.finish hholds) (hhere ▸ hinside)
  have hholds' := sim.next hholds hcount (hhere ▸ hknown) (hhere ▸ hkind _)
  rw [bind_of_done (advance_eq state), bind_of_done (advance_eq other)]
  exact (hnext _ _ hhere (hsame.trans hhere) _ (Nat.lt_of_lt_of_le hshorter hsize) _ _ _ hholds'
    (state.leads_next.lineBreaks.trans hcount) (Nat.le_refl _)).taken state.leads_next hshorter

/-- A closer is read. -/
theorem closed {kind : TokenKind} (closer : Closer) (haccepts : closer.accepts kind = true)
    {result : β} :
    sim.Keeps (At kind) closer.opened false size (advance >>= fun _ => Pure.pure result)
      (advance >>= fun _ => Pure.pure result) := by
  intro nest state other hholds hcount hhere hsize
  have hholds' := sim.next hholds hcount (hhere ▸ Closer.isUnknown_of_accepts haccepts)
    (hhere ▸ Closer.turn_of_accepts haccepts nest)
  rw [bind_of_done (advance_eq state), bind_of_done (advance_eq other)]
  exact (Rests.pure _ _ _ hholds').behind state.leads_next

/-- In front of an operator with an operand, more tightly binding expressions may be asked for. -/
theorem leading {found : KnownSpelling} {parser parser' : Parser α}
    (h : (∀ {op}, found.starting? = some op → op.form = .before ∨ op.form = .keywordBlock →
      sim.Asks op.precedence) → sim.Keeps (At (.operator found)) inside takes size parser parser') :
    sim.Keeps (At (.operator found)) inside takes size parser parser' :=
  fun nest state other hholds hcount hhere =>
    h (fun hop hform => sim.leading hholds hcount hhere hop hform) nest state other hholds hcount
      hhere

/-- A token is read that does not fit. -/
theorem readFail {next next' : Token → Parser β} {kind : TokenKind} (tell : Token → SyntaxError)
    (h : ∀ token, token.kind = kind → next token = Parser.fail (tell token))
    (h' : ∀ token, token.kind = kind → next' token = Parser.fail (tell token))
    (halike : ∀ token other : Token, token.kind = other.kind → (tell token).Alike (tell other)) :
    sim.Keeps (At kind) inside takes size (advance >>= next) (advance >>= next') := by
  intro nest state other hholds hcount hhere _
  have hsame := sim.kind hholds hcount
  rw [bind_of_done (advance_eq state), bind_of_done (advance_eq other), h _ hhere,
    h' _ (hsame.trans hhere)]
  exact .failed state.leads_next (halike _ _ hsame.symm)

end Keeps

namespace Closes

variable {bracket : Bracket} {size : Nat}

/-- Inside the bracket line breaks count as they should. -/
theorem countingLineBreaks {flag : Bool} {parser parser' : Parser α}
    (hflag : ∀ nest, flag = breaksCount (bracket :: nest))
    (h : sim.Keeps anywhere [bracket] false size parser parser') :
    sim.Closes bracket size (Parser.countingLineBreaks flag parser)
      (Parser.countingLineBreaks flag parser') :=
  fun nest _ _ hholds _ hsize => .restore (sim.lineBreaks hholds)
    (h nest _ _ (sim.counting flag hholds) (hflag nest) trivial hsize)

/-- Behind the closing bracket both readings go on. -/
theorem bind {first first' : Parser α} {next next' : α → Parser β}
    (h : sim.Closes bracket size first first')
    (hnext : ∀ value, sim.Keeps anywhere [] false size (next value) (next' value)) :
    sim.Closes bracket size (first >>= next) (first' >>= next') := by
  intro nest state other hholds hcount hsize
  refine .bind (h _ _ _ hholds hcount hsize) fun value after after' hleads _ hholds' => ?_
  exact (hnext value _ _ _ hholds' (hleads.lineBreaks.trans hcount) trivial
    (hleads.rest.length_le.trans hsize)).behind hleads

end Closes

/-! ## The rules of the grammar -/

/-- Two grammars keep in step over some number of tokens. -/
structure Grammars (sim : Lockstep) (g g' : Grammar) (size : Nat) : Prop where
  /-- Their expressions do. -/
  expression {least : Int} : sim.Asks least →
    sim.Keeps anywhere [] true size (g.expression least) (g'.expression least)
  /-- Their operands do. -/
  operand : sim.Keeps anywhere [] true size g.operand g'.operand
  /-- Their loops may go round once for each token and once more. -/
  rounds : size < g.rounds ∧ size < g'.rounds

/-- Grammars that agree on many tokens agree on fewer. -/
theorem Grammars.smaller {g g' : Grammar} {size size' : Nat} (h : sim.Grammars g g' size)
    (hsize : size' ≤ size) : sim.Grammars g g' size' :=
  ⟨fun hasks => (h.expression hasks).smaller hsize, h.operand.smaller hsize,
    Nat.lt_of_le_of_lt hsize h.rounds.1, Nat.lt_of_le_of_lt hsize h.rounds.2⟩

section Rules

variable {g g' : Grammar} {size : Nat} {here : State → State → Prop}

/-! ### Elements and collections -/

/-- An element, with its key or without. -/
theorem element_keeps (hg : sim.Grammars g g' size) :
    sim.Keeps here [] true size (element g) (element g') := by
  refine .look fun kind => ?_
  refine .andThen (hg.expression sim.asks_colon).weaken fun first size' hsize => ?_
  refine .look fun kind => ?_
  cases kind with
  | pairSeparator =>
    refine .read ⟨rfl, rfl, fun _ => rfl⟩ fun _ _ _ _ size'' hsize' => ?_
    have hg' := hg.smaller (hsize'.trans hsize).le
    exact .bind (hg'.expression sim.asks_colon).taking fun value => .pure
  | _ => exact .pure

/-- Each round reads an element and a comma, or the closing bracket.  The induction is on the fuel
of the first reading; the other has enough as well. -/
theorem elementsLoop_keeps (hg : sim.Grammars g g' size) (closer : Closer) {fuel fuel' : Nat}
    (hfuel : size < fuel) (hfuel' : size < fuel') :
    sim.Keeps here closer.opened false size (elementsLoop g closer fuel)
      (elementsLoop g' closer fuel') := by
  -- each round takes a token, so the fuel stays above the number of tokens
  induction fuel generalizing here fuel' size with
  | zero => cases hfuel
  | succ fuel ih =>
    obtain ⟨fuel', rfl⟩ := Nat.exists_eq_succ_of_ne_zero (Nat.ne_zero_of_lt hfuel')
    refine .andThen (element_keeps hg) fun first size' hsize => .look fun kind => ?_
    have hclose : sim.Keeps (At kind) closer.opened false size'
        (if closer.accepts kind then advance >>= fun _ => pure [first]
          else expected ("“,” or " ++ closer.text))
        (if closer.accepts kind then advance >>= fun _ => pure [first]
          else expected ("“,” or " ++ closer.text)) := by
      split
      next haccepts => exact .closed closer haccepts
      next => exact .expected
    cases kind with
    | itemSeparator =>
      refine .read ⟨rfl, rfl, fun _ => rfl⟩ fun _ _ _ _ size'' hsize' => ?_
      have hle : size'' < size := hsize'.trans hsize
      exact .thenRest (ih (hg.smaller hle.le) (by omega) (by omega)) fun _ => .pure
    | _ => exact hclose

/-- Elements from behind the opening bracket to the closing one. -/
theorem elements_keeps (hg : sim.Grammars g g' size) (closer : Closer) :
    sim.Keeps here closer.opened false size (elements g closer) (elements g' closer) := by
  refine .look fun kind => ?_
  split
  next haccepts => exact .closed closer haccepts
  next => exact elementsLoop_keeps hg closer hg.rounds.1 hg.rounds.2

theorem arguments_closes (hg : sim.Grammars g g' size) :
    sim.Closes .group size (arguments g) (arguments g') :=
  .countingLineBreaks (fun _ => rfl) (.thenRest (elements_keeps hg .group) fun _ => .pure)

/-- Where a collection starts and stops only matters for the places of its errors. -/
theorem collectionOf_alike (found : List Element) (span span' : Span) :
    (∃ value, collectionOf found span = .ok value ∧ collectionOf found span' = .ok value) ∨
      ∃ error error', collectionOf found span = .error error ∧
        collectionOf found span' = .error error' ∧ error.Alike error' := by
  unfold collectionOf
  split
  next => exact .inl ⟨_, rfl, rfl⟩
  next =>
    split
    next => exact .inr ⟨_, _, rfl, rfl, rfl, rfl⟩
    next =>
      split
      next => exact .inl ⟨_, rfl, rfl⟩
      next =>
        split
        next => exact .inl ⟨_, rfl, rfl⟩
        next => exact .inr ⟨_, _, rfl, rfl, rfl, rfl⟩

/-- The span of a collection is only used for its error, and errors may differ in their places. -/
theorem collection_closes (hg : sim.Grammars g g' size) (start start' : Nat) :
    sim.Closes .list size (collection g start) (collection g' start') := by
  refine .countingLineBreaks (fun _ => rfl) (.look fun kind => ?_)
  split
  next =>
    refine .read ⟨rfl, rfl, fun _ => rfl⟩ fun _ _ _ _ size' hsize => ?_
    rw [expect_bind]
    refine .look fun kind => ?_
    split
    next haccepts => exact .closed .list haccepts
    next => exact .expected
  next =>
    refine .thenRest (elements_keeps hg .list) fun found nest state other hholds => ?_
    rw [bind_of_done (lastStop_eq state), bind_of_done (lastStop_eq other)]
    rcases collectionOf_alike found ⟨start, state.lastStop⟩ ⟨start', other.lastStop⟩ with
      ⟨value, hvalue, hvalue'⟩ | ⟨error, error', herror, herror', halike⟩
    · rw [hvalue, hvalue']
      exact Rests.pure _ _ _ hholds
    · rw [herror, herror']
      exact Rests.fail halike _ _ _ hholds

/-! ### Groups, blocks and statements -/

/-- A group is an expression and its closing bracket. -/
theorem group_closes (hg : sim.Grammars g g' size) :
    sim.Closes .group size (group g) (group g') := by
  have hvalue : sim.Keeps anywhere [] false size (g.expression 0) (g'.expression 0) :=
    (hg.expression sim.loosest).taking
  refine .countingLineBreaks (fun _ => rfl) (.bind hvalue fun value => ?_)
  rw [expect_bind]
  refine .look fun kind => ?_
  split
  next haccepts => exact .closed .group haccepts
  next => exact .expected

/-- Separators are taken one by one. -/
theorem skipSeparators_keeps {fuel fuel' : Nat} (hfuel : size < fuel) (hfuel' : size < fuel') :
    sim.Keeps here [] false size (skipSeparators fuel) (skipSeparators fuel') := by
  induction fuel generalizing here fuel' size with
  | zero => cases hfuel
  | succ fuel ih =>
    obtain ⟨fuel', rfl⟩ := Nat.exists_eq_succ_of_ne_zero (Nat.ne_zero_of_lt hfuel')
    refine .look fun kind => ?_
    split
    next hseparator =>
      exact .read (isPlain_of_isSeparator hseparator) fun _ _ _ _ size' hsize =>
        ih (by omega) (by omega)
    next => exact .pure

/-- Each round reads a statement and the separators behind it, or the closing bracket. -/
theorem statementsLoop_keeps (hg : sim.Grammars g g' size) (closer : Closer) {fuel fuel' : Nat}
    (hfuel : size < fuel) (hfuel' : size < fuel') :
    sim.Keeps here closer.opened false size (statementsLoop g closer fuel)
      (statementsLoop g' closer fuel') := by
  induction fuel generalizing here fuel' size with
  | zero => cases hfuel
  | succ fuel ih =>
    obtain ⟨fuel', rfl⟩ := Nat.exists_eq_succ_of_ne_zero (Nat.ne_zero_of_lt hfuel')
    refine .bind (skipSeparators_keeps hg.rounds.1 hg.rounds.2) fun _ => .look fun kind => ?_
    split
    next haccepts => exact .closed closer haccepts
    next =>
      split
      next => exact .expected
      next =>
        refine .andThen (hg.expression sim.loosest).weaken fun first size' hsize =>
          .look fun kind => ?_
        split
        next =>
          exact .thenRest (ih (hg.smaller hsize.le) (by omega) (by omega)) fun _ => .pure
        next => exact .expected

/-- The statements of a block, whose line breaks count again. -/
theorem statements_closes (hg : sim.Grammars g g' size) :
    sim.Closes .block size (statements g .block) (statements g' .block) :=
  .countingLineBreaks (fun _ => rfl) (statementsLoop_keeps hg .block hg.rounds.1 hg.rounds.2)

/-- A script stands outside all brackets. -/
theorem script_ends (hg : sim.Grammars g g' size) {state other : State}
    (hholds : sim.Holds [] state other) (hsize : state.rest.length ≤ size) :
    sim.Ends [] false state (statements g .code state) (statements g' .code other) := by
  have hloop : sim.Keeps anywhere [] false size (statementsLoop g .code g.rounds)
      (statementsLoop g' .code g'.rounds) :=
    statementsLoop_keeps hg .code hg.rounds.1 hg.rounds.2
  exact .restore (sim.lineBreaks hholds)
    (hloop _ _ _ (sim.counting true hholds) rfl trivial hsize)

/-- A block where a keyword needs one. -/
theorem requiredBlock_keeps (hg : sim.Grammars g g' size) (keyword : String) :
    sim.Keeps here [] false size (requiredBlock g keyword) (requiredBlock g' keyword) := by
  refine .look fun kind => ?_
  cases kind with
  | blockOpen =>
    exact .opened (fun _ => rfl) fun _ _ _ _ size' hsize => statements_closes (hg.smaller hsize.le)
  | _ =>
    refine .fails (fun _ => rfl) (fun _ => rfl) fun state other hsame => ⟨rfl, ?_⟩
    exact congrArg TokenKind.describe hsame

/-! ### Definitions of handlers -/

theorem takeWord_keeps (word : String) :
    sim.Keeps here [] false size (takeWord word) (takeWord word) := by
  refine .look fun kind => ?_
  split
  next hword => exact .read (isPlain_of_isWord hword) fun _ _ _ _ _ _ => .pure
  next => exact .pure

theorem takeName_keeps (what : String) :
    sim.Keeps here [] true size (takeName what) (takeName what) := by
  refine .look fun kind => ?_
  cases kind with
  | identifier name quoted => exact .read ⟨rfl, rfl, fun _ => rfl⟩ fun _ _ _ _ _ _ => .pure
  | _ => exact .expected

theorem coercionAfter_keeps (hg : sim.Grammars g g' size) (word : String) :
    sim.Keeps here [] false size (coercionAfter g word) (coercionAfter g' word) := by
  refine .bind (takeWord_keeps word) fun came => ?_
  cases came with
  | true => exact hg.operand.taking
  | false => exact .pure

theorem parameter_keeps (hg : sim.Grammars g g' size) :
    sim.Keeps here [] true size (parameter g) (parameter g') := by
  refine .andThen (takeName_keeps _) fun label size' hsize => .look fun kind => ?_
  have hrest (binding : String) {here : State → State → Prop} {size' : Nat} (hsize : size' < size) :
      sim.Keeps here [] false size'
        (do
          let wanted ← coercionAfter g "as"
          return Value.list [.ofString label, .ofString binding, wanted])
        (do
          let wanted ← coercionAfter g' "as"
          return Value.list [.ofString label, .ofString binding, wanted]) :=
    .bind (coercionAfter_keeps (hg.smaller hsize.le) "as") fun _ => .pure
  cases kind with
  | pairSeparator =>
    refine .read ⟨rfl, rfl, fun _ => rfl⟩ fun _ _ _ _ size'' hsize' => ?_
    exact .bind (takeName_keeps _).taking fun binding => hrest binding (hsize'.trans hsize)
  | _ => exact hrest label hsize

theorem parametersLoop_keeps (hg : sim.Grammars g g' size) {fuel fuel' : Nat}
    (hfuel : size < fuel) (hfuel' : size < fuel') :
    sim.Keeps here [.group] false size (parametersLoop g fuel) (parametersLoop g' fuel') := by
  induction fuel generalizing here fuel' size with
  | zero => cases hfuel
  | succ fuel ih =>
    obtain ⟨fuel', rfl⟩ := Nat.exists_eq_succ_of_ne_zero (Nat.ne_zero_of_lt hfuel')
    refine .andThen (parameter_keeps hg) fun first size' hsize => .look fun kind => ?_
    cases kind with
    | itemSeparator =>
      refine .read ⟨rfl, rfl, fun _ => rfl⟩ fun _ _ _ _ size'' hsize' => ?_
      have hle : size'' < size := hsize'.trans hsize
      exact .thenRest (ih (hg.smaller hle.le) (by omega) (by omega)) fun _ => .pure
    | groupClose => exact .closed .group rfl
    | _ => exact .expected

/-- The parameters of a handler, if there are any. -/
theorem parameters_keeps (hg : sim.Grammars g g' size) :
    sim.Keeps here [] false size (parameters g) (parameters g') := by
  unfold parameters
  rw [expect_bind, expect_bind]
  refine .look fun kind => ?_
  cases kind with
  | groupOpen =>
    refine .opened (fun _ => rfl) fun _ _ _ _ size' hsize => ?_
    have hg' := hg.smaller hsize.le
    refine .countingLineBreaks (fun _ => rfl) (.look fun kind => ?_)
    cases kind with
    | groupClose => exact .closed .group rfl
    | _ => exact parametersLoop_keeps hg' hg'.rounds.1 hg'.rounds.2
  | _ => exact .expected

/-- A definition is a name, parameters, a coercion and a block. -/
theorem definitionCommand_keeps (hg : sim.Grammars g g' size) (op : Operator) (isEvent : Bool) :
    sim.Keeps here [] false size (definitionCommand g op isEvent)
      (definitionCommand g' op isEvent) := by
  refine .bind (takeName_keeps _).taking fun name => .bind (parameters_keeps hg) fun found => ?_
  refine .bind (coercionAfter_keeps hg _) fun returns => ?_
  exact .bind (requiredBlock_keeps hg _) fun action => .pure

/-! ### Operators -/

variable {token token' : Token}

/-- An operator that starts an expression asks for an operand of its own precedence. -/
theorem startingOperator_keeps (hg : sim.Grammars g g' size) (htoken : token.kind = token'.kind)
    {op : Operator}
    (hasks : op.form = .before ∨ op.form = .keywordBlock → sim.Asks op.precedence) :
    sim.Keeps here [] false size (startingOperator g token op) (startingOperator g' token' op) := by
  unfold startingOperator
  cases hform : op.form with
  | atom => exact .pure
  | before => exact .bind (hg.expression (hasks (.inl hform))).weaken.taking fun operand => .pure
  | keywordBlock =>
    refine .bind (hg.expression (hasks (.inr hform))).weaken.taking fun operand => ?_
    exact .bind (requiredBlock_keeps hg _) fun body => .pure
  | commandHandler => exact definitionCommand_keeps hg op false
  | eventHandler => exact definitionCommand_keeps hg op true
  | between | betweenRight | after => exact .fail (SyntaxError.unexpected_alike _ htoken)

/-- An operator that goes on asks for an operand that binds tighter than what is asked already. -/
theorem continuingOperator_keeps (hg : sim.Grammars g g' size) (htoken : token.kind = token'.kind)
    {least : Int} (hasks : sim.Asks least) (left : Value) {op : Operator}
    (hop : least < op.precedence) :
    sim.Keeps here [] false size (continuingOperator g token left op)
      (continuingOperator g' token' left op) := by
  unfold continuingOperator
  cases op.form with
  | between =>
    have htighter := sim.tighter hasks (Int.le_of_lt hop)
    exact .bind (hg.expression htighter).weaken.taking fun right => .pure
  | betweenRight =>
    have hlooser : least ≤ looser op.precedence := by
      unfold looser
      omega
    exact .bind (hg.expression (sim.tighter hasks hlooser)).weaken.taking fun right => .pure
  | after => exact .pure
  | atom | before | keywordBlock | commandHandler | eventHandler =>
    exact .fail (SyntaxError.unexpected_alike _ htoken)

/-! ### Operands and expressions -/

/-- A parenthesis opens the arguments of a name in both readings or in neither. -/
abbrev OpensAlike : State → State → Prop :=
  fun state other => state.OpensArguments ↔ other.OpensArguments

/-- The argument of a name that no parenthesis touches. -/
theorem loneArgument_keeps (hg : sim.Grammars g g' size) (name : String) (kind : TokenKind) :
    sim.Keeps here [] false size (loneArgument g name kind) (loneArgument g' name kind) := by
  unfold loneArgument
  split
  next => exact .bind hg.operand.weaken.taking fun argument => .pure
  next => exact .pure

/-- A name is called in one reading if it is in the other, as both parentheses touch their names. -/
theorem nameOrCommand_keeps (hg : sim.Grammars g g' size) (name : String) :
    sim.Keeps OpensAlike [] false size (nameOrCommand g name) (nameOrCommand g' name) := by
  intro nest state other hholds hcount halike hsize
  by_cases hopens : state.OpensArguments
  · rw [nameOrCommand_opened hopens, nameOrCommand_opened (halike.1 hopens)]
    have hopened : sim.Keeps (At .groupOpen) [] false size
        (do
          let _ ← advance
          let found ← arguments g
          return Value.command (.ofValues (.ofString name) found))
        (do
          let _ ← advance
          let found ← arguments g'
          return Value.command (.ofValues (.ofString name) found)) :=
      .opened (fun _ => rfl) fun _ _ _ _ size' hsize' =>
        .bind (arguments_closes (hg.smaller hsize'.le)) fun _ => .pure
    exact hopened _ _ _ hholds hcount hopens.1 hsize
  · rw [nameOrCommand_alone hopens, nameOrCommand_alone (fun h => hopens (halike.2 h)),
      sim.kind hholds hcount]
    have halone : sim.Keeps anywhere [] false size (loneArgument g name state.current.kind)
        (loneArgument g' name state.current.kind) :=
      loneArgument_keeps hg name _
    exact halone _ _ _ hholds hcount trivial hsize

/-- A name is read, and its arguments if it is a command. -/
theorem operandWith_name (hg : ∀ size' < size, sim.Grammars g g' size') {name : String}
    {quoted : Bool} :
    sim.Keeps (At (.identifier name quoted)) [] true size (operandWith g) (operandWith g') := by
  intro nest state other hholds hcount hhere hsize
  have hsame : other.current.kind = .identifier name quoted :=
    (sim.kind hholds hcount).trans hhere
  have hshorter := State.next_shorter (sim.finish hholds) (by rw [hhere]; rfl)
  have hsize' := Nat.lt_of_lt_of_le hshorter hsize
  have hholds' : sim.Holds nest state.next other.next :=
    sim.next hholds hcount (by rw [hhere]; rfl) (by rw [hhere]; rfl)
  have hopens := sim.opens hholds hcount hhere
  rw [operandWith_eq, operandWith_eq, bind_of_done (advance_eq state),
    bind_of_done (advance_eq other)]
  simp only [operandAfter, hhere, hsame]
  exact (nameOrCommand_keeps (hg _ hsize') name _ _ _ hholds'
    (state.leads_next.lineBreaks.trans hcount) hopens (Nat.le_refl _)).taken state.leads_next
    hshorter

/-- An operand, by the kind of its first token. -/
theorem operandWith_keeps (hg : ∀ size' < size, sim.Grammars g g' size') :
    sim.Keeps here [] true size (operandWith g) (operandWith g') := by
  refine .byKind fun kind => ?_
  rw [operandWith_eq, operandWith_eq]
  cases kind with
  | identifier name quoted => exact operandWith_name hg
  | number literal scalar =>
    refine .read ⟨rfl, rfl, fun _ => rfl⟩ fun token token' htoken htoken' _ _ => ?_
    simp only [operandAfter, htoken, htoken']
    exact .pure
  | text content =>
    refine .read ⟨rfl, rfl, fun _ => rfl⟩ fun token token' htoken htoken' _ _ => ?_
    simp only [operandAfter, htoken, htoken']
    exact .pure
  | tag name =>
    refine .read ⟨rfl, rfl, fun _ => rfl⟩ fun token token' htoken htoken' _ _ => ?_
    simp only [operandAfter, htoken, htoken']
    exact .pure
  | groupOpen =>
    refine .opened (fun _ => rfl) fun token token' htoken htoken' size' hsize => ?_
    simp only [operandAfter, htoken, htoken']
    exact group_closes (hg size' hsize)
  | listOpen =>
    refine .opened (fun _ => rfl) fun token token' htoken htoken' size' hsize => ?_
    simp only [operandAfter, htoken, htoken']
    exact collection_closes (hg size' hsize) _ _
  | blockOpen =>
    refine .opened (fun _ => rfl) fun token token' htoken htoken' size' hsize => ?_
    simp only [operandAfter, htoken, htoken']
    exact .bind (statements_closes (hg size' hsize)) fun _ => .pure
  | operator found =>
    refine .leading fun hasks => ?_
    refine .read ⟨rfl, rfl, fun _ => rfl⟩ fun token token' htoken htoken' size' hsize => ?_
    simp only [operandAfter, htoken, htoken']
    cases hop : found.starting? with
    | some op =>
      exact startingOperator_keeps (hg size' hsize) (htoken.trans htoken'.symm) (hasks hop)
    | none => exact .fail ⟨rfl, rfl⟩
  | _ =>
    refine .readFail (.unexpected "an expression")
      (fun token htoken => ?_) (fun token htoken => ?_)
      fun _ _ => SyntaxError.unexpected_alike _
    all_goals rw [operandAfter, htoken]

/-- One operator and its right operand. -/
theorem operation_keeps (hg : ∀ size' < size, sim.Grammars g g' size') {least precedence : Int}
    (hasks : sim.Asks least) {kind : TokenKind} (hkind : precedence? kind = some precedence)
    (hleast : least < precedence) (left : Value) :
    sim.Keeps (At kind) [] true size (operation g left) (operation g' left) := by
  cases kind with
  | pairSeparator =>
    refine .read ⟨rfl, rfl, fun _ => rfl⟩ fun token token' htoken htoken' size' hsize => ?_
    simp only [htoken, htoken']
    exact .bind ((hg size' hsize).expression sim.asks_colon).taking fun right => .pure
  | operator found =>
    refine .read ⟨rfl, rfl, fun _ => rfl⟩ fun token token' htoken htoken' size' hsize => ?_
    simp only [htoken, htoken']
    obtain ⟨op, hop, rfl⟩ := Option.map_eq_some_iff.1 hkind
    rw [hop]
    exact continuingOperator_keeps (hg size' hsize) (htoken.trans htoken'.symm) hasks left hleast
  | _ =>
    refine .readFail (.unexpected "an operator")
      (fun token htoken => ?_) (fun token htoken => ?_)
      fun _ _ => SyntaxError.unexpected_alike _
    all_goals rw [htoken]

/-- A rule for operations keeps in step with the one of the grammar, where it may be asked. -/
def OperationsKeep (sim : Lockstep) (rule : OperationRule) : Prop :=
  ∀ {g g' : Grammar} {size : Nat}, sim.Grammars g g' size → ∀ {least : Int}, sim.Asks least →
    ∀ {fuel fuel' : Nat}, size < fuel → size < fuel' → ∀ left,
      sim.Keeps anywhere [] false size (operations g least fuel left) (rule g' least fuel' left)

/-- Operators are taken in both readings as long as they bind tightly enough. -/
theorem operations_keep : sim.OperationsKeep operations := by
  intro g g' size hg least hasks fuel fuel' hfuel hfuel' left
  induction fuel generalizing fuel' size left with
  | zero => cases hfuel
  | succ fuel ih =>
    obtain ⟨fuel', rfl⟩ := Nat.exists_eq_succ_of_ne_zero (Nat.ne_zero_of_lt hfuel')
    refine .look fun kind => ?_
    cases hkind : precedence? kind with
    | none => exact .pure
    | some precedence =>
      dsimp only
      split
      next => exact .pure
      next hleast =>
        have hkeeps := operation_keeps (fun size' hsize => hg.smaller hsize.le) hasks hkind
          (Int.not_le.1 hleast) left
        refine .andThen hkeeps fun value size' hsize => ?_
        exact ih (hg.smaller hsize.le) (by omega) (by omega) value

/-- With two units of fuel for each token and two more, the grammars keep in step. -/
theorem grammarOf_keeps {rule : OperationRule} (hrule : sim.OperationsKeep rule) (size : Nat)
    {fuel fuel' : Nat} (hfuel : 2 * size + 2 ≤ fuel) (hfuel' : 2 * size + 2 ≤ fuel') :
    sim.Grammars (grammar fuel) (grammarOf rule fuel') size := by
  -- an expression spends a unit of fuel and its operand one more, but the operand takes a token
  -- before it comes back to the grammar
  induction size using Nat.strong_induction_on generalizing fuel fuel' with
  | _ size ih =>
    obtain ⟨fuel, rfl⟩ := Nat.exists_eq_add_of_le' (Nat.le_of_add_left_le hfuel)
    obtain ⟨fuel', rfl⟩ := Nat.exists_eq_add_of_le' (Nat.le_of_add_left_le hfuel')
    have hinner : ∀ size' < size,
        sim.Grammars (grammar (fuel + 1)) (grammarOf rule (fuel' + 1)) size' :=
      fun size' hsize => ih size' hsize (by omega) (by omega)
    refine ⟨fun {least} hasks => ?_, operandWith_keeps hinner, ?_⟩
    · refine .andThen (operandWith_keeps fun size' hsize =>
        ih size' hsize (by omega) (by omega)) fun left size' hsize => ?_
      have hrounds : size' < fuel + 1 ∧ size' < fuel' + 1 := by omega
      exact hrule (hinner size' hsize) hasks hrounds.1 hrounds.2 left
    · have hrounds : size < fuel + 2 ∧ size < fuel' + 2 := by omega
      exact hrounds

/-- Any two runs of the grammar agree, if both have enough fuel for the tokens. -/
theorem grammar_keeps (size : Nat) {fuel fuel' : Nat} (hfuel : 2 * size + 2 ≤ fuel)
    (hfuel' : 2 * size + 2 ≤ fuel') : sim.Grammars (grammar fuel) (grammar fuel') size := by
  rw [grammar_eq fuel']
  exact grammarOf_keeps operations_keep size hfuel hfuel'

end Rules

end Lockstep

end Parser

/-- The statements of a script, with a rule of their own for operations. -/
def readScriptWith (rule : Parser.OperationRule) (registry : Registry) (source : String) :
    Except SyntaxError (List Value) :=
  Parser.runOn (fun state => Parser.statements (Parser.grammarOf rule state.fuel) .code state)
    registry source

/-- A script is read by the grammar's own rule. -/
theorem readScript_eq : readScript = readScriptWith Parser.operations := by
  funext registry source
  unfold readScript readScriptWith Parser.script Parser.withGrammar
  simp only [Parser.grammar_eq]

namespace Parser.Lockstep

/-- Scripts that keep in step are read alike. -/
theorem readScriptWith_same (sim : Lockstep) {rule : OperationRule}
    (hrule : sim.OperationsKeep rule) {registry registry' : Registry} {source source' : String}
    (hholds : sim.Holds [] (.ofSource registry source) (.ofSource registry' source'))
    (hlength : (State.ofSource registry source).rest.length ≤
      (State.ofSource registry' source').rest.length + 3) :
    SameReading (readScript registry source) (readScriptWith rule registry' source') := by
  have hfuel : 2 * (State.ofSource registry source).rest.length + 2 ≤
      (State.ofSource registry source).fuel := by
    unfold State.fuel
    omega
  have hfuel' : 2 * (State.ofSource registry source).rest.length + 2 ≤
      (State.ofSource registry' source').fuel := by
    unfold State.fuel
    omega
  have hends : sim.Ends [] false (State.ofSource registry source)
      (script (.ofSource registry source))
      (statements (grammarOf rule (State.ofSource registry' source').fuel) .code
        (.ofSource registry' source')) :=
    script_ends (grammarOf_keeps hrule _ hfuel hfuel') hholds (Nat.le_refl _)
  unfold readScript readScriptWith runOn
  dsimp only
  generalize script (.ofSource registry source) = found at hends ⊢
  generalize statements (grammarOf rule (State.ofSource registry' source').fuel) .code
    (.ofSource registry' source') = found' at hends ⊢
  cases hends with
  | done _ _ _ => exact rfl
  | failed _ halike => exact halike

/-- Two sources whose tokens agree are read as the same script. -/
theorem readScript_same (sim : Lockstep) {registry registry' : Registry}
    {source source' : String}
    (hholds : sim.Holds [] (.ofSource registry source) (.ofSource registry' source'))
    (hlength : (State.ofSource registry source).rest.length ≤
      (State.ofSource registry' source').rest.length + 3) :
    SameReading (readScript registry source) (readScript registry' source') := by
  rw [readScript_eq]
  have hsame := sim.readScriptWith_same operations_keep hholds hlength
  rwa [readScript_eq] at hsame

end Parser.Lockstep

end CommandScript
