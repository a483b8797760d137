import CommandScript.Proofs.Joining
import CommandScript.Proofs.Lockstep

/-!
# Reading goes forward

A reading beside itself keeps in step, so that all that can be told of one state is told by the
tokens that were passed.  They can be read, and their brackets are the ones that are open.

Two things follow.  A parser always ends, whatever was asked of it before: it never goes back, it
leaves the setting for line breaks as it found it, and an expression takes a token at least.  And in
a script that is read every token can be read, and every bracket is closed by one of its kind.
-/

namespace CommandScript

namespace Parser

/-! ## The tokens that were passed -/

/-- What a state has behind it since another, which stood inside some brackets: tokens that can be
read, and that leave some brackets open. -/
structure State.Passed (start : State) (outer nest : List Bracket) (state : State) : Prop where
  /-- Behind all tokens stands the end mark. -/
  finish : state.finish.kind = .endOfCode
  /-- The tokens in between. -/
  tokens : ∃ tokens, start.rest = tokens ++ state.rest ∧
    (∀ token ∈ tokens, Lexer.isUnknown token.kind = false) ∧ unclosed outer tokens = some nest

/-- In front of the next token there are line breaks, if any. -/
theorem State.rest_eq_append (state : State) :
    ∃ breaks, state.rest = breaks ++ state.visible ∧
      ∀ token ∈ breaks, token.kind.isLineBreak = true := by
  unfold State.visible
  split
  next => exact ⟨[], rfl, List.forall_mem_nil _⟩
  next =>
    exact ⟨_, (List.takeWhile_append_dropWhile ..).symm, fun _ => List.mem_takeWhile_imp⟩

theorem isUnknown_of_isLineBreak {kind : TokenKind} (h : kind.isLineBreak = true) :
    Lexer.isUnknown kind = false := by
  cases kind with
  | lineBreak => rfl
  | _ => cases h

variable {start state : State} {outer nest nest' : List Bracket}

theorem State.Passed.refl (h : state.finish.kind = .endOfCode) : state.Passed outer outer state :=
  ⟨h, [], rfl, List.forall_mem_nil _, rfl⟩

/-- The next token is passed. -/
theorem State.Passed.next (h : start.Passed outer nest state)
    (hknown : Lexer.isUnknown state.current.kind = false)
    (hturn : state.current.kind.turn nest = some nest') :
    start.Passed outer nest' state.next := by
  obtain ⟨hfinish, tokens, hstart, htokens, hnest⟩ := h
  obtain ⟨breaks, hrest, hbreaks⟩ := state.rest_eq_append
  have hpassed : ∀ token ∈ tokens ++ breaks, Lexer.isUnknown token.kind = false :=
    List.forall_mem_append.2
      ⟨htokens, fun token htoken => isUnknown_of_isLineBreak (hbreaks token htoken)⟩
  have hopen : unclosed outer (tokens ++ breaks) = some nest := by
    rw [unclosed_append, hnest, Option.bind_some, unclosed_lineBreaks hbreaks]
  rw [hrest, ← List.append_assoc] at hstart
  refine ⟨state.leads_next.finish ▸ hfinish, ?_⟩
  cases hvisible : state.visible with
  | nil =>
    rw [State.current, hvisible, List.headD_nil, hfinish] at hturn
    cases hturn
    rw [State.next_of_nil hvisible]
    rw [hvisible] at hstart
    exact ⟨_, hstart, hpassed, hopen⟩
  | cons token others =>
    rw [State.current, hvisible, List.headD_cons] at hknown hturn
    rw [State.next_of_cons hvisible]
    refine ⟨tokens ++ breaks ++ [token], ?_, ?_, ?_⟩
    · rw [hstart, hvisible, List.append_assoc _ [token]]
      rfl
    · exact List.forall_mem_append.2 ⟨hpassed, List.forall_mem_singleton.2 hknown⟩
    · rw [unclosed_append, hopen, Option.bind_some, unclosed_cons, hturn]
      rfl

/-- One reading beside itself, from a state inside some brackets on. -/
def Lockstep.alone (start : State) (outer : List Bracket) : Lockstep where
  Holds nest state other := other = state ∧ start.Passed outer nest state
  finish h := h.2.finish
  lineBreaks h := by rw [h.1]
  counting flag h := ⟨by rw [h.1], h.2.finish, h.2.tokens⟩
  kind h _ := by rw [h.1]
  next h _ hknown hturn := ⟨by rw [h.1], h.2.next hknown hturn⟩
  opens h _ _ := by rw [h.1]

/-! ## Whatever is asked of a parser -/

/-- What can be asked of a parser. -/
inductive Request where
  /-- Whatever token comes next. -/
  | advance
  /-- A name. -/
  | name (what : String)
  /-- A word, if it comes next. -/
  | word (text : String)
  /-- An operand. -/
  | operand
  /-- An expression. -/
  | expression (least : Int)
  /-- The parameters of a handler. -/
  | parameterList
  /-- The block that must follow a keyword. -/
  | blockAfter (keyword : String)
  /-- All statements up to the end. -/
  | script

/-- A parser without its result. -/
def discarding {α : Type} (parser : Parser α) : Parser Unit := parser >>= fun _ => pure ()

namespace Request

/-- The parser for a request. -/
def run : Request → Parser Unit
  | .advance => discarding Parser.advance
  | .name what => discarding (takeName what)
  | .word text => discarding (takeWord text)
  | .operand => discarding Parser.operand
  | .expression least => discarding (Parser.expression least)
  | .parameterList => discarding Parser.parameterList
  | .blockAfter keyword => discarding (Parser.blockAfter keyword)
  | .script => discarding Parser.script

/-- Whether a request is for an expression or an operand. -/
def isExpression : Request → Bool
  | .operand | .expression _ => true
  | _ => false

end Request

/-- A parser ended further on, and may have taken a token. -/
inductive Settles (takes : Bool) (state : State) {α : Type} : Result α → Prop where
  /-- With a result. -/
  | done {result : α} {after : State} : state.Leads after →
      (takes = true → after.rest.length < state.rest.length) →
      Settles takes state (.done result after)
  /-- With an error. -/
  | failed {error : SyntaxError} {after : State} : state.Leads after →
      Settles takes state (.failed error after)

theorem Settles.discarding {α : Type} {takes : Bool} {parser : Parser α}
    (h : Settles takes state (parser state)) :
    Settles takes state (discarding parser state) := by
  unfold Parser.discarding
  cases hrun : parser state with
  | done result after =>
    rw [bind_of_done hrun]
    rw [hrun] at h
    cases h with
    | done hleads htakes => exact .done hleads htakes
  | failed error after =>
    rw [bind_of_failed hrun]
    rw [hrun] at h
    cases h with
    | failed hleads => exact .failed hleads
  | outOfFuel =>
    rw [hrun] at h
    cases h

theorem Settles.of_ends {sim : Lockstep} {α : Type} {takes : Bool} {found found' : Result α}
    (h : sim.Ends nest takes state found found') : Settles takes state found := by
  cases h with
  | done hleads htakes _ => exact .done hleads htakes
  | failed hleads _ => exact .failed hleads

/-- Brackets inside which line breaks count, or do not. -/
def bracketsFor (flag : Bool) : List Bracket := if flag then [] else [.group]

theorem breaksCount_bracketsFor (flag : Bool) : breaksCount (bracketsFor flag) = flag := by
  cases flag <;> rfl

/-- What keeps in step with itself settles, whether or not line breaks count. -/
theorem Settles.of_keeps {α : Type} {takes : Bool} {parser : Parser α}
    (hfinish : state.finish.kind = .endOfCode)
    (h : ∀ outer, (Lockstep.alone state outer).Keeps Lockstep.anywhere [] takes state.rest.length
      parser parser) :
    Settles takes state (parser state) :=
  .of_ends (h (bracketsFor state.lineBreaks) _ state state ⟨rfl, .refl hfinish⟩
    (breaksCount_bracketsFor _).symm trivial (Nat.le_refl _))

/-- The fuel taken from a state suffices. -/
theorem Lockstep.grammar_alone (state : State) (outer : List Bracket) :
    (alone state outer).Grammars (grammar state.fuel) (grammar state.fuel) state.rest.length := by
  have hfuel : 2 * state.rest.length + 2 ≤ state.fuel := by
    unfold State.fuel
    omega
  exact grammar_keeps _ hfuel hfuel

theorem Settles.withGrammar {α : Type} {takes : Bool} {parser : Grammar → Parser α}
    (hfinish : state.finish.kind = .endOfCode)
    (h : ∀ outer g, (Lockstep.alone state outer).Grammars g g state.rest.length →
      (Lockstep.alone state outer).Keeps Lockstep.anywhere [] takes state.rest.length (parser g)
        (parser g)) :
    Settles takes state (Parser.withGrammar parser state) := by
  have hsettles : Settles takes state (parser (grammar state.fuel) state) :=
    .of_keeps hfinish fun outer => h outer _ (Lockstep.grammar_alone state outer)
  exact hsettles

/-- Every request settles, whether or not line breaks count. -/
theorem Request.settles (request : Request) (hfinish : state.finish.kind = .endOfCode) :
    Settles request.isExpression state (request.run state) := by
  cases request with
  | advance =>
    refine .discarding ?_
    rw [advance_eq]
    exact .done state.leads_next (by rintro ⟨⟩)
  | name what =>
    exact .discarding (.of_keeps hfinish fun _ => (Lockstep.takeName_keeps what).taking)
  | word text => exact .discarding (.of_keeps hfinish fun _ => Lockstep.takeWord_keeps text)
  | operand => exact .discarding (.withGrammar hfinish fun _ _ hg => hg.operand)
  | expression least =>
    exact .discarding (.withGrammar hfinish fun _ _ hg => hg.expression trivial)
  | parameterList =>
    exact .discarding (.withGrammar hfinish fun _ _ hg => Lockstep.parameters_keeps hg)
  | blockAfter keyword =>
    exact .discarding (.withGrammar hfinish fun _ _ hg => Lockstep.requiredBlock_keeps hg keyword)
  | script =>
    -- a script sets for itself that line breaks count
    have hends := Lockstep.script_ends (Lockstep.grammar_alone state []) ⟨rfl, .refl hfinish⟩
      (Nat.le_refl _)
    exact .discarding (.of_ends hends)

/-- The states of a parser over a source text, whatever it was asked for, whether it failed, and
whether line breaks were to count. -/
inductive Reached (registry : Registry) (source : String) : State → Prop where
  /-- It starts in front of all tokens. -/
  | start : Reached registry source (.ofSource registry source)
  /-- Line breaks are to count from now on, or not. -/
  | counting {state : State} (flag : Bool) : Reached registry source state →
      Reached registry source { state with lineBreaks := flag }
  /-- A request gave a result. -/
  | done {request : Request} {state after : State} : Reached registry source state →
      request.run state = .done () after → Reached registry source after
  /-- A request failed. -/
  | failed {request : Request} {error : SyntaxError} {state after : State} :
      Reached registry source state → request.run state = .failed error after →
      Reached registry source after

variable {registry : Registry} {source : String}

/-- A parser goes forward only. -/
theorem Reached.forward (h : Reached registry source state) :
    state.finish.kind = .endOfCode ∧ state.rest <:+ (State.ofSource registry source).rest := by
  induction h with
  | start => exact ⟨(State.ofSource_faithful registry source).finish, List.suffix_rfl⟩
  | counting flag _ ih => exact ih
  | @done request state after _ hrun ih =>
    have hends := request.settles ih.1
    rw [hrun] at hends
    cases hends with
    | done hleads _ => exact ⟨hleads.finish ▸ ih.1, hleads.rest.trans ih.2⟩
  | @failed request error state after _ hrun ih =>
    have hends := request.settles ih.1
    rw [hrun] at hends
    cases hends with
    | failed hleads => exact ⟨hleads.finish ▸ ih.1, hleads.rest.trans ih.2⟩

/-- Whatever a parser was asked for before, every request ends with a result or an error.  The
parser does not go back, nor beyond the end, and line breaks count as before.  An operand or an
expression takes a token at least. -/
theorem Reached.run_ends (h : Reached registry source state) (request : Request) :
    ((∃ after, request.run state = .done () after ∧
        (request.isExpression = true → after.rest.length < state.rest.length) ∧
        state.Leads after) ∨
      ∃ error after, request.run state = .failed error after ∧ state.Leads after) ∧
    state.rest <:+ (State.ofSource registry source).rest := by
  obtain ⟨hfinish, hforward⟩ := h.forward
  refine ⟨?_, hforward⟩
  have hends := request.settles hfinish
  cases hrun : request.run state with
  | done result after =>
    rw [hrun] at hends
    cases hends with
    | done hmore htakes => exact .inl ⟨after, rfl, htakes, hmore⟩
  | failed error after =>
    rw [hrun] at hends
    cases hends with
    | failed hmore => exact .inr ⟨error, after, rfl, hmore⟩
  | outOfFuel =>
    rw [hrun] at hends
    cases hends

/-- An expression may be asked for that the end of the code would continue. -/
theorem Reached.run_ends_below_end :
    Reached .empty "[a" (.ofSource .empty "[a") ∧
      ((∃ after, (Request.expression (-20000)).run (.ofSource .empty "[a") = .done () after ∧
          ((Request.expression (-20000)).isExpression = true →
            after.rest.length < (State.ofSource .empty "[a").rest.length) ∧
          (State.ofSource .empty "[a").Leads after) ∨
        ∃ error after, (Request.expression (-20000)).run (.ofSource .empty "[a") =
          .failed error after ∧ (State.ofSource .empty "[a").Leads after) ∧
      (State.ofSource .empty "[a").rest <:+ (State.ofSource .empty "[a").rest :=
  ⟨.start, Reached.run_ends .start (.expression (-20000))⟩

end Parser

/-! ## Scripts that are read -/

open CommandScript.Parser

variable {registry : Registry} {source : String}

/-- Everything is passed when a script is read. -/
theorem Parser.State.passed_of_readScript {statements : List Value}
    (h : readScript registry source = .ok statements) :
    (∀ token ∈ (State.ofSource registry source).rest, Lexer.isUnknown token.kind = false) ∧
      unclosed [] (State.ofSource registry source).rest = some [] := by
  obtain ⟨after, hrun⟩ := readScript_eq_ok.1 h
  have hfaithful := State.ofSource_faithful registry source
  have hg := Lockstep.grammar_alone (State.ofSource registry source) []
  have hloop : (Lockstep.alone (State.ofSource registry source) []).Keeps Lockstep.anywhere [] false
      _ (statementsLoop (grammar (State.ofSource registry source).fuel) .code
        (State.ofSource registry source).fuel) _ :=
    Lockstep.statementsLoop_keeps hg .code hg.rounds.1 hg.rounds.2
  have hends := hloop [] _ _ ⟨rfl, .refl hfaithful.finish⟩ rfl trivial (Nat.le_refl _)
  rw [hrun] at hends
  obtain ⟨-, -, -, -, tokens, htokens, hpassed⟩ := hends.of_done
  rw [statementsLoop_rest hfaithful rfl hrun, List.append_nil] at htokens
  rwa [htokens]

/-- In a script that is read every token can be read, and the brackets nest: every closer fits the
innermost bracket that is open, and none is left open at the end. -/
theorem readScript_nests {statements : List Value}
    (h : readScript registry source = .ok statements) :
    (∀ token ∈ tokenize registry source, Lexer.isUnknown token.kind = false) ∧
      unclosed [] (tokenize registry source) = some [] := by
  obtain ⟨hknown, hnest⟩ := State.passed_of_readScript h
  obtain ⟨tokens, mark, htokens, hmark, -⟩ :=
    Lexer.tokensFrom_faithful registry 0 false source.toList
  rw [State.ofSource_eq htokens] at hknown hnest
  rw [tokenize, htokens]
  constructor
  · refine List.forall_mem_cons.2 ⟨rfl, List.forall_mem_append.2 ⟨fun token htoken => ?_, ?_⟩⟩
    · cases htrivia : token.kind.isTrivia with
      | false => exact hknown token (List.mem_filter.2 ⟨htoken, by rw [htrivia]; rfl⟩)
      | true =>
        cases hkind : token.kind with
        | unknown problem =>
          rw [hkind] at htrivia
          cases htrivia
        | _ => rfl
    · exact List.forall_mem_singleton.2 (by rw [hmark]; rfl)
  · calc unclosed [] (⟨.startOfCode, ⟨0, 0⟩⟩ :: (tokens ++ [mark]))
      _ = (unclosed [] tokens).bind fun nest => unclosed nest [mark] := unclosed_append ..
      _ = unclosed [] [mark] := by rw [← unclosed_meaningful, hnest, Option.bind_some]
      _ = some [] := by rw [unclosed_cons, hmark]; rfl

/-- Brackets of all kinds, with a bracket in a text and one in a note. -/
theorem readScript_nests_mixed :
    ∃ statements, readScript .empty "f(a, [“)”: \x7bb; «]»c\x7d])" = .ok statements ∧
      (∀ token ∈ tokenize .empty "f(a, [“)”: \x7bb; «]»c\x7d])",
        Lexer.isUnknown token.kind = false) ∧
      unclosed [] (tokenize .empty "f(a, [“)”: \x7bb; «]»c\x7d])") = some [] := by
  obtain ⟨statements, hread, -⟩ :=
    exists_ok (show (readScript .empty "f(a, [“)”: \x7bb; «]»c\x7d])").toOption.any
      (fun _ => true) = true by decide +kernel)
  exact ⟨statements, hread, readScript_nests hread⟩

end CommandScript
