import CommandScript.Parser

/-!
# Parsers step by step

What a parser gives, said as an equation: what a sequence of parsers gives if it gives a result, and
what the rules that look at the next token do for each token.
-/

namespace CommandScript.Parser

/-- A sequence that is done was done in both parts. -/
theorem bind_eq_done {α β : Type} {first : Parser α} {next : α → Parser β} {state after : State}
    {result : β} (h : (first >>= next) state = .done result after) :
    ∃ value middle, first state = .done value middle ∧ next value middle = .done result after := by
  cases hfirst : first state with
  | done value middle => exact ⟨value, middle, rfl, by simpa [Bind.bind, hfirst] using h⟩
  | failed error middle => simp [Bind.bind, hfirst] at h
  | outOfFuel => simp [Bind.bind, hfirst] at h

/-- A sequence goes on with what its first part returned. -/
theorem bind_of_done {α β : Type} {first : Parser α} {next : α → Parser β} {state middle : State}
    {value : α} (h : first state = .done value middle) :
    (first >>= next) state = next value middle := by
  simp [Bind.bind, h]

/-- A sequence fails where its first part fails. -/
theorem bind_of_failed {α β : Type} {first : Parser α} {next : α → Parser β} {state middle : State}
    {error : SyntaxError} (h : first state = .failed error middle) :
    (first >>= next) state = .failed error middle := by
  simp [Bind.bind, h]

/-- Looking at the next token takes nothing. -/
theorem nextKind_eq (state : State) : nextKind state = .done state.current.kind state := rfl

theorem touchesLast_eq (state : State) :
    touchesLast state = .done (state.current.span.start == state.lastStop) state :=
  rfl

theorem lastStop_eq (state : State) : lastStop state = .done state.lastStop state := rfl

/-- The token that is read is the one that was seen. -/
theorem advance_current (state : State) : ∃ after, advance state = .done state.current after := by
  unfold advance State.current
  cases state.visible with
  | nil => exact ⟨_, rfl⟩
  | cons token rest => exact ⟨_, rfl⟩

/-- A state behind one of its tokens. -/
def State.behind (state : State) (token : Token) (others : List Token) : State :=
  { state with rest := others, lastStop := token.span.stop }

/-- While line breaks count, the next token is the first that is left. -/
theorem State.current_eq_headD {state : State} (h : state.lineBreaks = true) :
    state.current = state.rest.headD state.finish := by
  simp [State.current, State.visible, h]

/-- Where line breaks count, the first token that is left is the next one. -/
theorem advance_cons {state : State} {token : Token} {others : List Token}
    (h : state.lineBreaks = true) (hrest : state.rest = token :: others) :
    advance state = .done token (state.behind token others) := by
  simp [advance, State.visible, h, hrest, State.behind]

/-- A fixed token is taken if it is there, and missed otherwise. -/
theorem expect_eq (test : TokenKind → Bool) (what : String) (state : State) :
    expect test what state =
      if test state.current.kind then advance state else expected what state := by
  change (if test state.current.kind then advance else expected what) state = _
  split <;> rfl

/-- A token that is asked for is read, and reading goes on behind it. -/
theorem expect_bind {α : Type} (test : TokenKind → Bool) (what : String) (next : Token → Parser α) :
    (expect test what >>= next) =
      nextKind >>= fun kind => if test kind then advance >>= next else expected what := by
  funext state
  rw [bind_of_done (nextKind_eq state)]
  by_cases htest : test state.current.kind = true
  · obtain ⟨after, hread⟩ := advance_current state
    have hexpect : expect test what state = .done state.current after := by
      rw [expect_eq, if_pos htest, hread]
    rw [if_pos htest, bind_of_done hexpect, bind_of_done hread]
  · have hexpect : expect test what state = .failed (state.error what) state := by
      rw [expect_eq, if_neg htest]
      rfl
    rw [if_neg htest, bind_of_failed hexpect]
    rfl

/-- Separators are skipped one by one. -/
theorem skipSeparators_succ (fuel : Nat) (state : State) :
    skipSeparators (fuel + 1) state =
      if isSeparator state.current.kind then (advance >>= fun _ => skipSeparators fuel) state
      else .done () state := by
  change (if isSeparator state.current.kind then _ else _ : Parser Unit) state = _
  split <;> rfl

/-! ## The tokens of a source text -/

/-- The tokens that mean something. -/
def meaningful (tokens : List Token) : List Token :=
  tokens.filter fun token => !token.kind.isTrivia

@[simp] theorem meaningful_nil : meaningful [] = [] := rfl

@[simp] theorem meaningful_append (tokens others : List Token) :
    meaningful (tokens ++ others) = meaningful tokens ++ meaningful others :=
  List.filter_append ..

/-- A token that means something stays. -/
theorem meaningful_cons {token : Token} (h : token.kind.isTrivia = false) (others : List Token) :
    meaningful (token :: others) = token :: meaningful others :=
  List.filter_cons_of_pos (by rw [h]; rfl)

theorem meaningful_cons_trivia {token : Token} (h : token.kind.isTrivia = true)
    (others : List Token) : meaningful (token :: others) = meaningful others :=
  List.filter_cons_of_neg (by rw [h]; simp)

/-- The state of a source text by its tokens. -/
theorem State.ofSource_eq {registry : Registry} {source : String} {tokens : List Token}
    {finish : Token}
    (h : Lexer.tokensFrom registry 0 false source.toList = tokens ++ [finish]) :
    State.ofSource registry source = ⟨meaningful tokens, finish, 0, true⟩ := by
  simp [State.ofSource, h, meaningful]

/-- A source text is read as what the parser gives from its start. -/
theorem runOn_eq_ok_iff {α : Type} {parser : Parser α} {registry : Registry} {source : String}
    {result : α} : runOn parser registry source = .ok result ↔
      ∃ after, parser (State.ofSource registry source) = .done result after := by
  unfold runOn
  dsimp only
  cases parser (State.ofSource registry source) with
  | done found after => simp
  | failed error after => simp
  | outOfFuel => simp

/-! ## Names -/

/-- Whether a parenthesis follows the last token without a blank. -/
def State.OpensArguments (state : State) : Prop :=
  state.current.kind = .groupOpen ∧ state.current.span.start = state.lastStop

variable {g : Grammar} {name : String} {state : State}

/-- A name that a parenthesis touches is called with what is between the parentheses. -/
theorem nameOrCommand_opened (h : state.OpensArguments) :
    nameOrCommand g name state =
      (do
        let _ ← advance
        let found ← arguments g
        return Value.command (.ofValues (.ofString name) found)) state := by
  obtain ⟨hkind, htouches⟩ := h
  rw [nameOrCommand, bind_of_done (nextKind_eq state), bind_of_done (touchesLast_eq state)]
  rw [hkind, htouches, beq_self_eq_true]

/-- The argument of a name that stands alone or before its one argument. -/
def loneArgument (g : Grammar) (name : String) (kind : TokenKind) : Parser Value :=
  if startsArgument kind then do
    let argument ← g.operand
    return .command (.ofValues (.ofString name) [argument])
  else
    return .identifier (.ofString name)

/-- Any other name has at most one argument, told by the kind of the next token. -/
theorem nameOrCommand_alone (h : ¬ state.OpensArguments) :
    nameOrCommand g name state = loneArgument g name state.current.kind state := by
  rw [nameOrCommand, bind_of_done (nextKind_eq state), bind_of_done (touchesLast_eq state)]
  cases htouches : state.current.span.start == state.lastStop with
  | false =>
    cases hkind : state.current.kind with
    | _ => rfl
  | true =>
    cases hkind : state.current.kind with
    | groupOpen => exact absurd ⟨hkind, beq_iff_eq.1 htouches⟩ h
    | _ => rfl

end CommandScript.Parser
