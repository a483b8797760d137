import CommandScript.Library.Operators
import CommandScript.Proofs.Lockstep
import CommandScript.Proofs.Registration
import CommandScript.Proofs.Rescanning

/-!
# Line breaks inside brackets

Inside parentheses and square brackets line breaks are passed over.  So a line break there may as
well not be there, and a blank may stand in its place.  What a parser sees is the same in both
readings, until the line break is passed and all the rest is the same too.

That the innermost bracket at the line break is a parenthesis or a square bracket is told by the
tokens in front of it.  While the parser reads them it keeps the same brackets open, and at the line
break its setting is the one for the innermost of them.
-/

namespace CommandScript

namespace Parser

/-! ## Readings with and without a line break -/

/-- Some tokens, and the same without a line break at a place where line breaks do not count. -/
inductive Drops (nest : List Bracket) : List Token → List Token → Prop where
  /-- The line break is passed. -/
  | passed (tokens : List Token) : Drops nest tokens tokens
  /-- The line break is still to come. -/
  | ahead {front back : List Token} {mark : Token} : mark.kind = .lineBreak →
      (∀ inner, unclosed nest front = some inner → breaksCount inner = false) →
      Drops nest (front ++ mark :: back) (front ++ back)

variable {nest nest' : List Bracket} {state : State} {tokens tokens' : List Token}

/-- Behind a token that is passed the brackets at the line break are the same. -/
theorem inside_cons {token : Token} {front : List Token}
    (hinside : ∀ inner, unclosed nest (token :: front) = some inner → breaksCount inner = false)
    (hturn : token.kind.turn nest = some nest') :
    ∀ inner, unclosed nest' front = some inner → breaksCount inner = false := by
  intro inner hinner
  refine hinside inner ?_
  rw [unclosed_cons, hturn, Option.bind_some, hinner]

theorem Drops.length_le (h : Drops nest tokens tokens') :
    tokens.length ≤ tokens'.length + 1 := by
  cases h with
  | passed => exact Nat.le_succ _
  | ahead => simp only [List.length_append, List.length_cons]; omega

/-- Where line breaks count, both have the same next token. -/
theorem Drops.cons (h : Drops nest tokens tokens') (hcount : breaksCount nest = true) :
    tokens = tokens' ∨ ∃ token others others', tokens = token :: others ∧
      tokens' = token :: others' ∧
      ∀ nest', token.kind.turn nest = some nest' → Drops nest' others others' := by
  cases h with
  | passed => exact .inl rfl
  | @ahead front back mark hmark hinside =>
    cases front with
    | nil =>
      -- the line break would come next, but it stands where line breaks do not count
      rw [hinside nest rfl] at hcount
      cases hcount
    | cons token front =>
      exact .inr ⟨token, _, _, rfl, rfl, fun nest' hturn => .ahead hmark (inside_cons hinside hturn)⟩

/-- What is left behind line breaks. -/
def passBreaks (tokens : List Token) : List Token :=
  tokens.dropWhile fun token => token.kind.isLineBreak

theorem passBreaks_break {token : Token} (h : token.kind.isLineBreak = true)
    (others : List Token) : passBreaks (token :: others) = passBreaks others := by
  simp [passBreaks, h]

theorem passBreaks_cons {token : Token} (h : token.kind.isLineBreak = false)
    (others : List Token) : passBreaks (token :: others) = token :: others := by
  simp [passBreaks, h]

/-- Where line breaks do not count, both have the same next token behind them. -/
theorem Drops.passBreaks (h : Drops nest tokens tokens') :
    passBreaks tokens = passBreaks tokens' ∨
      ∃ token others others', passBreaks tokens = token :: others ∧
        passBreaks tokens' = token :: others' ∧
        ∀ nest', token.kind.turn nest = some nest' → Drops nest' others others' := by
  cases h with
  | passed => exact .inl rfl
  | @ahead front back mark hmark hinside =>
    induction front with
    | nil => exact .inl (passBreaks_break (by rw [hmark]; rfl) back)
    | cons token front ih =>
      rw [List.cons_append, List.cons_append]
      cases hbreak : token.kind.isLineBreak with
      | true =>
        rw [passBreaks_break hbreak, passBreaks_break hbreak]
        exact ih (inside_cons hinside (turn_of_isLineBreak hbreak))
      | false =>
        exact .inr ⟨token, _, _, passBreaks_cons hbreak _, passBreaks_cons hbreak _,
          fun nest' hturn => .ahead hmark (inside_cons hinside hturn)⟩

/-- A state in front of other tokens. -/
def State.before (state : State) (tokens : List Token) : State := { state with rest := tokens }

/-- What is seen of the tokens. -/
theorem Drops.visible (h : Drops nest state.rest tokens)
    (hcount : state.lineBreaks = breaksCount nest) :
    state.visible = (state.before tokens).visible ∨
      ∃ token others others', state.visible = token :: others ∧
        (state.before tokens).visible = token :: others' ∧
        ∀ nest', token.kind.turn nest = some nest' → Drops nest' others others' := by
  unfold State.visible State.before
  cases hflag : state.lineBreaks with
  | true => exact h.cons (hcount.symm.trans hflag)
  | false => exact h.passBreaks

theorem Drops.current (h : Drops nest state.rest tokens)
    (hcount : state.lineBreaks = breaksCount nest) :
    (state.before tokens).current = state.current := by
  unfold State.current
  rcases h.visible hcount with hsame | ⟨token, others, others', hvisible, hvisible', -⟩
  · rw [← hsame]
    rfl
  · rw [hvisible, hvisible']
    rfl

/-- Behind the next token the readings are as before. -/
theorem Drops.next (h : Drops nest state.rest tokens)
    (hcount : state.lineBreaks = breaksCount nest)
    (hturn : state.current.kind.turn nest = some nest') :
    ∃ tokens', (state.before tokens).next = state.next.before tokens' ∧
      Drops nest' state.next.rest tokens' := by
  rcases h.visible hcount with hsame | ⟨token, others, others', hvisible, hvisible', hothers⟩
  · refine ⟨state.next.rest, ?_, .passed _⟩
    unfold State.next
    rw [← hsame]
    cases state.visible with
    | nil => rfl
    | cons token others => rfl
  · rw [State.next_of_cons hvisible, State.next_of_cons hvisible']
    rw [State.current, hvisible, List.headD_cons] at hturn
    exact ⟨others', rfl, hothers nest' hturn⟩

/-- One reading, and another without a line break. -/
def Lockstep.dropping : Lockstep where
  Holds nest state other := state.finish.kind = .endOfCode ∧
    ∃ tokens, other = state.before tokens ∧ Drops nest state.rest tokens
  finish h := h.1
  lineBreaks := by
    rintro _ _ _ ⟨-, tokens, rfl, -⟩
    rfl
  counting := by
    rintro _ _ _ flag ⟨hfinish, tokens, rfl, hdrops⟩
    exact ⟨hfinish, tokens, rfl, hdrops⟩
  kind := by
    rintro _ _ _ ⟨-, tokens, rfl, hdrops⟩ hcount
    rw [hdrops.current hcount]
  next := by
    rintro _ _ state _ ⟨hfinish, tokens, rfl, hdrops⟩ hcount - hturn
    obtain ⟨tokens', hnext, hdrops'⟩ := hdrops.next hcount hturn
    exact ⟨state.leads_next.finish ▸ hfinish, tokens', hnext, hdrops'⟩
  opens := by
    rintro nest state _ name quoted ⟨-, tokens, rfl, hdrops⟩ hcount hkind
    have hturn : state.current.kind.turn nest = some nest := by rw [hkind]; rfl
    obtain ⟨tokens', hnext, hdrops'⟩ := hdrops.next hcount hturn
    have hcurrent := hdrops'.current (state.leads_next.lineBreaks.trans hcount)
    rw [hnext, State.OpensArguments, State.OpensArguments, hcurrent]
    rfl

end Parser

/-! ## Scripts with and without a line break -/

open CommandScript.Parser CommandScript.Lexer

variable {registry : Registry} {source : String} {before after : List Lexeme}

/-- A script with a line feed inside brackets, and the same with a blank instead. -/
theorem Lexer.dropping_lineFeed (hregular : registry.Regular)
    (hlexemes : lexemesFrom registry false source.toList = before ++ lineFeed :: after)
    (hopen : ∀ lexeme ∈ before.getLast?, ∀ name, lexeme.kind ≠ .unknown (.openName name))
    (hsign : operandEnds false before = true → startsSigned (textOf (skipTrivia after)) = false)
    (hinside : ∀ inner, unclosed [] (placeFrom 0 before) = some inner →
      breaksCount inner = false) :
    Lockstep.dropping.Holds [] (State.ofSource registry source)
      (State.ofSource registry (String.ofList (textOf before ++ ' ' :: textOf after))) := by
  obtain ⟨mark, back, hmark, hold, hnew⟩ := exists_lineFeed hregular hlexemes hopen hsign 0
  obtain ⟨tokens, finish, htokens, hfinish, -⟩ :=
    tokensFrom_faithful registry 0 false source.toList
  obtain ⟨tokens', finish', htokens', hfinish', -⟩ :=
    tokensFrom_faithful registry 0 false (textOf before ++ ' ' :: textOf after)
  have hend {mark : Token} (h : mark.kind = .endOfCode) (tokens : List Token) :
      meaningful (tokens ++ [mark]) = meaningful tokens ++ [mark] := by
    rw [meaningful_append, meaningful_cons (by rw [h]; rfl), meaningful_nil]
  rw [htokens, hend hfinish] at hold
  rw [htokens', hend hfinish'] at hnew
  rw [← String.toList_ofList (l := textOf before ++ ' ' :: textOf after)] at htokens'
  rw [State.ofSource_eq htokens, State.ofSource_eq htokens']
  rcases List.eq_nil_or_concat back with rfl | ⟨back, last, rfl⟩
  · obtain ⟨-, hlast⟩ := List.append_inj' hold rfl
    cases hlast
    rw [hfinish] at hmark
    cases hmark
  · rw [List.concat_eq_append, ← List.cons_append, ← List.append_assoc] at hold
    rw [List.concat_eq_append, ← List.append_assoc] at hnew
    obtain ⟨hrest, hlast⟩ := List.append_inj' hold rfl
    obtain ⟨hrest', hlast'⟩ := List.append_inj' hnew rfl
    cases hlast
    cases hlast'
    refine ⟨hfinish, meaningful tokens', rfl, ?_⟩
    rw [hrest, hrest']
    refine .ahead hmark fun inner hinner => hinside inner ?_
    rwa [unclosed_meaningful] at hinner

/-- A blank may stand for a line feed inside parentheses or square brackets: both scripts are read
alike.  In front of the line feed there must be no quoted name without its quote.  And if an operand
may end there, no sign and digit may come next. -/
theorem readScript_lineFeed {ops : List Operator}
    (hregistry : Registry.empty.addAll ops = .ok registry)
    (hlexemes : lexemesFrom registry false source.toList = before ++ lineFeed :: after)
    (hinside : ∀ inner, unclosed [] (placeFrom 0 before) = some inner →
      breaksCount inner = false)
    (hopen : ∀ lexeme ∈ before.getLast?, ∀ name, lexeme.kind ≠ .unknown (.openName name))
    (hsign : operandEnds false before = true →
      startsSigned (textOf (skipTrivia after)) = false) :
    SameReading (readScript registry source)
      (readScript registry (String.ofList (textOf before ++ ' ' :: textOf after))) := by
  have hholds := dropping_lineFeed (Registry.registers_of_addAll hregistry).regular hlexemes hopen
    hsign hinside
  refine Lockstep.dropping.readScript_same hholds ?_
  obtain ⟨-, tokens, hother, hdrops⟩ := hholds
  rw [hother]
  exact hdrops.length_le.trans (Nat.add_le_add_left (by decide) _)

/-- A name in front of a parenthesis on the next line, inside another. -/
theorem readScript_lineFeed_apart :
    ∃ before after,
      Registry.empty.addAll [] = .ok .empty ∧
      lexemesFrom .empty false "(f\n(x))".toList = before ++ lineFeed :: after ∧
      (∀ inner, unclosed [] (placeFrom 0 before) = some inner → breaksCount inner = false) ∧
      (∀ lexeme ∈ before.getLast?, ∀ name, lexeme.kind ≠ .unknown (.openName name)) ∧
      (operandEnds false before = true → startsSigned (textOf (skipTrivia after)) = false) ∧
      SameReading (readScript .empty "(f\n(x))")
        (readScript .empty (String.ofList (textOf before ++ ' ' :: textOf after))) := by
  have hregistry : Registry.empty.addAll [] = .ok .empty := rfl
  have hlexemes : lexemesFrom .empty false "(f\n(x))".toList =
      [⟨.groupOpen, ['(']⟩, ⟨.identifier "f" false, ['f']⟩] ++ lineFeed ::
        [⟨.groupOpen, ['(']⟩, ⟨.identifier "x" false, ['x']⟩, ⟨.groupClose, [')']⟩,
          ⟨.groupClose, [')']⟩] :=
    lexemesFrom_step rfl (lexemesFrom_step rfl (lexemesFrom_step rfl (lexemesFrom_step rfl
      (lexemesFrom_step rfl (lexemesFrom_step rfl (lexemesFrom_step rfl lexemesFrom_nil))))))
  have hinside : ∀ inner, unclosed [] (placeFrom 0 [⟨.groupOpen, ['(']⟩,
      ⟨.identifier "f" false, ['f']⟩]) = some inner → breaksCount inner = false := by
    rintro _ ⟨⟩
    rfl
  have hopen : ∀ lexeme ∈
      [⟨.groupOpen, ['(']⟩, (⟨.identifier "f" false, ['f']⟩ : Lexeme)].getLast?,
      ∀ name, lexeme.kind ≠ .unknown (.openName name) := by
    rintro _ ⟨⟩ _ ⟨⟩
  exact ⟨_, _, hregistry, hlexemes, hinside, hopen, fun _ => rfl,
    readScript_lineFeed hregistry hlexemes hinside hopen fun _ => rfl⟩

/-- A blank may not stand for every line feed inside brackets.  A sign on the next line belongs to
its number, and a quoted name does not go on there. -/
theorem lineFeed_counts_inside :
    ∃ registry, Library.registry = .ok registry ∧
      (∃ before after,
        lexemesFrom registry false "[1\n-2]".toList = before ++ lineFeed :: after ∧
        String.ofList (textOf before ++ ' ' :: textOf after) = "[1 -2]" ∧
        unclosed [] (placeFrom 0 before) = some [.list] ∧
        (readScript registry "[1\n-2]").toOption.isSome = false ∧
        (readScript registry "[1 -2]").toOption.isSome = true) ∧
      ∃ before after,
        lexemesFrom registry false "('abc\n')".toList = before ++ lineFeed :: after ∧
        String.ofList (textOf before ++ ' ' :: textOf after) = "('abc ')" ∧
        unclosed [] (placeFrom 0 before) = some [.group] ∧
        (readScript registry "('abc\n')").toOption.isSome = false ∧
        (readScript registry "('abc ')").toOption.isSome = true := by
  obtain ⟨registry, hregistry, htest⟩ := exists_ok (show Library.registry.toOption.any
    (fun registry => !(readScript registry "[1\n-2]").toOption.isSome &&
      (readScript registry "[1 -2]").toOption.isSome &&
      !(readScript registry "('abc\n')").toOption.isSome &&
      (readScript registry "('abc ')").toOption.isSome) = true by decide +kernel)
  simp only [Bool.and_eq_true, Bool.not_eq_true'] at htest
  obtain ⟨⟨⟨hsign, hsign'⟩, hname⟩, hname'⟩ := htest
  have hsigned : lexemesFrom registry false "[1\n-2]".toList =
      [⟨.listOpen, ['[']⟩, ⟨.number "1" (.integer 1 10), ['1']⟩] ++ lineFeed ::
        [⟨.number "-2" (.integer (-2) 10), ['-', '2']⟩, ⟨.listClose, [']']⟩] :=
    lexemesFrom_step rfl (lexemesFrom_step rfl (lexemesFrom_step rfl (lexemesFrom_step rfl
      (lexemesFrom_step rfl lexemesFrom_nil))))
  have hquoted : lexemesFrom registry false "('abc\n')".toList =
      [⟨.groupOpen, ['(']⟩, ⟨.unknown (.openName "abc"), ['\x27', 'a', 'b', 'c']⟩] ++ lineFeed ::
        [⟨.unknown (.openName ")"), ['\x27', ')']⟩] :=
    lexemesFrom_step rfl (lexemesFrom_step rfl (lexemesFrom_step rfl (lexemesFrom_step rfl
      lexemesFrom_nil)))
  exact ⟨registry, hregistry, ⟨_, _, hsigned, rfl, rfl, hsign, hsign'⟩,
    ⟨_, _, hquoted, rfl, rfl, hname, hname'⟩⟩

end CommandScript
