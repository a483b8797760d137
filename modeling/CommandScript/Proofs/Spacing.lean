import CommandScript.Proofs.Lexemes
import CommandScript.Proofs.LineBreaks

/-!
# Blanks and annotations

Blanks and annotations mean nothing.  A script is read by the kinds of the tokens between them, and
where a token stands only matters for the place of an error.  There is one exception: a parenthesis
behind a name opens its arguments if the two touch.  So two texts with the same tokens are read
alike, if a parenthesis touches a name in both or in neither.

Inside brackets line breaks are passed over, so a parenthesis may follow a name on another line.  A
line break takes a byte at least, so the two do not touch.  But the offsets of a span are cut, and in
a text that is too long for them tokens may seem to touch that are lines apart.
-/

namespace CommandScript

/-- The second token starts where the first one stops. -/
def Token.Touches (first second : Token) : Prop := second.span.start = first.span.stop

/-- Wherever a parenthesis comes directly behind a name, the two touch in both texts or in
neither. -/
def SameTouches : List Token → List Token → Prop
  | name :: paren :: rest, name' :: paren' :: rest' =>
    ((∃ word quoted, name.kind = .identifier word quoted) → paren.kind = .groupOpen →
      (name.Touches paren ↔ name'.Touches paren')) ∧
    SameTouches (paren :: rest) (paren' :: rest')
  | _, _ => True

/-- The tokens that are no line breaks. -/
def unbroken (tokens : List Token) : List Token :=
  tokens.filter fun token => !token.kind.isLineBreak

open CommandScript.Parser

variable {first first' : Token} {tokens tokens' : List Token}

/-! ## Lists of tokens -/

theorem unbroken_break (h : first.kind.isLineBreak = true) (tokens : List Token) :
    unbroken (first :: tokens) = unbroken tokens :=
  List.filter_cons_of_neg (by rw [h]; simp)

theorem unbroken_cons (h : first.kind.isLineBreak = false) (tokens : List Token) :
    unbroken (first :: tokens) = first :: unbroken tokens :=
  List.filter_cons_of_pos (by rw [h]; rfl)

theorem map_kind_unbroken (tokens : List Token) :
    (unbroken tokens).map Token.kind =
      (tokens.map Token.kind).filter fun kind => !kind.isLineBreak := by
  rw [List.filter_map]
  rfl

theorem unbroken_passBreaks (tokens : List Token) :
    unbroken (passBreaks tokens) = unbroken tokens := by
  induction tokens with
  | nil => rfl
  | cons token tokens ih =>
    cases hbreak : token.kind.isLineBreak with
    | true => rw [passBreaks_break hbreak, unbroken_break hbreak, ih]
    | false => rw [passBreaks_cons hbreak]

theorem sameTouches_nil : SameTouches [] tokens' := by
  simp [SameTouches]

theorem SameTouches.tail (h : SameTouches (first :: tokens) (first' :: tokens')) :
    SameTouches tokens tokens' := by
  cases tokens with
  | nil => exact sameTouches_nil
  | cons paren rest =>
    cases tokens' with
    | nil => simp [SameTouches]
    | cons paren' rest' => exact h.2

/-- All that is asked of the first tokens is about the next ones. -/
theorem SameTouches.cons (h : SameTouches tokens tokens')
    (hfirst : (∃ word quoted, first.kind = .identifier word quoted) →
      ∀ paren ∈ tokens.head?, ∀ paren' ∈ tokens'.head?, paren.kind = .groupOpen →
        (first.Touches paren ↔ first'.Touches paren')) :
    SameTouches (first :: tokens) (first' :: tokens') := by
  cases tokens with
  | nil => simp [SameTouches]
  | cons paren rest =>
    cases tokens' with
    | nil => simp [SameTouches]
    | cons paren' rest' => exact ⟨fun hname => hfirst hname paren rfl paren' rfl, h⟩

/-- The tokens in front can be told apart from those behind. -/
theorem SameTouches.of_append {back back' : List Token}
    (h : SameTouches (tokens ++ back) (tokens' ++ back'))
    (hlength : tokens.length = tokens'.length) : SameTouches tokens tokens' := by
  induction tokens generalizing tokens' with
  | nil => exact sameTouches_nil
  | cons token tokens ih =>
    cases tokens' with
    | nil => cases hlength
    | cons token' tokens' =>
      have htail := ih h.tail (Nat.succ.inj hlength)
      cases tokens with
      | nil => simp [SameTouches]
      | cons paren rest =>
        cases tokens' with
        | nil => simp [SameTouches]
        | cons paren' rest' => exact ⟨h.1, htail⟩

namespace Parser

variable {state other : State}

/-- Two texts by their tokens: the kinds are the same, and so are the parentheses that touch a name,
whether line breaks count or not. -/
structure SameSpacing (tokens tokens' : List Token) : Prop where
  /-- The tokens have the same kinds. -/
  kinds : tokens.map Token.kind = tokens'.map Token.kind
  /-- A parenthesis behind a name touches it in both or in neither. -/
  touches : SameTouches tokens tokens'
  /-- So does a parenthesis behind a name and line breaks. -/
  unbroken : SameTouches (unbroken tokens) (unbroken tokens')

theorem SameSpacing.kind (h : SameSpacing (first :: tokens) (first' :: tokens')) :
    first.kind = first'.kind :=
  (List.cons.inj h.kinds).1

theorem SameSpacing.tail (h : SameSpacing (first :: tokens) (first' :: tokens')) :
    SameSpacing tokens tokens' := by
  have hunbroken := h.unbroken
  refine ⟨(List.cons.inj h.kinds).2, h.touches.tail, ?_⟩
  cases hbreak : first.kind.isLineBreak with
  | true =>
    rwa [unbroken_break hbreak, unbroken_break (h.kind ▸ hbreak)] at hunbroken
  | false =>
    rw [unbroken_cons hbreak, unbroken_cons (h.kind ▸ hbreak)] at hunbroken
    exact hunbroken.tail

/-- Both have a next token, or neither has. -/
theorem SameSpacing.cases (h : SameSpacing tokens tokens') :
    (tokens = [] ∧ tokens' = []) ∨ ∃ token others token' others',
      tokens = token :: others ∧ tokens' = token' :: others' := by
  cases tokens with
  | nil => exact .inl ⟨rfl, (List.map_eq_nil_iff.1 h.kinds.symm)⟩
  | cons token others =>
    obtain ⟨token', others', htokens', -⟩ := List.map_eq_cons_iff.1 h.kinds.symm
    exact .inr ⟨token, others, token', others', rfl, htokens'⟩

theorem SameSpacing.passBreaks (h : SameSpacing tokens tokens') :
    SameSpacing (passBreaks tokens) (passBreaks tokens') := by
  induction tokens generalizing tokens' with
  | nil =>
    rcases h.cases with ⟨-, rfl⟩ | ⟨_, _, _, _, ⟨⟩, -⟩
    exact h
  | cons token tokens ih =>
    rcases h.cases with ⟨⟨⟩, -⟩ | ⟨_, _, token', others', ⟨⟩, rfl⟩
    cases hbreak : token.kind.isLineBreak with
    | true =>
      rw [passBreaks_break hbreak, passBreaks_break (h.kind ▸ hbreak)]
      exact ih h.tail
    | false =>
      rw [passBreaks_cons hbreak, passBreaks_cons (h.kind ▸ hbreak)]
      exact h

/-! ## Readings of two texts -/

/-- What is seen of the tokens is spaced alike. -/
theorem SameSpacing.visible (h : SameSpacing state.rest other.rest)
    (hcount : other.lineBreaks = state.lineBreaks) :
    SameSpacing state.visible other.visible := by
  unfold State.visible
  rw [hcount]
  split
  next => exact h
  next => exact h.passBreaks

/-- A parenthesis that is seen behind a name touches it in both texts or in neither. -/
theorem SameSpacing.touches_visible {word : String} {quoted : Bool}
    (h : SameSpacing (first :: state.rest) (first' :: other.rest))
    (hname : first.kind = .identifier word quoted)
    (hcount : other.lineBreaks = state.lineBreaks) :
    SameTouches (first :: state.visible) (first' :: other.visible) := by
  unfold State.visible
  rw [hcount]
  split
  next => exact h.touches
  next =>
    -- what is seen behind line breaks comes next where there are none
    have hunbroken := h.unbroken
    rw [unbroken_cons (by rw [hname]; rfl), unbroken_cons (by rw [← h.kind, hname]; rfl),
      ← unbroken_passBreaks, ← unbroken_passBreaks other.rest] at hunbroken
    have hpassed := h.tail.passBreaks
    change SameTouches (first :: Parser.passBreaks state.rest)
      (first' :: Parser.passBreaks other.rest)
    generalize Parser.passBreaks state.rest = tokens at hunbroken hpassed ⊢
    generalize Parser.passBreaks other.rest = tokens' at hunbroken hpassed ⊢
    refine hpassed.touches.cons fun hname paren hparen paren' hparen' hkind => ?_
    rcases hpassed.cases with ⟨rfl, -⟩ | ⟨_, others, _, others', rfl, rfl⟩
    · cases hparen
    · cases hparen
      cases hparen'
      rw [unbroken_cons (by rw [hkind]; rfl), unbroken_cons (by rw [← hpassed.kind, hkind]; rfl)]
        at hunbroken
      exact hunbroken.1 hname hkind

/-- Behind a name a parenthesis opens arguments in both texts or in neither. -/
theorem SameSpacing.opens {word : String} {quoted : Bool}
    (h : SameSpacing (first :: state.rest) (first' :: other.rest))
    (hname : first.kind = .identifier word quoted)
    (hfinish : state.finish.kind = .endOfCode) (hfinish' : other.finish.kind = .endOfCode)
    (hstop : state.lastStop = first.span.stop) (hstop' : other.lastStop = first'.span.stop)
    (hcount : other.lineBreaks = state.lineBreaks) :
    state.OpensArguments ↔ other.OpensArguments := by
  have hvisible := h.tail.visible hcount
  have htouches := h.touches_visible hname hcount
  rcases hvisible.cases with ⟨hnil, hnil'⟩ | ⟨paren, rest, paren', rest', hcons, hcons'⟩
  · simp [State.OpensArguments, State.current, hnil, hnil', hfinish, hfinish']
  · rw [hcons, hcons'] at hvisible htouches
    have hiff := htouches.1 ⟨word, quoted, hname⟩
    simp only [State.OpensArguments, State.current, hcons, hcons', List.headD_cons, hstop, hstop',
      ← hvisible.kind]
    exact and_congr_right hiff

/-- Two texts that are spaced alike from two states on. -/
structure ReadsAlike (state other : State) : Prop where
  /-- Behind all tokens stands the end mark. -/
  finish : state.finish.kind = .endOfCode
  /-- So it does in the other text. -/
  finish' : other.finish.kind = .endOfCode
  /-- Line breaks count in both or in none. -/
  lineBreaks : other.lineBreaks = state.lineBreaks
  /-- The tokens not yet read are spaced alike. -/
  rest : SameSpacing state.rest other.rest

namespace ReadsAlike

theorem kind (h : ReadsAlike state other) : other.current.kind = state.current.kind := by
  have hvisible := h.rest.visible h.lineBreaks
  unfold State.current
  rcases hvisible.cases with ⟨hnil, hnil'⟩ | ⟨token, others, token', others', hcons, hcons'⟩
  · rw [hnil, hnil', List.headD_nil, List.headD_nil, h.finish, h.finish']
  · rw [hcons, hcons'] at hvisible ⊢
    exact hvisible.kind.symm

theorem next (h : ReadsAlike state other) : ReadsAlike state.next other.next := by
  have hvisible := h.rest.visible h.lineBreaks
  rcases hvisible.cases with ⟨hnil, hnil'⟩ | ⟨token, others, token', others', hcons, hcons'⟩
  · rw [State.next_of_nil hnil, State.next_of_nil hnil']
    exact ⟨h.finish, h.finish', h.lineBreaks, rfl, sameTouches_nil, sameTouches_nil⟩
  · rw [State.next_of_cons hcons, State.next_of_cons hcons']
    rw [hcons, hcons'] at hvisible
    exact ⟨h.finish, h.finish', h.lineBreaks, hvisible.tail⟩

theorem opens (h : ReadsAlike state other) {word : String} {quoted : Bool}
    (hname : state.current.kind = .identifier word quoted) :
    state.next.OpensArguments ↔ other.next.OpensArguments := by
  have hvisible := h.rest.visible h.lineBreaks
  rcases hvisible.cases with ⟨hnil, -⟩ | ⟨token, others, token', others', hcons, hcons'⟩
  · rw [State.current, hnil, List.headD_nil, h.finish] at hname
    cases hname
  · rw [State.next_of_cons hcons, State.next_of_cons hcons']
    rw [State.current, hcons, List.headD_cons] at hname
    rw [hcons, hcons'] at hvisible
    have hrest : SameSpacing (token :: (state.behind token others).rest)
        (token' :: (other.behind token' others').rest) := hvisible
    exact hrest.opens hname h.finish h.finish' rfl rfl h.lineBreaks

end ReadsAlike

/-- The readings of two texts that are spaced alike. -/
def Lockstep.spacing : Lockstep where
  Holds _ state other := ReadsAlike state other
  finish h := h.finish
  lineBreaks h := h.lineBreaks
  counting _ h := ⟨h.finish, h.finish', rfl, h.rest⟩
  kind h _ := h.kind
  next h _ _ _ := h.next
  opens h _ hname := h.opens hname

end Parser

/-! ## Places -/

/-- No token starts before an earlier one stops, and none is empty. -/
structure InPlace (tokens : List Token) : Prop where
  /-- They stand in order. -/
  order : tokens.Pairwise fun earlier later => earlier.span.stop ≤ later.span.start
  /-- Each takes a byte at least. -/
  nonempty : ∀ token ∈ tokens, token.span.start < token.span.stop

theorem Tile.inPlace {start stop : Nat} (h : Tile start tokens stop) :
    InPlace tokens ∧ ∀ token ∈ tokens, start ≤ token.span.start := by
  induction tokens generalizing start with
  | nil => exact ⟨⟨.nil, List.forall_mem_nil _⟩, List.forall_mem_nil _⟩
  | cons token others ih =>
    obtain ⟨hstart, hstop, hothers⟩ := h
    obtain ⟨⟨horder, hnonempty⟩, hbehind⟩ := ih hothers
    refine ⟨⟨.cons hbehind horder, List.forall_mem_cons.2 ⟨hstart ▸ hstop, hnonempty⟩⟩,
      List.forall_mem_cons.2 ⟨hstart.ge, fun later hlater => ?_⟩⟩
    exact hstop.le.trans (hbehind later hlater)

theorem InPlace.of_sublist (h : InPlace tokens) (hsub : tokens'.Sublist tokens) :
    InPlace tokens' :=
  ⟨h.order.sublist hsub, fun token htoken => h.nonempty token (hsub.subset htoken)⟩

/-- Behind a line break nothing touches what stands in front of it. -/
theorem InPlace.not_touches {mark later : Token} (h : InPlace (first :: mark :: tokens))
    (hlater : later ∈ tokens) : ¬ first.Touches later := by
  obtain ⟨hfirst, hothers⟩ := List.pairwise_cons.1 h.order
  have hmark := hfirst mark (List.mem_cons_self ..)
  have hbreak := h.nonempty mark (by simp)
  have hbehind := (List.pairwise_cons.1 hothers).1 later hlater
  unfold Token.Touches
  omega

theorem mem_of_head?_unbroken {token : Token} (h : token ∈ (unbroken tokens).head?) :
    token ∈ tokens :=
  List.mem_of_mem_filter (List.mem_of_mem_head? h)

/-- In texts whose tokens are in their places, line breaks are enough to keep a parenthesis from
touching a name. -/
theorem SameTouches.unbroken (h : SameTouches tokens tokens')
    (hkinds : tokens.map Token.kind = tokens'.map Token.kind) (hplace : InPlace tokens)
    (hplace' : InPlace tokens') : SameTouches (unbroken tokens) (unbroken tokens') := by
  induction tokens generalizing tokens' with
  | nil => exact sameTouches_nil
  | cons token others ih =>
    obtain ⟨token', others', rfl, hkind, hkinds'⟩ := List.map_eq_cons_iff.1 hkinds.symm
    have hothers := ih h.tail hkinds'.symm (hplace.of_sublist (List.sublist_cons_self ..))
      (hplace'.of_sublist (List.sublist_cons_self ..))
    cases hbreak : token.kind.isLineBreak with
    | true => rwa [unbroken_break hbreak, unbroken_break (hkind ▸ hbreak)]
    | false =>
      rw [unbroken_cons hbreak, unbroken_cons (hkind ▸ hbreak)]
      refine hothers.cons fun hname paren hparen paren' hparen' hopen => ?_
      cases others with
      | nil => cases hparen
      | cons mark more =>
        obtain ⟨mark', more', rfl, hmark, -⟩ := List.map_eq_cons_iff.1 hkinds'
        cases hbreak : mark.kind.isLineBreak with
        | true =>
          rw [unbroken_break hbreak] at hparen
          rw [unbroken_break (hmark ▸ hbreak)] at hparen'
          exact iff_of_false (hplace.not_touches (mem_of_head?_unbroken hparen))
            (hplace'.not_touches (mem_of_head?_unbroken hparen'))
        | false =>
          rw [unbroken_cons hbreak] at hparen
          rw [unbroken_cons (hmark ▸ hbreak)] at hparen'
          cases hparen
          cases hparen'
          exact h.1 hname hopen

/-! ## Scripts -/

/-- Errors that say the same have the same message. -/
theorem SyntaxError.Alike.message_eq {error error' : SyntaxError} (h : error.Alike error') :
    error.message = error'.message := by
  unfold SyntaxError.message
  rw [h.1, h.2]

/-- The tokens of a text have an end mark behind them, and are in their places if the text is not
too long. -/
theorem Lexer.exists_inPlace (registry : Registry) (source : String) :
    ∃ tokens mark, tokensFrom registry 0 false source.toList = tokens ++ [mark] ∧
      mark.kind = .endOfCode ∧
      (byteLength source.toList ≤ Span.maxOffset → InPlace tokens) := by
  have hwhole : ∀ lexeme ∈ lexemesFrom registry false source.toList, IsWhole lexeme :=
    fun _ => isWhole_of_mem
  have htext := textOf_lexemesFrom registry false source.toList
  refine ⟨_, _, tokensFrom_eq_placeFrom registry 0 false source.toList, rfl, fun hsize => ?_⟩
  exact (tile_placeFrom hwhole (by rwa [htext, Nat.zero_add])).inPlace.1

/-- What means something between the marks of a text. -/
theorem meaningful_tokenize {registry : Registry} {source : String} {mark : Token}
    (htokens : Lexer.tokensFrom registry 0 false source.toList = tokens ++ [mark])
    (hmark : mark.kind = .endOfCode) :
    meaningful (tokenize registry source) =
      ⟨.startOfCode, ⟨0, 0⟩⟩ :: (meaningful tokens ++ [mark]) := by
  rw [tokenize, htokens, meaningful_cons rfl, meaningful_append,
    meaningful_cons (by rw [hmark]; rfl), meaningful_nil]

theorem unbroken_between {front back : Token} (hfront : front.kind.isLineBreak = false)
    (hback : back.kind.isLineBreak = false) :
    unbroken (front :: (tokens ++ [back])) = front :: (unbroken tokens ++ [back]) := by
  rw [unbroken_cons hfront]
  unfold unbroken
  rw [List.filter_append, List.filter_cons_of_pos (by rw [hback]; rfl), List.filter_nil]

/-- What is asked of all tokens holds between the marks. -/
theorem SameTouches.between {front back front' back' : Token}
    (h : SameTouches (front :: (tokens ++ [back])) (front' :: (tokens' ++ [back'])))
    (hkinds : tokens.map Token.kind = tokens'.map Token.kind) : SameTouches tokens tokens' := by
  refine h.tail.of_append ?_
  rw [← List.length_map (f := Token.kind), hkinds, List.length_map]

/-- Two scripts with the same kinds of tokens, in which a parenthesis directly behind a name touches
it in both or in neither, are read alike.  Both have the same statements, or both fail with the same
message and the same words for what was found.  Only in a text that is too long for the offsets of a
span must the same be asked of a parenthesis that follows a name on another line. -/
theorem readScript_spacing (registry : Registry) (source other : String)
    (hkinds : (meaningful (tokenize registry source)).map Token.kind =
      (meaningful (tokenize registry other)).map Token.kind)
    (htouches : SameTouches (meaningful (tokenize registry source))
      (meaningful (tokenize registry other)))
    (hlong : Span.maxOffset < byteLength source.toList ∨
        Span.maxOffset < byteLength other.toList →
      SameTouches (unbroken (meaningful (tokenize registry source)))
        (unbroken (meaningful (tokenize registry other)))) :
    (∃ statements, readScript registry source = .ok statements ∧
      readScript registry other = .ok statements) ∨
    ∃ error error', readScript registry source = .error error ∧
      readScript registry other = .error error' ∧ error.message = error'.message ∧
      error.found = error'.found := by
  obtain ⟨tokens, mark, htokens, hmark, hplace⟩ := Lexer.exists_inPlace registry source
  obtain ⟨tokens', mark', htokens', hmark', hplace'⟩ := Lexer.exists_inPlace registry other
  have hbreak : mark.kind.isLineBreak = false := by rw [hmark]; rfl
  have hbreak' : mark'.kind.isLineBreak = false := by rw [hmark']; rfl
  have hall := meaningful_tokenize htokens hmark
  have hall' := meaningful_tokenize htokens' hmark'
  rw [hall, hall'] at hkinds htouches hlong
  rw [unbroken_between rfl hbreak, unbroken_between rfl hbreak'] at hlong
  have hinner : (meaningful tokens).map Token.kind = (meaningful tokens').map Token.kind := by
    have htail := (List.cons.inj hkinds).2
    rw [List.map_append, List.map_append] at htail
    exact (List.append_inj' htail rfl).1
  have hunbroken : SameTouches (unbroken (meaningful tokens)) (unbroken (meaningful tokens')) := by
    by_cases hsize : byteLength source.toList ≤ Span.maxOffset ∧
        byteLength other.toList ≤ Span.maxOffset
    · exact (htouches.between hinner).unbroken hinner
        ((hplace hsize.1).of_sublist List.filter_sublist)
        ((hplace' hsize.2).of_sublist List.filter_sublist)
    · refine (hlong (by omega)).between ?_
      rw [map_kind_unbroken, hinner, map_kind_unbroken]
  have hholds : Lockstep.spacing.Holds [] (State.ofSource registry source)
      (State.ofSource registry other) := by
    rw [State.ofSource_eq htokens, State.ofSource_eq htokens']
    exact ⟨hmark, hmark', rfl, hinner, htouches.between hinner, hunbroken⟩
  have hlength : (State.ofSource registry source).rest.length =
      (State.ofSource registry other).rest.length := by
    rw [← List.length_map (f := Token.kind), hholds.rest.kinds, List.length_map]
  have hsame := Lockstep.spacing.readScript_same hholds (hlength.le.trans (Nat.le_add_right ..))
  generalize readScript registry source = read at hsame ⊢
  generalize readScript registry other = read' at hsame ⊢
  cases read with
  | ok statements =>
    cases read' with
    | ok statements' => exact .inl ⟨statements, rfl, congrArg _ (Eq.symm hsame)⟩
    | error error' => cases hsame
  | error error =>
    cases read' with
    | ok statements' => cases hsame
    | error error' => exact .inr ⟨error, error', rfl, rfl, hsame.message_eq, hsame.2⟩

/-- An annotation inside parentheses, and blanks in its place. -/
theorem readScript_spacing_annotated :
    (meaningful (tokenize .empty "f(«on»x)")).map Token.kind =
      (meaningful (tokenize .empty "f( x )")).map Token.kind ∧
    SameTouches (meaningful (tokenize .empty "f(«on»x)"))
      (meaningful (tokenize .empty "f( x )")) ∧
    ¬ (Span.maxOffset < byteLength "f(«on»x)".toList ∨
      Span.maxOffset < byteLength "f( x )".toList) ∧
    ((∃ statements, readScript .empty "f(«on»x)" = .ok statements ∧
      readScript .empty "f( x )" = .ok statements) ∨
    ∃ error error', readScript .empty "f(«on»x)" = .error error ∧
      readScript .empty "f( x )" = .error error' ∧ error.message = error'.message ∧
      error.found = error'.found) := by
  have hlexemes : Lexer.lexemesFrom .empty false "f(«on»x)".toList =
      [⟨.identifier "f" false, ['f']⟩, ⟨.groupOpen, ['(']⟩, ⟨.note "on", ['«', 'o', 'n', '»']⟩,
        ⟨.identifier "x" false, ['x']⟩, ⟨.groupClose, [')']⟩] :=
    Lexer.lexemesFrom_step rfl (Lexer.lexemesFrom_step rfl (Lexer.lexemesFrom_step rfl
      (Lexer.lexemesFrom_step rfl (Lexer.lexemesFrom_step rfl Lexer.lexemesFrom_nil))))
  have hlexemes' : Lexer.lexemesFrom .empty false "f( x )".toList =
      [⟨.identifier "f" false, ['f']⟩, ⟨.groupOpen, ['(']⟩, ⟨.whitespace, [' ']⟩,
        ⟨.identifier "x" false, ['x']⟩, ⟨.whitespace, [' ']⟩, ⟨.groupClose, [')']⟩] :=
    Lexer.lexemesFrom_step rfl (Lexer.lexemesFrom_step rfl (Lexer.lexemesFrom_step rfl
      (Lexer.lexemesFrom_step rfl (Lexer.lexemesFrom_step rfl (Lexer.lexemesFrom_step rfl
        Lexer.lexemesFrom_nil)))))
  have htokens : meaningful (tokenize .empty "f(«on»x)") =
      [⟨.startOfCode, ⟨0, 0⟩⟩, ⟨.identifier "f" false, ⟨0, 1⟩⟩, ⟨.groupOpen, ⟨1, 2⟩⟩,
        ⟨.identifier "x" false, ⟨8, 9⟩⟩, ⟨.groupClose, ⟨9, 10⟩⟩, ⟨.endOfCode, ⟨10, 10⟩⟩] := by
    rw [tokenize, Lexer.tokensFrom_eq_placeFrom, hlexemes]
    rfl
  have htokens' : meaningful (tokenize .empty "f( x )") =
      [⟨.startOfCode, ⟨0, 0⟩⟩, ⟨.identifier "f" false, ⟨0, 1⟩⟩, ⟨.groupOpen, ⟨1, 2⟩⟩,
        ⟨.identifier "x" false, ⟨3, 4⟩⟩, ⟨.groupClose, ⟨5, 6⟩⟩, ⟨.endOfCode, ⟨6, 6⟩⟩] := by
    rw [tokenize, Lexer.tokensFrom_eq_placeFrom, hlexemes']
    rfl
  have hkinds : (meaningful (tokenize .empty "f(«on»x)")).map Token.kind =
      (meaningful (tokenize .empty "f( x )")).map Token.kind := by
    rw [htokens, htokens']
    rfl
  have htouches : SameTouches (meaningful (tokenize .empty "f(«on»x)"))
      (meaningful (tokenize .empty "f( x )")) := by
    rw [htokens, htokens']
    simp [SameTouches, Token.Touches]
  have hfits : ¬ (Span.maxOffset < byteLength "f(«on»x)".toList ∨
      Span.maxOffset < byteLength "f( x )".toList) := by
    decide
  exact ⟨hkinds, htouches, hfits,
    readScript_spacing .empty _ _ hkinds htouches fun hlong => absurd hlong hfits⟩

/-! ## Behind all offsets -/

/-- The place of everything behind the last offset of a span. -/
def Span.beyond : Span := ⟨Span.maxOffset, Span.maxOffset⟩

namespace Lexer

/-- Behind the last offset of a span all lexemes have the same place. -/
theorem placeFrom_beyond {offset : Nat} (h : Span.maxOffset ≤ offset) (lexemes : List Lexeme) :
    placeFrom offset lexemes = lexemes.map fun lexeme => ⟨lexeme.kind, .beyond⟩ := by
  induction lexemes generalizing offset with
  | nil => rfl
  | cons lexeme others ih =>
    have hstop : Span.maxOffset ≤ offset + byteLength lexeme.text := by omega
    rw [placeFrom, ih hstop, List.map_cons, Span.ofOffsets, Nat.min_eq_right h,
      Nat.min_eq_right hstop, Span.beyond]

end Lexer

section Beyond

variable (registry : Registry) {blanks : List Char}

/-- The tokens of a text that stands behind so many blanks all have the same place. -/
theorem meaningful_beyond (hblanks : ∀ c ∈ blanks, Text.isInlineBlank c = true)
    (hsize : Span.maxOffset ≤ byteLength blanks) (text : String) :
    meaningful (tokenize registry (String.ofList blanks ++ text)) =
      ⟨.startOfCode, ⟨0, 0⟩⟩ ::
        (meaningful ((Lexer.lexemesFrom registry false text.toList).map fun lexeme =>
          ⟨lexeme.kind, .beyond⟩) ++ [⟨.endOfCode, .beyond⟩]) := by
  have hstop : Span.maxOffset ≤ byteLength blanks + byteLength text.toList := by omega
  rw [tokenize, meaningful_cons rfl, String.toList_append, String.toList_ofList,
    Lexer.meaningful_blanks hblanks, Nat.zero_add, Lexer.tokensFrom_eq_placeFrom,
    Lexer.placeFrom_beyond hsize, Span.ofOffsets, Nat.min_eq_right hstop, meaningful_append]
  rfl

/-- A text behind so many blanks is read from tokens that can't be told apart by their places. -/
theorem Parser.State.ofSource_beyond (hblanks : ∀ c ∈ blanks, Text.isInlineBlank c = true)
    (hsize : Span.maxOffset ≤ byteLength blanks) (text : String) :
    State.ofSource registry (String.ofList blanks ++ text) =
      ⟨meaningful ((Lexer.lexemesFrom registry false text.toList).map fun lexeme =>
        ⟨lexeme.kind, .beyond⟩), ⟨.endOfCode, .beyond⟩, 0, true⟩ := by
  obtain ⟨tokens, mark, htokens, hmark, -⟩ :=
    Lexer.exists_inPlace registry (String.ofList blanks ++ text)
  have hmeaning := meaningful_beyond registry hblanks hsize text
  rw [meaningful_tokenize htokens hmark] at hmeaning
  obtain ⟨hplaced, hfinish⟩ := List.append_inj' (List.cons.inj hmeaning).2 rfl
  rw [State.ofSource_eq htokens, hplaced, (List.cons.inj hfinish).1]

end Beyond

/-- A name in parentheses and, on the next line, another parenthesis. -/
def brokenCall : List Lexeme :=
  [⟨.groupOpen, ['(']⟩, ⟨.identifier "f" false, ['f']⟩, ⟨.lineBreak, ['\n']⟩,
    ⟨.groupOpen, ['(']⟩, ⟨.identifier "x" false, ['x']⟩, ⟨.groupClose, [')']⟩,
    ⟨.groupClose, [')']⟩]

theorem lexemesFrom_brokenCall : Lexer.lexemesFrom .empty false "(f\n(x))".toList = brokenCall :=
  Lexer.lexemesFrom_step rfl (Lexer.lexemesFrom_step rfl (Lexer.lexemesFrom_step rfl
    (Lexer.lexemesFrom_step rfl (Lexer.lexemesFrom_step rfl (Lexer.lexemesFrom_step rfl
      (Lexer.lexemesFrom_step rfl Lexer.lexemesFrom_nil))))))

/-- Behind so many blanks a name and a parenthesis on the next line touch, and the parenthesis opens
arguments.  Without the blanks the same tokens can't be read. -/
theorem spacing_lost_beyond :
    let near := "(f\n(x))"
    let far := String.ofList (List.replicate 0x100000000 ' ') ++ near
    (meaningful (tokenize .empty near)).map Token.kind =
      (meaningful (tokenize .empty far)).map Token.kind ∧
    SameTouches (meaningful (tokenize .empty near)) (meaningful (tokenize .empty far)) ∧
    (∃ error, readScript .empty near = .error error) ∧
    ∃ call, readScript .empty far = .ok [call] := by
  have hblanks : ∀ c ∈ List.replicate 0x100000000 ' ', Text.isInlineBlank c = true := by
    intro c hc
    rw [List.eq_of_mem_replicate hc]
    rfl
  have hsize : Span.maxOffset ≤ byteLength (List.replicate 0x100000000 ' ') := by
    rw [byteLength_replicate]
    decide
  dsimp only
  -- the blanks are never written out
  generalize List.replicate 0x100000000 ' ' = blanks at hblanks hsize ⊢
  have hnear : meaningful (tokenize .empty "(f\n(x))") =
      [⟨.startOfCode, ⟨0, 0⟩⟩, ⟨.groupOpen, ⟨0, 1⟩⟩, ⟨.identifier "f" false, ⟨1, 2⟩⟩,
        ⟨.lineBreak, ⟨2, 3⟩⟩, ⟨.groupOpen, ⟨3, 4⟩⟩, ⟨.identifier "x" false, ⟨4, 5⟩⟩,
        ⟨.groupClose, ⟨5, 6⟩⟩, ⟨.groupClose, ⟨6, 7⟩⟩, ⟨.endOfCode, ⟨7, 7⟩⟩] := by
    rw [tokenize, Lexer.tokensFrom_eq_placeFrom, lexemesFrom_brokenCall]
    rfl
  have hfar : meaningful (tokenize .empty (String.ofList blanks ++ "(f\n(x))")) =
      [⟨.startOfCode, ⟨0, 0⟩⟩, ⟨.groupOpen, .beyond⟩, ⟨.identifier "f" false, .beyond⟩,
        ⟨.lineBreak, .beyond⟩, ⟨.groupOpen, .beyond⟩, ⟨.identifier "x" false, .beyond⟩,
        ⟨.groupClose, .beyond⟩, ⟨.groupClose, .beyond⟩, ⟨.endOfCode, .beyond⟩] := by
    rw [meaningful_beyond .empty hblanks hsize, lexemesFrom_brokenCall]
    rfl
  refine ⟨?kinds, ?touches, ?near, ?far⟩
  case kinds =>
    rw [hnear, hfar]
    rfl
  case touches =>
    -- behind the name comes the line break, so nothing is asked
    rw [hnear, hfar]
    simp [SameTouches]
  case near =>
    have hread : (readScript .empty "(f\n(x))").toOption.isSome = false := by decide +kernel
    cases hfound : readScript .empty "(f\n(x))" with
    | ok statements =>
      rw [hfound] at hread
      cases hread
    | error error => exact ⟨error, rfl⟩
  case far =>
    have hstart := State.ofSource_beyond .empty hblanks hsize "(f\n(x))"
    rw [lexemesFrom_brokenCall] at hstart
    exact ⟨_, runOn_eq_ok_iff.2 ⟨_, (congrArg script hstart).trans rfl⟩⟩
end CommandScript
