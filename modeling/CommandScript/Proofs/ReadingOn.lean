import CommandScript.Proofs.Lexing
import CommandScript.Proofs.ParserSteps

/-!
# Reading with more code behind

What a parser makes of some tokens it also makes of them with others behind, in another place of a
source text.  Two runs are compared: one over the tokens alone, and one over the same tokens further
on in a longer text.  As long as the first run gives a result, the second gives the same and is left
in front of the same tokens.

The first run may come to its last token where the second sees more.

* While line breaks count, the end of the code and a line break both end an expression.
* Inside brackets the second run would go on behind the line break.  But then the first run has an
  open bracket left, and is *stuck*: nothing can make it succeed.
* A token that can't be read need not be the same in the longer text.  The first run is stuck there
  too.

Offsets are cut down to a largest one, so that in a longer text tokens may touch that did not
before.  This makes a difference only for a parenthesis behind a name, and a parenthesis with a
blank before it is a place to be stuck as well.
-/

namespace CommandScript

namespace Parser

/-! ## Two runs -/

/-- A token with its offsets moved. -/
def moveToken (move : Nat → Nat) (token : Token) : Token :=
  ⟨token.kind, move token.span.start, move token.span.stop⟩

@[simp] theorem moveToken_kind (move : Nat → Nat) (token : Token) :
    (moveToken move token).kind = token.kind := rfl

/-- How some code may end, and what stands there in the longer text. -/
inductive Seam : List Token → List Token → Prop where
  /-- There is nothing behind. -/
  | nothing : Seam [] []
  /-- A line break follows. -/
  | broken {mark : Token} {tail : List Token} : mark.kind = .lineBreak → Seam [] (mark :: tail)
  /-- A line break at the end is joined with the one that follows. -/
  | joined {last mark : Token} {tail : List Token} : last.kind = .lineBreak →
      mark.kind = .lineBreak → Seam [last] (mark :: tail)
  /-- What can't be read may become anything. -/
  | unreadable {token : Token} {others tail : List Token} :
      Lexer.isUnknown token.kind = true → Seam (token :: others) tail

/-- A token whose operators bind more tightly than a line break. -/
def Binds (token : Token) : Prop :=
  ∀ found, token.kind = .operator found → ∀ op, found.starting? = some op ∨
    found.continuing? = some op → 0 ≤ op.precedence

/-- A longer text around some code. -/
structure Extension where
  /-- Where an offset of the code is in the longer text. -/
  move : Nat → Nat
  /-- How the code ends. -/
  last : List Token
  /-- What the longer text has there. -/
  tail : List Token
  /-- The two fit together. -/
  seam : Seam last tail

/-- Two states in front of the same tokens, the second in the longer text. -/
structure Extension.Relates (ext : Extension) (short long : State) : Prop where
  /-- The tokens up to the seam are the same. -/
  rest : ∃ same, short.rest = same ++ ext.last ∧
    long.rest = same.map (moveToken ext.move) ++ ext.tail ∧ ∀ token ∈ same, Binds token
  /-- Behind all tokens stands the end mark. -/
  finish : short.finish.kind = .endOfCode ∧ long.finish.kind = .endOfCode
  /-- The last token ended at the same place. -/
  lastStop : long.lastStop = ext.move short.lastStop
  /-- Line breaks count in both or in none. -/
  lineBreaks : long.lineBreaks = short.lineBreaks

/-- Whether a token is the end of the code or can't be read. -/
def isOver : TokenKind → Bool
  | .endOfCode | .unknown _ => true
  | _ => false

/-- Whether a token is one that a parser may be stuck at. -/
def halts : TokenKind → Bool
  | .endOfCode | .unknown _ | .groupOpen => true
  | _ => false

/-- Whether a token can only stand in front of the seam. -/
def isInside : TokenKind → Bool
  | .endOfCode | .unknown _ | .lineBreak => false
  | _ => true

/-- Nothing is left that can be read. -/
def Over (state : State) : Prop := isOver state.current.kind = true

/-- The two runs may differ from here on. -/
def Blocked (state : State) : Prop :=
  (state.lineBreaks = false ∧ state.current.kind = .endOfCode) ∨
    Lexer.isUnknown state.current.kind = true

/-- No rule of the grammar goes on from here. -/
def Stuck (state : State) : Prop :=
  Blocked state ∨ (state.current.kind = .groupOpen ∧ state.current.span.start ≠ state.lastStop)

theorem Blocked.stuck {state : State} (h : Blocked state) : Stuck state := .inl h

theorem isOver_of_isUnknown {kind : TokenKind} (h : Lexer.isUnknown kind = true) :
    isOver kind = true := by
  cases kind with
  | unknown problem => rfl
  | _ => cases h

/-- A parser that is blocked is at the end, or before an unknown token. -/
theorem Blocked.over {state : State} (h : Blocked state) : Over state := by
  rcases h with ⟨-, hend⟩ | hunknown
  · rw [Over, hend]; rfl
  · exact isOver_of_isUnknown hunknown

theorem halts_of_isOver {kind : TokenKind} (h : isOver kind = true) : halts kind = true := by
  cases kind with
  | endOfCode | unknown _ => rfl
  | _ => cases h

/-- What stands where the shorter text is over. -/
theorem Over.kind {state : State} (h : Over state) :
    state.current.kind = .endOfCode ∨ ∃ problem, state.current.kind = .unknown problem := by
  unfold Over at h
  cases hkind : state.current.kind with
  | endOfCode => exact .inl rfl
  | unknown problem => exact .inr ⟨problem, rfl⟩
  | _ =>
    rw [hkind] at h
    cases h

/-- What stands where the parser is stuck. -/
theorem Stuck.kind {state : State} (h : Stuck state) :
    state.current.kind = .endOfCode ∨ (∃ problem, state.current.kind = .unknown problem) ∨
      state.current.kind = .groupOpen := by
  rcases h with hblocked | ⟨hopen, -⟩
  · rcases hblocked.over.kind with hend | hunknown
    · exact .inl hend
    · exact .inr (.inl hunknown)
  · exact .inr (.inr hopen)

theorem Stuck.halts {state : State} (h : Stuck state) : halts state.current.kind = true := by
  rcases h with hblocked | ⟨hopen, -⟩
  · exact halts_of_isOver hblocked.over
  · rw [hopen]; rfl

/-- Where the shorter text is over, no token of it is left. -/
theorem not_isInside_of_isOver {kind : TokenKind} (h : isOver kind = true) :
    isInside kind = false := by
  cases kind with
  | endOfCode | unknown _ => rfl
  | _ => cases h

namespace Extension

variable {ext : Extension} {short long : State}

/-- What is left: a token and more, the end of the code, or line breaks that do not count. -/
theorem Relates.cases (h : ext.Relates short long) :
    (∃ token same, short.visible = token :: (same ++ ext.last) ∧
      long.visible = moveToken ext.move token :: (same.map (moveToken ext.move) ++ ext.tail) ∧
      ∀ other ∈ token :: same, Binds other) ∨
    (short.lineBreaks = true ∧ short.rest = ext.last ∧ long.rest = ext.tail) ∨
    (short.lineBreaks = false ∧
      short.visible = ext.last.dropWhile fun token => token.kind.isLineBreak) := by
  obtain ⟨same, hshort, hlong, hbinds⟩ := h.rest
  cases hcount : short.lineBreaks with
  | true =>
    have hvisible : short.visible = short.rest := by simp [State.visible, hcount]
    have hvisible' : long.visible = long.rest := by simp [State.visible, h.lineBreaks, hcount]
    cases same with
    | nil => exact .inr (.inl ⟨rfl, hshort, hlong⟩)
    | cons token same =>
      exact .inl ⟨token, same, hvisible.trans hshort, hvisible'.trans hlong, hbinds⟩
  | false =>
    have hdrop : (same.map (moveToken ext.move)).dropWhile (fun token => token.kind.isLineBreak) =
        (same.dropWhile fun token => token.kind.isLineBreak).map (moveToken ext.move) := by
      rw [List.dropWhile_map]
      rfl
    cases hsame : same.dropWhile fun token => token.kind.isLineBreak with
    | nil =>
      right; right
      refine ⟨rfl, ?_⟩
      have hall : ∀ token ∈ same, token.kind.isLineBreak = true := List.dropWhile_eq_nil_iff.1 hsame
      simp only [State.visible, hcount, hshort, Bool.false_eq_true, if_false]
      exact List.dropWhile_append_of_pos hall
    | cons token others =>
      left
      refine ⟨token, others, ?_, ?_, ?_⟩
      · simp [State.visible, hcount, hshort, List.dropWhile_append, hsame]
      · simp [State.visible, h.lineBreaks, hcount, hlong, List.dropWhile_append, hdrop, hsame]
      · rw [← hsame]
        exact fun other hother => hbinds other (List.dropWhile_sublist _ |>.subset hother)

/-- Behind line breaks that do not count, the two runs may differ. -/
theorem Relates.blocked (h : ext.Relates short long) (hcount : short.lineBreaks = false)
    (hshort : short.visible = ext.last.dropWhile fun token => token.kind.isLineBreak) :
    Blocked short := by
  have hend := h.finish.1
  rw [Blocked, State.current, hshort]
  obtain ⟨move, last, tail, hseam⟩ := ext
  cases hseam with
  | nothing => exact .inl ⟨hcount, hend⟩
  | broken hmark => exact .inl ⟨hcount, hend⟩
  | joined hlast hmark =>
    refine .inl ⟨hcount, ?_⟩
    simpa [TokenKind.isLineBreak, hlast] using hend
  | @unreadable token others _ hunknown =>
    right
    have hkind : token.kind.isLineBreak = false := by
      cases hk : token.kind with
      | unknown problem => rfl
      | _ =>
        rw [hk] at hunknown
        cases hunknown
    simpa [hkind] using hunknown

/-- What the two runs see next. -/
theorem Relates.sees (h : ext.Relates short long) :
    Blocked short ∨ long.current.kind = short.current.kind ∨
      (short.current.kind = .endOfCode ∧ long.current.kind = .lineBreak) := by
  rcases h.cases with ⟨token, same, hshort, hlong, -⟩ | ⟨hcount, hshort, hlong⟩ | ⟨hcount, hshort⟩
  · right; left
    rw [State.current, State.current, hshort, hlong]
    rfl
  · rw [Blocked, State.current_eq_headD hcount,
      State.current_eq_headD (h.lineBreaks.trans hcount), hshort,
      hlong]
    obtain ⟨hend, hend'⟩ := h.finish
    obtain ⟨move, last, tail, hseam⟩ := ext
    cases hseam with
    | nothing => exact .inr (.inl (hend'.trans hend.symm))
    | broken hmark => exact .inr (.inr ⟨hend, hmark⟩)
    | joined hlast hmark => exact .inr (.inl (hmark.trans hlast.symm))
    | unreadable hunknown => exact .inl (.inr hunknown)
  · exact .inl (h.blocked hcount hshort)

/-- Reading a token leaves the two runs in front of the same tokens. -/
theorem Relates.advance_token {token : Token} {same : List Token} (h : ext.Relates short long)
    (hshort : short.visible = token :: (same ++ ext.last))
    (hlong : long.visible = moveToken ext.move token :: (same.map (moveToken ext.move) ++ ext.tail))
    (hbinds : ∀ other ∈ token :: same, Binds other) :
    ∃ short' long', Parser.advance short = .done short.current short' ∧
      Parser.advance long = .done (moveToken ext.move short.current) long' ∧
      ext.Relates short' long' ∧ Binds short.current := by
  have hcurrent : short.current = token := by rw [State.current, hshort]; rfl
  obtain ⟨htoken, hsame⟩ := List.forall_mem_cons.1 hbinds
  refine ⟨{ short with rest := same ++ ext.last, lastStop := token.span.stop },
    { long with rest := same.map (moveToken ext.move) ++ ext.tail,
                lastStop := ext.move token.span.stop }, ?_, ?_, ?_, hcurrent ▸ htoken⟩
  · rw [Parser.advance, hshort, hcurrent]
  · rw [Parser.advance, hlong, hcurrent]
    rfl
  · exact ⟨⟨same, rfl, rfl, hsame⟩, h.finish, rfl, h.lineBreaks⟩

/-- Inside the shorter text both runs read the same token. -/
theorem Relates.advance (h : ext.Relates short long)
    (hinside : isInside short.current.kind = true) :
    ∃ short' long', Parser.advance short = .done short.current short' ∧
      Parser.advance long = .done (moveToken ext.move short.current) long' ∧
      ext.Relates short' long' ∧ Binds short.current := by
  rcases h.cases with ⟨token, same, hshort, hlong, hbinds⟩ | ⟨hcount, hshort, -⟩ | ⟨hcount, hshort⟩
  · exact h.advance_token hshort hlong hbinds
  · rw [State.current_eq_headD hcount, hshort] at hinside
    have hend := h.finish.1
    obtain ⟨move, last, tail, hseam⟩ := ext
    cases hseam with
    | nothing | broken _ =>
      rw [List.headD_nil, hend] at hinside
      cases hinside
    | joined hlast _ =>
      rw [List.headD_cons, hlast] at hinside
      cases hinside
    | unreadable hunknown =>
      rw [List.headD_cons, not_isInside_of_isOver (isOver_of_isUnknown hunknown)] at hinside
      cases hinside
  · rw [not_isInside_of_isOver (h.blocked hcount hshort).over] at hinside
    cases hinside

/-- Both runs see the same token there, at two places. -/
theorem Relates.current_inside (h : ext.Relates short long)
    (hinside : isInside short.current.kind = true) :
    long.current = moveToken ext.move short.current := by
  obtain ⟨short', long', -, hlong, -⟩ := h.advance hinside
  obtain ⟨after, hcurrent⟩ := advance_current long
  exact (Result.done.inj (hcurrent.symm.trans hlong)).1

/-- Reading a line break does so too, or comes to the end of the code. -/
theorem Relates.advance_lineBreak (h : ext.Relates short long)
    (hbreak : short.current.kind = .lineBreak) :
    (∃ short' long', Parser.advance short = .done short.current short' ∧
      Parser.advance long = .done (moveToken ext.move short.current) long' ∧
      ext.Relates short' long') ∨
    ∃ short', Parser.advance short = .done short.current short' ∧
      short'.current.kind = .endOfCode := by
  rcases h.cases with ⟨token, same, hshort, hlong, hbinds⟩ | ⟨hcount, hshort, -⟩ | ⟨hcount, hshort⟩
  · obtain ⟨short', long', hread, hread', hrelates, -⟩ := h.advance_token hshort hlong hbinds
    exact .inl ⟨short', long', hread, hread', hrelates⟩
  · right
    have hvisible : short.visible = ext.last := by simp [State.visible, hcount, hshort]
    rw [State.current_eq_headD hcount, hshort] at hbreak ⊢
    have hend := h.finish.1
    obtain ⟨move, last, tail, hseam⟩ := ext
    cases hseam with
    | nothing | broken _ =>
      rw [List.headD_nil, hend] at hbreak
      cases hbreak
    | @joined token _ _ _ _ =>
      refine ⟨{ short with rest := [], lastStop := token.span.stop }, ?_, ?_⟩
      · rw [Parser.advance, hvisible]
        rfl
      · simpa [State.current, State.visible] using hend
    | unreadable hunknown =>
      rw [List.headD_cons] at hbreak
      rw [hbreak] at hunknown
      cases hunknown
  · have hover : isOver short.current.kind = true := (h.blocked hcount hshort).over
    rw [hbreak] at hover
    cases hover

theorem Relates.sees_separator (h : ext.Relates short long)
    (hseparator : isSeparator short.current.kind = true) :
    long.current.kind = short.current.kind := by
  rcases h.sees with hblocked | hsame | ⟨hend, -⟩
  · have hover := hblocked.over
    unfold Over at hover
    cases hkind : short.current.kind with
    | lineBreak | itemSeparator | statementSeparator =>
      rw [hkind] at hover
      cases hover
    | _ =>
      rw [hkind] at hseparator
      cases hseparator
  · exact hsame
  · rw [hend] at hseparator
    cases hseparator

/-- Reading a separator leaves the two runs in front of the same tokens, or comes to the end. -/
theorem Relates.read_separator (h : ext.Relates short long)
    (hseparator : isSeparator short.current.kind = true) :
    (∃ short' long', Parser.advance short = .done short.current short' ∧
      Parser.advance long = .done (moveToken ext.move short.current) long' ∧
      ext.Relates short' long') ∨
    ∃ short', Parser.advance short = .done short.current short' ∧
      short'.current.kind = .endOfCode := by
  cases hinside : isInside short.current.kind with
  | true =>
    obtain ⟨short', long', hread, hread', hrelates, -⟩ := h.advance hinside
    exact .inl ⟨short', long', hread, hread', hrelates⟩
  | false =>
    refine h.advance_lineBreak ?_
    cases hkind : short.current.kind with
    | lineBreak => rfl
    | endOfCode | unknown _ =>
      rw [hkind] at hseparator
      cases hseparator
    | _ =>
      rw [hkind] at hinside
      cases hinside

end Extension

/-! ## Parsers that follow one another -/

/-- A parser in the longer text gives what another gives on the code alone, and is left in front of
the same tokens.  The kind of the token to read next is known, and the first run may escape. -/
def Extension.Follows (ext : Extension) {α : Type} (here : TokenKind → Prop)
    (escape : State → Prop) (parser longer : Parser α) : Prop :=
  ∀ short long, ext.Relates short long → here short.current.kind →
    ∀ result after, parser short = .done result after →
      escape after ∨ ∃ after', longer long = .done result after' ∧ ext.Relates after after'

/-- Any token at all. -/
abbrev anyKind : TokenKind → Prop := fun _ => True

/-- No way to escape. -/
abbrev never : State → Prop := fun _ => False

namespace Extension.Follows

variable {ext : Extension} {α β : Type} {here : TokenKind → Prop} {escape : State → Prop}

/-- Parsers that return the same value follow one another. -/
theorem pure {result : α} : ext.Follows here escape (Pure.pure result) (Pure.pure result) := by
  intro short long hrelates _ found after hrun
  cases hrun
  exact .inr ⟨long, rfl, hrelates⟩

/-- What never gives a result is followed by anything. -/
theorem of_fails {parser longer : Parser α}
    (h : ∀ state result after, parser state ≠ .done result after) :
    ext.Follows here escape parser longer :=
  fun _ _ _ _ _ _ hrun => absurd hrun (h _ _ _)

/-- A parser that fails is followed by any other. -/
theorem fail {error : SyntaxError} {longer : Parser α} :
    ext.Follows here escape (Parser.fail error) longer :=
  of_fails (by rintro _ _ _ ⟨⟩)

theorem expected {what : String} {longer : Parser α} :
    ext.Follows here escape (Parser.expected what) longer :=
  of_fails (by rintro _ _ _ ⟨⟩)

theorem exhausted {longer : Parser α} : ext.Follows here escape Parser.exhausted longer :=
  of_fails (by rintro _ _ _ ⟨⟩)

/-- What is known of the next token need not be used. -/
theorem weaken {parser longer : Parser α} (h : ext.Follows anyKind escape parser longer) :
    ext.Follows here escape parser longer :=
  fun short long hrelates _ => h short long hrelates trivial

/-- A way to escape may be told differently, or not be there at all. -/
theorem mono {escape' : State → Prop} {parser longer : Parser α}
    (h : ext.Follows here escape parser longer) (hescape : ∀ state, escape state → escape' state) :
    ext.Follows here escape' parser longer := by
  intro short long hrelates hhere result after hrun
  rcases h _ _ hrelates hhere _ _ hrun with hout | hdone
  · exact .inl (hescape after hout)
  · exact .inr hdone

/-- Where the first parser escapes, the next must too. -/
theorem bind {escape' : State → Prop} {first first' : Parser α} {next next' : α → Parser β}
    (h : ext.Follows here escape first first')
    (hnext : ∀ value, ext.Follows anyKind escape' (next value) (next' value))
    (hescape : ∀ value state, escape state → ∀ result after,
      next value state = .done result after → escape' after) :
    ext.Follows here escape' (first >>= next) (first' >>= next') := by
  intro short long hrelates hhere result after hrun
  obtain ⟨value, middle, hfirst, hlast⟩ := bind_eq_done hrun
  rcases h _ _ hrelates hhere _ _ hfirst with hout | ⟨middle', hfirst', hmiddle⟩
  · exact .inl (hescape value middle hout result after hlast)
  · rw [bind_of_done hfirst']
    exact hnext value _ _ hmiddle trivial _ _ hlast

/-- The first parser does not escape. -/
theorem bindNever {first first' : Parser α} {next next' : α → Parser β}
    (h : ext.Follows here never first first')
    (hnext : ∀ value, ext.Follows anyKind escape (next value) (next' value)) :
    ext.Follows here escape (first >>= next) (first' >>= next') :=
  bind h hnext fun _ _ hout => hout.elim

/-- The next token decides.  The end of the code and a line break decide alike, or the code may not
end here. -/
theorem look {next next' : TokenKind → Parser β}
    (hnext : ∀ kind, here kind → ext.Follows (· = kind) escape (next kind) (next' kind))
    (hend : next' .lineBreak = next' .endOfCode ∨
      ∀ state result after, next .endOfCode state ≠ .done result after)
    (hblocked : ∀ state, Blocked state → here state.current.kind → ∀ result after,
      next state.current.kind state = .done result after → escape after) :
    ext.Follows here escape (nextKind >>= next) (nextKind >>= next') := by
  intro short long hrelates hhere result after hrun
  have hshort : next short.current.kind short = .done result after := hrun
  rcases hrelates.sees with hout | hsame | ⟨hover, hbreak⟩
  · exact .inl (hblocked short hout hhere result after hshort)
  · have hlong : (nextKind >>= next') long = next' short.current.kind long := by
      rw [← hsame]; rfl
    rw [hlong]
    exact hnext _ hhere _ _ hrelates rfl _ _ hshort
  · rcases hend with halike | hfails
    · have hlong : (nextKind >>= next') long = next' short.current.kind long := by
        rw [hover, ← halike, ← hbreak]; rfl
      rw [hlong]
      exact hnext _ hhere _ _ hrelates rfl _ _ hshort
    · rw [hover] at hshort
      exact absurd hshort (hfails _ _ _)

/-- The token behind a first part decides.  The first part may have escaped to where only some
tokens can stand. -/
theorem thenLook {stop : State → Prop} {first first' : Parser α}
    {next next' : α → TokenKind → Parser β} (h : ext.Follows here stop first first')
    (hblocked : ∀ state, Blocked state → stop state)
    (hnext : ∀ value kind, ext.Follows (· = kind) escape (next value kind) (next' value kind))
    (hend : ∀ value, next' value .lineBreak = next' value .endOfCode ∨
      ∀ state result after, next value .endOfCode state ≠ .done result after)
    (hstop : ∀ value state, stop state → ∀ result after,
      next value state.current.kind state = .done result after → escape after) :
    ext.Follows here escape (first >>= fun value => nextKind >>= next value)
      (first' >>= fun value => nextKind >>= next' value) := by
  refine bind h (fun value => look (fun kind _ => hnext value kind) (hend value) ?_) ?_
  · intro state hout _ result after hrun
    exact hstop value state (hblocked state hout) result after hrun
  · intro value state hout result after hrun
    exact hstop value state hout result after hrun

/-- A token that can only stand in front of the seam is read. -/
theorem advance {next next' : Token → Parser β} (hinside : ∀ kind, here kind → isInside kind = true)
    (hnext : ∀ token, here token.kind → Binds token →
      ext.Follows anyKind escape (next token) (next' (moveToken ext.move token))) :
    ext.Follows here escape (Parser.advance >>= next) (Parser.advance >>= next') := by
  intro short long hrelates hhere result after hrun
  obtain ⟨short', long', hshort, hlong, hrelates', hbinds⟩ :=
    hrelates.advance (hinside _ hhere)
  rw [bind_of_done hshort] at hrun
  rw [bind_of_done hlong]
  exact hnext _ hhere hbinds _ _ hrelates' trivial _ _ hrun

/-- A parser that nothing escapes from is followed whether line breaks count inside or not. -/
theorem countingLineBreaks {counting : Bool} {parser longer : Parser α}
    (h : ext.Follows anyKind never parser longer) :
    ext.Follows here escape (Parser.countingLineBreaks counting parser)
      (Parser.countingLineBreaks counting longer) := by
  intro short long hrelates _ result after hrun
  have hset (state state' : State) (flag flag' : Bool) (hflag : flag' = flag)
      (h : ext.Relates state state') :
      ext.Relates { state with lineBreaks := flag } { state' with lineBreaks := flag' } :=
    ⟨h.rest, h.finish, h.lastStop, hflag⟩
  unfold Parser.countingLineBreaks at hrun ⊢
  split at hrun
  next found middle hinner =>
    cases hrun
    rcases h _ _ (hset _ _ counting counting rfl hrelates) trivial _ _ hinner with hout |
      ⟨middle', hinner', hmiddle⟩
    · exact hout.elim
    · rw [hinner']
      exact .inr ⟨_, rfl, hset _ _ _ _ hrelates.lineBreaks hmiddle⟩
  next => cases hrun
  next => cases hrun

end Extension.Follows

/-! ## Elements and collections -/

/-- A grammar in the longer text follows another on the code alone. -/
structure Extension.GrammarFollows (ext : Extension) (g longer : Grammar) : Prop where
  /-- Its expressions follow. -/
  expression (least : Int) : -100 ≤ least →
    ext.Follows anyKind Stuck (g.expression least) (longer.expression least)
  /-- Its operands follow. -/
  operand : ext.Follows anyKind Stuck g.operand longer.operand
  /-- No expression starts where the runs differ. -/
  expression_blocked {least : Int} {state : State} : Over state → ∀ result after,
    g.expression least state ≠ .done result after
  /-- No operand starts there. -/
  operand_blocked {state : State} : Over state → ∀ result after,
    g.operand state ≠ .done result after
  /-- Its loops go round as often. -/
  rounds : g.rounds ≤ longer.rounds

section Rules

variable {ext : Extension} {g longer : Grammar} {here : TokenKind → Prop}

theorem stays_of_pure {α : Type} {escape : State → Prop} {state after : State} {given result : α}
    (h : escape state) (hrun : (Pure.pure given : Parser α) state = .done result after) :
    escape after := by
  cases hrun
  exact h

/-- An element may end where the shorter text does. -/
theorem element_follows (hg : ext.GrammarFollows g longer) :
    ext.Follows here Stuck (element g) (element longer) := by
  have hexpression := hg.expression colonPrecedence (by decide)
  refine .look (fun kind _ => .thenLook hexpression.weaken (fun _ => Blocked.stuck)
    (fun first kind => ?_) (fun _ => .inl rfl) ?_) (.inl rfl)
    fun state hblocked _ result after hrun => ?_
  · cases kind with
    | pairSeparator =>
      refine .advance (by rintro _ rfl; rfl) fun _ _ _ => ?_
      exact .bind hexpression (fun _ => .pure) fun _ _ hstuck _ _ => stays_of_pure hstuck
    | _ => exact .pure
  · intro first state hstuck result after hrun
    rcases hstuck.kind with hkind | ⟨problem, hkind⟩ | hkind
    all_goals
      rw [hkind] at hrun
      exact stays_of_pure hstuck hrun
  · obtain ⟨first, middle, hfirst, -⟩ := bind_eq_done hrun
    exact absurd hfirst (hg.expression_blocked hblocked.over _ _)

/-- The closers of brackets. -/
def Closer.isBracket : Closer → Bool
  | .list | .group | .block => true
  | .code => false

/-- A closing bracket is a token of the shorter text, so both runs see it. -/
theorem Closer.isInside_of_accepts {closer : Closer} {kind : TokenKind}
    (hcloser : closer.isBracket = true) (h : closer.accepts kind = true) :
    isInside kind = true := by
  cases closer with
  | code => cases hcloser
  | list | group | block =>
    cases kind with
    | listClose | groupClose | blockClose => rfl
    | _ => cases h

theorem Closer.not_accepts_of_halts {closer : Closer} {kind : TokenKind}
    (hcloser : closer.isBracket = true) (h : halts kind = true) : closer.accepts kind = false := by
  cases closer with
  | code => cases hcloser
  | list | group | block =>
    cases kind with
    | endOfCode | groupOpen | unknown _ => rfl
    | _ => cases h

/-- A closer is read, or something else was expected. -/
theorem close_follows {α : Type} {closer : Closer} {kind : TokenKind} {result : α} {what : String}
    {longer : Parser α} (hcloser : closer.isBracket = true) :
    ext.Follows (· = kind) never
      (if closer.accepts kind then Parser.advance >>= fun _ => pure result else expected what)
      (if closer.accepts kind then Parser.advance >>= fun _ => pure result else longer) := by
  cases haccepts : closer.accepts kind with
  | true =>
    refine .advance ?_ fun _ _ _ => .pure
    rintro _ rfl
    exact Closer.isInside_of_accepts hcloser haccepts
  | false => exact .expected

/-- No element starts where nothing is left. -/
theorem elementsLoop_over (hg : ext.GrammarFollows g longer) {closer : Closer} {fuel : Nat}
    {state after : State} {result : List Element} (hover : Over state) :
    elementsLoop g closer fuel state ≠ .done result after := by
  intro hrun
  cases fuel with
  | zero => cases hrun
  | succ fuel =>
    obtain ⟨first, middle, hfirst, -⟩ := bind_eq_done hrun
    obtain ⟨kind, start, hkind, hrest⟩ := bind_eq_done hfirst
    cases hkind
    obtain ⟨value, middle', hvalue, -⟩ := bind_eq_done hrest
    exact hg.expression_blocked hover _ _ hvalue

/-- Each round reads an element, a comma or the bracket.  The induction is on the fuel of the
shorter run. -/
theorem elementsLoop_follows (hg : ext.GrammarFollows g longer) {closer : Closer}
    (hcloser : closer.isBracket = true) {fuel fuel' : Nat} (hfuel : fuel ≤ fuel') :
    ext.Follows here never (elementsLoop g closer fuel) (elementsLoop longer closer fuel') := by
  induction fuel generalizing here fuel' with
  | zero => exact .exhausted
  | succ fuel ih =>
    obtain ⟨fuel', rfl⟩ := Nat.exists_eq_succ_of_ne_zero (by omega : fuel' ≠ 0)
    refine .thenLook (element_follows hg) (fun _ => Blocked.stuck) (fun first kind => ?_)
      (fun first => ?_) ?_
    · cases kind with
      | itemSeparator =>
        refine .advance (by rintro _ rfl; rfl) fun _ _ _ => ?_
        exact .bindNever (ih (by omega)) fun others => .pure
      | _ => exact close_follows hcloser
    · left
      cases closer with
      | code => cases hcloser
      | list | group | block => rfl
    · intro first state hstuck result after hrun
      have hclosed := Closer.not_accepts_of_halts hcloser hstuck.halts
      rcases hstuck.kind with hkind | ⟨problem, hkind⟩ | hkind
      all_goals
        rw [hkind] at hrun hclosed
        simp only [hclosed] at hrun
        cases hrun

/-- Elements up to their closing bracket, which the shorter text has. -/
theorem elements_follows (hg : ext.GrammarFollows g longer) {closer : Closer}
    (hcloser : closer.isBracket = true) :
    ext.Follows here never (elements g closer) (elements longer closer) := by
  refine .look (fun kind _ => ?_) (.inl ?_) ?_
  · cases haccepts : closer.accepts kind with
    | true =>
      refine .advance ?_ fun _ _ _ => .pure
      rintro _ rfl
      exact Closer.isInside_of_accepts hcloser haccepts
    | false => exact elementsLoop_follows hg hcloser hg.rounds
  · cases closer with
    | code => cases hcloser
    | list | group | block => rfl
  · intro state hblocked _ result after hrun
    rw [Closer.not_accepts_of_halts hcloser hblocked.stuck.halts] at hrun
    exact elementsLoop_over hg hblocked.over hrun

/-- At the end of the text no bracket is closed. -/
theorem elements_over (hg : ext.GrammarFollows g longer) {closer : Closer} {state after : State}
    {result : List Element} (hcloser : closer.isBracket = true) (hover : Over state) :
    elements g closer state ≠ .done result after := by
  intro hrun
  obtain ⟨kind, start, hkind, hrest⟩ := bind_eq_done hrun
  cases hkind
  rw [Closer.not_accepts_of_halts hcloser (halts_of_isOver hover)] at hrest
  exact elementsLoop_over hg hover hrest

theorem arguments_follows (hg : ext.GrammarFollows g longer) :
    ext.Follows here never (arguments g) (arguments longer) :=
  .countingLineBreaks (.bindNever (elements_follows hg rfl) fun _ => .pure)

/-- A token of a kind that is asked for is read. -/
theorem expect_follows {α : Type} {escape : State → Prop} {test : TokenKind → Bool}
    {what : String} {next next' : Parser α}
    (htest : ∀ kind, test kind = true → isInside kind = true)
    (hnext : ext.Follows anyKind escape next next') :
    ext.Follows here escape (expect test what >>= fun _ => next)
      (expect test what >>= fun _ => next') := by
  intro short long hrelates _ result after hrun
  obtain ⟨token, middle, hexpect, hlast⟩ := bind_eq_done hrun
  rw [expect_eq] at hexpect
  split at hexpect
  next hcurrent =>
    have hinside := htest _ hcurrent
    obtain ⟨short', long', hshort, hlong, hrelates', -⟩ := hrelates.advance hinside
    cases hshort.symm.trans hexpect
    have hlong' : expect test what long = .done (moveToken ext.move short.current) long' := by
      rw [expect_eq, hrelates.current_inside hinside, moveToken_kind, if_pos hcurrent, hlong]
    rw [bind_of_done hlong']
    exact hnext _ _ hrelates' trivial _ _ hlast
  next => cases hexpect

/-- Nothing else is a token that is asked for. -/
theorem expect_not_done {test : TokenKind → Bool} {what : String} {state after : State}
    {token : Token} (h : test state.current.kind = false) :
    expect test what state ≠ .done token after := by
  rw [expect_eq, h]
  rintro ⟨⟩

/-- Where a collection is well-formed its span is not used. -/
theorem collectionOf_span {found : List Element} {span span' : Span} {value : Value}
    (h : collectionOf found span = .ok value) : collectionOf found span' = .ok value := by
  unfold collectionOf at h ⊢
  split at h
  next items hitems => exact h
  next hitems =>
    split at h
    next => cases h
    next pairs hpairs =>
      split at h
      next hfields => exact h
      next fields hfields =>
        split at h
        next record hrecord => exact h
        next => cases h

/-- Where the items of a collection start only matters for its errors. -/
theorem collectionItems_follows (hg : ext.GrammarFollows g longer) {start start' : Nat} :
    ext.Follows anyKind never
      (do
        let found ← elements g .list
        match collectionOf found ⟨start, ← lastStop⟩ with
        | .ok value => return value
        | .error error => fail error)
      (do
        let found ← elements longer .list
        match collectionOf found ⟨start', ← lastStop⟩ with
        | .ok value => return value
        | .error error => fail error) := by
  refine .bindNever (elements_follows hg rfl) fun found => ?_
  intro short long hrelates _ result after hrun
  rw [bind_of_done (lastStop_eq short)] at hrun
  cases hvalue : collectionOf found ⟨start, short.lastStop⟩ with
  | error error =>
    rw [hvalue] at hrun
    cases hrun
  | ok value =>
    rw [hvalue] at hrun
    cases hrun
    refine .inr ⟨long, ?_, hrelates⟩
    rw [bind_of_done (lastStop_eq long), collectionOf_span hvalue]
    rfl

/-- Where a collection starts only matters for its errors. -/
theorem collection_follows (hg : ext.GrammarFollows g longer) {start start' : Nat} :
    ext.Follows here never (collection g start) (collection longer start') := by
  have hclose (kind : TokenKind) (h : Closer.list.accepts kind = true) : isInside kind = true :=
    Closer.isInside_of_accepts rfl h
  refine .countingLineBreaks (.look (fun kind _ => ?_) (.inl rfl) ?_)
  · cases kind with
    | pairSeparator =>
      refine .advance (by rintro _ rfl; rfl) fun _ _ _ => ?_
      exact expect_follows hclose .pure
    | _ => exact (collectionItems_follows hg).weaken
  · intro state hblocked _ result after hrun
    rcases hblocked.over.kind with hkind | ⟨problem, hkind⟩
    all_goals
      rw [hkind] at hrun
      obtain ⟨found, middle, hfound, -⟩ := bind_eq_done hrun
      exact elements_over hg rfl hblocked.over hfound

theorem group_follows (hg : ext.GrammarFollows g longer) :
    ext.Follows here never (group g) (group longer) := by
  have hclose (kind : TokenKind) (h : Closer.group.accepts kind = true) : isInside kind = true :=
    Closer.isInside_of_accepts rfl h
  refine .countingLineBreaks (.bind (hg.expression 0 (by decide))
    (fun value => expect_follows hclose .pure) fun value state hstuck result after hrun => ?_)
  obtain ⟨token, middle, hexpect, -⟩ := bind_eq_done hrun
  exact expect_not_done (Closer.not_accepts_of_halts rfl hstuck.halts) hexpect

/-! ## Groups, blocks and statements -/

/-- Separators are passed over up to the same token, or up to the end of the code. -/
theorem skipSeparators_follows {fuel fuel' : Nat} (hfuel : fuel ≤ fuel') :
    ext.Follows here Over (skipSeparators fuel) (skipSeparators fuel') := by
  induction fuel generalizing here fuel' with
  | zero => exact .exhausted
  | succ fuel ih =>
    obtain ⟨fuel', rfl⟩ := Nat.exists_eq_succ_of_ne_zero (by omega : fuel' ≠ 0)
    intro short long hrelates _ result after hrun
    rw [skipSeparators_succ] at hrun
    by_cases hseparator : isSeparator short.current.kind = true
    · rw [if_pos hseparator] at hrun
      obtain ⟨token, middle, hread, hmore⟩ := bind_eq_done hrun
      have hsame : long.current.kind = short.current.kind := hrelates.sees_separator hseparator
      rcases hrelates.read_separator hseparator with
        ⟨short', long', hshort, hlong, hrelates'⟩ | ⟨short', hshort, hend⟩
      · cases hshort.symm.trans hread
        rw [skipSeparators_succ, hsame, if_pos hseparator, bind_of_done hlong]
        have hfollows : ext.Follows anyKind Over (skipSeparators fuel) (skipSeparators fuel') :=
          ih (by omega)
        exact hfollows _ _ hrelates' trivial _ _ hmore
      · cases hshort.symm.trans hread
        left
        cases fuel with
        | zero => cases hmore
        | succ fuel =>
          rw [skipSeparators_succ, hend] at hmore
          cases hmore
          rw [Over, hend]
          rfl
    · rw [if_neg hseparator] at hrun
      cases hrun
      rcases hrelates.sees with hblocked | hsame | ⟨hend, -⟩
      · exact .inl hblocked.over
      · refine .inr ⟨long, ?_, hrelates⟩
        rw [skipSeparators_succ, hsame, if_neg hseparator]
      · left
        rw [Over, hend]
        rfl

theorem statementsLoop_follows (hg : ext.GrammarFollows g longer) {fuel fuel' : Nat}
    (hfuel : fuel ≤ fuel') :
    ext.Follows here never (statementsLoop g .block fuel) (statementsLoop longer .block fuel') := by
  induction fuel generalizing here fuel' with
  | zero => exact .exhausted
  | succ fuel ih =>
    obtain ⟨fuel', rfl⟩ := Nat.exists_eq_succ_of_ne_zero (by omega : fuel' ≠ 0)
    refine .thenLook (skipSeparators_follows hg.rounds) (fun _ => Blocked.over) (fun _ kind => ?_)
      (fun _ => .inr (by rintro _ _ _ ⟨⟩)) ?_
    · cases haccepts : Closer.block.accepts kind with
      | true =>
        refine .advance ?_ fun _ _ _ => .pure
        rintro _ rfl
        exact Closer.isInside_of_accepts rfl haccepts
      | false =>
        cases hend : isEnd kind with
        | true => exact .expected
        | false =>
          refine .thenLook (hg.expression 0 (by decide)).weaken (fun _ => Blocked.stuck)
            (fun first kind => ?_) (fun _ => .inr (by rintro _ _ _ ⟨⟩)) ?_
          · cases hmore : isSeparator kind || Closer.block.accepts kind with
            | true => exact .bindNever (ih (by omega)) fun others => .pure
            | false => exact .expected
          · intro first state hstuck result after hrun
            rcases hstuck.kind with hkind | ⟨problem, hkind⟩ | hkind
            all_goals
              rw [hkind] at hrun
              cases hrun
    · intro _ state hover result after hrun
      rcases hover.kind with hkind | ⟨problem, hkind⟩
      · rw [hkind] at hrun
        cases hrun
      · rw [hkind] at hrun
        obtain ⟨first, middle, hfirst, -⟩ := bind_eq_done hrun
        exact hg.expression_blocked hover _ _ hfirst

/-- The statements of a block up to its closing brace. -/
theorem statements_follows (hg : ext.GrammarFollows g longer) :
    ext.Follows here never (statements g .block) (statements longer .block) :=
  .countingLineBreaks (statementsLoop_follows hg hg.rounds)

theorem requiredBlock_follows (hg : ext.GrammarFollows g longer) (keyword : String) :
    ext.Follows here never (requiredBlock g keyword) (requiredBlock longer keyword) := by
  refine .look (fun kind _ => ?_) (.inl rfl) fun state hblocked _ result after hrun => ?_
  · cases kind with
    | blockOpen => exact .advance (by rintro _ rfl; rfl) fun _ _ _ => statements_follows hg
    | _ => exact .of_fails (by rintro _ _ _ ⟨⟩)
  · rcases hblocked.over.kind with hkind | ⟨problem, hkind⟩
    all_goals
      rw [hkind] at hrun
      cases hrun

/-- A block is missing where a parser is stuck. -/
theorem requiredBlock_stuck {keyword : String} {state after : State} {result : List Value}
    (h : Stuck state) : requiredBlock g keyword state ≠ .done result after := by
  intro hrun
  obtain ⟨kind, middle, hkind, hrest⟩ := bind_eq_done hrun
  cases hkind
  rcases h.kind with hkind | ⟨problem, hkind⟩ | hkind
  all_goals
    rw [hkind] at hrest
    cases hrest

/-! ## Commands -/

theorem isInside_of_isWord {word : String} {kind : TokenKind} (h : isWord word kind = true) :
    isInside kind = true := by
  cases kind with
  | endOfCode | lineBreak | unknown _ => cases h
  | _ => rfl

/-- A word may be missing at the end of the shorter text. -/
theorem takeWord_follows (word : String) :
    ext.Follows here Blocked (takeWord word) (takeWord word) := by
  refine .look (fun kind _ => ?_) (.inl rfl) fun state hblocked _ result after hrun => ?_
  · cases hword : isWord word kind with
    | true =>
      refine .advance ?_ fun _ _ _ => .pure
      rintro _ rfl
      exact isInside_of_isWord hword
    | false => exact .pure
  · rcases hblocked.over.kind with hkind | ⟨problem, hkind⟩
    all_goals
      rw [hkind] at hrun
      exact stays_of_pure hblocked hrun

theorem takeName_follows (what : String) :
    ext.Follows here never (takeName what) (takeName what) := by
  refine .look (fun kind _ => ?_) (.inl rfl) fun state hblocked _ result after hrun => ?_
  · cases kind with
    | identifier name quoted => exact .advance (by rintro _ rfl; rfl) fun _ _ _ => .pure
    | _ => exact .expected
  · rcases hblocked.over.kind with hkind | ⟨problem, hkind⟩
    all_goals
      rw [hkind] at hrun
      cases hrun

/-- So may the coercion behind it. -/
theorem coercionAfter_follows (hg : ext.GrammarFollows g longer) (word : String) :
    ext.Follows here Stuck (coercionAfter g word) (coercionAfter longer word) := by
  refine .bind (takeWord_follows word) (fun came => ?_)
    fun came state hblocked result after hrun => ?_
  · cases came with
    | true => exact hg.operand
    | false => exact .pure
  · cases came with
    | true => exact absurd hrun (hg.operand_blocked hblocked.over _ _)
    | false => exact stays_of_pure hblocked.stuck hrun

/-- No coercion is left to read where nothing is. -/
theorem coercionAfter_blocked {word : String}
    {state after : State} {result : Value} (hblocked : Blocked state)
    (hrun : coercionAfter g word state = .done result after) : Stuck after := by
  obtain ⟨came, middle, hcame, hrest⟩ := bind_eq_done hrun
  obtain ⟨kind, start, hkind, hword⟩ := bind_eq_done hcame
  cases hkind
  rcases hblocked.over.kind with hkind | ⟨problem, hkind⟩
  all_goals
    rw [hkind] at hword
    cases hword
    exact stays_of_pure hblocked.stuck hrest

theorem parameter_follows (hg : ext.GrammarFollows g longer) :
    ext.Follows here Stuck (parameter g) (parameter longer) := by
  refine .bindNever (takeName_follows _) fun label => ?_
  have hrest (binding : String) : ext.Follows anyKind Stuck
      (do
        let wanted ← coercionAfter g "as"
        return Value.list [.ofString label, .ofString binding, wanted])
      (do
        let wanted ← coercionAfter longer "as"
        return Value.list [.ofString label, .ofString binding, wanted]) :=
    .bind (coercionAfter_follows hg "as") (fun _ => .pure)
      fun _ _ hstuck _ _ => stays_of_pure hstuck
  refine .look (fun kind _ => ?_) (.inl rfl) fun state hblocked _ result after hrun => ?_
  · cases kind with
    | pairSeparator =>
      refine .advance (by rintro _ rfl; rfl) fun _ _ _ => ?_
      exact .bindNever (takeName_follows _) hrest
    | _ => exact (hrest label).weaken
  · have hlast : (coercionAfter g "as" >>= fun wanted =>
        pure (Value.list [.ofString label, .ofString label, wanted])) state =
          .done result after := by
      rcases hblocked.over.kind with hkind | ⟨problem, hkind⟩
      all_goals
        rw [hkind] at hrun
        exact hrun
    obtain ⟨wanted, middle, hwanted, hdone⟩ := bind_eq_done hlast
    exact stays_of_pure (coercionAfter_blocked hblocked hwanted) hdone

/-- No parameter starts where nothing is left. -/
theorem parametersLoop_over {fuel : Nat} {state after : State} {result : List Value}
    (hover : Over state) : parametersLoop g fuel state ≠ .done result after := by
  intro hrun
  cases fuel with
  | zero => cases hrun
  | succ fuel =>
    obtain ⟨first, middle, hfirst, -⟩ := bind_eq_done hrun
    obtain ⟨label, start, hlabel, -⟩ := bind_eq_done hfirst
    obtain ⟨kind, same, hkind, hname⟩ := bind_eq_done hlabel
    cases hkind
    rcases hover.kind with hkind | ⟨problem, hkind⟩
    all_goals
      rw [hkind] at hname
      cases hname

theorem parametersLoop_follows (hg : ext.GrammarFollows g longer) {fuel fuel' : Nat}
    (hfuel : fuel ≤ fuel') :
    ext.Follows here never (parametersLoop g fuel) (parametersLoop longer fuel') := by
  induction fuel generalizing here fuel' with
  | zero => exact .exhausted
  | succ fuel ih =>
    obtain ⟨fuel', rfl⟩ := Nat.exists_eq_succ_of_ne_zero (by omega : fuel' ≠ 0)
    refine .thenLook (parameter_follows hg) (fun _ => Blocked.stuck) (fun first kind => ?_)
      (fun _ => .inl rfl) ?_
    · cases kind with
      | itemSeparator =>
        refine .advance (by rintro _ rfl; rfl) fun _ _ _ => ?_
        exact .bindNever (ih (by omega)) fun others => .pure
      | groupClose => exact .advance (by rintro _ rfl; rfl) fun _ _ _ => .pure
      | _ => exact .expected
    · intro first state hstuck result after hrun
      rcases hstuck.kind with hkind | ⟨problem, hkind⟩ | hkind
      all_goals
        rw [hkind] at hrun
        cases hrun

theorem parameters_follows (hg : ext.GrammarFollows g longer) :
    ext.Follows here never (parameters g) (parameters longer) := by
  refine expect_follows ?_ (.countingLineBreaks (.look (fun kind _ => ?_) (.inl rfl) ?_))
  · intro kind hkind
    cases kind with
    | groupOpen => rfl
    | _ => cases hkind
  · cases kind with
    | groupClose => exact .advance (by rintro _ rfl; rfl) fun _ _ _ => .pure
    | _ => exact parametersLoop_follows hg hg.rounds
  · intro state hblocked _ result after hrun
    have hloop : parametersLoop g g.rounds state = .done result after := by
      rcases hblocked.over.kind with hkind | ⟨problem, hkind⟩
      all_goals
        rw [hkind] at hrun
        exact hrun
    exact parametersLoop_over hblocked.over hloop

/-- A definition ends with its block, so nothing escapes. -/
theorem definitionCommand_follows (hg : ext.GrammarFollows g longer) (op : Operator)
    (isEvent : Bool) :
    ext.Follows here never (definitionCommand g op isEvent)
      (definitionCommand longer op isEvent) := by
  refine .bindNever (takeName_follows _) fun name =>
    .bindNever (parameters_follows hg) fun found => ?_
  refine .bind (coercionAfter_follows hg _) (fun returns => ?_)
    fun returns state hstuck result after hrun => ?_
  · exact .bindNever (requiredBlock_follows hg _) fun action => .pure
  · obtain ⟨action, middle, haction, -⟩ := bind_eq_done hrun
    exact requiredBlock_stuck hstuck haction

/-- An operator that binds more tightly than a line break. -/
theorem startingOperator_follows (hg : ext.GrammarFollows g longer) {token token' : Token}
    {op : Operator} (hop : 0 ≤ op.precedence) :
    ext.Follows here Stuck (startingOperator g token op) (startingOperator longer token' op) := by
  have hexpression := hg.expression op.precedence (by omega)
  unfold startingOperator
  cases op.form with
  | atom => exact .pure
  | before =>
    exact .bind hexpression.weaken (fun _ => .pure) fun _ _ hstuck _ _ => stays_of_pure hstuck
  | keywordBlock =>
    refine .bind hexpression.weaken (fun operand => ?_)
      fun operand state hstuck result after hrun => ?_
    · exact .bindNever (requiredBlock_follows hg _) fun body => .pure
    · obtain ⟨body, middle, hbody, -⟩ := bind_eq_done hrun
      exact absurd hbody (requiredBlock_stuck hstuck)
  | commandHandler => exact (definitionCommand_follows hg op false).mono fun _ hout => hout.elim
  | eventHandler => exact (definitionCommand_follows hg op true).mono fun _ hout => hout.elim
  | between | betweenRight | after => exact .fail

/-- A right operand may end where the shorter text does. -/
theorem continuingOperator_follows (hg : ext.GrammarFollows g longer) {token token' : Token}
    {op : Operator} (hop : 0 ≤ op.precedence) (left : Value) :
    ext.Follows here Stuck (continuingOperator g token left op)
      (continuingOperator longer token' left op) := by
  unfold continuingOperator
  cases op.form with
  | between =>
    have hright := hg.expression op.precedence (by omega)
    exact .bind hright.weaken (fun _ => .pure) fun _ _ hstuck _ _ => stays_of_pure hstuck
  | betweenRight =>
    have hright := hg.expression (looser op.precedence) (by unfold looser; omega)
    exact .bind hright.weaken (fun _ => .pure) fun _ _ hstuck _ _ => stays_of_pure hstuck
  | after => exact .pure
  | atom | before | keywordBlock | commandHandler | eventHandler => exact .fail

/-! ## Operands and expressions -/

theorem loneArgument_follows (hg : ext.GrammarFollows g longer) (name : String)
    (kind : TokenKind) :
    ext.Follows here Stuck (loneArgument g name kind) (loneArgument longer name kind) := by
  unfold loneArgument
  split
  next =>
    exact .bind hg.operand.weaken (fun _ => .pure) fun _ _ hstuck _ _ => stays_of_pure hstuck
  next => exact .pure

/-- A name at the end may take an argument from the longer text; then the shorter run is stuck. -/
theorem nameOrCommand_follows (hg : ext.GrammarFollows g longer) (name : String) :
    ext.Follows here Stuck (nameOrCommand g name) (nameOrCommand longer name) := by
  have halone (kind : TokenKind) :
      ext.Follows anyKind Stuck (loneArgument g name kind) (loneArgument longer name kind) :=
    loneArgument_follows hg name kind
  intro short long hrelates _ result after hrun
  by_cases hopens : short.OpensArguments
  · have hinside : isInside short.current.kind = true := by rw [hopens.1]; rfl
    have hopens' : long.OpensArguments := by
      rw [State.OpensArguments, hrelates.current_inside hinside, moveToken_kind, hrelates.lastStop]
      exact ⟨hopens.1, congrArg ext.move hopens.2⟩
    rw [nameOrCommand_opened hopens] at hrun
    rw [nameOrCommand_opened hopens']
    have hcommand : ext.Follows (· = short.current.kind) Stuck
        (do
          let _ ← advance
          let found ← arguments g
          return Value.command (.ofValues (.ofString name) found))
        (do
          let _ ← advance
          let found ← arguments longer
          return Value.command (.ofValues (.ofString name) found)) := by
      refine .advance ?_ fun _ _ _ => .bindNever (arguments_follows hg) fun _ => .pure
      rintro _ rfl
      exact hinside
    exact hcommand _ _ hrelates rfl _ _ hrun
  · rw [nameOrCommand_alone hopens] at hrun
    by_cases hkind : short.current.kind = .groupOpen
    · left
      rw [hkind] at hrun
      exact stays_of_pure (.inr ⟨hkind, fun htouches => hopens ⟨hkind, htouches⟩⟩) hrun
    · have hlong (hsame : long.current.kind ≠ .groupOpen) :
          nameOrCommand longer name long = loneArgument longer name long.current.kind long :=
        nameOrCommand_alone fun hopens' => hsame hopens'.1
      rcases hrelates.sees with hblocked | hsame | ⟨hend, hbreak⟩
      · left
        rcases hblocked.over.kind with hkind | ⟨problem, hkind⟩
        all_goals
          rw [hkind] at hrun
          exact stays_of_pure hblocked.stuck hrun
      · rw [hlong (hsame ▸ hkind), hsame]
        exact halone _ _ _ hrelates trivial _ _ hrun
      · rw [hlong (by rw [hbreak]; rintro ⟨⟩), hbreak]
        rw [hend] at hrun
        exact halone .endOfCode _ _ hrelates trivial _ _ hrun

/-- No operand starts at the end of the code, at a line break or at what can't be read. -/
theorem operandWith_fails {state after : State} {result : Value}
    (h : isInside state.current.kind = false) : operandWith g state ≠ .done result after := by
  intro hrun
  obtain ⟨token, middle, htoken, hrest⟩ := bind_eq_done hrun
  obtain ⟨start, hstart⟩ := advance_current state
  cases hstart.symm.trans htoken
  cases hkind : state.current.kind with
  | endOfCode | lineBreak | unknown _ =>
    simp only [hkind] at hrest
    cases hrest
  | _ =>
    rw [hkind] at h
    cases h

theorem operandWith_follows (hg : ext.GrammarFollows g longer) :
    ext.Follows here Stuck (operandWith g) (operandWith longer) := by
  have hinside : ext.Follows (fun kind => isInside kind = true) Stuck (operandWith g)
      (operandWith longer) := by
    refine .advance (fun _ h => h) fun token htoken hbinds => ?_
    have hnever {parser parser' : Parser Value} (h : ext.Follows anyKind never parser parser') :
        ext.Follows anyKind Stuck parser parser' :=
      h.mono fun _ hout => hout.elim
    rw [moveToken_kind]
    cases hkind : token.kind with
    | number _ _ | text _ | tag _ => exact .pure
    | identifier name _ => exact nameOrCommand_follows hg name
    | groupOpen => exact hnever (group_follows hg)
    | listOpen => exact hnever (collection_follows hg)
    | blockOpen => exact .bindNever (statements_follows hg) fun _ => .pure
    | operator found =>
      dsimp only
      cases hop : found.starting? with
      | some op => exact startingOperator_follows hg (hbinds found hkind op (.inl hop))
      | none => exact .fail
    | _ => exact .fail
  intro short long hrelates _ result after hrun
  cases hkind : isInside short.current.kind with
  | true => exact hinside _ _ hrelates hkind _ _ hrun
  | false => exact absurd hrun (operandWith_fails hkind)

theorem operation_follows (hg : ext.GrammarFollows g longer) (left : Value)
    (hinside : ∀ kind, here kind → isInside kind = true) :
    ext.Follows here Stuck (operation g left) (operation longer left) := by
  refine .advance hinside fun token htoken hbinds => ?_
  rw [moveToken_kind]
  cases hkind : token.kind with
  | pairSeparator =>
    have hright := hg.expression colonPrecedence (by decide)
    exact .bind hright (fun _ => .pure) fun _ _ hstuck _ _ => stays_of_pure hstuck
  | operator found =>
    dsimp only
    cases hop : found.continuing? with
    | some op => exact continuingOperator_follows hg (hbinds found hkind op (.inr hop)) left
    | none => exact .fail
  | _ => exact .fail

/-- No operation follows where a parser is stuck. -/
theorem operations_stuck {least : Int} (hleast : -100 ≤ least) {fuel : Nat} {left result : Value}
    {state after : State} (hstuck : Stuck state)
    (hrun : operations g least fuel left state = .done result after) : Stuck after := by
  cases fuel with
  | zero => cases hrun
  | succ fuel =>
    obtain ⟨kind, middle, hkind, hrest⟩ := bind_eq_done hrun
    cases hkind
    rcases hstuck.kind with hkind | ⟨problem, hkind⟩ | hkind
    · have hend : precedence? .endOfCode = some (-10000) := rfl
      simp only [hkind, hend, if_pos (by omega : (-10000 : Int) ≤ least)] at hrest
      exact stays_of_pure hstuck hrest
    · rw [hkind] at hrest
      exact stays_of_pure hstuck hrest
    · rw [hkind] at hrest
      exact stays_of_pure hstuck hrest

/-- What binds more tightly than a line break stands in front of the seam. -/
theorem isInside_of_tighter {kind : TokenKind} {least precedence : Int} (hleast : -100 ≤ least)
    (h : precedence? kind = some precedence) (htighter : ¬ precedence ≤ least) :
    isInside kind = true := by
  cases kind with
  | endOfCode | lineBreak =>
    cases h
    omega
  | unknown _ => cases h
  | _ => rfl

/-- Operators are taken as long as they are tokens of the shorter text. -/
theorem operations_follows (hg : ext.GrammarFollows g longer) {least : Int} (hleast : -100 ≤ least)
    {fuel fuel' : Nat} (hfuel : fuel ≤ fuel') (left : Value) :
    ext.Follows here Stuck (operations g least fuel left) (operations longer least fuel' left) := by
  induction fuel generalizing here fuel' left with
  | zero => exact .exhausted
  | succ fuel ih =>
    obtain ⟨fuel', rfl⟩ := Nat.exists_eq_succ_of_ne_zero (by omega : fuel' ≠ 0)
    refine .look (fun kind _ => ?_) (.inl ?_) fun state hblocked _ result after hrun => ?_
    · cases hprecedence : precedence? kind with
      | none => exact .pure
      | some precedence =>
        dsimp only
        split
        next => exact .pure
        next htighter =>
          refine .bind (operation_follows hg left ?_) (fun value => ih (by omega) value)
            fun value state hstuck result after hrun => operations_stuck hleast hstuck hrun
          rintro _ rfl
          exact isInside_of_tighter hleast hprecedence htighter
    · have hbreak : precedence? .lineBreak = some (-100) := rfl
      have hend : precedence? .endOfCode = some (-10000) := rfl
      simp only [hbreak, hend, if_pos hleast, if_pos (by omega : (-10000 : Int) ≤ least)]
    · have hrun' : operations g least (fuel + 1) left state = .done result after := hrun
      exact operations_stuck hleast hblocked.stuck hrun'

/-- A grammar is followed by any with as much fuel. -/
theorem grammar_follows {fuel fuel' : Nat} (hfuel : fuel ≤ fuel') :
    ext.GrammarFollows (grammar fuel) (grammar fuel') := by
  induction fuel generalizing fuel' with
  | zero =>
    refine ⟨fun _ _ => .exhausted, .exhausted, ?_, ?_, hfuel⟩
    · rintro _ _ _ _ _ ⟨⟩
    · rintro _ _ _ _ ⟨⟩
  | succ fuel ih =>
    obtain ⟨fuel', rfl⟩ := Nat.exists_eq_succ_of_ne_zero (by omega : fuel' ≠ 0)
    have hg := ih (Nat.le_of_succ_le_succ hfuel)
    refine ⟨fun least hleast => ?_, operandWith_follows hg, ?_, ?_, hfuel⟩
    · exact .bind hg.operand (fun left => operations_follows hg hleast hg.rounds left)
        fun left state hstuck result after hrun => operations_stuck hleast hstuck hrun
    · intro least state hover result after hrun
      obtain ⟨left, middle, hleft, -⟩ := bind_eq_done hrun
      exact hg.operand_blocked hover _ _ hleft
    · intro state hover result after hrun
      exact operandWith_fails (not_isInside_of_isOver hover) hrun

end Rules

end Parser

end CommandScript
