import CommandScript.Proofs.Lexing

/-!
# Lexemes

A lexeme is a token together with the characters it was read from.  Put together again, the
characters of all lexemes are the text.  So nothing is lost and nothing is read twice, whatever the
text and whatever the operators.

The tokens of a source text are its lexemes with their places.  As long as all offsets fit into a
span, the tokens tile the text: each starts where the one before it stopped, none is empty, and all
start and stop between characters.  The text that an operator, a name without quotes or a number
carries is what is written there.
-/

namespace CommandScript

/-- A token and the characters it was read from. -/
structure Lexeme where
  /-- What the token is. -/
  kind : TokenKind
  /-- The characters. -/
  text : List Char

/-- Tokens side by side, from one offset to another, and none of them empty. -/
def Tile : (start : Nat) → List Token → (stop : Nat) → Prop
  | start, [], stop => start = stop
  | start, token :: others, stop =>
    token.span.start = start ∧ start < token.span.stop ∧ Tile token.span.stop others stop

namespace TokenKind

/-- Whether the token is one of the two marks around the tokens of a source text. -/
def isMark : TokenKind → Bool
  | .startOfCode | .endOfCode => true
  | _ => false

/-- The text that a token carries as it is written. -/
def written? : TokenKind → Option String
  | .operator found => some found.text
  | .identifier name false => some name
  | .number literal _ => some literal
  | _ => none

end TokenKind

/-- A token stands between characters of a text, and carries what is written there. -/
def Token.Shows (source : List Char) (token : Token) : Prop :=
  ∃ slice, sliceBytes? source token.span.start token.span.stop = some slice ∧
    ∀ text ∈ token.kind.written?, text = String.ofList slice

namespace Lexer

variable {registry : Registry} {afterOperand : Bool}

/-! ## The lexemes of a text -/

/-- The lexemes of the rest of a source text. -/
def lexemesFrom (registry : Registry) (afterOperand : Bool) : List Char → List Lexeme
  | [] => []
  | c :: cs =>
    let (kind, count) := scan registry afterOperand c cs
    let afterOperand := if kind.isTrivia then afterOperand else kind.canEndOperand
    ⟨kind, c :: cs.take count⟩ :: lexemesFrom registry afterOperand (cs.drop count)
termination_by cs => cs.length
decreasing_by
  rw [List.length_drop, List.length_cons]
  omega

/-- Lexemes with their places, from an offset on. -/
def placeFrom : (offset : Nat) → List Lexeme → List Token
  | _, [] => []
  | offset, lexeme :: others =>
    ⟨lexeme.kind, .ofOffsets offset (offset + byteLength lexeme.text)⟩ ::
      placeFrom (offset + byteLength lexeme.text) others

/-- The characters of some lexemes. -/
def textOf (lexemes : List Lexeme) : List Char := lexemes.flatMap Lexeme.text

@[simp] theorem textOf_nil : textOf [] = [] := rfl

@[simp] theorem textOf_cons (lexeme : Lexeme) (others : List Lexeme) :
    textOf (lexeme :: others) = lexeme.text ++ textOf others :=
  List.flatMap_cons

theorem lexemesFrom_nil : lexemesFrom registry afterOperand [] = [] := by rw [lexemesFrom]

/-- The first lexeme has the characters of its token, and the others are read from there. -/
theorem lexemesFrom_cons {c : Char} {cs : List Char} {kind : TokenKind} {count : Nat}
    (h : scan registry afterOperand c cs = (kind, count)) :
    lexemesFrom registry afterOperand (c :: cs) =
      ⟨kind, c :: cs.take count⟩ ::
        lexemesFrom registry (if kind.isTrivia then afterOperand else kind.canEndOperand)
          (cs.drop count) := by
  rw [lexemesFrom.eq_def]
  simp only [h]

/-- Lexeme by lexeme, for a given text. -/
theorem lexemesFrom_step {c : Char} {cs : List Char} {kind : TokenKind} {count : Nat}
    {others : List Lexeme} (h : scan registry afterOperand c cs = (kind, count))
    (hothers : lexemesFrom registry (if kind.isTrivia then afterOperand else kind.canEndOperand)
      (cs.drop count) = others) :
    lexemesFrom registry afterOperand (c :: cs) = ⟨kind, c :: cs.take count⟩ :: others := by
  rw [lexemesFrom_cons h, hothers]

/-- Nothing of a text is lost. -/
theorem textOf_lexemesFrom (registry : Registry) (afterOperand : Bool) (cs : List Char) :
    textOf (lexemesFrom registry afterOperand cs) = cs := by
  fun_induction lexemesFrom registry afterOperand cs with
  | case1 => rfl
  | case2 afterOperand c cs kind count hscan after ih =>
    rw [textOf_cons, ih, List.cons_append, List.take_append_drop]

/-- The tokens of a text are its lexemes with their places, and the end mark. -/
theorem tokensFrom_eq_placeFrom (registry : Registry) (offset : Nat) (afterOperand : Bool)
    (cs : List Char) :
    tokensFrom registry offset afterOperand cs =
      placeFrom offset (lexemesFrom registry afterOperand cs) ++
        [⟨.endOfCode, .ofOffsets (offset + byteLength cs) (offset + byteLength cs)⟩] := by
  fun_induction tokensFrom registry offset afterOperand cs with
  | case1 offset afterOperand =>
    rw [lexemesFrom_nil]
    rfl
  | case2 offset afterOperand c cs kind count hscan stop after ih =>
    have hstop : stop + byteLength (cs.drop count) = offset + byteLength (c :: cs) := by
      rw [Nat.add_assoc, ← byteLength_append, List.cons_append, List.take_append_drop]
    rw [ih, lexemesFrom_cons hscan, placeFrom, List.cons_append, hstop]
    rfl

/-! ## What a lexeme is -/

theorem punctuation?_plain {c : Char} {kind : TokenKind} (h : punctuation? c = some kind) :
    kind.isMark = false ∧ kind.written? = none := by
  unfold punctuation? at h
  split at h
  all_goals
    cases h
    try exact ⟨rfl, rfl⟩

/-- What is read is no mark, and carries the text that was read. -/
def IsLexeme (c : Char) (cs : List Char) (found : TokenKind × Nat) : Prop :=
  found.1.isMark = false ∧
    ∀ text ∈ found.1.written?, text = String.ofList (c :: cs.take found.2)

/-- A token with no more to say than what it is. -/
theorem isLexeme_of_plain {c : Char} {cs : List Char} {kind : TokenKind} {count : Nat}
    (hmark : kind.isMark = false) (hwritten : kind.written? = none) :
    IsLexeme c cs (kind, count) := by
  refine ⟨hmark, fun text htext => ?_⟩
  simp only [hwritten] at htext
  cases htext

theorem isLexeme_quoted {make : String → TokenKind} {c : Char} {cs : List Char} {count : Nat}
    (name : Except Unreadable String)
    (hmake : ∀ name, (make name).isMark = false ∧ (make name).written? = none) :
    IsLexeme c cs (orUnknown make name, count) := by
  cases name with
  | ok name => exact isLexeme_of_plain (hmake name).1 (hmake name).2
  | error problem => exact isLexeme_of_plain rfl rfl

theorem isLexeme_tag (c : Char) (cs : List Char) : IsLexeme c cs (tagToken cs) := by
  unfold tagToken
  split
  next =>
    split
    next => exact isLexeme_quoted _ fun _ => ⟨rfl, rfl⟩
    next =>
      split
      next => exact isLexeme_of_plain rfl rfl
      next => exact isLexeme_of_plain rfl rfl
  next => exact isLexeme_of_plain rfl rfl

/-- Each reader gives a lexeme: what it carries are its characters. -/
theorem isLexeme_number (c : Char) (cs : List Char) : IsLexeme c cs (numberToken c cs) := by
  unfold numberToken
  split
  next => exact isLexeme_of_plain rfl rfl
  next found hfound =>
    dsimp only
    split
    next =>
      refine ⟨rfl, ?_⟩
      rintro _ ⟨⟩
      rfl
    next => exact isLexeme_of_plain rfl rfl

theorem isLexeme_word (registry : Registry) (c : Char) (cs : List Char) :
    IsLexeme c cs (wordToken registry c cs) := by
  have htake : cs.take (cs.takeWhile Character.continuesName).length =
      cs.takeWhile Character.continuesName :=
    (List.prefix_iff_eq_take.1 (List.takeWhile_prefix _)).symm
  unfold wordToken
  dsimp only
  split
  next found hfound =>
    refine ⟨rfl, ?_⟩
    rintro _ ⟨⟩
    rw [Registry.find?_text hfound, htake]
  next =>
    refine ⟨rfl, ?_⟩
    rintro _ ⟨⟩
    rw [htake]

theorem isLexeme_symbols (registry : Registry) (c : Char) (cs : List Char) :
    IsLexeme c cs (symbolsToken registry c cs) := by
  unfold symbolsToken
  split
  next found count hfound =>
    simp only [Registry.findSymbols?, Option.bind_eq_bind, Option.bind_eq_some_iff] at hfound
    obtain ⟨length, hlength, known, hknown, hfound⟩ := hfound
    cases hfound
    have hpos := (SymbolSet.longest?_le hlength).1
    refine ⟨rfl, ?_⟩
    rintro _ ⟨⟩
    rw [Registry.find?_text hknown, ← List.take_succ_cons, Nat.sub_add_cancel hpos]
  next => exact isLexeme_of_plain rfl rfl

/-- What is read off some characters is no mark, and carries what they are. -/
theorem isLexeme_scan (registry : Registry) (afterOperand : Bool) (c : Char) (cs : List Char) :
    IsLexeme c cs (scan registry afterOperand c cs) := by
  have hreads := scan_reads registry afterOperand c cs
  generalize scan registry afterOperand c cs = found at hreads
  cases hreads with
  | lineBreak _ | blanks | unexpected => exact isLexeme_of_plain rfl rfl
  | punctuation hkind =>
    obtain ⟨hmark, hwritten⟩ := punctuation?_plain hkind
    exact isLexeme_of_plain hmark hwritten
  | note =>
    unfold noteToken
    split <;> exact isLexeme_of_plain rfl rfl
  | tag => exact isLexeme_tag c cs
  | text =>
    unfold textToken
    split <;> exact isLexeme_of_plain rfl rfl
  | quoted => exact isLexeme_quoted _ fun _ => ⟨rfl, rfl⟩
  | number => exact isLexeme_number c cs
  | word _ => exact isLexeme_word registry c cs
  | symbols => exact isLexeme_symbols registry c cs

/-- A lexeme of a text has a character, is no mark, and carries its characters. -/
structure IsWhole (lexeme : Lexeme) : Prop where
  /-- It has a character. -/
  nonempty : lexeme.text ≠ []
  /-- It is no mark. -/
  inside : lexeme.kind.isMark = false
  /-- It carries its characters. -/
  written : ∀ text ∈ lexeme.kind.written?, text = String.ofList lexeme.text

/-- Every lexeme of a text is whole. -/
theorem isWhole_of_mem {cs : List Char} {lexeme : Lexeme}
    (h : lexeme ∈ lexemesFrom registry afterOperand cs) : IsWhole lexeme := by
  fun_induction lexemesFrom registry afterOperand cs with
  | case1 => cases h
  | case2 afterOperand c cs kind count hscan after ih =>
    rcases List.mem_cons.1 h with rfl | hothers
    · have hlexeme := isLexeme_scan registry afterOperand c cs
      rw [hscan] at hlexeme
      exact ⟨List.cons_ne_nil _ _, hlexeme.1, hlexeme.2⟩
    · exact ih hothers

end Lexer

/-! ## Places -/

theorem byteLength_pos {cs : List Char} (h : cs ≠ []) : 0 < byteLength cs := by
  cases cs with
  | nil => exact absurd rfl h
  | cons c cs => exact Nat.add_pos_left c.utf8Size_pos _

/-- What starts a text has no more bytes. -/
theorem byteLength_le_of_prefix {front cs : List Char} (h : front <+: cs) :
    byteLength front ≤ byteLength cs := by
  obtain ⟨rest, rfl⟩ := h
  rw [byteLength_append]
  exact Nat.le_add_right ..

theorem splitBytes?_append (front rest : List Char) :
    splitBytes? (byteLength front) (front ++ rest) = some (front, rest) := by
  induction front with
  | nil => simp [splitBytes?]
  | cons c front ih =>
    obtain ⟨size, hsize⟩ := Nat.exists_eq_succ_of_ne_zero (Nat.ne_of_gt c.utf8Size_pos)
    have hlength : byteLength (c :: front) = size + byteLength front + 1 := by
      rw [byteLength_cons, hsize]
      omega
    rw [hlength, List.cons_append, splitBytes?, if_pos (by omega), hsize,
      show size + byteLength front + 1 - (size + 1) = byteLength front by omega, ih]
    rfl

/-- Between the byte lengths of what stands before and of what is meant, just that is cut out. -/
theorem sliceBytes?_append (front piece back : List Char) :
    sliceBytes? (front ++ piece ++ back) (byteLength front)
      (byteLength front + byteLength piece) = some piece := by
  rw [sliceBytes?, List.append_assoc, splitBytes?_append]
  simp only [Option.bind_eq_bind, Option.bind_some, Nat.not_lt.2 (Nat.le_add_right ..), if_false,
    Nat.add_sub_cancel_left, splitBytes?_append]

namespace Lexer

variable {lexemes : List Lexeme}

/-- Lexemes in their places tile the text. -/
theorem tile_placeFrom {offset : Nat} (hlexemes : ∀ lexeme ∈ lexemes, IsWhole lexeme)
    (hsize : offset + byteLength (textOf lexemes) ≤ Span.maxOffset) :
    Tile offset (placeFrom offset lexemes) (offset + byteLength (textOf lexemes)) := by
  induction lexemes generalizing offset with
  | nil => rfl
  | cons lexeme others ih =>
    obtain ⟨hlexeme, hothers⟩ := List.forall_mem_cons.1 hlexemes
    have hpos := byteLength_pos hlexeme.nonempty
    rw [textOf_cons, byteLength_append, ← Nat.add_assoc] at hsize ⊢
    have hstop : min (offset + byteLength lexeme.text) Span.maxOffset =
        offset + byteLength lexeme.text :=
      Nat.min_eq_left (by omega)
    refine ⟨Nat.min_eq_left (by omega), ?_, ?_⟩
    · simp only [Span.ofOffsets, hstop]
      omega
    · simp only [Span.ofOffsets, hstop]
      exact ih hothers hsize

/-- Lexemes in their places show the text. -/
theorem shows_placeFrom {front : List Char} (hlexemes : ∀ lexeme ∈ lexemes, IsWhole lexeme)
    (hsize : byteLength (front ++ textOf lexemes) ≤ Span.maxOffset) :
    ∀ token ∈ placeFrom (byteLength front) lexemes,
      token.kind.isMark = false ∧ token.Shows (front ++ textOf lexemes) := by
  induction lexemes generalizing front with
  | nil => exact List.forall_mem_nil _
  | cons lexeme others ih =>
    obtain ⟨hlexeme, hothers⟩ := List.forall_mem_cons.1 hlexemes
    have hfront : front ++ textOf (lexeme :: others) = front ++ lexeme.text ++ textOf others := by
      rw [textOf_cons, List.append_assoc]
    rw [hfront] at hsize ⊢
    refine List.forall_mem_cons.2 ⟨⟨hlexeme.inside, lexeme.text, ?_, hlexeme.written⟩, ?_⟩
    · simp only [byteLength_append] at hsize
      simp only [Span.ofOffsets]
      rw [Nat.min_eq_left (by omega), Nat.min_eq_left (by omega), sliceBytes?_append]
    · rw [← byteLength_append]
      exact ih hothers hsize

end Lexer

/-- A source text whose offsets fit into a span is cut into tokens without a gap.  In front of them
stands the start mark and behind them the end mark, and neither stands anywhere else.  The tokens
tile the text, and show what is written in it. -/
theorem tokenize_tiles (registry : Registry) {source : String}
    (hsize : byteLength source.toList ≤ Span.maxOffset) :
    ∃ tokens,
      tokenize registry source = ⟨.startOfCode, ⟨0, 0⟩⟩ :: (tokens ++
        [⟨.endOfCode, ⟨byteLength source.toList, byteLength source.toList⟩⟩]) ∧
      Tile 0 tokens (byteLength source.toList) ∧
      ∀ token ∈ tokens, token.kind.isMark = false ∧ token.Shows source.toList := by
  have hwhole : ∀ lexeme ∈ Lexer.lexemesFrom registry false source.toList, Lexer.IsWhole lexeme :=
    fun _ => Lexer.isWhole_of_mem
  have htext := Lexer.textOf_lexemesFrom registry false source.toList
  refine ⟨Lexer.placeFrom 0 (Lexer.lexemesFrom registry false source.toList), ?_, ?_, ?_⟩
  · rw [tokenize, Lexer.tokensFrom_eq_placeFrom, Nat.zero_add, Span.ofOffsets,
      Nat.min_eq_left hsize]
  · have hfits : 0 + byteLength (Lexer.textOf (Lexer.lexemesFrom registry false source.toList)) ≤
        Span.maxOffset := by
      rwa [htext, Nat.zero_add]
    have htile := Lexer.tile_placeFrom hwhole hfits
    rwa [htext, Nat.zero_add] at htile
  · have hfits : byteLength ([] ++ Lexer.textOf
        (Lexer.lexemesFrom registry false source.toList)) ≤ Span.maxOffset := by
      rwa [List.nil_append, htext]
    have hshows := Lexer.shows_placeFrom hwhole hfits
    rwa [List.nil_append, htext] at hshows

/-- An open quote, a note and a letter of two bytes. -/
theorem tokenize_tiles_open_quote :
    byteLength "'é «a»".toList ≤ Span.maxOffset ∧
      ∃ tokens,
        tokenize .empty "'é «a»" = ⟨.startOfCode, ⟨0, 0⟩⟩ :: (tokens ++ [⟨.endOfCode,
          ⟨byteLength "'é «a»".toList, byteLength "'é «a»".toList⟩⟩]) ∧
        Tile 0 tokens (byteLength "'é «a»".toList) ∧
        ∀ token ∈ tokens, token.kind.isMark = false ∧ token.Shows "'é «a»".toList := by
  have hsize : byteLength "'é «a»".toList ≤ Span.maxOffset := by decide
  exact ⟨hsize, tokenize_tiles .empty hsize⟩

end CommandScript
