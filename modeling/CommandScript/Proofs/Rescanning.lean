import Mathlib.Data.List.Basic
import CommandScript.Proofs.Lexemes
import CommandScript.Proofs.ParserSteps

/-!
# A blank for a line break

Where a line feed is a token of its own, a blank may stand in its place.  The tokens in front stay
as they were, and so do those behind, in their old places; only the line break is gone.

There are two exceptions.  A quoted name ends at a line break, with its closing quote missing, and
would go on behind a blank.  And a sign behind a line break belongs to the number that follows, while
behind a blank it is an operator if the token before can end an operand.
-/

namespace CommandScript.Lexer

variable {registry : Registry} {afterOperand : Bool}

/-! ## Tokens with an end of their own -/

/-- The readers of tokens that need an end. -/
def enclosing : List (List Char → TokenKind × Nat) :=
  [noteToken, tagToken, textToken, quotedToken]

theorem punctuation?_ends {c : Char} {kind : TokenKind} (h : punctuation? c = some kind) :
    lacksEnd kind = false := by
  unfold punctuation? at h
  split at h
  all_goals
    cases h
    try rfl

theorem numberToken_ends (c : Char) (cs : List Char) :
    lacksEnd (numberToken c cs).1 = false ∧ (numberToken c cs).1.isTrivia = false := by
  unfold numberToken
  split
  next => exact ⟨rfl, rfl⟩
  next =>
    dsimp only
    split <;> exact ⟨rfl, rfl⟩

theorem wordToken_ends (registry : Registry) (c : Char) (cs : List Char) :
    lacksEnd (wordToken registry c cs).1 = false := by
  unfold wordToken
  dsimp only
  split <;> rfl

theorem symbolsToken_ends (registry : Registry) (c : Char) (cs : List Char) :
    lacksEnd (symbolsToken registry c cs).1 = false := by
  unfold symbolsToken
  split <;> rfl

/-- A reader of tokens that need no end, or one of those that look for it. -/
def SettlesEnd (reader : List Char → TokenKind × Nat) : Prop :=
  (∀ cs, lacksEnd (reader cs).1 = false) ∨ ∃ known ∈ enclosing, ∀ cs, reader cs = known cs

theorem SettlesEnd.ite {p : Prop} [Decidable p] {first last : List Char → TokenKind × Nat}
    (hfirst : SettlesEnd first) (hlast : SettlesEnd last) :
    SettlesEnd fun cs => if p then first cs else last cs := by
  by_cases h : p
  · simpa only [if_pos h] using hfirst
  · simpa only [if_neg h] using hlast

theorem settlesEnd_of_mem {reader : List Char → TokenKind × Nat} (h : reader ∈ enclosing) :
    SettlesEnd reader :=
  .inr ⟨reader, h, fun _ => rfl⟩

/-- Its first character tells whether a token needs an end, and which reader looks for it. -/
theorem scan_settlesEnd (registry : Registry) (afterOperand : Bool) (c : Char) :
    SettlesEnd (scan registry afterOperand c) := by
  rw [funext (scan_eq registry afterOperand c)]
  refine .ite (.inl fun _ => rfl) (.ite (.inl fun _ => rfl) ?_)
  cases hpunctuation : punctuation? c with
  | some kind => exact .inl fun _ => punctuation?_ends hpunctuation
  | none =>
    refine .ite (settlesEnd_of_mem (by simp [enclosing])) ?_
    refine .ite (settlesEnd_of_mem (by simp [enclosing])) ?_
    refine .ite (settlesEnd_of_mem (by simp [enclosing])) ?_
    refine .ite (settlesEnd_of_mem (by simp [enclosing])) (.inl fun cs => ?_)
    dsimp only
    split_ifs
    · exact (numberToken_ends c cs).1
    · exact (numberToken_ends c cs).1
    · exact wordToken_ends registry c cs
    · exact symbolsToken_ends registry c cs
    · rfl

/-! ## Ends that are within some characters -/

/-- A note that does not end within some characters ends beyond them. -/
theorem noteBody?_beyond {depth : Nat} {front rest text : List Char} {count : Nat}
    (hnone : noteBody? depth front = none)
    (h : noteBody? depth (front ++ rest) = some (text, count)) : front.length < count := by
  induction front generalizing depth text count with
  | nil =>
    cases rest with
    | nil => cases h
    | cons d rest =>
      have hmore {depth : Nat}
          (h : (noteBody? depth rest).map (fun found => (d :: found.1, found.2 + 1)) =
            some (text, count)) : 0 < count := by
        obtain ⟨found, -, hcount⟩ := Option.map_eq_some_iff.1 h
        cases hcount
        exact Nat.succ_pos _
      simp only [List.nil_append, noteBody?] at h
      split at h
      next =>
        cases depth with
        | zero =>
          cases h
          exact Nat.one_pos
        | succ depth => exact hmore h
      next =>
        split at h
        next => exact hmore h
        next => exact hmore h
  | cons c front ih =>
    have hmore {depth : Nat}
        (hnone : (noteBody? depth front).map (fun found => (c :: found.1, found.2 + 1)) = none)
        (h : (noteBody? depth (front ++ rest)).map (fun found => (c :: found.1, found.2 + 1)) =
          some (text, count)) : (c :: front).length < count := by
      obtain ⟨found, hfound, hcount⟩ := Option.map_eq_some_iff.1 h
      cases hcount
      exact Nat.succ_lt_succ (ih (Option.map_eq_none_iff.1 hnone) hfound)
    simp only [noteBody?, List.cons_append] at hnone h
    split at h
    next hclose =>
      rw [if_pos hclose] at hnone
      cases depth with
      | zero => cases hnone
      | succ depth => exact hmore hnone h
    next hclose =>
      rw [if_neg hclose] at hnone
      split at h
      next hopen =>
        rw [if_pos hopen] at hnone
        exact hmore hnone h
      next hopen =>
        rw [if_neg hopen] at hnone
        exact hmore hnone h

theorem textBody?_pos {cs text : List Char} {count : Nat}
    (h : textBody? cs = some (text, count)) : 0 < count := by
  fun_cases textBody? cs with
  | case1 => cases h
  | case2 c cs hquote =>
    rw [textBody?_quote hquote] at h
    cases h
    exact Nat.one_pos
  | case3 hquote => cases h
  | case4 e cs hquote =>
    rw [textBody?_escape] at h
    obtain ⟨found, -, hcount⟩ := Option.map_eq_some_iff.1 h
    cases hcount
    exact Nat.succ_pos _
  | case5 c cs hquote hescape =>
    rw [textBody?_plain (Bool.eq_false_iff.2 hquote) hescape] at h
    obtain ⟨found, -, hcount⟩ := Option.map_eq_some_iff.1 h
    cases hcount
    exact Nat.succ_pos _

/-- A text that does not end within some characters ends beyond them. -/
theorem textBody?_beyond {front rest text : List Char} {count : Nat}
    (hnone : textBody? front = none)
    (h : textBody? (front ++ rest) = some (text, count)) : front.length < count := by
  fun_induction textBody? front generalizing text count with
  | case1 => exact textBody?_pos h
  | case2 c cs hquote => cases hnone
  | case3 hquote =>
    cases rest with
    | nil => cases h
    | cons e rest =>
      rw [List.cons_append, List.nil_append, textBody?_escape] at h
      obtain ⟨found, -, hcount⟩ := Option.map_eq_some_iff.1 h
      cases hcount
      exact Nat.succ_lt_succ (Nat.succ_pos _)
  | case4 e cs hquote ih =>
    rw [List.cons_append, List.cons_append, textBody?_escape] at h
    obtain ⟨found, hfound, hcount⟩ := Option.map_eq_some_iff.1 h
    cases hcount
    exact Nat.succ_lt_succ (Nat.succ_lt_succ (ih (Option.map_eq_none_iff.1 hnone) hfound))
  | case5 c cs hquote hescape ih =>
    rw [List.cons_append, textBody?_plain (Bool.eq_false_iff.2 hquote) hescape] at h
    obtain ⟨found, hfound, hcount⟩ := Option.map_eq_some_iff.1 h
    cases hcount
    exact Nat.succ_lt_succ (ih (Option.map_eq_none_iff.1 hnone) hfound)

/-- A quoted name without its quote stops at the line break that follows. -/
theorem quotedName_break {make : String → TokenKind} {front rest : List Char} {d : Char}
    (hmake : ∀ name, lacksEnd (make name) = false) (hbreak : Text.isLineBreak d = true)
    (hquote : Character.isNameQuote d = false)
    (hruns : RunsOut front (orUnknown make (quotedName front).1, (quotedName front).2)) :
    quotedName (front ++ d :: rest) =
      (.error (.openName (String.ofList front)), front.length) := by
  have hall : front.dropWhile isQuotable = [] := by
    obtain ⟨hlacks, hlength⟩ := hruns
    rw [quotedName_eq] at hlacks hlength
    cases hrest : front.dropWhile isQuotable with
    | nil => rfl
    | cons c others =>
      have hsplit : (front.takeWhile isQuotable).length + (others.length + 1) = front.length := by
        rw [← List.length_cons, ← hrest, ← List.length_append, List.takeWhile_append_dropWhile]
      simp only [hrest, List.head?_cons] at hlacks hlength
      split at hlacks
      next =>
        split at hlacks
        next => cases hlacks
        next => exact absurd hlacks (by simp [orUnknown, hmake])
      next hclose =>
        simp only [hclose] at hlength
        simp only [Bool.false_eq_true, if_false] at hlength
        omega
  have hinside : ∀ c ∈ front, isQuotable c = true := List.dropWhile_eq_nil_iff.1 hall
  have hstop : isQuotable d = false := by simp [isQuotable, hbreak]
  have htake : (front ++ d :: rest).takeWhile isQuotable = front := by
    rw [List.takeWhile_append_of_pos hinside, List.takeWhile_cons_of_neg (by simp [hstop]),
      List.append_nil]
  have hdrop : (front ++ d :: rest).dropWhile isQuotable = d :: rest := by
    rw [List.dropWhile_append_of_pos hinside, List.dropWhile_cons_of_neg (by simp [hstop])]
  simp only [quotedName_eq, htake, hdrop, List.head?_cons, hquote, Bool.false_eq_true, if_false]

/-- What lacks its end in some characters, and does not go on behind the line break that follows, is
a quoted name. -/
theorem enclosing_break {reader : List Char → TokenKind × Nat} (hreader : reader ∈ enclosing)
    {front rest : List Char} (hruns : RunsOut front (reader front)) :
    front.length < (reader (front ++ '\n' :: rest)).2 ∨
      ∃ name, reader (front ++ '\n' :: rest) = (.unknown (.openName name), front.length) := by
  have hlength : front.length < (front ++ '\n' :: rest).length := by simp
  simp only [enclosing, List.mem_cons, List.not_mem_nil, or_false] at hreader
  rcases hreader with rfl | rfl | rfl | rfl
  · left
    unfold noteToken at hruns ⊢
    cases hnone : noteBody? 0 front with
    | some found =>
      rw [hnone] at hruns
      cases hruns.1
    | none =>
      split
      next hbody => exact noteBody?_beyond hnone hbody
      next => exact hlength
  · cases front with
    | nil => cases hruns.1
    | cons q cs =>
      simp only [tagToken, List.cons_append] at hruns ⊢
      split at hruns
      next hquote =>
        right
        rw [if_pos hquote, quotedName_break (fun _ => rfl) rfl rfl
          ⟨hruns.1, Nat.le_of_succ_le_succ hruns.2⟩]
        exact ⟨_, rfl⟩
      next =>
        split at hruns
        next => cases hruns.1
        next => cases hruns.1
  · left
    unfold textToken at hruns ⊢
    cases hnone : textBody? front with
    | some found =>
      rw [hnone] at hruns
      cases hruns.1
    | none =>
      split
      next hbody => exact textBody?_beyond hnone hbody
      next => exact hlength
  · right
    unfold quotedToken at hruns ⊢
    rw [quotedName_break (fun _ => rfl) rfl rfl hruns]
    exact ⟨_, rfl⟩

/-- A token in front of a line break stays as it is when a blank comes instead, unless it is a
quoted name without its quote. -/
theorem scan_blank (hregular : registry.Regular) {c : Char} {front more more' : List Char}
    (hc : Text.isInlineBlank c = false)
    (hcount : (scan registry afterOperand c (front ++ '\n' :: more)).2 ≤ front.length)
    (hopen : ∀ name, scan registry afterOperand c (front ++ '\n' :: more) ≠
      (.unknown (.openName name), front.length)) :
    scan registry afterOperand c (front ++ ' ' :: more') =
      scan registry afterOperand c (front ++ '\n' :: more) := by
  have hruns : ¬ RunsOut front (scan registry afterOperand c front) := by
    intro hruns
    rcases scan_settlesEnd registry afterOperand c with hends | ⟨reader, hreader, hscan⟩
    · rw [RunsOut, hends] at hruns
      cases hruns.1
    · rw [hscan] at hcount hruns
      rcases enclosing_break hreader hruns with hlong | ⟨name, hname⟩
      · exact Nat.not_lt.2 hcount hlong
      · exact hopen name ((hscan _).trans hname)
  have hblank (rest : List Char) :
      (∀ d ∈ c :: front, Text.isInlineBlank d = true) →
        ∀ d ∈ rest.head?, Text.isInlineBlank d = false := by
    intro hall
    rw [hall c (List.mem_cons_self ..)] at hc
    cases hc
  have hbreak : c = '\r' → front = [] → ('\n' :: more).head? ≠ some '\n' := by
    rintro rfl rfl
    cases hcount
  rw [scan_append hregular (ends_cons (by decide)) hruns (by simp) (hblank _),
    scan_append hregular (ends_cons (by decide)) hruns hbreak (hblank _)]

/-! ## Blanks and signs -/

theorem scan_inlineBlank {c : Char} (hc : Text.isInlineBlank c = true) (cs : List Char) :
    scan registry afterOperand c cs =
      (.whitespace, (cs.takeWhile Text.isInlineBlank).length) := by
  have hline : Text.isLineBreak c = false := by
    simp only [Text.isInlineBlank, Bool.and_eq_true, Bool.not_eq_true'] at hc
    exact hc.2
  simp [scan, hline, hc]

/-- A blank in front of some code only moves it. -/
theorem meaningful_blank {c : Char} (hc : Text.isInlineBlank c = true) (offset : Nat)
    (cs : List Char) :
    Parser.meaningful (tokensFrom registry offset afterOperand (c :: cs)) =
      Parser.meaningful (tokensFrom registry (offset + c.utf8Size) afterOperand cs) := by
  rw [tokensFrom_cons (scan_inlineBlank hc cs), Parser.meaningful_cons_trivia rfl]
  cases cs with
  | nil => rfl
  | cons d cs =>
    cases hd : Text.isInlineBlank d with
    | false => rw [List.takeWhile_cons_of_neg (by simp [hd])]; rfl
    | true =>
      rw [List.takeWhile_cons_of_pos hd, tokensFrom_cons (scan_inlineBlank hd cs),
        Parser.meaningful_cons_trivia rfl, byteLength_cons, List.length_cons, List.take_succ_cons,
        List.drop_succ_cons, Nat.add_assoc]

theorem meaningful_blanks {blanks : List Char} (h : ∀ c ∈ blanks, Text.isInlineBlank c = true)
    (offset : Nat) (cs : List Char) :
    Parser.meaningful (tokensFrom registry offset afterOperand (blanks ++ cs)) =
      Parser.meaningful
        (tokensFrom registry (offset + byteLength blanks) afterOperand cs) := by
  induction blanks generalizing offset with
  | nil => rfl
  | cons c blanks ih =>
    obtain ⟨hc, hblanks⟩ := List.forall_mem_cons.1 h
    rw [List.cons_append, meaningful_blank hc, ih hblanks, byteLength_cons, Nat.add_assoc]

/-- Whether a text starts with a sign and a digit. -/
def startsSigned : List Char → Bool
  | c :: d :: _ => (c = '+' || c = '-') && d.isDigit
  | _ => false

/-- What is left behind whitespace and notes. -/
def skipTrivia (lexemes : List Lexeme) : List Lexeme :=
  lexemes.dropWhile fun lexeme => lexeme.kind.isTrivia

/-- Whether an operand may end behind some lexemes, as it may or may not in front of them. -/
def operandEnds (afterOperand : Bool) : List Lexeme → Bool
  | [] => afterOperand
  | lexeme :: others =>
    operandEnds (if lexeme.kind.isTrivia then afterOperand else lexeme.kind.canEndOperand) others

/-- Only a sign is read otherwise behind an operand. -/
theorem scan_afterOperand {c : Char} {cs : List Char} (h : startsSigned (c :: cs) = false) :
    scan registry true c cs = scan registry false c cs := by
  have hsign : ((c = '+' || c = '-') && cs.head?.any Char.isDigit) = false := by
    cases cs with
    | nil => simp
    | cons d cs => exact h
  have htrue : ((c = '+' || c = '-') && !true && cs.head?.any Char.isDigit) = false := by simp
  have hfalse : ((c = '+' || c = '-') && !false && cs.head?.any Char.isDigit) = false := by
    simpa using hsign
  simp only [scan, htrue, hfalse]

/-- A sign and a digit are read as a number, or can't be read. -/
theorem isTrivia_signed {c : Char} {cs : List Char} (h : startsSigned (c :: cs) = true) :
    (scan registry false c cs).1.isTrivia = false := by
  cases cs with
  | nil => cases h
  | cons d cs =>
    simp only [startsSigned, Bool.and_eq_true, Bool.or_eq_true, decide_eq_true_eq] at h
    obtain ⟨hsign, hdigit⟩ := h
    have hscan : scan registry false c (d :: cs) = numberToken c (d :: cs) := by
      rcases hsign with rfl | rfl
      all_goals
        unfold scan
        simp only [List.head?_cons, Option.any_some, hdigit]
        rfl
    rw [hscan]
    exact (numberToken_ends c (d :: cs)).2

/-- Where no sign comes first, it does not matter whether an operand ended. -/
theorem tokensFrom_afterOperand {cs : List Char} (hflag : afterOperand = false)
    (h : startsSigned (textOf (skipTrivia (lexemesFrom registry afterOperand cs))) = false)
    (offset : Nat) : tokensFrom registry offset true cs = tokensFrom registry offset false cs := by
  fun_induction lexemesFrom registry afterOperand cs generalizing offset with
  | case1 => rw [tokensFrom_nil, tokensFrom_nil]
  | case2 flag c cs kind count hscan after ih =>
    subst hflag
    have hunsigned : startsSigned (c :: cs) = false := by
      refine Bool.eq_false_iff.2 fun hsigned => ?_
      have hkind : (scan registry false c cs).1.isTrivia = false := isTrivia_signed hsigned
      have htext := textOf_lexemesFrom registry false (c :: cs)
      rw [lexemesFrom_cons hscan] at htext
      rw [hscan] at hkind
      simp only [skipTrivia, List.dropWhile_cons, hkind] at h
      exact Bool.eq_false_iff.1 h (htext ▸ hsigned)
    have hsame : scan registry true c cs = (kind, count) :=
      (scan_afterOperand hunsigned).trans hscan
    rw [tokensFrom_cons hscan, tokensFrom_cons hsame]
    cases htrivia : kind.isTrivia with
    | true =>
      simp only [skipTrivia, List.dropWhile_cons, htrivia, if_true] at h ⊢
      rw [ih (if_pos htrivia) h]
    | false => rfl

/-! ## A blank instead of a line feed -/

theorem textOf_append (lexemes others : List Lexeme) :
    textOf (lexemes ++ others) = textOf lexemes ++ textOf others :=
  List.flatMap_append

/-- One more token in front. -/
theorem meaningful_cons_append {rest front back : List Token} (token : Token)
    (h : Parser.meaningful rest = Parser.meaningful front ++ back) :
    Parser.meaningful (token :: rest) = Parser.meaningful (token :: front) ++ back := by
  cases htrivia : token.kind.isTrivia with
  | true => rw [Parser.meaningful_cons_trivia htrivia, Parser.meaningful_cons_trivia htrivia, h]
  | false => rw [Parser.meaningful_cons htrivia, Parser.meaningful_cons htrivia, h]; rfl

/-- A line feed that is a token of its own. -/
abbrev lineFeed : Lexeme := ⟨.lineBreak, ['\n']⟩

/-- Behind a line feed the lexemes are those of the rest. -/
theorem lexemesFrom_lineFeed {cs : List Char} {after : List Lexeme}
    (h : lexemesFrom registry afterOperand cs = lineFeed :: after) :
    cs = '\n' :: textOf after ∧ after = lexemesFrom registry false (textOf after) := by
  have htext := textOf_lexemesFrom registry afterOperand cs
  rw [h, textOf_cons, List.cons_append, List.nil_append] at htext
  refine ⟨htext.symm, ?_⟩
  have hscan : scan registry afterOperand '\n' (textOf after) = (.lineBreak, 0) := rfl
  rw [← htext, lexemesFrom_cons hscan] at h
  exact (List.cons.inj h).2.symm

theorem length_take_scan {c : Char} {cs : List Char} {kind : TokenKind} {count : Nat}
    (hscan : scan registry afterOperand c cs = (kind, count)) : (cs.take count).length = count := by
  have hle := scan_le registry afterOperand c cs
  rw [hscan] at hle
  exact List.length_take_of_le hle

/-- A lexeme in front of a line feed stays as it is when a blank comes instead. -/
theorem scan_lexeme (hregular : registry.Regular) {c : Char} {cs more : List Char}
    {kind : TokenKind} {count : Nat} {before : List Lexeme}
    (hscan : scan registry afterOperand c cs = (kind, count))
    (hc : Text.isInlineBlank c = false)
    (hrest : textOf before ++ '\n' :: more = cs.drop count)
    (hbefore : ∀ lexeme ∈ before, IsWhole lexeme)
    (hopen : before = [] → ∀ name, kind ≠ .unknown (.openName name)) (more' : List Char) :
    scan registry afterOperand c (cs.take count ++ (textOf before ++ ' ' :: more')) =
      (kind, count) := by
  have hcs : cs = cs.take count ++ textOf before ++ '\n' :: more := by
    rw [List.append_assoc, hrest, List.take_append_drop]
  have hcount : (cs.take count).length = count := length_take_scan hscan
  have hscan' : scan registry afterOperand c (cs.take count ++ textOf before ++ '\n' :: more) =
      (kind, count) := by
    rw [← hcs, hscan]
  rw [← List.append_assoc, ← hscan']
  refine scan_blank hregular hc ?_ fun name hname => ?_
  · rw [hscan', List.length_append, hcount]
    exact Nat.le_add_right _ _
  · rw [hscan', List.length_append, hcount, Prod.mk.injEq] at hname
    refine hopen ?_ name hname.1
    cases before with
    | nil => rfl
    | cons lexeme before =>
      have hlexeme := (hbefore lexeme (List.mem_cons_self ..)).nonempty
      rw [textOf_cons, List.length_append] at hname
      have := List.length_pos_iff.2 hlexeme
      omega

/-- A lexeme more in front of the blank. -/
theorem meaningful_lexeme (hregular : registry.Regular) {c : Char} {cs more more' : List Char}
    {kind : TokenKind} {count offset : Nat} {before : List Lexeme} {front back : List Token}
    (hscan : scan registry afterOperand c cs = (kind, count))
    (hrest : textOf before ++ '\n' :: more = cs.drop count)
    (hbefore : ∀ lexeme ∈ before, IsWhole lexeme)
    (hopen : before = [] → ∀ name, kind ≠ .unknown (.openName name))
    (h : Parser.meaningful (tokensFrom registry (offset + byteLength (c :: cs.take count))
        (if kind.isTrivia then afterOperand else kind.canEndOperand)
        (textOf before ++ ' ' :: more')) = Parser.meaningful front ++ back) :
    Parser.meaningful (tokensFrom registry offset afterOperand
        (c :: (cs.take count ++ (textOf before ++ ' ' :: more')))) =
      Parser.meaningful (⟨kind, .ofOffsets offset (offset + byteLength (c :: cs.take count))⟩ ::
        front) ++ back := by
  cases hc : Text.isInlineBlank c with
  | true =>
    -- blanks may run on into the new one
    rw [scan_inlineBlank hc] at hscan
    cases hscan
    have hblanks : ∀ d ∈ c :: cs.take (cs.takeWhile Text.isInlineBlank).length,
        Text.isInlineBlank d = true := by
      refine List.forall_mem_cons.2 ⟨hc, fun d hd => ?_⟩
      rw [← List.prefix_iff_eq_take.1 (List.takeWhile_prefix _)] at hd
      exact List.mem_takeWhile_imp hd
    rw [← List.cons_append, meaningful_blanks hblanks, Parser.meaningful_cons_trivia rfl]
    exact h
  | false =>
    have hscan' := scan_lexeme hregular hscan hc hrest hbefore hopen more'
    have hcount := length_take_scan hscan
    rw [tokensFrom_cons hscan', List.take_left' hcount, List.drop_left' hcount]
    exact meaningful_cons_append _ h

/-- The tokens of a text with a line feed, and those with a blank instead. -/
theorem exists_lineFeed (hregular : registry.Regular) {cs : List Char}
    {before after : List Lexeme}
    (hlexemes : lexemesFrom registry afterOperand cs = before ++ lineFeed :: after)
    (hopen : ∀ lexeme ∈ before.getLast?, ∀ name, lexeme.kind ≠ .unknown (.openName name))
    (hsign : operandEnds afterOperand before = true →
      startsSigned (textOf (skipTrivia after)) = false)
    (offset : Nat) :
    ∃ mark back, mark.kind = .lineBreak ∧
      Parser.meaningful (tokensFrom registry offset afterOperand cs) =
        Parser.meaningful (placeFrom offset before) ++ mark :: back ∧
      Parser.meaningful (tokensFrom registry offset afterOperand
        (textOf before ++ ' ' :: textOf after)) =
          Parser.meaningful (placeFrom offset before) ++ back := by
  induction before generalizing afterOperand cs offset with
  | nil =>
    obtain ⟨rfl, hafter⟩ := lexemesFrom_lineFeed hlexemes
    have hscan : scan registry afterOperand '\n' (textOf after) = (.lineBreak, 0) := rfl
    refine ⟨⟨.lineBreak, .ofOffsets offset (offset + 1)⟩,
      Parser.meaningful (tokensFrom registry (offset + 1) false (textOf after)), rfl, ?_, ?_⟩
    · rw [tokensFrom_cons hscan, Parser.meaningful_cons rfl]
      rfl
    · rw [textOf_nil, List.nil_append, meaningful_blank rfl]
      cases afterOperand with
      | false => rfl
      | true =>
        have hunsigned := hsign rfl
        rw [hafter] at hunsigned
        rw [tokensFrom_afterOperand rfl hunsigned]
        rfl
  | cons lexeme before ih =>
    cases cs with
    | nil =>
      rw [lexemesFrom_nil] at hlexemes
      cases hlexemes
    | cons c cs =>
      obtain ⟨⟨kind, count⟩, hscan⟩ : ∃ found, scan registry afterOperand c cs = found := ⟨_, rfl⟩
      rw [lexemesFrom_cons hscan, List.cons_append] at hlexemes
      obtain ⟨rfl, hothers⟩ := List.cons.inj hlexemes
      have hrest := textOf_lexemesFrom registry
        (if kind.isTrivia then afterOperand else kind.canEndOperand) (cs.drop count)
      rw [hothers, textOf_append, textOf_cons] at hrest
      have hbefore : ∀ lexeme ∈ before, IsWhole lexeme := fun lexeme hlexeme =>
        isWhole_of_mem (hothers ▸ List.mem_append_left _ hlexeme)
      have hlast : before = [] → ∀ name, kind ≠ .unknown (.openName name) := fun hnil name =>
        hopen _ (by rw [hnil]; rfl) name
      obtain ⟨mark, back, hmark, hold, hnew⟩ :=
        ih hothers (fun lexeme hlexeme => hopen lexeme (List.mem_getLast?_cons hlexeme)) hsign
          (offset + byteLength (c :: cs.take count))
      refine ⟨mark, back, hmark, ?_, ?_⟩
      · rw [tokensFrom_cons hscan]
        exact meaningful_cons_append _ hold
      · rw [textOf_cons, List.append_assoc, List.cons_append]
        exact meaningful_lexeme hregular hscan hrest hbefore hlast hnew

end CommandScript.Lexer
