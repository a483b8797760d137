import CommandScript.Proofs.Joining
import CommandScript.Proofs.Lexemes
import CommandScript.Proofs.Spelling

/-!
# The tokens of printed pieces

Printed code is put together from pieces: punctuation, blanks, and words that are one token each,
such as numbers, texts in quotes, tags and names.  The tokens of the whole are those of its pieces,
one after the other, as long as each piece ends where it should.  A word does before a delimiter, a
bracket anywhere, and a blank before anything that is not blank.

What a literal or a name is printed as is read back as that literal or name.
-/

namespace CommandScript

/-! ## Letters and blanks -/

namespace Text

/-- Whether each of some ranges lies before or behind each of the others. -/
def Ranges.isApart (ranges others : Ranges) : Bool :=
  ranges.all fun range => others.all fun other => range.2.blt other.1 || other.2.blt range.1

theorem Ranges.contains_of_isApart {ranges others : Ranges} {code : Nat}
    (h : ranges.isApart others = true) (hcode : others.contains code = true) :
    ranges.contains code = false := by
  obtain ⟨other, hother, hin⟩ := List.any_eq_true.1 hcode
  refine List.any_eq_false.2 fun range hrange => ?_
  have hapart := List.all_eq_true.1 (List.all_eq_true.1 h range hrange) other hother
  simp only [Bool.or_eq_true, Nat.blt_eq] at hapart
  simp only [Bool.and_eq_true, decide_eq_true_eq] at hin ⊢
  omega

/-- A letter is not blank. -/
theorem isBlank_of_isAlphabetic {c : Char} (h : isAlphabetic c = true) :
    isBlank c = false := by
  unfold isAlphabetic at h
  split at h
  next hascii =>
    have hall : ∀ code < 128, isAlphabetic (Char.ofNat code) = true →
        isBlank (Char.ofNat code) = false := by
      decide +kernel
    have hcode := hall c.toNat hascii
    rw [Char.ofNat_toNat, isAlphabetic, if_pos hascii] at hcode
    exact hcode h
  next => exact Ranges.contains_of_isApart (by decide +kernel) h

end Text

namespace Lexer

variable {registry : Registry} {offset : Nat} {before after : Bool} {cs rest : List Char}
  {kind : TokenKind}

/-! ## Pieces -/

/-- Some characters in front of others have tokens of their own. -/
def Covers (registry : Registry) (offset : Nat) (before : Bool) (cs rest : List Char)
    (tokens : List Token) (after : Bool) : Prop :=
  tokensFrom registry offset before (cs ++ rest) =
    tokens ++ tokensFrom registry (offset + byteLength cs) after rest

theorem Covers.append {middle : Bool} {ds : List Char} {tokens others : List Token}
    (h : Covers registry offset before cs (ds ++ rest) tokens middle)
    (h' : Covers registry (offset + byteLength cs) middle ds rest others after) :
    Covers registry offset before (cs ++ ds) rest (tokens ++ others) after := by
  unfold Covers at h h' ⊢
  rw [List.append_assoc, h, h', byteLength_append, Nat.add_assoc, List.append_assoc]

theorem covers_nil : Covers registry offset before [] rest [] before := rfl

theorem isInlineBlank_punctuation {c : Char} (h : punctuation? c = some kind) :
    Text.isInlineBlank c = false := by
  unfold punctuation? at h
  split at h
  all_goals
    cases h
    try rfl

theorem isTrivia_punctuation {c : Char} (h : punctuation? c = some kind) :
    kind.isTrivia = false := by
  unfold punctuation? at h
  split at h
  all_goals
    cases h
    try rfl

/-- Punctuation is a token of its own, at the offset where it stands. -/
theorem covers_punctuation (registry : Registry) {c : Char} (h : punctuation? c = some kind)
    (offset : Nat) (before : Bool) (rest : List Char) :
    ∃ mark : Token, mark.kind = kind ∧ mark.span.start = min offset Span.maxOffset ∧
      Covers registry offset before [c] rest [mark] kind.canEndOperand := by
  refine ⟨⟨kind, .ofOffsets offset (offset + byteLength [c])⟩, rfl, rfl, ?_⟩
  unfold Covers
  rw [List.singleton_append, tokensFrom_cons (scan_punctuation h), isTrivia_punctuation h]
  rfl

/-- A blank between two pieces is a token that means nothing. -/
theorem covers_space (registry : Registry) (h : ∀ c ∈ rest.head?, Text.isInlineBlank c = false)
    (offset : Nat) (before : Bool) :
    ∃ mark : Token, mark.kind = .whitespace ∧
      Covers registry offset before [' '] rest [mark] before := by
  have hblanks : rest.takeWhile Text.isInlineBlank = [] := by
    cases rest with
    | nil => rfl
    | cons c rest => exact List.takeWhile_cons_of_neg (by rw [h c rfl]; nofun)
  have hscan : scan registry before ' ' rest = (.whitespace, 0) := by
    change (TokenKind.whitespace, (rest.takeWhile Text.isInlineBlank).length) = _
    rw [hblanks]
    rfl
  refine ⟨⟨.whitespace, .ofOffsets offset (offset + byteLength [' '])⟩, rfl, ?_⟩
  unfold Covers
  rw [List.singleton_append, tokensFrom_cons hscan]
  rfl

/-! ## Words -/

/-- Some characters that are one token on their own. -/
structure IsToken (registry : Registry) (before : Bool) (cs : List Char) (kind : TokenKind) :
    Prop where
  /-- They are read as that token, all of them. -/
  scan : ∃ c tail, cs = c :: tail ∧ scan registry before c tail = (kind, tail.length)
  /-- The token starts an operand. -/
  starts : Parser.startsOperand kind = true

theorem IsToken.first (h : IsToken registry before cs kind) :
    ∃ c tail, cs = c :: tail ∧ Text.isLineBreak c = false ∧ Text.isInlineBlank c = false := by
  obtain ⟨⟨c, tail, rfl, hscan⟩, hstarts⟩ := h
  refine ⟨c, tail, rfl, ?_⟩
  unfold Lexer.scan at hscan
  cases hbreak : Text.isLineBreak c with
  | true =>
    rw [hbreak, if_pos rfl] at hscan
    obtain rfl : TokenKind.lineBreak = kind := congrArg Prod.fst hscan
    cases hstarts
  | false =>
    refine ⟨rfl, ?_⟩
    cases hblank : Text.isInlineBlank c with
    | true =>
      rw [hbreak, hblank, if_neg nofun, if_pos rfl] at hscan
      obtain rfl : TokenKind.whitespace = kind := congrArg Prod.fst hscan
      cases hstarts
    | false => rfl

/-- A word ends before a delimiter. -/
theorem IsToken.covers (hregular : registry.Regular) (h : IsToken registry before cs kind)
    (hrest : Ends rest) (offset : Nat) :
    ∃ token : Token, token.kind = kind ∧
      token.span.stop = min (offset + byteLength cs) Span.maxOffset ∧
      Covers registry offset before cs rest [token] kind.canEndOperand := by
  obtain ⟨c, tail, rfl, hbreak, hblank⟩ := h.first
  obtain ⟨⟨_, _, ⟨⟩, hscan⟩, hstarts⟩ := h
  have hkind : isUnknown kind = false ∧ kind.isTrivia = false := by
    cases kind <;> first | exact ⟨rfl, rfl⟩ | cases hstarts
  have hsame : Lexer.scan registry before c (tail ++ rest) = (kind, tail.length) := by
    rw [← hscan]
    refine scan_append hregular hrest (not_runsOut_of_known (by rw [hscan]; exact hkind.1)) ?_ ?_
    · rintro rfl
      cases hbreak
    · intro h
      rw [h c (List.mem_cons_self ..)] at hblank
      cases hblank
  refine ⟨⟨kind, .ofOffsets offset (offset + byteLength (c :: tail))⟩, rfl, rfl, ?_⟩
  unfold Covers
  rw [List.cons_append, tokensFrom_cons hsame, hkind.2, List.take_left, List.drop_left]
  rfl

/-! ## Texts -/

theorem textBody?_textChar (c : Char) (cs : List Char) :
    textBody? (Display.textChar c ++ cs) =
      (textBody? cs).map fun (text, count) => (c :: text, count + (Display.textChar c).length) := by
  unfold Display.textChar
  split
  next hescaped =>
    have hunescape : unescape c = [c] := by
      unfold unescape
      rw [if_neg, if_neg, if_neg, if_pos hescaped]
      all_goals
        rintro rfl
        cases hescaped
    rw [List.cons_append, List.cons_append, List.nil_append, textBody?_escape, hunescape]
    rfl
  next hplain =>
    split
    next hfeed =>
      subst hfeed
      exact textBody?_escape 'n' cs
    next =>
      split
      next htab =>
        subst htab
        exact textBody?_escape 't' cs
      next =>
        split
        next hreturn =>
          subst hreturn
          exact textBody?_escape 'r' cs
        next =>
          simp only [Bool.or_eq_true, decide_eq_true_eq, not_or, Bool.not_eq_true] at hplain
          exact textBody?_plain hplain.2 hplain.1

/-- A printed text is read back. -/
theorem textBody?_printed (content : List Char) :
    textBody? (content.flatMap Display.textChar ++ ['”']) =
      some (content, (content.flatMap Display.textChar ++ ['”']).length) := by
  induction content with
  | nil => rfl
  | cons c content ih =>
    rw [List.flatMap_cons, List.append_assoc, textBody?_textChar, ih]
    simp only [Option.map_some, List.length_append]
    congr 2
    omega

/-- A text is read up to the quote that closes it, whichever quote opened it. -/
theorem scan_text {quote : Char} {cs content : List Char} {count : Nat}
    (hquote : Character.isTextQuote quote = true) (hbody : textBody? cs = some (content, count)) :
    scan registry before quote cs = (.text (String.ofList content), count) := by
  simp only [Character.isTextQuote, Bool.or_eq_true, beq_iff_eq] at hquote
  unfold scan
  rw [hbody]
  rcases hquote with (rfl | rfl) | rfl <;> rfl

/-- A printed text between its quotes. -/
theorem toList_text (content : String) :
    (Display.text content).toList =
      '“' :: (content.toList.flatMap Display.textChar ++ ['”']) := by
  rw [Display.text, String.toList_ofList]
  rfl

theorem isToken_text (content : String) :
    IsToken registry before (Display.text content).toList (.text content) := by
  refine ⟨⟨'“', content.toList.flatMap Display.textChar ++ ['”'], toList_text content, ?_⟩, rfl⟩
  rw [scan_text rfl (textBody?_printed _), String.ofList_toList]

/-- A printed text is one token and takes no more than was printed, whatever stands behind it. -/
theorem covers_text (registry : Registry) (content : String) (offset : Nat) (before : Bool)
    (rest : List Char) :
    Covers registry offset before (Display.text content).toList rest
      [⟨.text content, .ofOffsets offset (offset + byteLength (Display.text content).toList)⟩]
      true := by
  have hbody := textBody?_printed content.toList
  have hscan : scan registry before '“' (content.toList.flatMap Display.textChar ++ ['”'] ++ rest) =
      (.text content, (content.toList.flatMap Display.textChar ++ ['”']).length) := by
    rw [scan_text rfl (textBody?_append hbody), String.ofList_toList]
  unfold Covers
  rw [toList_text, List.cons_append, tokensFrom_cons hscan, List.take_left, List.drop_left]
  rfl

/-- A text that was printed is the first token of a source that starts with it. -/
theorem tokensFrom_text (registry : Registry) (content : String) (rest : List Char) :
    tokensFrom registry 0 false ((Display.text content).toList ++ rest) =
      ⟨.text content, .ofOffsets 0 (byteLength (Display.text content).toList)⟩ ::
        tokensFrom registry (byteLength (Display.text content).toList) true rest := by
  have hcovers := covers_text registry content 0 false rest
  rwa [Covers, Nat.zero_add, List.singleton_append] at hcovers

/-- Any text, printed and followed by anything, is read back as the first token of the source.  The
token stands for exactly that text and takes exactly what was printed: the tokens behind it are
those of what follows.  Its span starts at the first byte and is cut like every span, so it is that
of the bytes printed if and only if their number fits into a span. -/
theorem tokenize_printed_text (registry : Registry) (content behind : String) :
    let printed := (Display.text content).toList
    let source := Display.text content ++ behind
    ∃ token : Token,
      tokenize registry source = ⟨.startOfCode, ⟨0, 0⟩⟩ :: token ::
        tokensFrom registry (byteLength printed) true behind.toList ∧
      token.kind = .text content ∧
      sliceBytes? source.toList 0 (byteLength printed) = some printed ∧
      token.span = .ofOffsets 0 (byteLength printed) ∧
      (token.span = ⟨0, byteLength printed⟩ ↔ byteLength printed ≤ Span.maxOffset) := by
  intro printed source
  have hsource : source.toList = printed ++ behind.toList := String.toList_append
  refine ⟨⟨.text content, .ofOffsets 0 (byteLength printed)⟩, ?tokens, rfl, ?slice, rfl, ?span⟩
  case tokens => rw [tokenize, hsource, tokensFrom_text]
  case slice =>
    have hslice := sliceBytes?_append [] printed behind.toList
    rwa [byteLength_nil, Nat.zero_add, List.nil_append, ← hsource] at hslice
  case span => simp [Span.ofOffsets_eq_iff]

/-- Quotes, a line feed, an escape with no meaning of its own and a backslash at the end, in front of
what would go on with the text if it were still open. -/
theorem tokenize_printed_text_backslashes :
    let content := "“\"\n\\q”\\"
    let printed := "“\\“\\\"\\n\\\\q\\”\\\\”"
    Display.text content = printed ∧ byteLength printed.toList ≤ Span.maxOffset ∧
      ∃ token : Token,
        tokenize .empty (printed ++ "\\” x") = ⟨.startOfCode, ⟨0, 0⟩⟩ :: token ::
          tokensFrom .empty 23 true "\\” x".toList ∧
        token.kind = .text content ∧ token.span = ⟨0, 23⟩ := by
  intro content printed
  have hprinted : Display.text content = printed := by decide
  have hlength : byteLength printed.toList = 23 := by decide
  have hfits : byteLength printed.toList ≤ Span.maxOffset := by decide
  obtain ⟨token, htokens, hkind, -, -, hspan⟩ := tokenize_printed_text .empty content "\\” x"
  rw [hprinted, hlength] at htokens
  rw [hprinted, hlength] at hspan
  exact ⟨hprinted, hfits, token, htokens, hkind, hspan.2 (by decide)⟩

/-- A letter over and over is printed between quotes, and takes a byte each time. -/
theorem byteLength_text_replicate (count : Nat) :
    byteLength (Display.text (String.ofList (List.replicate count 'a'))).toList = count + 6 := by
  have hchar : Display.textChar 'a' = ['a'] := by decide
  have hquote : '“'.utf8Size = 3 ∧ '”'.utf8Size = 3 ∧ 'a'.utf8Size = 1 := by decide
  rw [toList_text, String.toList_ofList, List.flatMap_replicate, hchar,
    List.flatten_replicate_singleton, byteLength_cons, byteLength_append, byteLength_replicate,
    byteLength_cons, byteLength_nil, hquote.1, hquote.2.1, hquote.2.2]
  omega

/-- A text with more bytes than a span can hold.  It is read back, but its span ends too early. -/
theorem printed_text_span_cut :
    let content := String.ofList (List.replicate 0x100000000 'a')
    let printed := (Display.text content).toList
    ∃ token behind,
      tokenize .empty (Display.text content) = ⟨.startOfCode, ⟨0, 0⟩⟩ :: token :: behind ∧
      token.kind = .text content ∧ byteLength printed = 0x100000006 ∧
      token.span = ⟨0, Span.maxOffset⟩ ∧ token.span ≠ ⟨0, byteLength printed⟩ := by
  have hlength := byteLength_text_replicate 0x100000000
  dsimp only
  -- the text is never written out
  generalize String.ofList (List.replicate 0x100000000 'a') = content at hlength ⊢
  have hspan : Span.ofOffsets 0 (byteLength (Display.text content).toList) =
      ⟨0, Span.maxOffset⟩ := by
    rw [hlength]
    decide
  have htokens := tokensFrom_text .empty content []
  rw [List.append_nil, hspan] at htokens
  have hcut : (⟨0, Span.maxOffset⟩ : Span) ≠ ⟨0, 0x100000006⟩ := by decide
  refine ⟨_, _, congrArg _ htokens, rfl, hlength, rfl, ?_⟩
  rwa [hlength]

/-! ## Numbers -/

theorem mem_digits_of_isDigit {c : Char} (h : c.isDigit = true) :
    c ∈ ['0', '1', '2', '3', '4', '5', '6', '7', '8', '9'] := by
  have hall : ∀ k < 10,
      Char.ofNat (48 + k) ∈ ['0', '1', '2', '3', '4', '5', '6', '7', '8', '9'] := by
    decide
  have hrange : 48 ≤ c.toNat ∧ c.toNat ≤ 57 := by
    simpa [Char.isDigit, UInt32.le_iff_toNat_le] using h
  have hmem := hall (c.toNat - 48) (by omega)
  rwa [Nat.add_sub_cancel' hrange.1, Char.ofNat_toNat] at hmem

/-- What starts with a digit is read as a number, wherever it stands. -/
theorem scan_digit {c : Char} (h : c.isDigit = true) (cs : List Char) :
    scan registry before c cs = numberToken c cs := by
  have hmem := mem_digits_of_isDigit h
  simp only [List.mem_cons, List.not_mem_nil, or_false] at hmem
  rcases hmem with rfl | rfl | rfl | rfl | rfl | rfl | rfl | rfl | rfl | rfl <;> rfl

/-- A number is read as a number where an operand is expected. -/
theorem scan_number {c : Char} {tail : List Char} {found : Numeral}
    (h : Numeral.scan? (c :: tail) = some found) :
    scan registry false c tail = numberToken c tail := by
  obtain ⟨sign, digits, more, hsplit, hsign, hnonempty, hdigits, -⟩ := Numeral.parts_of_scan? h
  cases digits with
  | nil => exact absurd rfl hnonempty
  | cons d digits =>
    have hd : d.isDigit = true := hdigits d (List.mem_cons_self ..)
    rcases hsign with rfl | rfl | rfl
    · obtain ⟨rfl, -⟩ : c = d ∧ tail = digits ++ more := List.cons.inj hsplit
      exact scan_digit hd tail
    all_goals
      obtain ⟨rfl, rfl⟩ := List.cons.inj hsplit
      change (if d.isDigit = true then _ else _) = _
      rw [if_pos hd]

/-- A number by itself is a token, if no operand stands before its sign. -/
theorem isToken_number {literal : String} {scalar : Scalar}
    (h : Numeral.scan? literal.toList = some ⟨literal.toList.length, scalar⟩) :
    IsToken registry false literal.toList (.number literal scalar) := by
  refine ⟨?_, rfl⟩
  cases hliteral : literal.toList with
  | nil =>
    rw [hliteral] at h
    cases h
  | cons c tail =>
    rw [hliteral] at h
    refine ⟨c, tail, rfl, ?_⟩
    have hspelling : String.ofList (c :: tail) = literal := by
      rw [← hliteral, String.ofList_toList]
    rw [scan_number h, numberToken, h]
    simp [hspelling]

/-! ## Names -/

theorem not_startsName_range {c : Char} (h : Character.startsName c = true) (low high : Nat)
    (hrange : ∀ k < high + 1 - low, Character.startsName (Char.ofNat (low + k)) = false) :
    ¬ (low ≤ c.toNat ∧ c.toNat ≤ high) := by
  rintro ⟨hlow, hhigh⟩
  have hnone := hrange (c.toNat - low) (by omega)
  rw [Nat.add_sub_cancel' hlow, Char.ofNat_toNat, h] at hnone
  cases hnone

/-- A character that starts a name is not blank. -/
theorem isBlank_of_startsName {c : Char} (h : Character.startsName c = true) :
    Text.isBlank c = false := by
  rw [Character.startsName, Bool.or_eq_true, beq_iff_eq] at h
  rcases h with hletter | rfl
  · exact Text.isBlank_of_isAlphabetic hletter
  · rfl

theorem isDigit_of_startsName {c : Char} (h : Character.startsName c = true) :
    c.isDigit = false := by
  have hnone := not_startsName_range h 48 57 (by decide +kernel)
  simpa [Char.isDigit, UInt32.le_iff_toNat_le] using hnone

/-- The characters that have a meaning of their own where a token starts. -/
def markers : List Char :=
  ['\n', '\r', '\u2028', '\u2029', '[', ']', '{', '}', '(', ')', ',', ':', ';', '«', '#', '"', '“',
    '”', '\x27', '‘', '’', '+', '-']

/-- What starts with a character of a name is a word. -/
theorem scan_word {c : Char} (h : Character.startsName c = true) (cs : List Char) :
    scan registry before c cs = wordToken registry c cs := by
  have hmarkers : ∀ d ∈ markers, c ≠ d := by
    have hall : ∀ d ∈ markers, Character.startsName d = false :=
      forall_mem_of_all (by decide +kernel)
    rintro d hd rfl
    rw [hall c hd] at h
    cases h
  simp only [markers, List.forall_mem_cons, List.not_mem_nil, false_implies, implies_true,
    and_true] at hmarkers
  have hpunctuation : punctuation? c = none := by
    unfold punctuation?
    split <;> simp_all
  have hblank := isBlank_of_startsName h
  have hdigit := isDigit_of_startsName h
  unfold scan
  simp [hmarkers, hpunctuation, hblank, hdigit, h, Text.isLineBreak, Text.isInlineBlank,
    Character.isTextQuote, Character.isNameQuote]

theorem wordToken_name {c : Char} {tail : List Char}
    (hname : ∀ d ∈ tail, Character.continuesName d = true)
    (hfree : registry.find? (String.ofList (c :: tail)) = none) :
    wordToken registry c tail = (.identifier (String.ofList (c :: tail)) false, tail.length) := by
  simp only [wordToken, List.takeWhile_eq_self_iff.2 hname, hfree]

/-- A name as printed: as it is, or between quotes. -/
theorem toList_name (text : String) :
    (∃ c tail, text.toList = c :: tail ∧ (Display.name text).toList = c :: tail ∧
      Character.startsName c = true ∧ ∀ d ∈ tail, Character.continuesName d = true) ∨
    (Display.name text).toList = '\x27' :: (text.toList ++ ['\x27']) := by
  unfold Display.name
  cases hplain : Character.needsNoQuotes text.toList with
  | false =>
    right
    simp [String.toList_append]
  | true =>
    left
    cases htext : text.toList with
    | nil =>
      rw [htext] at hplain
      cases hplain
    | cons c tail =>
      rw [htext, Character.needsNoQuotes, Bool.and_eq_true, List.all_eq_true] at hplain
      exact ⟨c, tail, rfl, by simp [htext], hplain.1, hplain.2⟩

/-- A printed name is read back, if it is not the spelling of an operator. -/
theorem isToken_name {text : String} (hname : IsName text) (hfree : registry.find? text = none) :
    ∃ quoted, IsToken registry before (Display.name text).toList (.identifier text quoted) := by
  rcases toList_name text with ⟨c, tail, htext, hprinted, hstarts, hcontinues⟩ | hprinted
  · have hspelling : String.ofList (c :: tail) = text := by rw [← htext, String.ofList_toList]
    refine ⟨false, ⟨c, tail, hprinted, ?_⟩, rfl⟩
    rw [scan_word hstarts, wordToken_name hcontinues (by rwa [hspelling]), hspelling]
  · refine ⟨true, ⟨'\x27', text.toList ++ ['\x27'], hprinted, ?_⟩, rfl⟩
    change (orUnknown (.identifier · true) (quotedName (text.toList ++ ['\x27'])).1,
      (quotedName (text.toList ++ ['\x27'])).2) = _
    rw [quotedName_closed hname rfl, String.ofList_toList]
    simp [orUnknown]

/-- A printed tag is read back. -/
theorem isToken_tag {name : Name} (hname : IsName name.text) :
    IsToken registry before (Display.tag name).toList (.tag name.text) := by
  have hmark : (Display.tag name).toList = '#' :: (Display.name name.text).toList := by
    simp [Display.tag, String.toList_append]
  refine ⟨⟨'#', (Display.name name.text).toList, hmark, ?_⟩, rfl⟩
  change tagToken (Display.name name.text).toList = _
  rcases toList_name name.text with ⟨c, tail, htext, hprinted, hstarts, hcontinues⟩ | hprinted
  · have hquote : Character.isNameQuote c = false := by
      have hquotable := isQuotable_of_continuesName (continuesName_of_startsName hstarts)
      simp only [isQuotable, Bool.and_eq_true, Bool.not_eq_true'] at hquotable
      exact hquotable.1
    have hall : (c :: tail).takeWhile Character.continuesName = c :: tail :=
      List.takeWhile_eq_self_iff.2
        (List.forall_mem_cons.2 ⟨continuesName_of_startsName hstarts, hcontinues⟩)
    rw [hprinted, tagToken, hquote, hstarts]
    simp only [Bool.false_eq_true, if_false, if_true, hall]
    rw [← htext, String.ofList_toList]
  · rw [hprinted, tagToken, quotedName_closed hname rfl, String.ofList_toList]
    simp [orUnknown, Character.isNameQuote]

/-! ## Signs -/

theorem isBlank_of_isLineBreak {c : Char} (h : Text.isLineBreak c = true) :
    Text.isBlank c = true := by
  simp only [Text.isLineBreak, Bool.or_eq_true, beq_iff_eq] at h
  rcases h with ((rfl | rfl) | rfl) | rfl <;> rfl

theorem isAlphanumeric_of_isDigit {c : Char} (h : c.isDigit = true) :
    Text.isAlphanumeric c = true := by
  have hall : ∀ d ∈ ['0', '1', '2', '3', '4', '5', '6', '7', '8', '9'],
      Text.isAlphanumeric d = true :=
    forall_mem_of_all (by decide +kernel)
  exact hall c (mem_digits_of_isDigit h)

/-- What starts with a symbol is a run of symbols, unless it is a sign before a digit. -/
theorem scan_symbol {c : Char} (h : Character.isSymbol c = true) {cs : List Char}
    (hdigit : ∀ d ∈ cs.head?, d.isDigit = false) :
    scan registry before c cs = symbolsToken registry c cs := by
  have hsymbol := h
  simp only [Character.isSymbol, Character.isPunctuation, Bool.not_eq_true', Bool.or_eq_false_iff,
    beq_eq_false_iff_ne] at hsymbol
  obtain ⟨⟨⟨⟨⟨⟨⟨⟨⟨halphanumeric, hblank⟩, -⟩, hunderscore⟩, hhash⟩, hpunctuation⟩, htext⟩, hname⟩,
    hopening⟩, -⟩ := hsymbol
  have hbreak : Text.isLineBreak c = false := by
    cases hbreak : Text.isLineBreak c with
    | false => rfl
    | true => rw [isBlank_of_isLineBreak hbreak] at hblank; cases hblank
  have hnumber : c.isDigit = false := by
    cases hnumber : c.isDigit with
    | false => rfl
    | true => rw [isAlphanumeric_of_isDigit hnumber] at halphanumeric; cases halphanumeric
  have hletter : Character.startsName c = false := by
    simp only [Text.isAlphanumeric, Bool.or_eq_false_iff] at halphanumeric
    simp [Character.startsName, halphanumeric.1, hunderscore]
  have hnone : punctuation? c = none := by
    unfold punctuation?
    split <;> simp_all
  have hany : cs.head?.any Char.isDigit = false := by
    cases cs with
    | nil => rfl
    | cons d cs => exact hdigit d rfl
  unfold scan
  simp only [hbreak, Text.isInlineBlank, hblank, hnone, hopening, hhash, htext, hname, hnumber,
    hany, hletter, h, Bool.false_and, Bool.and_false, Bool.false_eq_true, if_false, if_true]

/-- A symbol that no longer one starts with is found whatever follows. -/
theorem symbolsToken_alone {c : Char}
    (h : registry.symbols.children.lookup c = some (.node true [])) (cs : List Char) :
    symbolsToken registry c cs = symbolsToken registry c [] := by
  have hlongest (cs : List Char) : SymbolSet.longest? (c :: cs) registry.symbols = some 1 := by
    have hnone : SymbolSet.longest? cs (.node true []) = none := by cases cs <;> rfl
    rw [SymbolSet.longest?, h]
    simp only [hnone]
    rfl
  simp only [symbolsToken, Registry.findSymbols?, hlongest]
  rfl

theorem covers_sign {c : Char} (hsymbol : Character.isSymbol c = true)
    (halone : registry.symbols.children.lookup c = some (.node true []))
    (h : IsToken registry before [c] kind) (hrest : ∀ d ∈ rest.head?, d.isDigit = false)
    (offset : Nat) :
    ∃ token : Token, token.kind = kind ∧
      Covers registry offset before [c] rest [token] kind.canEndOperand := by
  obtain ⟨⟨_, _, ⟨⟩, hscan⟩, hstarts⟩ := h
  have htrivia : kind.isTrivia = false := by
    cases kind <;> first | rfl | cases hstarts
  have hsame : scan registry before c rest = (kind, 0) := by
    have hnone : ∀ d ∈ ([] : List Char).head?, d.isDigit = false := fun _ h => nomatch h
    rw [scan_symbol hsymbol hrest, symbolsToken_alone halone, ← scan_symbol hsymbol hnone]
    exact hscan
  refine ⟨⟨kind, .ofOffsets offset (offset + byteLength [c])⟩, rfl, ?_⟩
  unfold Covers
  rw [List.singleton_append, tokensFrom_cons hsame, htrivia]
  rfl

end Lexer

/-! ## Registries -/

namespace Parser

open Lexer

variable {registry : Registry}

/-- The name of an operator is read as a token that passes a test. -/
def nameReads (registry : Registry) (before : Bool) (op : Operator)
    (test : KnownSpelling → Bool) : Bool :=
  match op.name.toList with
  | [] => false
  | c :: tail =>
    match scan registry before c tail with
    | (.operator found, count) => count == tail.length && test found
    | _ => false

theorem isToken_of_nameReads {before : Bool} {op : Operator} {test : KnownSpelling → Bool}
    (h : nameReads registry before op test = true) :
    ∃ found, IsToken registry before op.name.toList (.operator found) ∧ test found = true := by
  unfold nameReads at h
  split at h
  next => cases h
  next c tail hname =>
    split at h
    next found count hscan =>
      rw [Bool.and_eq_true, beq_iff_eq] at h
      obtain ⟨rfl, htest⟩ := h
      exact ⟨found, ⟨⟨c, tail, hname, hscan⟩, rfl⟩, htest⟩
    next => cases h

/-- Whether a text is one symbol that no longer one starts with. -/
def isSign (registry : Registry) (text : String) : Bool :=
  match text.toList with
  | [c] =>
    Character.isSymbol c &&
      match registry.symbols.children.lookup c with
      | some (.node true []) => true
      | _ => false
  | _ => false

theorem eq_of_isSign {text : String} (h : isSign registry text = true) :
    ∃ c, text.toList = [c] ∧ Character.isSymbol c = true ∧
      registry.symbols.children.lookup c = some (.node true []) := by
  unfold isSign at h
  split at h
  next c htext =>
    rw [Bool.and_eq_true] at h
    obtain ⟨hsymbol, halone⟩ := h
    split at halone
    next hlookup => exact ⟨c, htext, hsymbol, hlookup⟩
    next => cases halone
  next => cases h

/-- Whether an operator that starts an expression is printed so that it is read back.  One before
its operand binds as an element does, stands apart or is a sign, and binds like none between
operands. -/
def printsStarting (registry : Registry) (op : Operator) : Bool :=
  nameReads registry false op (fun found =>
      found.starting? == some op &&
        (op.form == .atom || !(TokenKind.operator found).canEndOperand)) &&
    (op.form != .before || (decide (colonPrecedence ≤ op.precedence) &&
      (Display.isSpaced op.name || isSign registry op.name))) &&
    registry.continuing.all fun other => other.2.precedence != op.precedence

/-- Whether an operator that continues an expression is printed so that it is read back, and its
precedence is not an extreme one. -/
def printsContinuing (registry : Registry) (op : Operator) : Bool :=
  [false, true].all (fun before => nameReads registry before op fun found =>
      found.continuing? == some op && !(TokenKind.operator found).canEndOperand) &&
    decide (colonPrecedence < op.precedence) && decide (op.precedence < greatestPrecedence)

/-- All operators are printed so that they are read back. -/
structure Prints (registry : Registry) : Prop where
  /-- The symbols are regular. -/
  regular : registry.Regular
  /-- Operators that start an expression. -/
  starting : ∀ entry ∈ registry.starting, printsStarting registry entry.2 = true
  /-- Operators that continue one. -/
  continuing : ∀ entry ∈ registry.continuing, printsContinuing registry entry.2 = true

/-- The operators of the library are printed like that. -/
theorem prints_library (h : Library.registry = .ok registry) : Prints registry := by
  have hall : Library.registry.toOption.all fun registry =>
      registry.starting.all (fun entry => printsStarting registry entry.2) &&
        registry.continuing.all fun entry => printsContinuing registry entry.2 := by
    decide +kernel
  have htest := test_of_ok hall h
  rw [Bool.and_eq_true] at htest
  obtain ⟨hstarting, hcontinuing⟩ := htest
  exact ⟨(Library.registry_regular h).1, List.all_eq_true.1 hstarting,
    List.all_eq_true.1 hcontinuing⟩

section Operators

variable {key : String} {op : Operator}

/-- An operator that starts an expression is printed as a token that is read as that operator. -/
theorem Prints.token_starting (h : Prints registry) (hop : registry.starting? key = some op) :
    ∃ found, IsToken registry false op.name.toList (.operator found) ∧
      found.starting? = some op ∧
      (op.form ≠ .atom → (TokenKind.operator found).canEndOperand = false) := by
  have hprints := h.starting _ (mem_of_lookup hop)
  simp only [printsStarting, Bool.and_eq_true] at hprints
  obtain ⟨found, htoken, htest⟩ := isToken_of_nameReads hprints.1.1
  simp only [Bool.and_eq_true, beq_iff_eq, Bool.or_eq_true, Bool.not_eq_true'] at htest
  exact ⟨found, htoken, htest.1, fun hform => htest.2.resolve_left hform⟩

theorem Prints.before (h : Prints registry) (hop : registry.starting? key = some op)
    (hform : op.form = .before) :
    colonPrecedence ≤ op.precedence ∧
      (Display.isSpaced op.name = true ∨ isSign registry op.name = true) := by
  have hprints := h.starting _ (mem_of_lookup hop)
  simp only [printsStarting, hform, Bool.and_eq_true, Bool.or_eq_true, bne_self_eq_false,
    Bool.false_eq_true, false_or, decide_eq_true_eq] at hprints
  exact hprints.1.2

/-- A token that stands for an operator between operands. -/
def StandsBetween (op : Operator) (kind : TokenKind) : Prop :=
  ∃ found, kind = .operator found ∧ found.continuing? = some op

theorem Prints.token_continuing (h : Prints registry) (hop : registry.continuing? key = some op)
    (before : Bool) :
    ∃ kind, IsToken registry before op.name.toList kind ∧ StandsBetween op kind ∧
      kind.canEndOperand = false := by
  have hprints := h.continuing _ (mem_of_lookup hop)
  simp only [printsContinuing, Bool.and_eq_true, List.all_eq_true] at hprints
  obtain ⟨found, htoken, htest⟩ :=
    isToken_of_nameReads (hprints.1.1 before (by cases before <;> decide))
  simp only [Bool.and_eq_true, beq_iff_eq, Bool.not_eq_true'] at htest
  exact ⟨_, htoken, ⟨found, rfl, htest.1⟩, htest.2⟩

theorem Prints.bounds (h : Prints registry) (hop : registry.continuing? key = some op) :
    colonPrecedence < op.precedence ∧ op.precedence < greatestPrecedence := by
  have hprints := h.continuing _ (mem_of_lookup hop)
  simp only [printsContinuing, Bool.and_eq_true, decide_eq_true_eq] at hprints
  exact ⟨hprints.1.2, hprints.2⟩

theorem Prints.apart (h : Prints registry) (hop : registry.starting? key = some op)
    {otherKey : String} {other : Operator} (hother : registry.continuing? otherKey = some other) :
    other.precedence ≠ op.precedence := by
  have hprints := h.starting _ (mem_of_lookup hop)
  simp only [printsStarting, Bool.and_eq_true, List.all_eq_true, bne_iff_ne] at hprints
  exact hprints.2 _ (mem_of_lookup hother)

end Operators

end Parser

end CommandScript
