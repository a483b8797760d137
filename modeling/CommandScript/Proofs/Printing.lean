import CommandScript.Proofs.PrintedTokens

/-!
# Printed code

Code that is printed is read back as the code it was.

The tokens of the printed text spell the expression, and what is spelled is read.  Each way to put
pieces together has one lemma: brackets around a piece, two pieces with a separator and a blank
between them, and an operator with its operands.

An operand that binds more loosely than its operator stands in parentheses when it is printed, and
any other fits where it stands.  There are two gaps.  The left operand of an operator that groups to
the right may be such an operation of the same precedence, and is printed without the parentheses it
needs.  And a sign is printed right before its operand, where a digit makes it a part of a number.
Printable code has neither.
-/

namespace CommandScript.Parser

open Lexer

variable {registry : Registry} {cs ds : List Char} {P Q R : List Token → Prop}

/-! ## Pieces -/

/-- The tokens of some characters, before a delimiter, have a property. -/
def Inside (registry : Registry) (cs : List Char) (P : List Token → Prop) : Prop :=
  ∀ (offset : Nat) (rest : List Char), Ends rest →
    ∃ tokens after, Covers registry offset false cs rest tokens after ∧ P (meaningful tokens)

/-- The same, and the characters don't start with a blank. -/
structure Lexes (registry : Registry) (cs : List Char) (P : List Token → Prop) : Prop where
  /-- There is a first character that is not blank. -/
  first : ∃ c tail, cs = c :: tail ∧ Text.isInlineBlank c = false
  /-- The tokens have the property. -/
  inside : Inside registry cs P

/-- Tokens of a kind are tokens of any wider kind. -/
theorem Lexes.mono (h : Lexes registry cs P) (himp : ∀ tokens, P tokens → Q tokens) :
    Lexes registry cs Q := by
  refine ⟨h.first, fun offset rest hrest => ?_⟩
  obtain ⟨tokens, after, hcovers, htokens⟩ := h.inside offset rest hrest
  exact ⟨tokens, after, hcovers, himp _ htokens⟩

/-- No code begins with a blank, so blanks before it end there. -/
theorem Lexes.head (h : Lexes registry cs P) (rest : List Char) :
    ∀ c ∈ (cs ++ rest).head?, Text.isInlineBlank c = false := by
  obtain ⟨c, tail, rfl, hc⟩ := h.first
  rintro d ⟨⟩
  exact hc

/-- Between brackets there may be nothing. -/
theorem inside_nil (h : P []) : Inside registry [] P := fun _ _ _ => ⟨[], false, covers_nil, h⟩

/-- One token of a kind. -/
def Single (kind : TokenKind) (tokens : List Token) : Prop :=
  ∃ token, tokens = [token] ∧ token.kind = kind

/-- What starts an operand means something. -/
theorem isTrivia_of_starts {kind : TokenKind} (h : startsOperand kind = true) :
    kind.isTrivia = false := by
  cases kind <;> first | rfl | cases h

/-- Code that is one token lexes to this token. -/
theorem lexes_token {kind : TokenKind} (hregular : registry.Regular)
    (h : IsToken registry false cs kind) : Lexes registry cs (Single kind) := by
  obtain ⟨c, tail, hcs, -, hblank⟩ := h.first
  refine ⟨⟨c, tail, hcs, hblank⟩, fun offset rest hrest => ?_⟩
  obtain ⟨token, hkind, -, hcovers⟩ := h.covers hregular hrest offset
  refine ⟨_, _, hcovers, token, ?_, hkind⟩
  rw [meaningful_cons (hkind ▸ isTrivia_of_starts h.starts), meaningful_nil]

/-- A pair of brackets and their tokens. -/
structure Brackets (opening closing : Char) (openKind closeKind : TokenKind) : Prop where
  /-- The token that opens. -/
  opens : punctuation? opening = some openKind
  /-- The token that closes. -/
  closes : punctuation? closing = some closeKind
  /-- An operand is expected behind the one that opens. -/
  before : openKind.canEndOperand = false
  /-- The one that closes is a delimiter. -/
  ends : closing ∈ delimiters

/-- Round, square and curly brackets are delimiters on both sides. -/
theorem brackets_group : Brackets '(' ')' .groupOpen .groupClose := ⟨rfl, rfl, rfl, by decide⟩

theorem brackets_list : Brackets '[' ']' .listOpen .listClose := ⟨rfl, rfl, rfl, by decide⟩

theorem brackets_block : Brackets '{' '}' .blockOpen .blockClose := ⟨rfl, rfl, rfl, by decide⟩

variable {opening closing : Char} {openKind closeKind : TokenKind}

/-- Brackets around a piece. -/
theorem covers_bracketed (hbrackets : Brackets opening closing openKind closeKind)
    (h : Inside registry cs P) (offset : Nat) (before : Bool) (rest : List Char) :
    ∃ first tokens last after,
      Covers registry offset before (opening :: (cs ++ [closing])) rest
        (first :: (tokens ++ [last])) after ∧
      meaningful (first :: (tokens ++ [last])) = first :: (meaningful tokens ++ [last]) ∧
      first.kind = openKind ∧ last.kind = closeKind ∧
      first.span.start = min offset Span.maxOffset ∧ P (meaningful tokens) := by
  obtain ⟨first, hfirst, hstart, hcovers⟩ :=
    covers_punctuation registry hbrackets.opens offset before (cs ++ [closing] ++ rest)
  rw [hbrackets.before] at hcovers
  obtain ⟨tokens, middle, hmiddle, htokens⟩ :=
    h (offset + byteLength [opening]) ([closing] ++ rest) (ends_cons hbrackets.ends)
  obtain ⟨last, hlast, -, hfinal⟩ :=
    covers_punctuation registry hbrackets.closes (offset + byteLength [opening] + byteLength cs)
      middle rest
  refine ⟨first, tokens, last, _, hcovers.append (hmiddle.append hfinal), ?_, hfirst, hlast, hstart,
    htokens⟩
  rw [meaningful_cons (hfirst ▸ isTrivia_punctuation hbrackets.opens), meaningful_append,
    meaningful_cons (hlast ▸ isTrivia_punctuation hbrackets.closes), meaningful_nil]

/-- Code in brackets lexes to the brackets around the tokens of the code. -/
theorem lexes_bracketed (hbrackets : Brackets opening closing openKind closeKind)
    (h : Inside registry cs P) :
    Lexes registry (opening :: (cs ++ [closing])) fun tokens => ∃ first inner last,
      tokens = first :: (inner ++ [last]) ∧ first.kind = openKind ∧ last.kind = closeKind ∧
        P inner := by
  refine ⟨⟨opening, _, rfl, isInlineBlank_punctuation hbrackets.opens⟩, fun offset rest _ => ?_⟩
  obtain ⟨first, tokens, last, after, hcovers, hmeaningful, hfirst, hlast, -, htokens⟩ :=
    covers_bracketed hbrackets h offset false rest
  exact ⟨_, after, hcovers, first, meaningful tokens, last, hmeaningful, hfirst, hlast, htokens⟩

/-- A separator and its token. -/
structure Separates (mark : Char) (kind : TokenKind) : Prop where
  /-- The token. -/
  token : punctuation? mark = some kind
  /-- An operand is expected behind it. -/
  before : kind.canEndOperand = false
  /-- It is a delimiter. -/
  ends : mark ∈ delimiters

/-- Commas, colons and semicolons are delimiters too. -/
theorem separates_comma : Separates ',' .itemSeparator := ⟨rfl, rfl, by decide⟩

theorem separates_colon : Separates ':' .pairSeparator := ⟨rfl, rfl, by decide⟩

theorem separates_semicolon : Separates ';' .statementSeparator := ⟨rfl, rfl, by decide⟩

/-- Two pieces with a separator and a blank between them. -/
theorem Lexes.separated {mark : Char} {kind : TokenKind} (hmark : Separates mark kind)
    (h : Lexes registry cs P) (h' : Lexes registry ds Q) :
    Lexes registry (cs ++ mark :: ' ' :: ds) fun tokens => ∃ front token back,
      tokens = front ++ token :: back ∧ P front ∧ token.kind = kind ∧ Q back := by
  obtain ⟨c, tail, rfl, hc⟩ := h.first
  refine ⟨⟨c, _, rfl, hc⟩, fun offset rest hrest => ?_⟩
  obtain ⟨front, middle, hfront, hP⟩ :=
    h.inside offset ([mark] ++ ([' '] ++ ds) ++ rest) (ends_cons hmark.ends)
  obtain ⟨token, hkind, -, htoken⟩ := covers_punctuation registry hmark.token
    (offset + byteLength (c :: tail)) middle ([' '] ++ ds ++ rest)
  rw [hmark.before] at htoken
  obtain ⟨blank, hblank, hspace⟩ := covers_space registry (h'.head rest)
    (offset + byteLength (c :: tail) + byteLength [mark]) false
  obtain ⟨back, after, hback, hQ⟩ := h'.inside
    (offset + byteLength (c :: tail) + byteLength [mark] + byteLength [' ']) rest hrest
  refine ⟨_, after, hfront.append (htoken.append (hspace.append hback)), meaningful front, token,
    meaningful back, ?_, hP, hkind, hQ⟩
  simp only [meaningful_append, meaningful_cons (hkind ▸ isTrivia_punctuation hmark.token),
    meaningful_cons_trivia (show blank.kind.isTrivia = true by rw [hblank]; rfl),
    List.nil_append, List.cons_append]

/-- A word, a blank and a piece. -/
theorem lexes_spaced {kind : TokenKind} (hregular : registry.Regular)
    (h : IsToken registry false cs kind) (hbefore : kind.canEndOperand = false)
    (h' : Lexes registry ds Q) :
    Lexes registry (cs ++ ' ' :: ds) fun tokens => ∃ token back,
      tokens = token :: back ∧ token.kind = kind ∧ Q back := by
  obtain ⟨c, tail, rfl, -, hc⟩ := h.first
  refine ⟨⟨c, _, rfl, hc⟩, fun offset rest hrest => ?_⟩
  have hends : Ends ([' '] ++ ds ++ rest) := ends_cons (by decide)
  obtain ⟨token, hkind, -, htoken⟩ := h.covers hregular hends offset
  rw [hbefore] at htoken
  obtain ⟨blank, hblank, hspace⟩ := covers_space registry (h'.head rest)
    (offset + byteLength (c :: tail)) false
  obtain ⟨back, after, hback, hQ⟩ := h'.inside
    (offset + byteLength (c :: tail) + byteLength [' ']) rest hrest
  refine ⟨_, after, htoken.append (hspace.append hback), token, meaningful back, ?_, hkind, hQ⟩
  simp only [meaningful_cons (hkind ▸ isTrivia_of_starts h.starts),
    meaningful_cons_trivia (show blank.kind.isTrivia = true by rw [hblank]; rfl),
    List.nil_append, List.cons_append]

/-- Two pieces with a word between them, and blanks around the word. -/
theorem Lexes.between {word : List Char} {T : TokenKind → Prop} (hregular : registry.Regular)
    (hword : ∀ before, ∃ kind, IsToken registry before word kind ∧ T kind ∧
      kind.canEndOperand = false)
    (h : Lexes registry cs P) (h' : Lexes registry ds Q) :
    Lexes registry (cs ++ ' ' :: (word ++ ' ' :: ds)) fun tokens => ∃ front token back,
      tokens = front ++ token :: back ∧ P front ∧ T token.kind ∧ Q back := by
  obtain ⟨c, tail, rfl, hc⟩ := h.first
  refine ⟨⟨c, _, rfl, hc⟩, fun offset rest hrest => ?_⟩
  have hwordHead : ∀ d ∈ (word ++ ([' '] ++ ds) ++ rest).head?, Text.isInlineBlank d = false := by
    obtain ⟨kind, htoken, -⟩ := hword false
    obtain ⟨d, more, rfl, -, hd⟩ := htoken.first
    rintro _ ⟨⟩
    exact hd
  obtain ⟨front, middle, hfront, hP⟩ :=
    h.inside offset ([' '] ++ (word ++ ([' '] ++ ds)) ++ rest) (ends_cons (by decide))
  obtain ⟨blank, hblank, hspace⟩ :=
    covers_space registry hwordHead (offset + byteLength (c :: tail)) middle
  have hends : Ends ([' '] ++ ds ++ rest) := ends_cons (by decide)
  obtain ⟨kind, hisToken, hT, hbefore⟩ := hword middle
  obtain ⟨token, rfl, -, htoken⟩ := hisToken.covers hregular hends
    (offset + byteLength (c :: tail) + byteLength [' '])
  rw [hbefore] at htoken
  obtain ⟨blank', hblank', hspace'⟩ := covers_space registry (h'.head rest)
    (offset + byteLength (c :: tail) + byteLength [' '] + byteLength word) false
  obtain ⟨back, after, hback, hQ⟩ := h'.inside
    (offset + byteLength (c :: tail) + byteLength [' '] + byteLength word + byteLength [' ']) rest
    hrest
  refine ⟨_, after, hfront.append (hspace.append (htoken.append (hspace'.append hback))),
    meaningful front, token, meaningful back, ?_, hP, hT, hQ⟩
  simp only [meaningful_append, meaningful_cons (isTrivia_of_starts hisToken.starts),
    meaningful_cons_trivia (show blank.kind.isTrivia = true by rw [hblank]; rfl),
    meaningful_cons_trivia (show blank'.kind.isTrivia = true by rw [hblank']; rfl),
    List.nil_append, List.cons_append]

/-- A name and brackets right behind it. -/
theorem covers_called {kind : TokenKind} {before : Bool} {rest : List Char}
    (hregular : registry.Regular) (h : IsToken registry before cs kind)
    (h' : Inside registry ds Q) (offset : Nat) :
    ∃ tokens after, Covers registry offset before (cs ++ '(' :: (ds ++ [')'])) rest tokens after ∧
      ∃ token opening inner closing,
        meaningful tokens = token :: opening :: (inner ++ [closing]) ∧ token.kind = kind ∧
          opening.kind = .groupOpen ∧ opening.span.start = token.span.stop ∧
          closing.kind = .groupClose ∧ Q inner := by
  have hends : Ends ('(' :: (ds ++ [')']) ++ rest) := ends_cons (by decide)
  obtain ⟨token, hkind, hstop, htoken⟩ := h.covers hregular hends offset
  obtain ⟨opening, inner, closing, after, hinner, hmeaningful, hopening, hclosing, hstart, hQ⟩ :=
    covers_bracketed brackets_group h' (offset + byteLength cs) kind.canEndOperand rest
  refine ⟨_, after, htoken.append hinner, token, opening, meaningful inner, closing, ?_, hkind,
    hopening, hstart.trans hstop.symm, hclosing, hQ⟩
  rw [List.singleton_append, meaningful_cons (hkind ▸ isTrivia_of_starts h.starts), hmeaningful]

/-- A name that its parenthesis touches stays with it: the spans say so. -/
theorem lexes_called {kind : TokenKind} (hregular : registry.Regular)
    (h : IsToken registry false cs kind) (h' : Inside registry ds Q) :
    Lexes registry (cs ++ '(' :: (ds ++ [')'])) fun tokens => ∃ token opening inner closing,
      tokens = token :: opening :: (inner ++ [closing]) ∧ token.kind = kind ∧
        opening.kind = .groupOpen ∧ opening.span.start = token.span.stop ∧
        closing.kind = .groupClose ∧ Q inner := by
  obtain ⟨c, tail, rfl, -, hc⟩ := h.first
  exact ⟨⟨c, _, rfl, hc⟩, fun offset rest _ => covers_called hregular h h' offset⟩

/-- A piece, a blank and a block. -/
theorem Lexes.block (h : Lexes registry cs P) (h' : Inside registry ds Q) :
    Lexes registry (cs ++ ' ' :: '{' :: (ds ++ ['}'])) fun tokens => ∃ front opening inner closing,
      tokens = front ++ opening :: (inner ++ [closing]) ∧ P front ∧
        opening.kind = .blockOpen ∧ closing.kind = .blockClose ∧ Q inner := by
  obtain ⟨c, tail, rfl, hc⟩ := h.first
  refine ⟨⟨c, _, rfl, hc⟩, fun offset rest hrest => ?_⟩
  obtain ⟨front, middle, hfront, hP⟩ :=
    h.inside offset ([' '] ++ '{' :: (ds ++ ['}']) ++ rest) (ends_cons (by decide))
  have hhead : ∀ d ∈ ('{' :: (ds ++ ['}']) ++ rest).head?, Text.isInlineBlank d = false := by
    rintro _ ⟨⟩
    rfl
  obtain ⟨blank, hblank, hspace⟩ :=
    covers_space registry hhead (offset + byteLength (c :: tail)) middle
  obtain ⟨opening, inner, closing, after, hinner, hmeaningful, hopening, hclosing, -, hQ⟩ :=
    covers_bracketed brackets_block h' (offset + byteLength (c :: tail) + byteLength [' ']) middle
      rest
  refine ⟨_, after, hfront.append (hspace.append hinner), meaningful front, opening,
    meaningful inner, closing, ?_, hP, hopening, hclosing, hQ⟩
  rw [meaningful_append, meaningful_append, hmeaningful,
    meaningful_cons_trivia (show blank.kind.isTrivia = true by rw [hblank]; rfl), meaningful_nil,
    List.nil_append]

/-! ## Sequences -/

theorem intercalate_map_cons_cons {α : Type} (separator : List Char) (text : α → List Char)
    (first next : α) (more : List α) :
    List.intercalate separator ((first :: next :: more).map text) =
      text first ++ (separator ++ List.intercalate separator ((next :: more).map text)) := by
  simp [List.intercalate]

theorem intercalate_map_single {α : Type} (separator : List Char) (text : α → List Char)
    (item : α) : List.intercalate separator ([item].map text) = text item := by
  simp [List.intercalate]

/-- Pieces with a separator and a blank between them. -/
theorem lexes_sequence {α β : Type} {mark : Char} {kind : TokenKind} {text : α → List Char}
    {make : α → β} {items : List α} (One : β → List Token → Prop)
    (Many : List β → List Token → Prop) (hmark : Separates mark kind)
    (last : ∀ {one tokens}, One one tokens → Many [one] tokens)
    (more : ∀ {token one next rest tokens others}, One one tokens → token.kind = kind →
      Many (next :: rest) others → Many (one :: next :: rest) (tokens ++ token :: others))
    (hitems : items ≠ []) (h : ∀ item ∈ items, Lexes registry (text item) (One (make item))) :
    Lexes registry (List.intercalate [mark, ' '] (items.map text)) (Many (items.map make)) := by
  induction items with
  | nil => exact absurd rfl hitems
  | cons item items ih =>
    obtain ⟨hitem, hrest⟩ := List.forall_mem_cons.1 h
    cases items with
    | nil =>
      rw [intercalate_map_single]
      exact hitem.mono fun _ => last
    | cons next items =>
      rw [intercalate_map_cons_cons]
      refine (hitem.separated hmark (ih (List.cons_ne_nil _ _) hrest)).mono ?_
      rintro _ ⟨front, token, back, rfl, hfront, hmark, hback⟩
      exact more hfront hmark hback

/-- Elements with commas between them, perhaps none. -/
theorem inside_elements {α : Type} {text : α → List Char} {make : α → Element} {items : List α}
    (h : ∀ item ∈ items, Lexes registry (text item) (Spells (.element (make item)))) :
    Inside registry (List.intercalate [',', ' '] (items.map text))
      (Spells (.elements (items.map make))) := by
  cases items with
  | nil => exact inside_nil .noElements
  | cons item items =>
    exact (lexes_sequence (fun one => Spells (.element one)) (fun many => Spells (.elements many))
      separates_comma .lastElement .moreElements (List.cons_ne_nil _ _) h).inside

/-- The statements of a block, with semicolons between them. -/
theorem inside_statements {text : Value → List Char} {items : List Value}
    (h : ∀ item ∈ items, ∃ edge, Lexes registry (text item) (Spells (.value item edge))) :
    Inside registry (List.intercalate [';', ' '] (items.map text))
      (Spells (.statements items)) := by
  cases items with
  | nil => exact inside_nil .noStatements
  | cons item items =>
    let One (one : Value) (tokens : List Token) : Prop := ∃ edge, Spells (.value one edge) tokens
    have hitems : ∀ one ∈ item :: items, Lexes registry (text one) (One (id one)) := by
      intro one hmem
      obtain ⟨edge, hone⟩ := h one hmem
      exact hone.mono fun _ hspells => ⟨edge, hspells⟩
    have hsequence := lexes_sequence One (fun many => Spells (.statements many))
      separates_semicolon (fun ⟨_, hone⟩ => .lastStatement hone)
      (fun ⟨_, hone⟩ => .moreStatements hone) (List.cons_ne_nil _ _) hitems
    rw [List.map_id] at hsequence
    exact hsequence.inside

/-! ## Lists and records -/

/-- Elements without colons make a list. -/
theorem collectionOf_items (items : List Value) (span : Span) :
    collectionOf (items.map Element.item) span = .ok (.list items) := by
  have hitems : itemsOf? (items.map Element.item) = some items := by
    induction items with
    | nil => rfl
    | cons item items ih => rw [List.map_cons, itemsOf?, ih, Option.map_some]
  rw [collectionOf, hitems]

/-- The element that a field of a record is printed as. -/
def fieldElement (entry : Key × Value) : Element := .pair (.ofKey entry.1) entry.2 false

/-- A printed key is read as itself: texts and tags need no evaluation. -/
theorem recordKey_ofKey (key : Key) : recordKey false (.ofKey key) = .ofKey key := by
  cases key <;> rfl

/-- Elements with colons make a record, if no key comes twice. -/
theorem collectionOf_fields {entries : List (Key × Value)} (hentries : entries ≠ [])
    (hunique : Record.repeatedKey? [] entries = none) (span : Span) :
    collectionOf (entries.map fieldElement) span = .ok (.record (.fields entries)) := by
  have hitems : itemsOf? (entries.map fieldElement) = none := by
    cases entries with
    | nil => exact absurd rfl hentries
    | cons entry entries => rfl
  have hpairs (entries : List (Key × Value)) : pairsOf? (entries.map fieldElement) =
      some (entries.map fun entry => (.ofKey entry.1, entry.2)) := by
    induction entries with
    | nil => rfl
    | cons entry entries ih =>
      rw [List.map_cons, fieldElement, pairsOf?, ih, recordKey_ofKey, Option.map_some,
        List.map_cons]
  have hfields (entries : List (Key × Value)) :
      fieldsOf? (entries.map fun entry => (.ofKey entry.1, entry.2)) = some entries := by
    induction entries with
    | nil => rfl
    | cons entry entries ih =>
      obtain ⟨key, value⟩ := entry
      have hkey : (Value.ofKey key).toKey? = some key := by cases key <;> rfl
      simp [fieldsOf?, hkey, ih]
  rw [collectionOf, hitems, hpairs]
  simp only [hfields, Record.ofFields, hunique]

/-! ## Operands -/

/-- The text that an operand is printed as, where operations must bind as tightly as a
precedence. -/
def operandText (frames : FrameDescription) (value : Value) (precedence : Int) : String :=
  Display.parenthesized (Display.bindsLooser value precedence) (value.display frames)

/-- Whether a value is an operation that groups to the right and has a precedence. -/
def groupsRight (registry : Registry) (value : Value) (precedence : Int) : Bool :=
  match value with
  | .command ⟨_, _, some ⟨operator, own, .between⟩⟩ =>
    own == precedence && registry.continuing.any fun entry =>
      entry.2.form == .betweenRight && entry.2.name == operator
  | _ => false

/-- An operation groups to the right if its operator does. -/
theorem groupsRight_commandWith {key : String} {op : Operator} (operands : List Value)
    (hop : registry.continuing? key = some op) (hform : op.form = .betweenRight) :
    groupsRight registry (commandWith op .between operands) op.precedence = true := by
  have hany : registry.continuing.any (fun entry =>
      entry.2.form == .betweenRight && entry.2.name == op.name) = true :=
    List.any_eq_true.2 ⟨(key, op), mem_of_lookup hop, by simp [hform]⟩
  simp [groupsRight, commandWith, Command.ofOperands, hany]

/-- How the edge of an expression is bounded by the operator it was written with. -/
structure Bounds (registry : Registry) (value : Value) (edge : Edge) : Prop where
  /-- An operation that does not bind more loosely is not cut off. -/
  reach : ∀ {precedence : Int}, Display.bindsLooser value precedence = false →
    ∀ reach ∈ edge.reach, precedence ≤ reach
  /-- Only operators between operands reach anywhere. -/
  known : ∀ reach ∈ edge.reach, ∃ key op, registry.continuing? key = some op ∧ op.precedence = reach
  /-- It takes nothing that binds more loosely. -/
  slack : ∀ {precedence : Int}, Display.bindsLooser value precedence = false →
    edge.Leaves (precedence - 1)
  /-- It takes nothing that binds as tightly, unless it groups to the right and binds as tightly
  itself. -/
  left : ∀ {precedence : Int}, Display.bindsLooser value precedence = false →
    groupsRight registry value precedence = false ∨ precedence ∉ edge.reach →
      edge.Leaves precedence

/-- A closed value is cut off nowhere. -/
theorem bounds_closed (value : Value) : Bounds registry value .closed :=
  ⟨fun _ => nofun, nofun, fun _ => nofun, fun _ _ => nofun⟩

/-- No operation binds as tightly as an operator before its operand. -/
theorem Bounds.not_mem_reach {value : Value} {edge : Edge} {key : String} {op : Operator}
    (h : Bounds registry value edge) (hprints : Prints registry)
    (hop : registry.starting? key = some op) : op.precedence ∉ edge.reach := by
  intro hmem
  obtain ⟨_, other, hother, hprecedence⟩ := h.known _ hmem
  exact hprints.apart hop hother hprecedence

/-- What is cut off binds at least as tightly, and tighter where nothing in it has just that
precedence. -/
theorem within_of_reach {edge inner : Edge} {precedence : Int}
    (h : ∀ reach ∈ inner.reach, precedence ≤ reach ∧ reach ∈ edge.reach)
    (hapart : precedence ∉ edge.reach) : inner.Within precedence := by
  intro reach hreach
  obtain ⟨hle, hmem⟩ := h reach hreach
  have hne : precedence ≠ reach := fun heq => hapart (heq ▸ hmem)
  omega

/-- An expression as an operand, with or without parentheses. -/
theorem lexes_operand {frames : FrameDescription} {value : Value} {edge : Edge}
    (hbounds : Bounds registry value edge)
    (h : Lexes registry (value.display frames).toList (Spells (.value value edge)))
    (precedence : Int) :
    ∃ edge', (∀ reach ∈ edge'.reach, precedence ≤ reach ∧ reach ∈ edge.reach) ∧
      edge'.Leaves (precedence - 1) ∧
      (groupsRight registry value precedence = false ∨ precedence ∉ edge.reach →
        edge'.Leaves precedence) ∧
      Lexes registry (operandText frames value precedence).toList
        (Spells (.value value edge')) := by
  unfold operandText Display.parenthesized
  cases hloose : Display.bindsLooser value precedence with
  | false =>
    exact ⟨edge, fun reach hreach => ⟨hbounds.reach hloose reach hreach, hreach⟩,
      hbounds.slack hloose, hbounds.left hloose, h⟩
  | true =>
    refine ⟨.closed, nofun, nofun, fun _ => nofun, ?_⟩
    have htext : (if true = true then "(" ++ value.display frames ++ ")"
        else value.display frames).toList = '(' :: ((value.display frames).toList ++ [')']) := by
      simp [String.toList_append]
    rw [htext]
    refine (lexes_bracketed brackets_group h.inside).mono ?_
    rintro _ ⟨first, inner, last, rfl, hfirst, hlast, hinner⟩
    exact .group hfirst hlast hinner

/-! ## Printable code -/

/-- A text that is a name and not the spelling of an operator. -/
structure FreeName (registry : Registry) (text : String) : Prop where
  /-- It could stand between quotes. -/
  name : IsName text
  /-- It is no operator. -/
  free : registry.find? text = none

/-- Code that is read back when it is printed. -/
inductive Printable (registry : Registry) (frames : FrameDescription) : Value → Prop where
  | number {literal : String} {scalar : Scalar} :
      Numeral.scan? literal.toList = some ⟨literal.toList.length, scalar⟩ →
      Printable registry frames (.text (.number literal scalar))
  | text {content : String} : Printable registry frames (.ofString content)
  | tag {name : Name} : IsName name.text → Printable registry frames (.tag name)
  | identifier {name : Name} : FreeName registry name.text →
      Printable registry frames (.identifier name)
  | call {name : Name} {arguments : List Argument} : FreeName registry name.text →
      (∀ argument ∈ arguments, ∀ label ∈ argument.label, FreeName registry label.text) →
      (∀ argument ∈ arguments, Printable registry frames argument.value) →
      Printable registry frames (.command ⟨name, arguments, none⟩)
  | list {items : List Value} : (∀ item ∈ items, Printable registry frames item) →
      Printable registry frames (.list items)
  | record {entries : List (Key × Value)} :
      (∀ entry ∈ entries, Printable registry frames (.ofKey entry.1)) →
      (∀ entry ∈ entries, Printable registry frames entry.2) →
      Record.repeatedKey? [] entries = none →
      Printable registry frames (.record (.fields entries))
  | block {items : List Value} : (∀ item ∈ items, Printable registry frames item) →
      Printable registry frames (.block items)
  | atom {key : String} {op : Operator} : registry.starting? key = some op → op.form = .atom →
      Printable registry frames (commandWith op .atom [])
  | before {key : String} {op : Operator} {operand : Value} :
      registry.starting? key = some op → op.form = .before → Printable registry frames operand →
      (Display.isSpaced op.name = true ∨
        ∀ c ∈ (operandText frames operand op.precedence).toList.head?, c.isDigit = false) →
      Printable registry frames (commandWith op .before [operand])
  | keyword {key : String} {op : Operator} {operand : Value} {body : List Value} :
      registry.starting? key = some op → op.form = .keywordBlock →
      Printable registry frames operand → (∀ item ∈ body, Printable registry frames item) →
      Printable registry frames (commandWith op .keyword [operand, .block body])
  | between {key : String} {op : Operator} {left right : Value} :
      registry.continuing? key = some op → op.fixity = .between →
      Printable registry frames left → Printable registry frames right →
      groupsRight registry left op.precedence = false →
      Printable registry frames (commandWith op .between [left, right])

variable {frames : FrameDescription}

/-! ## Code as printed -/

theorem displayItems_single (separator : String) (item : Value) :
    displayItems frames separator [item] = item.display frames := rfl

theorem displayItems_cons (separator : String) (item next : Value) (items : List Value) :
    displayItems frames separator (item :: next :: items) =
      item.display frames ++ separator ++ displayItems frames separator (next :: items) := rfl

theorem displayEntries_single (key : Key) (value : Value) :
    displayEntries frames [(key, value)] =
      Display.key key ++ ": " ++ value.display frames := rfl

theorem displayEntries_cons (key : Key) (value : Value) (next : Key × Value)
    (entries : List (Key × Value)) :
    displayEntries frames ((key, value) :: next :: entries) =
      Display.key key ++ ": " ++ value.display frames ++ ", " ++
        displayEntries frames (next :: entries) := rfl

theorem displayArguments_single (label : Option Name) (value : Value) :
    displayArguments frames [⟨label, value⟩] =
      Display.label label ++ value.display frames := rfl

theorem displayArguments_cons (label : Option Name) (value : Value) (next : Argument)
    (arguments : List Argument) :
    displayArguments frames (⟨label, value⟩ :: next :: arguments) =
      Display.label label ++ value.display frames ++ ", " ++
        displayArguments frames (next :: arguments) := rfl

/-- The text of each kind of value, in the words of the printer. -/
theorem display_list (items : List Value) :
    (Value.list items).display frames = "[" ++ displayItems frames ", " items ++ "]" := rfl

theorem display_block (items : List Value) :
    (Value.block items).display frames = "\x7b" ++ displayItems frames "; " items ++ "\x7d" := rfl

theorem display_emptyRecord : (Value.record (.fields [])).display frames = "[:]" := rfl

theorem display_record (entry : Key × Value) (entries : List (Key × Value)) :
    (Value.record (.fields (entry :: entries))).display frames =
      "[" ++ displayEntries frames (entry :: entries) ++ "]" := rfl

theorem display_call (name : Name) (arguments : List Argument) :
    (Value.command ⟨name, arguments, none⟩).display frames =
      Display.name name.text ++ "(" ++ displayArguments frames arguments ++ ")" := rfl

theorem display_atom (op : Operator) : (commandWith op .atom []).display frames = op.name := rfl

theorem display_before (op : Operator) (operand : Value) :
    (commandWith op .before [operand]).display frames =
      op.name ++ (if Display.isSpaced op.name then " " else "") ++
        operandText frames operand op.precedence := rfl

theorem display_keyword (op : Operator) (operand : Value) (body : List Value) :
    (commandWith op .keyword [operand, .block body]).display frames =
      op.name ++ " " ++ operandText frames operand op.precedence ++
        (" " ++ ("\x7b" ++ displayItems frames "; " body ++ "\x7d") ++ "") := rfl

theorem display_between (op : Operator) (left right : Value) :
    (commandWith op .between [left, right]).display frames =
      operandText frames left op.precedence ++ " " ++ op.name ++ " " ++
        operandText frames right (tighter op.precedence) := rfl

/-- Printed items are the items' texts with the separator between them, as are fields and arguments.
-/
theorem toList_displayItems (separator : String) (items : List Value) :
    (displayItems frames separator items).toList =
      List.intercalate separator.toList (items.map fun item => (item.display frames).toList) := by
  induction items with
  | nil => rfl
  | cons item items ih =>
    cases items with
    | nil => rw [displayItems_single, intercalate_map_single]
    | cons next items =>
      rw [displayItems_cons, String.toList_append, String.toList_append, ih,
        intercalate_map_cons_cons, List.append_assoc]

/-- A field of a record as printed. -/
def fieldText (frames : FrameDescription) (entry : Key × Value) : List Char :=
  (Display.key entry.1).toList ++ ':' :: ' ' :: (entry.2.display frames).toList

theorem toList_displayEntries (entries : List (Key × Value)) :
    (displayEntries frames entries).toList =
      List.intercalate [',', ' '] (entries.map (fieldText frames)) := by
  induction entries with
  | nil => rfl
  | cons entry entries ih =>
    obtain ⟨key, value⟩ := entry
    cases entries with
    | nil =>
      rw [displayEntries_single, intercalate_map_single]
      simp [fieldText]
    | cons next entries =>
      rw [displayEntries_cons, String.toList_append, ih, intercalate_map_cons_cons]
      simp [fieldText]

/-- An argument as printed. -/
def argumentText (frames : FrameDescription) (argument : Argument) : List Char :=
  (Display.label argument.label).toList ++ (argument.value.display frames).toList

theorem toList_displayArguments (arguments : List Argument) :
    (displayArguments frames arguments).toList =
      List.intercalate [',', ' '] (arguments.map (argumentText frames)) := by
  induction arguments with
  | nil => rfl
  | cons argument arguments ih =>
    obtain ⟨label, value⟩ := argument
    cases arguments with
    | nil =>
      rw [displayArguments_single, intercalate_map_single]
      simp [argumentText]
    | cons next arguments =>
      rw [displayArguments_cons, String.toList_append, ih, intercalate_map_cons_cons]
      simp [argumentText]

/-! ## Printed code spells itself -/

/-- A printed expression spells the expression, and its edge is bounded. -/
def SpellsItself (registry : Registry) (frames : FrameDescription) (value : Value) : Prop :=
  ∃ edge, Bounds registry value edge ∧
    Lexes registry (value.display frames).toList (Spells (.value value edge))

/-- A value that is closed when it is printed reads as itself. -/
theorem spellsItself_closed {value : Value}
    (h : Lexes registry (value.display frames).toList (Spells (.value value .closed))) :
    SpellsItself registry frames value := ⟨.closed, bounds_closed value, h⟩

theorem ofString_text (name : Name) : Name.ofString name.text = name := Name.ext_text rfl

/-- A name is printed as a word if it can be one, and quoted otherwise. -/
theorem lexes_name (hregular : registry.Regular) {text : String} (h : FreeName registry text) :
    Lexes registry (Display.name text).toList fun tokens => ∃ token quoted, tokens = [token] ∧
      token.kind = .identifier text quoted := by
  obtain ⟨quoted, htoken⟩ := isToken_name h.name h.free
  refine (lexes_token hregular htoken).mono ?_
  rintro _ ⟨token, rfl, hkind⟩
  exact ⟨token, quoted, rfl, hkind⟩

/-- The element that an argument is printed as. -/
def argumentElement : Argument → Element
  | ⟨none, value⟩ => .item value
  | ⟨some label, value⟩ => .pair (.identifier label) value false

/-- An argument is printed with its label, which is then the key of a pair. -/
theorem lexes_argument (hregular : registry.Regular) {argument : Argument}
    (hlabel : ∀ label ∈ argument.label, FreeName registry label.text)
    (h : SpellsItself registry frames argument.value) :
    Lexes registry (argumentText frames argument)
      (Spells (.element (argumentElement argument))) := by
  obtain ⟨label, value⟩ := argument
  obtain ⟨edge, -, hvalue⟩ := h
  cases label with
  | none =>
    refine hvalue.mono fun _ => .item
  | some label =>
    have htext : argumentText frames ⟨some label, value⟩ =
        (Display.name label.text).toList ++ ':' :: ' ' :: (value.display frames).toList := by
      simp [argumentText, Display.label]
    rw [htext]
    refine ((lexes_name hregular (hlabel label rfl)).separated separates_colon hvalue).mono ?_
    rintro _ ⟨_, colon, back, rfl, ⟨token, quoted, rfl, hkind⟩, hcolon, hback⟩
    have hkey : Spells (.value (.identifier label) .closed) [token] := by
      rw [← ofString_text label]
      exact .identifier hkind
    exact .pair (by rw [hkind]; nofun) hkey hcolon hback

/-- What a printed value is as an argument. -/
theorem Printable.ofValue {value : Value} (h : Printable registry frames value) :
    Argument.ofValue value = ⟨none, value⟩ := by
  cases h <;> rfl

/-- Arguments that are read back are those of the call. -/
theorem ofValues_argumentElement {name : Name} {arguments : List Argument}
    (h : ∀ argument ∈ arguments, Argument.ofValue argument.value = ⟨none, argument.value⟩) :
    Command.ofValues (.ofString name.text)
      ((arguments.map argumentElement).map Element.asArgument) = ⟨name, arguments, none⟩ := by
  have harguments : ((arguments.map argumentElement).map Element.asArgument).map Argument.ofValue =
      arguments := by
    rw [List.map_map, List.map_map]
    refine (List.map_congr_left fun argument hmem => ?_).trans (List.map_id arguments)
    obtain ⟨label, value⟩ := argument
    cases label with
    | none => exact h _ hmem
    | some label => rfl
  rw [Command.ofValues, harguments, ofString_text]

/-- A call is printed with all its arguments in parentheses. -/
theorem spellsItself_call (hregular : registry.Regular) {name : Name} {arguments : List Argument}
    (hname : FreeName registry name.text)
    (hlabels : ∀ argument ∈ arguments, ∀ label ∈ argument.label, FreeName registry label.text)
    (hplain : ∀ argument ∈ arguments,
      Argument.ofValue argument.value = ⟨none, argument.value⟩)
    (h : ∀ argument ∈ arguments, SpellsItself registry frames argument.value) :
    SpellsItself registry frames (.command ⟨name, arguments, none⟩) := by
  refine spellsItself_closed ?_
  have htext : (Value.display frames (.command ⟨name, arguments, none⟩)).toList =
      (Display.name name.text).toList ++
        '(' :: (List.intercalate [',', ' '] (arguments.map (argumentText frames)) ++ [')']) := by
    simp [display_call, toList_displayArguments]
  obtain ⟨quoted, htoken⟩ := isToken_name hname.name hname.free
  have helements := inside_elements fun argument hmem =>
    lexes_argument hregular (hlabels argument hmem) (h argument hmem)
  rw [htext, ← ofValues_argumentElement hplain]
  refine (lexes_called hregular htoken helements).mono ?_
  rintro _ ⟨token, opening, inner, closing, rfl, hkind, hopening, htouches, hclosing, hinner⟩
  exact .call hkind hopening htouches hclosing hinner

/-- A list spells itself if its items do. -/
theorem spellsItself_list {items : List Value}
    (h : ∀ item ∈ items, SpellsItself registry frames item) :
    SpellsItself registry frames (.list items) := by
  refine spellsItself_closed ?_
  have htext : (Value.display frames (.list items)).toList =
      '[' :: (List.intercalate [',', ' '] (items.map fun item => (item.display frames).toList) ++
        [']']) := by
    simp [display_list, toList_displayItems]
  have helements : Inside registry _ (Spells (.elements (items.map .item))) :=
      inside_elements fun item hmem => by
    obtain ⟨edge, -, hitem⟩ := h item hmem
    exact hitem.mono fun _ => .item
  rw [htext]
  refine (lexes_bracketed brackets_list helements).mono ?_
  rintro _ ⟨first, inner, last, rfl, hfirst, hlast, hinner⟩
  exact .collection hfirst hlast hinner (collectionOf_items items)

/-- The key of a field is one token. -/
theorem lexes_key (hregular : registry.Regular) {key : Key}
    (h : Printable registry frames (.ofKey key)) :
    Lexes registry (Display.key key).toList fun tokens => ∃ token, tokens = [token] ∧
      token.kind ≠ .groupOpen ∧ Spells (.value (.ofKey key) .closed) [token] := by
  cases key with
  | text content =>
    cases h with
    | number hnumber =>
      refine (lexes_token hregular (isToken_number hnumber)).mono ?_
      rintro _ ⟨token, rfl, hkind⟩
      exact ⟨token, rfl, by rw [hkind]; nofun, .number hkind⟩
    | text =>
      refine (lexes_token hregular (isToken_text _)).mono ?_
      rintro _ ⟨token, rfl, hkind⟩
      exact ⟨token, rfl, by rw [hkind]; nofun, .text hkind⟩
  | tag name =>
    cases h with
    | tag hname =>
      refine (lexes_token hregular (isToken_tag hname)).mono ?_
      rintro _ ⟨token, rfl, hkind⟩
      refine ⟨token, rfl, by rw [hkind]; nofun, ?_⟩
      have htag := Spells.tag hkind
      rwa [ofString_text] at htag

/-- A record spells itself if its values do, and its keys are printed as keys. -/
theorem spellsItself_record (hregular : registry.Regular) {entries : List (Key × Value)}
    (hkeys : ∀ entry ∈ entries, Printable registry frames (.ofKey entry.1))
    (hunique : Record.repeatedKey? [] entries = none)
    (h : ∀ entry ∈ entries, SpellsItself registry frames entry.2) :
    SpellsItself registry frames (.record (.fields entries)) := by
  refine spellsItself_closed ?_
  cases entries with
  | nil =>
    have hcolon : Inside registry [':'] (Single .pairSeparator) := by
      intro offset rest _
      obtain ⟨mark, hkind, -, hcovers⟩ :=
        covers_punctuation registry separates_colon.token offset false rest
      refine ⟨_, _, hcovers, mark, ?_, hkind⟩
      rw [meaningful_cons (by rw [hkind]; rfl), meaningful_nil]
    have htext : (Value.display frames (.record (.fields []))).toList =
        '[' :: ([':'] ++ [']']) := by
      simp [display_emptyRecord]
    rw [htext]
    refine (lexes_bracketed brackets_list hcolon).mono ?_
    rintro _ ⟨first, _, last, rfl, hfirst, hlast, colon, rfl, hkind⟩
    exact .emptyRecord hfirst hkind hlast
  | cons entry entries =>
    have htext : (Value.display frames (.record (.fields (entry :: entries)))).toList =
        '[' :: (List.intercalate [',', ' '] ((entry :: entries).map (fieldText frames)) ++
          [']']) := by
      simp [display_record, toList_displayEntries]
    have helements : Inside registry _ (Spells (.elements ((entry :: entries).map fieldElement))) :=
        inside_elements fun entry hmem => by
      obtain ⟨edge, -, hvalue⟩ := h entry hmem
      refine ((lexes_key hregular (hkeys entry hmem)).separated separates_colon hvalue).mono ?_
      rintro _ ⟨_, colon, back, rfl, ⟨token, rfl, hkind, hkey⟩, hcolon, hback⟩
      exact .pair hkind hkey hcolon hback
    rw [htext]
    refine (lexes_bracketed brackets_list helements).mono ?_
    rintro _ ⟨first, inner, last, rfl, hfirst, hlast, hinner⟩
    exact .collection hfirst hlast hinner (collectionOf_fields (List.cons_ne_nil _ _) hunique)

/-- The statements of a block as printed. -/
theorem inside_body {items : List Value} (h : ∀ item ∈ items, SpellsItself registry frames item) :
    Inside registry (displayItems frames "; " items).toList (Spells (.statements items)) := by
  rw [toList_displayItems]
  exact inside_statements fun item hmem => by
    obtain ⟨edge, -, hitem⟩ := h item hmem
    exact ⟨edge, hitem⟩

/-- A block spells itself if its statements do. -/
theorem spellsItself_block {items : List Value}
    (h : ∀ item ∈ items, SpellsItself registry frames item) :
    SpellsItself registry frames (.block items) := by
  refine spellsItself_closed ?_
  have htext : (Value.display frames (.block items)).toList =
      '{' :: ((displayItems frames "; " items).toList ++ ['}']) := by
    simp [display_block]
  rw [htext]
  refine (lexes_bracketed brackets_block (inside_body h)).mono ?_
  rintro _ ⟨first, inner, last, rfl, hfirst, hlast, hinner⟩
  exact .block hfirst hlast hinner

/-! ## Printed operators -/

variable {key : String} {op : Operator}

/-- An operand that is printed without parentheses binds at least as tightly as asked. -/
theorem bindsLooser_commandWith {layout : Layout} (hlayout : layout ≠ .atom) (operands : List Value)
    {precedence : Int}
    (h : Display.bindsLooser (commandWith op layout operands) precedence = false) :
    precedence ≤ op.precedence := by
  simpa [Display.bindsLooser, commandWith, Command.ofOperands, hlayout] using h

/-- An operator that is an operand is printed as its word. -/
theorem spellsItself_atom (hprints : Prints registry) (hop : registry.starting? key = some op)
    (hform : op.form = .atom) : SpellsItself registry frames (commandWith op .atom []) := by
  refine spellsItself_closed ?_
  obtain ⟨found, htoken, hfound, -⟩ := hprints.token_starting hop
  have htext : (Value.display frames (commandWith op .atom [])).toList = op.name.toList := by
    simp [display_atom]
  rw [htext]
  refine (lexes_token hprints.regular htoken).mono ?_
  rintro _ ⟨token, rfl, hkind⟩
  exact .atom hkind hfound hform

/-- An operator before its operand, with a blank between or none. -/
theorem lexes_before {operand : List Char} {found : KnownSpelling} (hregular : registry.Regular)
    (htoken : IsToken registry false op.name.toList (.operator found))
    (hbefore : (TokenKind.operator found).canEndOperand = false)
    (hname : Display.isSpaced op.name = true ∨ isSign registry op.name = true)
    (hdigit : Display.isSpaced op.name = true ∨ ∀ c ∈ operand.head?, c.isDigit = false)
    (h : Lexes registry operand P) :
    Lexes registry
      (op.name.toList ++ ((if Display.isSpaced op.name then " " else "").toList ++ operand))
      fun tokens => ∃ token back,
        tokens = token :: back ∧ token.kind = .operator found ∧ P back := by
  cases hspaced : Display.isSpaced op.name with
  | true => exact lexes_spaced hregular htoken hbefore h
  | false =>
    rw [hspaced] at hname hdigit
    obtain ⟨c, hc, hsymbol, halone⟩ := eq_of_isSign (hname.resolve_left nofun)
    have hstart := hdigit.resolve_left nofun
    obtain ⟨d, tail, rfl, -⟩ := h.first
    obtain ⟨_, _, hcons, -, hblank⟩ := htoken.first
    rw [hc] at htoken hcons ⊢
    cases hcons
    refine ⟨⟨c, _, rfl, hblank⟩, fun offset rest hrest => ?_⟩
    obtain ⟨token, hkind, hcovers⟩ := covers_sign hsymbol halone htoken
      (show ∀ e ∈ (d :: tail ++ rest).head?, e.isDigit = false from hstart) offset
    rw [hbefore] at hcovers
    obtain ⟨back, after, hback, hP⟩ := h.inside (offset + byteLength [c]) rest hrest
    refine ⟨_, after, hcovers.append hback, token, meaningful back, ?_, hkind, hP⟩
    rw [List.singleton_append, meaningful_cons (by rw [hkind]; rfl)]

/-- A prefix operator is printed before its operand, which may not begin with a digit if it touches
a sign. -/
theorem spellsItself_before (hprints : Prints registry) (hop : registry.starting? key = some op)
    (hform : op.form = .before) {operand : Value} (h : SpellsItself registry frames operand)
    (hdigit : Display.isSpaced op.name = true ∨
      ∀ c ∈ (operandText frames operand op.precedence).toList.head?, c.isDigit = false) :
    SpellsItself registry frames (commandWith op .before [operand]) := by
  obtain ⟨found, htoken, hfound, hbefore⟩ := hprints.token_starting hop
  obtain ⟨hcolon, hname⟩ := hprints.before hop hform
  obtain ⟨edge, hbounds, hlexes⟩ := h
  obtain ⟨inner, hreach, -, hleft, hoperand⟩ := lexes_operand hbounds hlexes op.precedence
  have hapart := hbounds.not_mem_reach hprints hop
  have hwithin : inner.Within op.precedence := within_of_reach hreach hapart
  have htext : (Value.display frames (commandWith op .before [operand])).toList =
      op.name.toList ++ ((if Display.isSpaced op.name then " " else "").toList ++
        (operandText frames operand op.precedence).toList) := by
    simp [display_before]
  refine ⟨⟨none, some op.precedence⟩, ⟨fun _ => nofun, nofun, ?_, ?_⟩, ?_⟩
  · rintro precedence hloose slack ⟨⟩
    have := bindsLooser_commandWith (by decide) _ hloose
    omega
  · rintro precedence hloose - slack ⟨⟩
    exact bindsLooser_commandWith (by decide) _ hloose
  · rw [htext]
    refine (lexes_before hprints.regular htoken (hbefore (by rw [hform]; decide)) hname hdigit
      hoperand).mono ?_
    rintro _ ⟨token, back, rfl, hkind, hback⟩
    exact .before hkind hfound hform hcolon ⟨hwithin, hleft (.inr hapart)⟩ hback

/-- A keyword is printed with its operand and its block. -/
theorem spellsItself_keyword (hprints : Prints registry) (hop : registry.starting? key = some op)
    (hform : op.form = .keywordBlock) {operand : Value} {body : List Value}
    (h : SpellsItself registry frames operand)
    (hbody : ∀ item ∈ body, SpellsItself registry frames item) :
    SpellsItself registry frames (commandWith op .keyword [operand, .block body]) := by
  refine spellsItself_closed ?_
  obtain ⟨found, htoken, hfound, hbefore⟩ := hprints.token_starting hop
  obtain ⟨edge, hbounds, hlexes⟩ := h
  obtain ⟨inner, hreach, -, -, hoperand⟩ := lexes_operand hbounds hlexes op.precedence
  have hwithin : inner.Within op.precedence :=
    within_of_reach hreach (hbounds.not_mem_reach hprints hop)
  have htext : (Value.display frames (commandWith op .keyword [operand, .block body])).toList =
      op.name.toList ++ ' ' :: ((operandText frames operand op.precedence).toList ++
        ' ' :: '{' :: ((displayItems frames "; " body).toList ++ ['}'])) := by
    simp [display_keyword]
  rw [htext]
  refine (lexes_spaced hprints.regular htoken (hbefore (by rw [hform]; decide))
    (hoperand.block (inside_body hbody))).mono ?_
  rintro _ ⟨token, _, rfl, hkind, front, opening, inside, closing, rfl, hfront, hopening, hclosing,
    hinside⟩
  exact .keyword hkind hfound hform hwithin hfront hopening hclosing hinside

/-- The right operand is read at the operator's precedence, or just below it when the operator
groups to the right. -/
theorem rightLevel_bounds (hprints : Prints registry) (hop : registry.continuing? key = some op) :
    op.precedence - 1 ≤ rightLevel op ∧ rightLevel op ≤ op.precedence ∧
      (op.form ≠ .betweenRight → rightLevel op = op.precedence) := by
  obtain ⟨hlow, -⟩ := hprints.bounds hop
  have hlooser : looser op.precedence = op.precedence - 1 := by
    simp only [looser, leastPrecedence, colonPrecedence] at hlow ⊢
    omega
  unfold rightLevel
  split
  next hform =>
    rw [hlooser]
    exact ⟨Int.le_refl _, by omega, fun h => absurd hform h⟩
  next => exact ⟨by omega, Int.le_refl _, fun _ => rfl⟩

/-- An infix operator is printed between its operands.  A left operand of the same precedence that
groups to the right is what the statement leaves out. -/
theorem spellsItself_between (hprints : Prints registry)
    (hop : registry.continuing? key = some op) (hfixity : op.fixity = .between) {left right : Value}
    (hleft : SpellsItself registry frames left) (hright : SpellsItself registry frames right)
    (hgroups : groupsRight registry left op.precedence = false) :
    SpellsItself registry frames (commandWith op .between [left, right]) := by
  obtain ⟨hlow, hhigh⟩ := hprints.bounds hop
  obtain ⟨hlevel, hlevel', hlevelLeft⟩ := rightLevel_bounds hprints hop
  have htighter : tighter op.precedence = op.precedence + 1 := by
    unfold tighter
    omega
  obtain ⟨leftEdge, hleftBounds, hleftLexes⟩ := hleft
  obtain ⟨leftInner, hleftReach, -, hleftSlack, hleftOperand⟩ :=
    lexes_operand hleftBounds hleftLexes op.precedence
  obtain ⟨rightEdge, hrightBounds, hrightLexes⟩ := hright
  obtain ⟨rightInner, hrightReach, hrightSlack, -, hrightOperand⟩ :=
    lexes_operand hrightBounds hrightLexes (tighter op.precedence)
  rw [htighter] at hrightReach hrightSlack
  have hrightFits : rightInner.Fits (rightLevel op) := by
    refine ⟨fun reach hreach => ?_, fun slack hslack => ?_⟩
    · have := (hrightReach reach hreach).1
      omega
    · have := hrightSlack slack hslack
      omega
  have hfits : Edge.Fits ⟨some op.precedence, some (rightLevel op)⟩ colonPrecedence := by
    constructor
    · rintro reach ⟨⟩
      exact hlow
    · rintro slack ⟨⟩
      omega
  have htext : (Value.display frames (commandWith op .between [left, right])).toList =
      (operandText frames left op.precedence).toList ++ ' ' :: (op.name.toList ++
        ' ' :: (operandText frames right (tighter op.precedence)).toList) := by
    simp [display_between]
  refine ⟨⟨some op.precedence, some (rightLevel op)⟩, ⟨?_, ?_, ?_, ?_⟩, ?_⟩
  · rintro precedence hloose reach ⟨⟩
    exact bindsLooser_commandWith (by decide) _ hloose
  · rintro reach ⟨⟩
    exact ⟨key, op, hop, rfl⟩
  · rintro precedence hloose slack ⟨⟩
    have := bindsLooser_commandWith (by decide) _ hloose
    omega
  · rintro precedence hloose hleast slack ⟨⟩
    have hle := bindsLooser_commandWith (by decide) _ hloose
    by_cases hform : op.form = .betweenRight
    · have hne : precedence ≠ op.precedence := by
        rintro rfl
        rcases hleast with hleft | hapart
        · rw [groupsRight_commandWith _ hop hform] at hleft
          cases hleft
        · exact hapart rfl
      omega
    · rw [hlevelLeft hform]
      exact hle
  · rw [htext]
    refine (Lexes.between hprints.regular (hprints.token_continuing hop) hleftOperand
      hrightOperand).mono ?_
    rintro _ ⟨front, token, back, rfl, hfront, ⟨found, hkind, hfound⟩, hback⟩
    exact .between hkind hfound hfixity hfits (fun reach hreach => (hleftReach reach hreach).1)
      (hleftSlack (.inl hgroups)) hrightFits hfront hback

/-- The tokens of printable code, as printed, spell it. -/
theorem Printable.spellsItself (hprints : Prints registry) {value : Value}
    (h : Printable registry frames value) : SpellsItself registry frames value := by
  induction h with
  | number hnumber =>
    refine spellsItself_closed ((lexes_token hprints.regular (isToken_number hnumber)).mono ?_)
    rintro _ ⟨token, rfl, hkind⟩
    exact .number hkind
  | text =>
    refine spellsItself_closed ((lexes_token hprints.regular (isToken_text _)).mono ?_)
    rintro _ ⟨token, rfl, hkind⟩
    exact .text hkind
  | @tag name hname =>
    refine spellsItself_closed ((lexes_token hprints.regular (isToken_tag hname)).mono ?_)
    rintro _ ⟨token, rfl, hkind⟩
    have htag := Spells.tag hkind
    rwa [ofString_text] at htag
  | @identifier name hname =>
    refine spellsItself_closed ((lexes_name hprints.regular hname).mono ?_)
    rintro _ ⟨token, quoted, rfl, hkind⟩
    rw [← ofString_text name]
    exact .identifier hkind
  | call hname hlabels harguments ih =>
    exact spellsItself_call hprints.regular hname hlabels
      (fun argument hmem => (harguments argument hmem).ofValue) ih
  | list _ ih => exact spellsItself_list ih
  | record hkeys _ hunique _ ih => exact spellsItself_record hprints.regular hkeys hunique ih
  | block _ ih => exact spellsItself_block ih
  | atom hop hform => exact spellsItself_atom hprints hop hform
  | before hop hform _ hdigit ih => exact spellsItself_before hprints hop hform ih hdigit
  | keyword hop hform _ _ ih ihBody => exact spellsItself_keyword hprints hop hform ih ihBody
  | between hop hfixity _ _ hgroups ihLeft ihRight =>
    exact spellsItself_between hprints hop hfixity ihLeft ihRight hgroups

/-! ## Reading printed code -/

/-- The tokens of a source text, and behind them the code ends. -/
theorem Lexes.ofSource {source : String} (h : Lexes registry source.toList P) :
    P (State.ofSource registry source).rest ∧
      ∀ last, ((State.ofSource registry source).behind last []).current.kind = .endOfCode := by
  obtain ⟨tokens, after, hcovers, htokens⟩ := h.inside 0 [] ends_nil
  rw [Covers, tokensFrom_nil, List.append_nil] at hcovers
  rw [State.ofSource_eq hcovers]
  exact ⟨htokens, fun _ => rfl⟩

/-- A source text that is read as an expression is the one statement of a script. -/
theorem Lexes.readScript_of_reads {source : String} {value : Value} {edge : Edge}
    (hedge : edge.Fits colonPrecedence)
    (h : Lexes registry source.toList fun tokens =>
      Opens tokens ∧ Reads (.value value edge) tokens) :
    CommandScript.readScript registry source = .ok [value] := by
  obtain ⟨⟨hopens, hreads⟩, hend⟩ := h.ofSource
  rw [readScript_eq_ok]
  generalize State.ofSource registry source = start at hopens hreads hend ⊢
  have hkind : start.kindAt [] = .endOfCode := hend start.finish
  have hends : (isSeparator (start.kindAt []) || Closer.code.accepts (start.kindAt [])) = true := by
    rw [hkind]
    rfl
  obtain ⟨hskip, last, hread⟩ := hreads.statement hopens hedge
    (List.append_nil _).symm (show 2 * start.rest.length < 2 * start.rest.length + 7 by omega) hends
  have hdone : skipSeparators (2 * start.rest.length + 8) (start.behind last []) =
      .done () (start.behind last []) :=
    skipSeparators_none (Nat.succ_pos _) (by rw [hend]; rfl)
  obtain ⟨after, hadvance⟩ := advance_current (start.behind last [])
  exact ⟨after, statementsLoop_cons hskip hread
    (statementsLoop_nil hdone (by rw [hend]; rfl) hadvance (2 * start.rest.length + 6))⟩

/-- A source text that spells an expression is the one statement of a script. -/
theorem Lexes.readScript {source : String} {value : Value} {edge : Edge}
    (h : Lexes registry source.toList (Spells (.value value edge))) :
    CommandScript.readScript registry source = .ok [value] := by
  obtain ⟨hspells, -⟩ := h.ofSource
  exact Lexes.readScript_of_reads hspells.fits (h.mono fun _ hspells =>
    ⟨hspells.starts, hspells.reads⟩)

/-- Printable code, printed and read as a script, is the one statement. -/
theorem Printable.readScript_display (hprints : Prints registry) {value : Value}
    (h : Printable registry frames value) :
    CommandScript.readScript registry (value.display frames) = .ok [value] := by
  obtain ⟨edge, -, hlexes⟩ := h.spellsItself hprints
  exact hlexes.readScript

/-- Tokens that read as an expression, with the code ending behind them, are a lone expression. -/
theorem loneExpression_of_reads {start : State} {value : Value} {edge : Edge}
    (hreads : Reads (.value value edge) start.rest) (hedge : edge.Fits 0)
    (hend : ∀ last, (start.behind last []).current.kind = .endOfCode) :
    ∃ after, loneExpression start = .done value after := by
  have hkind : start.kindAt [] = .endOfCode := hend start.finish
  have hends : EndsExpression 0 (start.kindAt []) := by
    rw [hkind]
    exact endsExpression_closer (show Closer.code.accepts .endOfCode = true from rfl)
  obtain ⟨last, hexpression⟩ := hreads.expression_of_fits (List.append_nil _).symm
    (show 2 * start.rest.length < 2 * start.rest.length + 7 by omega) hedge hends
  have hfirst : expression 0 start = .done value (start.behind last []) := hexpression
  have htrailing : withGrammar (fun g => skipTrailing g.rounds) (start.behind last []) =
      .done () (start.behind last []) := by
    change (if isTrailing (start.behind last []).current.kind then _ else _ : Parser Unit) _ = _
    rw [hend]
    rfl
  obtain ⟨after, hadvance⟩ := advance_current (start.behind last [])
  have hexpect : expect isEnd "end of code" (start.behind last []) =
      .done (start.behind last []).current after := by
    rw [expect_eq, hend, ← hadvance]
    rfl
  refine ⟨after, ?_⟩
  rw [loneExpression, bind_of_done hfirst, bind_of_done htrailing, bind_of_done hexpect]
  rfl

/-- Printable code, printed and read as an expression, is the code. -/
theorem Printable.readExpression_display (hprints : Prints registry) {value : Value}
    (h : Printable registry frames value) :
    readExpression registry (value.display frames) = .ok value := by
  obtain ⟨edge, -, hlexes⟩ := h.spellsItself hprints
  obtain ⟨hspells, hend⟩ := hlexes.ofSource
  have hreads : Reads (.value value edge) _ := hspells.reads
  exact runOn_eq_ok_iff.2 (loneExpression_of_reads hreads (hspells.fits.mono (by decide)) hend)

end CommandScript.Parser
