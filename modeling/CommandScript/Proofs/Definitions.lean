import CommandScript.Proofs.DataLiterals

/-!
# Printed definitions

The signature of a handler, printed between `to` and a block, is read as the command that defines
the handler.

A signature leaves out what goes without saying: a label that is the binding, and `anything` with
the word in front of it.  What may be left out stands behind the rest, so its text is nothing or
starts with a blank, and is told as a piece that *trails* another.  The coercion behind a word is a
name or a call.  It is read as one operand, wherever it stands: `as` is an operator and `returning`
a name, so only behind the second could a sign be an operator.
-/

namespace CommandScript

/-- A parameter as it is read back: a label that was left out is the binding. -/
def Parameter.shown (parameter : Parameter) : Parameter :=
  if parameter.label == parameter.binding then { parameter with label := parameter.binding }
  else parameter

namespace Parser

open Lexer

variable {registry : Registry} {cs ds : List Char} {P Q : List Token → Prop}

/-! ## Pieces behind others -/

/-- The tokens of some characters have a property, also behind an operand. -/
def Anywhere (registry : Registry) (cs : List Char) (P : List Token → Prop) : Prop :=
  ∀ (offset : Nat) (before : Bool) (rest : List Char), Ends rest →
    ∃ tokens after, Covers registry offset before cs rest tokens after ∧ P (meaningful tokens)

/-- The same, and a piece in front of the characters ends before them. -/
structure Trails (registry : Registry) (cs : List Char) (P : List Token → Prop) : Prop where
  /-- The piece in front ends. -/
  ends {rest : List Char} : Ends rest → Ends (cs ++ rest)
  /-- The tokens have the property. -/
  anywhere : Anywhere registry cs P

theorem trails_nil (h : P []) : Trails registry [] P :=
  ⟨id, fun _ before _ _ => ⟨[], before, covers_nil, h⟩⟩

theorem Trails.mono (h : Trails registry cs P) (himp : ∀ tokens, P tokens → Q tokens) :
    Trails registry cs Q := by
  refine ⟨h.ends, fun offset before rest hrest => ?_⟩
  obtain ⟨tokens, after, hcovers, htokens⟩ := h.anywhere offset before rest hrest
  exact ⟨tokens, after, hcovers, himp _ htokens⟩

/-- A word and a piece, with a blank before each. -/
theorem trails_word {word : List Char} {T : TokenKind → Prop} (hregular : registry.Regular)
    (hword : ∀ before, ∃ kind, IsToken registry before word kind ∧ T kind)
    (hhead : ∀ rest, ∀ c ∈ (cs ++ rest).head?, Text.isInlineBlank c = false)
    (h : Anywhere registry cs P) :
    Trails registry (' ' :: (word ++ ' ' :: cs)) fun tokens => ∃ token back,
      tokens = token :: back ∧ T token.kind ∧ P back := by
  refine ⟨fun _ => ends_cons (by decide), fun offset before rest hrest => ?_⟩
  have hwordHead : ∀ d ∈ (word ++ ([' '] ++ cs) ++ rest).head?, Text.isInlineBlank d = false := by
    obtain ⟨kind, htoken, -⟩ := hword false
    obtain ⟨d, more, rfl, -, hd⟩ := htoken.first
    rintro _ ⟨⟩
    exact hd
  obtain ⟨blank, hblank, hspace⟩ := covers_space registry hwordHead offset before
  have hends : Ends ([' '] ++ cs ++ rest) := ends_cons (by decide)
  obtain ⟨kind, hisToken, hT⟩ := hword before
  obtain ⟨token, rfl, -, htoken⟩ := hisToken.covers hregular hends (offset + byteLength [' '])
  obtain ⟨blank', hblank', hspace'⟩ := covers_space registry (hhead rest)
    (offset + byteLength [' '] + byteLength word) token.kind.canEndOperand
  obtain ⟨back, after, hback, hP⟩ := h
    (offset + byteLength [' '] + byteLength word + byteLength [' ']) token.kind.canEndOperand rest
    hrest
  refine ⟨_, after, hspace.append (htoken.append (hspace'.append hback)), token, meaningful back,
    ?_, hT, hP⟩
  simp only [meaningful_cons (isTrivia_of_starts hisToken.starts),
    meaningful_cons_trivia (show blank.kind.isTrivia = true by rw [hblank]; rfl),
    meaningful_cons_trivia (show blank'.kind.isTrivia = true by rw [hblank']; rfl),
    List.nil_append, List.cons_append]

/-- A piece of code with one that trails behind it lexes to the tokens of both. -/
theorem Lexes.trailed (h : Lexes registry cs P) (h' : Trails registry ds Q) :
    Lexes registry (cs ++ ds) fun tokens => ∃ front back,
      tokens = front ++ back ∧ P front ∧ Q back := by
  obtain ⟨c, tail, rfl, hc⟩ := h.first
  refine ⟨⟨c, _, rfl, hc⟩, fun offset rest hrest => ?_⟩
  obtain ⟨front, middle, hfront, hP⟩ := h.inside offset (ds ++ rest) (h'.ends hrest)
  obtain ⟨back, after, hback, hQ⟩ :=
    h'.anywhere (offset + byteLength (c :: tail)) middle rest hrest
  exact ⟨_, after, hfront.append hback, meaningful front, meaningful back, meaningful_append ..,
    hP, hQ⟩

/-! ## Coercions -/

variable {frames : FrameDescription} {code : Value} {wanted : Coercion} {word : String}

/-- A name or a call is one operand. -/
theorem anywhere_call (hprints : Prints registry) (hcall : code.IsCall)
    (h : Printable registry frames code) :
    Anywhere registry (code.display frames).toList (ReadsOperand code .closed) := by
  intro offset before rest hrest
  cases code with
  | identifier name =>
    cases h with
    | identifier hname =>
      obtain ⟨quoted, hisToken⟩ : ∃ quoted, IsToken registry before
          (Display.name name.text).toList (.identifier name.text quoted) :=
        isToken_name hname.name hname.free
      obtain ⟨token, hkind, -, hcovers⟩ := hisToken.covers hprints.regular hrest offset
      refine ⟨_, _, hcovers, ?_⟩
      rw [meaningful_cons (by rw [hkind]; rfl), meaningful_nil, ← ofString_text name]
      exact readsOperand_identifier hkind
  | command command =>
    obtain ⟨name, arguments, writtenAs⟩ := command
    obtain rfl : writtenAs = none := hcall
    cases h with
    | call hname hlabels harguments =>
      obtain ⟨quoted, hisToken⟩ : ∃ quoted, IsToken registry before
          (Display.name name.text).toList (.identifier name.text quoted) :=
        isToken_name hname.name hname.free
      have helements := inside_elements fun argument hmem =>
        lexes_argument hprints.regular (hlabels argument hmem)
          ((harguments argument hmem).spellsItself hprints)
      have hplain : Command.ofValues (.ofString name.text)
          ((arguments.map argumentElement).map Element.asArgument) = ⟨name, arguments, none⟩ :=
        ofValues_argumentElement fun argument hmem => (harguments argument hmem).ofValue
      obtain ⟨tokens, after, hcovers, token, opening, inner, closing, htokens, hkind, hopening,
        htouches, hclosing, hinner⟩ := covers_called hprints.regular hisToken helements offset
      have htext : (Value.display frames (.command ⟨name, arguments, none⟩)).toList =
          (Display.name name.text).toList ++
            '(' :: (List.intercalate [',', ' '] (arguments.map (argumentText frames)) ++
              [')']) := by
        simp [display_call, toList_displayArguments]
      rw [htext, ← hplain]
      refine ⟨tokens, after, hcovers, ?_⟩
      rw [htokens]
      exact readsOperand_call hkind hopening htouches hclosing hinner hinner.reads
  | _ => exact hcall.elim

/-- The code of a coercion in a signature, which is left out for `anything`. -/
inductive CodeOf (registry : Registry) (frames : FrameDescription) : Value → Coercion → Prop where
  | leftOut : CodeOf registry frames (.coercion .anything) .anything
  | written {code : Value} {wanted : Coercion} : wanted.isAnything = false → code.IsCall →
      Printable registry frames code → code.display frames = wanted.display frames →
      CodeOf registry frames code wanted

/-- The text of a coercion behind a word, both of which are left out for `anything`. -/
def coercionText (word : String) (frames : FrameDescription) (wanted : Coercion) : List Char :=
  if wanted.isAnything then [] else ' ' :: (word.toList ++ ' ' :: (wanted.display frames).toList)

/-- Tokens of a coercion behind a word. -/
inductive SpellsCoercion (word : String) : Value → List Token → Prop where
  | leftOut : SpellsCoercion word (.coercion .anything) []
  | written {token : Token} {code : Value} {tokens : List Token} : isWord word token.kind = true →
      ReadsOperand code .closed tokens → SpellsCoercion word code (token :: tokens)

/-- Whether a word is read as itself. -/
def wordReads (registry : Registry) (before : Bool) (word : String) : Bool :=
  match word.toList with
  | [] => false
  | c :: tail =>
    match scan registry before c tail with
    | (kind, count) => count == tail.length && startsOperand kind && isWord word kind

/-- The words of a signature are read as themselves. -/
theorem isToken_word (h : Library.registry = .ok registry) (hword : word ∈ ["as", "returning"])
    (before : Bool) :
    ∃ kind, IsToken registry before word.toList kind ∧ isWord word kind = true := by
  have hall : Library.registry.toOption.all fun registry => ["as", "returning"].all fun word =>
      [false, true].all fun before => wordReads registry before word := by
    decide +kernel
  have hwords := test_of_ok hall h
  have hreads : wordReads registry before word = true :=
    List.all_eq_true.1 (List.all_eq_true.1 hwords word hword) before (by cases before <;> decide)
  unfold wordReads at hreads
  split at hreads
  next => cases hreads
  next c tail hchars =>
    split at hreads
    next kind count hscan =>
      simp only [Bool.and_eq_true, beq_iff_eq] at hreads
      obtain ⟨⟨rfl, hstarts⟩, htest⟩ := hreads
      exact ⟨kind, ⟨⟨c, tail, hchars, hscan⟩, hstarts⟩, htest⟩

/-- A coercion trails behind a name, with its word, or is left out. -/
theorem trails_coercion (h : Library.registry = .ok registry) (hword : word ∈ ["as", "returning"])
    (hcode : CodeOf registry frames code wanted) :
    Trails registry (coercionText word frames wanted) (SpellsCoercion word code) := by
  have hprints := prints_library h
  cases hcode with
  | leftOut => exact trails_nil .leftOut
  | written hwritten hcall hprintable hdisplay =>
    obtain ⟨edge, -, hlexes⟩ := hprintable.spellsItself hprints
    rw [coercionText, hwritten, if_neg (by decide), ← hdisplay]
    refine (trails_word hprints.regular (isToken_word h hword) hlexes.head
      (anywhere_call hprints hcall hprintable)).mono ?_
    rintro _ ⟨token, back, rfl, htoken, hback⟩
    exact .written htoken hback

/-! ## Parameters -/

/-- A text that is written as a name without quotes. -/
structure PlainName (registry : Registry) (text : String) : Prop where
  /-- It needs no quotes. -/
  plain : Character.needsNoQuotes text.toList = true
  /-- It is not the spelling of an operator. -/
  free : registry.find? text = none

theorem PlainName.freeName {text : String} (h : PlainName registry text) :
    FreeName registry text :=
  ⟨isName_of_needsNoQuotes h.plain, h.free⟩

/-- A plain name is read as a name, whatever stands before it. -/
theorem PlainName.isToken {text : String} (h : PlainName registry text) :
    ∃ quoted, IsToken registry false text.toList (.identifier text quoted) := by
  have hprinted : Display.name text = text := if_pos h.plain
  obtain ⟨quoted, htoken⟩ : ∃ quoted, IsToken registry false (Display.name text).toList
      (.identifier text quoted) := isToken_name h.freeName.name h.free
  rw [hprinted] at htoken
  exact ⟨quoted, htoken⟩

/-- One token with a name. -/
def SpellsName (text : String) (tokens : List Token) : Prop :=
  ∃ token quoted, tokens = [token] ∧ token.kind = .identifier text quoted

theorem PlainName.lexes {text : String} (hregular : registry.Regular)
    (h : PlainName registry text) : Lexes registry text.toList (SpellsName text) := by
  obtain ⟨quoted, htoken⟩ := h.isToken
  refine (lexes_token hregular htoken).mono ?_
  rintro _ ⟨token, rfl, hkind⟩
  exact ⟨token, quoted, rfl, hkind⟩

/-- Tokens of the label and the binding of a parameter, or of the one name that is both. -/
inductive SpellsNames : String → String → List Token → Prop where
  | same {name : String} {tokens : List Token} : SpellsName name tokens →
      SpellsNames name name tokens
  | labelled {label binding : String} {colon : Token} {tokens others : List Token} :
      SpellsName label tokens → colon.kind = .pairSeparator → SpellsName binding others →
      SpellsNames label binding (tokens ++ colon :: others)

/-- Tokens of a parameter, which is read as a list. -/
inductive SpellsParameter : Value → List Token → Prop where
  | mk {label binding : String} {code : Value} {tokens others : List Token} :
      SpellsNames label binding tokens → SpellsCoercion "as" code others →
      SpellsParameter (.list [.ofString label, .ofString binding, code]) (tokens ++ others)

/-- Tokens of parameters with commas between them. -/
inductive SpellsParameters : List Value → List Token → Prop where
  | none : SpellsParameters [] []
  | last {value : Value} {tokens : List Token} : SpellsParameter value tokens →
      SpellsParameters [value] tokens
  | more {comma : Token} {value next : Value} {rest : List Value} {tokens others : List Token} :
      SpellsParameter value tokens → comma.kind = .itemSeparator →
      SpellsParameters (next :: rest) others →
      SpellsParameters (value :: next :: rest) (tokens ++ comma :: others)

/-- The list that a parameter is read as, with code for its coercion. -/
def parameterCode (codeOf : Coercion → Value) (parameter : Parameter) : Value :=
  .list [.ofString parameter.shown.label.text, .ofString parameter.binding.text,
    codeOf parameter.coercion]

variable {codeOf : Coercion → Value}

/-- A parameter is printed with its label, its binding and its coercion. -/
theorem lexes_parameter (h : Library.registry = .ok registry) {parameter : Parameter}
    (hlabel : PlainName registry parameter.label.text)
    (hbinding : PlainName registry parameter.binding.text)
    (hcode : CodeOf registry frames (codeOf parameter.coercion) parameter.coercion) :
    Lexes registry (parameter.display frames).toList
      (SpellsParameter (parameterCode codeOf parameter)) := by
  have hregular := (prints_library h).regular
  obtain ⟨label, binding, wanted⟩ := parameter
  have hcoercion : Trails registry (coercionText "as" frames wanted)
      (SpellsCoercion "as" (codeOf wanted)) := trails_coercion h (by decide) hcode
  have htext : (Parameter.display frames ⟨label, binding, wanted⟩).toList =
      ((if label == binding then "" else label.text ++ ": ") ++ binding.text).toList ++
        coercionText "as" frames wanted := by
    have hdisplay : Parameter.display frames ⟨label, binding, wanted⟩ =
        (if label == binding then "" else label.text ++ ": ") ++ binding.text ++
          (if wanted.isAnything then "" else " as " ++ wanted.display frames) := rfl
    rw [hdisplay, String.toList_append, coercionText]
    cases wanted.isAnything with
    | true => rfl
    | false => simp [String.toList_append]
  have hnames : Lexes registry
      ((if label == binding then "" else label.text ++ ": ") ++ binding.text).toList
      (SpellsNames (Parameter.shown ⟨label, binding, wanted⟩).label.text binding.text) := by
    unfold Parameter.shown
    cases label == binding with
    | true => simpa using (hbinding.lexes hregular).mono fun _ => .same
    | false =>
      have hseparated : (label.text ++ ": " ++ binding.text).toList =
          label.text.toList ++ ':' :: ' ' :: binding.text.toList := by
        simp [String.toList_append]
      simp only [Bool.false_eq_true, if_false]
      rw [hseparated]
      refine ((hlabel.lexes hregular).separated separates_colon (hbinding.lexes hregular)).mono ?_
      rintro _ ⟨front, colon, back, rfl, hfront, hcolon, hback⟩
      exact .labelled hfront hcolon hback
  rw [htext]
  refine (hnames.trailed hcoercion).mono ?_
  rintro _ ⟨front, back, rfl, hfront, hback⟩
  exact .mk hfront hback

theorem toList_displayParameters (parameters : List Parameter) :
    (displayParameters frames parameters).toList = List.intercalate [',', ' ']
      (parameters.map fun parameter => (parameter.display frames).toList) := by
  induction parameters with
  | nil => rfl
  | cons parameter parameters ih =>
    cases parameters with
    | nil => exact (intercalate_map_single ..).symm
    | cons next parameters =>
      have hcons : displayParameters frames (parameter :: next :: parameters) =
          parameter.display frames ++ ", " ++ displayParameters frames (next :: parameters) := rfl
      rw [hcons, String.toList_append, String.toList_append, ih, intercalate_map_cons_cons,
        List.append_assoc]
      rfl

/-- Parameters with commas between them, perhaps none. -/
theorem inside_parameters {parameters : List Parameter}
    (h : ∀ parameter ∈ parameters, Lexes registry (parameter.display frames).toList
      (SpellsParameter (parameterCode codeOf parameter))) :
    Inside registry (displayParameters frames parameters).toList
      (SpellsParameters (parameters.map (parameterCode codeOf))) := by
  rw [toList_displayParameters]
  cases parameters with
  | nil => exact inside_nil .none
  | cons parameter parameters =>
    exact (lexes_sequence SpellsParameter SpellsParameters separates_comma .last .more
      (List.cons_ne_nil _ _) h).inside

/-! ## Reading a definition -/

variable {fuel : Nat} {state : State} {token opening closing : Token}
  {tokens others rest : List Token} {name : String} {quoted : Bool} {value : Value}
  {values : List Value}

/-- Whether a token ends a parameter or a signature. -/
def endsParameter : TokenKind → Bool
  | .itemSeparator | .groupClose | .blockOpen => true
  | _ => false

/-- Nothing that ends a parameter goes on with its coercion. -/
theorem borders_of_endsParameter {kind : TokenKind} (h : endsParameter kind = true) :
    Edge.closed.Borders kind := by
  cases kind with
  | itemSeparator | groupClose | blockOpen => exact ⟨rfl, nofun, fun _ _ => nofun⟩
  | _ => cases h

theorem isWord_of_endsParameter {kind : TokenKind} (h : endsParameter kind = true)
    (word : String) : isWord word kind = false := by
  cases kind <;> first | rfl | cases h

theorem isLineBreak_of_isWord {kind : TokenKind} (h : isWord word kind = true) :
    kind.isLineBreak = false := by
  cases kind <;> first | rfl | cases h

/-- A name that stands there is taken. -/
theorem takeName_of_rest (what : String) (hrest : state.rest = token :: others)
    (hkind : token.kind = .identifier name quoted) :
    takeName what state = .done name (state.behind token others) := by
  have hbreak : token.kind.isLineBreak = false := by rw [hkind]; rfl
  rw [takeName, bind_of_done (nextKind_eq state), State.current_of_rest hrest hbreak, hkind]
  exact bind_of_done (advance_of_rest hrest hbreak)

/-- Nothing is read of a state. -/
theorem State.exists_behind (state : State) : ∃ last, state = state.behind last state.rest :=
  ⟨⟨.endOfCode, ⟨0, state.lastStop⟩⟩, rfl⟩

/-- The coercion behind a word is read up to what ends the parameter or the signature. -/
theorem SpellsCoercion.reads (h : SpellsCoercion word code tokens)
    (hrest : state.rest = tokens ++ rest) (hfuel : 2 * tokens.length < fuel)
    (hends : endsParameter (state.kindAt rest) = true) :
    ∃ last, coercionAfter (grammar fuel) word state = .done code (state.behind last rest) := by
  cases h with
  | leftOut =>
    have hrest : state.rest = rest := hrest
    subst hrest
    obtain ⟨last, hlast⟩ := state.exists_behind
    have hword : isWord word state.current.kind = false := isWord_of_endsParameter hends word
    have htake : takeWord word state = .done false state := by
      rw [takeWord, bind_of_done (nextKind_eq state), hword]
      rfl
    refine ⟨last, ?_⟩
    rw [coercionAfter, bind_of_done htake, ← hlast]
    rfl
  | @written token _ tokens hword hcode =>
    rw [List.cons_append] at hrest
    rw [List.length_cons] at hfuel
    have hbreak := isLineBreak_of_isWord hword
    have htake : takeWord word state = .done true (state.behind token (tokens ++ rest)) := by
      rw [takeWord, bind_of_done (nextKind_eq state), State.current_of_rest hrest hbreak, hword]
      exact bind_of_done (advance_of_rest hrest hbreak)
    obtain ⟨last, hread⟩ : ∃ last, operandUpTo fuel (state.behind token (tokens ++ rest)) =
        .done code ((state.behind token (tokens ++ rest)).behind last rest) :=
      hcode rfl (by omega) (borders_of_endsParameter hends)
    refine ⟨last, ?_⟩
    rw [coercionAfter, bind_of_done htake]
    exact hread

/-- No colon stands behind the name of a parameter. -/
theorem SpellsCoercion.ne_colon (h : SpellsCoercion word code tokens)
    (hends : endsParameter (state.kindAt rest) = true) :
    state.kindAt (tokens ++ rest) ≠ .pairSeparator := by
  intro hcolon
  cases h with
  | leftOut =>
    rw [List.nil_append] at hcolon
    rw [hcolon] at hends
    cases hends
  | written hword hcode =>
    rw [List.cons_append, State.kindAt_cons _ (isLineBreak_of_isWord hword)] at hcolon
    rw [hcolon] at hword
    cases hword

/-- A parameter is read up to what ends it. -/
theorem SpellsParameter.reads (h : SpellsParameter value tokens)
    (hrest : state.rest = tokens ++ rest) (hfuel : 2 * tokens.length < fuel)
    (hends : endsParameter (state.kindAt rest) = true) :
    ∃ last, parameter (grammar fuel) state = .done value (state.behind last rest) := by
  obtain ⟨hnames, hcode⟩ := h
  next label binding code front back =>
  simp only [List.length_append] at hfuel
  rw [List.append_assoc] at hrest
  -- Whichever names are there, behind them the coercion is read.
  have hcoercion (last : Token) : ∃ final, (do
      let wanted ← coercionAfter (grammar fuel) "as"
      return Value.list [.ofString label, .ofString binding, wanted])
        (state.behind last (back ++ rest)) =
          .done (.list [.ofString label, .ofString binding, code]) (state.behind final rest) := by
    obtain ⟨final, hread⟩ : ∃ final,
        coercionAfter (grammar fuel) "as" (state.behind last (back ++ rest)) =
          .done code ((state.behind last (back ++ rest)).behind final rest) :=
      hcode.reads rfl (by omega) hends
    exact ⟨final, bind_of_done hread⟩
  cases hnames with
  | same hname =>
    obtain ⟨token, quoted, rfl, hkind⟩ := hname
    rw [List.singleton_append] at hrest
    obtain ⟨final, hread⟩ := hcoercion token
    refine ⟨final, ?_⟩
    have hcolon : (state.behind token (back ++ rest)).current.kind ≠ .pairSeparator :=
      hcode.ne_colon hends
    rw [parameter, bind_of_done (takeName_of_rest _ hrest hkind), bind_of_done (nextKind_eq _)]
    cases hnext : (state.behind token (back ++ rest)).current.kind with
    | pairSeparator => exact absurd hnext hcolon
    | _ => exact hread
  | labelled hlabel hcolon hbinding =>
    obtain ⟨token, quoted, rfl, hkind⟩ := hlabel
    obtain ⟨token', quoted', rfl, hkind'⟩ := hbinding
    next colon =>
    rw [List.singleton_append, List.cons_append, List.cons_append, List.singleton_append] at hrest
    obtain ⟨final, hread⟩ := hcoercion token'
    refine ⟨final, ?_⟩
    have hbreak : colon.kind.isLineBreak = false := by rw [hcolon]; rfl
    rw [parameter, bind_of_done (takeName_of_rest _ hrest hkind), bind_of_done (nextKind_eq _),
      State.current_of_rest rfl hbreak, hcolon]
    refine (bind_of_done (advance_of_rest rfl hbreak)).trans ?_
    exact (bind_of_done (takeName_of_rest _ rfl hkind')).trans hread

/-- Parameters start with a name. -/
theorem SpellsParameters.starts (h : SpellsParameters values tokens) (hvalues : values ≠ []) :
    ∃ token others name quoted, tokens = token :: others ∧
      token.kind = .identifier name quoted := by
  have hparameter {value : Value} {tokens : List Token} (h : SpellsParameter value tokens) :
      ∃ token others name quoted, tokens = token :: others ∧
        token.kind = .identifier name quoted := by
    obtain ⟨⟨token, quoted, rfl, hkind⟩ | ⟨⟨token, quoted, rfl, hkind⟩, -, -⟩, -⟩ := h
    · exact ⟨token, _, _, quoted, rfl, hkind⟩
    · exact ⟨token, _, _, quoted, rfl, hkind⟩
  cases h with
  | none => exact absurd rfl hvalues
  | last h => exact hparameter h
  | more h _ _ =>
    obtain ⟨token, others, name, quoted, rfl, hkind⟩ := hparameter h
    exact ⟨token, _, name, quoted, rfl, hkind⟩

/-- Parameters are read one by one.  The induction is on how they are spelled. -/
theorem SpellsParameters.readsLoop (h : SpellsParameters values tokens) (hvalues : values ≠ [])
    {rounds : Nat} (hrest : state.rest = tokens ++ closing :: rest)
    (hfuel : 2 * tokens.length < fuel) (hrounds : tokens.length < rounds)
    (hclosing : closing.kind = .groupClose) :
    parametersLoop (grammar fuel) rounds state = .done values (state.behind closing rest) := by
  induction h generalizing state rounds with
  | none => exact absurd rfl hvalues
  | last h =>
    obtain ⟨rounds, rfl⟩ := Nat.exists_eq_succ_of_ne_zero (Nat.ne_zero_of_lt hrounds)
    have hbreak : closing.kind.isLineBreak = false := by rw [hclosing]; rfl
    obtain ⟨last, hread⟩ := h.reads hrest hfuel
      (by rw [State.kindAt_cons _ hbreak, hclosing]; rfl)
    rw [parametersLoop, bind_of_done hread, bind_of_done (nextKind_eq _),
      State.current_of_rest rfl hbreak, hclosing]
    exact bind_of_done (advance_of_rest rfl hbreak)
  | @more comma value next _ tokens others h hcomma _ ih =>
    simp only [List.length_append, List.length_cons] at hfuel hrounds
    rw [List.append_assoc, List.cons_append] at hrest
    obtain ⟨rounds, rfl⟩ := Nat.exists_eq_succ_of_ne_zero (Nat.ne_zero_of_lt hrounds)
    have hbreak : comma.kind.isLineBreak = false := by rw [hcomma]; rfl
    obtain ⟨last, hread⟩ := h.reads hrest (show 2 * tokens.length < fuel by omega)
      (by rw [State.kindAt_cons _ hbreak, hcomma]; rfl)
    have hothers : parametersLoop (grammar fuel) rounds
        (state.behind comma (others ++ closing :: rest)) =
          .done (next :: _) (state.behind closing rest) :=
      ih (List.cons_ne_nil _ _) rfl (by omega) (by omega)
    rw [parametersLoop, bind_of_done hread, bind_of_done (nextKind_eq _),
      State.current_of_rest rfl hbreak, hcomma]
    refine (bind_of_done (advance_of_rest rfl hbreak)).trans ?_
    exact bind_of_done hothers

/-- With their parentheses, also when there are none between them. -/
theorem SpellsParameters.reads (h : SpellsParameters values tokens)
    (hrest : state.rest = opening :: (tokens ++ closing :: rest))
    (hfuel : 2 * tokens.length < fuel) (hopening : opening.kind = .groupOpen)
    (hclosing : closing.kind = .groupClose) :
    parameters (grammar fuel) state = .done values (state.behind closing rest) := by
  have hopen : opening.kind.isLineBreak = false := by rw [hopening]; rfl
  have hclose : closing.kind.isLineBreak = false := by rw [hclosing]; rfl
  rw [parameters, bind_of_done (expect_of_rest _ hrest hopen (by rw [hopening]))]
  apply countingLineBreaks_behind
  rw [bind_of_done (nextKind_eq _)]
  by_cases hvalues : values = []
  · subst hvalues
    cases h with
    | none =>
      rw [List.nil_append, State.current_of_rest rfl hclose, hclosing]
      exact bind_of_done (advance_of_rest rfl hclose)
  · have hloop : parametersLoop (grammar fuel) fuel
        ((state.behind opening (tokens ++ closing :: rest)).counting false) =
          .done values ((state.behind closing rest).counting false) :=
      h.readsLoop hvalues rfl hfuel (by omega) hclosing
    obtain ⟨token, others, name, quoted, rfl, hkind⟩ := h.starts hvalues
    rw [State.current_of_rest rfl (by rw [hkind]; rfl), hkind]
    exact hloop

/-- The command that a definition is read as. -/
def definition (op : Operator) (name : String) (values : List Value) (returns : Value)
    (items : List Value) (isEvent : Bool) : Value :=
  .command (.ofValues (.ofString op.handler)
    [.ofString name, .list values, returns, .block items, .boolean isEvent])

/-- A definition is an operand: its word, its name, its parameters, its coercion and its block. -/
theorem readsOperand_definition {named opened closed : Token} {found : KnownSpelling}
    {op : Operator} {returns : Value} {items : List Value} {body : List Token}
    (hkind : token.kind = .operator found) (hop : found.starting? = some op)
    (hform : op.form = .commandHandler) (hname : named.kind = .identifier name quoted)
    (hopening : opening.kind = .groupOpen) (hclosing : closing.kind = .groupClose)
    (hvalues : SpellsParameters values tokens)
    (hreturns : SpellsCoercion "returning" returns others) (hopened : opened.kind = .blockOpen)
    (hclosed : closed.kind = .blockClose) (hbody : Reads (.statements items) body) :
    ReadsOperand (definition op name values returns items false) .closed
      (token :: named :: opening :: (tokens ++ closing :: (others ++ opened :: (body ++ [closed]))))
    := by
  intro fuel state rest hrest hfuel _
  simp only [List.length_cons, List.length_append, List.length_nil] at hfuel
  simp only [List.cons_append, List.append_assoc, List.nil_append] at hrest
  obtain ⟨fuel, rfl, -⟩ := exists_fuel hfuel
  have hbreak : opened.kind.isLineBreak = false := by rw [hopened]; rfl
  have hparameters : parameters (grammar (fuel + 1)) (state.behind named
      (opening :: (tokens ++ closing :: (others ++ opened :: (body ++ closed :: rest))))) =
        .done values (state.behind closing (others ++ opened :: (body ++ closed :: rest))) :=
    hvalues.reads rfl (by omega) hopening hclosing
  obtain ⟨last, hcoercion⟩ : ∃ last, coercionAfter (grammar (fuel + 1)) "returning"
      (state.behind closing (others ++ opened :: (body ++ closed :: rest))) =
        .done returns (state.behind last (opened :: (body ++ closed :: rest))) :=
    hreturns.reads rfl (by omega) (by rw [State.kindAt_cons _ hbreak, hopened]; rfl)
  have hblock : requiredBlock (grammar (fuel + 1)) op.name
      (state.behind last (opened :: (body ++ closed :: rest))) =
        .done items (state.behind closed rest) :=
    hbody.requiredBlock rfl (by omega) hopened hclosed
  refine ⟨closed, ?_⟩
  rw [operandUpTo_of_rest hrest (by rw [hkind]; rfl)]
  simp only [operandAfter, hkind, hop, startingOperator, hform]
  rw [definitionCommand, bind_of_done (takeName_of_rest _ rfl hname)]
  refine (bind_of_done hparameters).trans ?_
  refine (bind_of_done hcoercion).trans ?_
  exact bind_of_done hblock

/-! ## Signatures -/

/-- A signature whose names are written without quotes. -/
structure PlainNames (registry : Registry) (interface : Interface) : Prop where
  /-- The name of the handler is. -/
  name : PlainName registry interface.name.text
  /-- The labels are. -/
  labels : ∀ parameter ∈ interface.parameters, PlainName registry parameter.label.text
  /-- The bindings are. -/
  bindings : ∀ parameter ∈ interface.parameters, PlainName registry parameter.binding.text

/-- The operator that starts the definition of a handler. -/
def definitionOperator : Operator := ⟨"to", 60, .commandHandler, [], some "define_handler"⟩

/-- The word of definitions is in the library's registry. -/
theorem starting?_definition (h : Library.registry = .ok registry) :
    registry.starting? "to" = some definitionOperator := by
  have hkey : Text.lowercase "to" = "to" := by decide +kernel
  have hop : definitionOperator ∈ Library.operators := by
    simp [Library.operators, Library.controlOperators, definitionOperator]
  have hfound := (Registry.registers_of_addAll h).starting? hop rfl
    (List.mem_cons_self (a := "to"))
  rwa [hkey] at hfound

/-- A signature between `to` and an empty block is read as the definition of the handler. -/
theorem readScript_signature (h : Library.registry = .ok registry) {interface : Interface}
    (hnames : PlainNames registry interface)
    (hcodes : ∀ parameter ∈ interface.parameters,
      CodeOf registry frames (codeOf parameter.coercion) parameter.coercion)
    (hreturns : CodeOf registry frames (codeOf interface.returns) interface.returns) :
    readScript registry ("to " ++ interface.display frames ++ " \x7b\x7d") =
      .ok [definition definitionOperator interface.name.text
        (interface.parameters.map (parameterCode codeOf)) (codeOf interface.returns) [] false] := by
  have hprints := prints_library h
  obtain ⟨found, hword, hfound, hbefore⟩ := hprints.token_starting (starting?_definition h)
  obtain ⟨quoted, hname⟩ := hnames.name.isToken
  have hparameters := inside_parameters fun parameter hmem => lexes_parameter h
    (hnames.labels parameter hmem) (hnames.bindings parameter hmem) (hcodes parameter hmem)
  have hcoercion : Trails registry (coercionText "returning" frames interface.returns)
      (SpellsCoercion "returning" (codeOf interface.returns)) :=
    trails_coercion h (by decide) hreturns
  have htext : ("to " ++ interface.display frames ++ " \x7b\x7d").toList =
      definitionOperator.name.toList ++ ' ' ::
        (interface.name.text.toList ++
          '(' :: ((displayParameters frames interface.parameters).toList ++ [')']) ++
            coercionText "returning" frames interface.returns ++ ' ' :: '{' :: ([] ++ ['}'])) := by
    obtain ⟨name, parameters, returns⟩ := interface
    have hdisplay : Interface.display frames ⟨name, parameters, returns⟩ =
        name.text ++ "(" ++ displayParameters frames parameters ++ ")" ++
          (if returns.isAnything then "" else " returning " ++ returns.display frames) := rfl
    rw [hdisplay, coercionText]
    cases returns.isAnything with
    | true => simp [String.toList_append, definitionOperator]
    | false => simp [String.toList_append, definitionOperator]
  refine Lexes.readScript_of_reads (Edge.closed_fits _) ?_
  rw [htext]
  refine (lexes_spaced hprints.regular hword (hbefore (by decide))
    (((lexes_called hprints.regular hname hparameters).trailed hcoercion).block
      (inside_nil (P := Reads (.statements [])) reads_noStatements))).mono ?_
  rintro _ ⟨token, _, rfl, hkind, _, opened, body, closed, rfl, ⟨_, others, rfl,
    ⟨named, opening, tokens, closing, rfl, hnamed, hopening, -, hclosing, hvalues⟩, hreturns⟩,
    hopened, hclosed, hbody⟩
  refine ⟨opens_cons (by rw [hkind]; rfl), ?_⟩
  have htokens : token :: (named :: opening :: (tokens ++ [closing]) ++ others ++
      opened :: (body ++ [closed])) = token :: named :: opening ::
        (tokens ++ closing :: (others ++ opened :: (body ++ [closed]))) := by
    simp
  rw [htokens]
  apply reads_operand
  exact readsOperand_definition hkind hfound rfl hnamed hopening hclosing hvalues hreturns hopened
    hclosed hbody

end Parser

end CommandScript
