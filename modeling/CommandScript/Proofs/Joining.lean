import CommandScript.Interpreter
import CommandScript.Proofs.RegistryTables
import CommandScript.Proofs.Statements

/-!
# Scripts put together

Two scripts with a line feed between them are read as one script, whose statements are those of the
first and then those of the second.

No token runs over a line feed, unless it can't be read.  A carriage return at the end of the first
script and the line feed behind it are one line break.  A line break ends no operand, so the tokens
of the second script are the same as alone, further on.
-/

namespace CommandScript

/-! ## Tokens -/

namespace Lexer

variable {registry : Registry}

/-- Where an offset is after others were put in front. -/
def shift (count offset : Nat) : Nat := min (offset + count) Span.maxOffset

theorem shift_min (count offset : Nat) :
    shift count (min offset Span.maxOffset) = min (offset + count) Span.maxOffset := by
  unfold shift
  omega

/-- Further on in a text, tokens are the same. -/
theorem tokensFrom_shift (registry : Registry) (count offset : Nat) (afterOperand : Bool)
    (cs : List Char) :
    tokensFrom registry (offset + count) afterOperand cs =
      (tokensFrom registry offset afterOperand cs).map (Parser.moveToken (shift count)) := by
  have hmove (kind : TokenKind) (start stop : Nat) :
      Parser.moveToken (shift count) ⟨kind, .ofOffsets start stop⟩ =
        ⟨kind, .ofOffsets (start + count) (stop + count)⟩ := by
    simp only [Parser.moveToken, Span.ofOffsets, shift_min]
  fun_induction tokensFrom registry offset afterOperand cs with
  | case1 offset afterOperand =>
    rw [tokensFrom.eq_def]
    simp only [List.map_cons, List.map_nil, hmove]
  | case2 offset afterOperand c cs kind length hscan stop after ih =>
    rw [tokensFrom.eq_def]
    simp only [hscan, List.map_cons, hmove]
    rw [← ih, Nat.add_right_comm]
    rfl

/-- How the tokens of some characters end, and what they become with a line feed and others behind.
The end mark is left out. -/
inductive Cut (registry : Registry) (cs : List Char) (offset : Nat) :
    List Token → List Token → Prop where
  /-- The line feed is a line break. -/
  | broken {mark finish : Token} {tokens : List Token} : mark.kind = .lineBreak →
      mark.span.stop = min offset Span.maxOffset →
      tokensFrom registry offset false cs = tokens ++ [finish] →
      Cut registry cs offset [] (mark :: tokens)
  /-- The line feed belongs to the line break before it. -/
  | joined {last mark finish : Token} {tokens : List Token} : last.kind = .lineBreak →
      mark.kind = .lineBreak → mark.span.stop = min offset Span.maxOffset →
      tokensFrom registry offset false cs = tokens ++ [finish] →
      Cut registry cs offset [last] (mark :: tokens)
  /-- What can't be read may become anything. -/
  | unreadable {token : Token} {others tail : List Token} : isUnknown token.kind = true →
      Cut registry cs offset (token :: others) tail

/-- A line feed cuts tokens, unless they can't be read. -/
theorem tokensFrom_join (hregistry : registry.Regular) (offset : Nat) (afterOperand : Bool)
    (cs more : List Char) :
    ∃ front last tail mark finish,
      tokensFrom registry offset afterOperand cs = front ++ last ++ [mark] ∧
      tokensFrom registry offset afterOperand (cs ++ '\n' :: more) = front ++ tail ++ [finish] ∧
      Cut registry more (offset + byteLength cs + 1) last tail := by
  fun_induction tokensFrom registry offset afterOperand cs with
  | case1 offset afterOperand =>
    obtain ⟨tokens, finish, htokens, -⟩ := tokensFrom_faithful registry (offset + 1) false more
    refine ⟨[], [], ⟨.lineBreak, .ofOffsets offset (offset + 1)⟩ :: tokens, _, finish, rfl, ?_,
      .broken rfl rfl htokens⟩
    rw [List.nil_append, List.nil_append, tokensFrom_cons rfl, List.cons_append, ← htokens]
    rfl
  | case2 offset afterOperand c cs kind count hscan stop after ih =>
    obtain ⟨front, last, tail, mark, finish, hshort, hlong, hcut⟩ := ih
    cases hknown : isUnknown kind with
    | true =>
      obtain ⟨tokens, finish, htokens, -⟩ :=
        tokensFrom_faithful registry offset afterOperand (c :: cs ++ '\n' :: more)
      refine ⟨[], ⟨kind, .ofOffsets offset stop⟩ :: (front ++ last), tokens, mark, finish, ?_,
        htokens, .unreadable hknown⟩
      rw [hshort]
      rfl
    | false =>
      by_cases hreturn : c = '\r' ∧ cs = []
      · obtain ⟨rfl, rfl⟩ := hreturn
        cases hscan
        obtain ⟨tokens, finish, htokens, -⟩ :=
          tokensFrom_faithful registry (offset + byteLength ['\r'] + 1) false more
        refine ⟨[], [⟨.lineBreak, .ofOffsets offset stop⟩],
          ⟨.lineBreak, .ofOffsets offset (offset + 2)⟩ :: tokens,
          ⟨.endOfCode, .ofOffsets stop stop⟩, finish, ?_, ?_, .joined rfl rfl rfl htokens⟩
        · rw [List.drop_nil, tokensFrom_nil]
          rfl
        · rw [List.nil_append, List.cons_append, List.nil_append, tokensFrom_cons rfl,
            List.cons_append, ← htokens]
          rfl
      · have hcount : count ≤ cs.length := by
          have hle := scan_le registry afterOperand c cs
          rwa [hscan] at hle
        have hsame : scan registry afterOperand c (cs ++ '\n' :: more) = (kind, count) := by
          rw [← hscan]
          have hruns : ¬ RunsOut cs (scan registry afterOperand c cs) :=
            not_runsOut_of_known (by rw [hscan]; exact hknown)
          refine scan_append hregistry (ends_cons (by decide)) hruns ?_ ?_
          · exact fun hc hcs => absurd ⟨hc, hcs⟩ hreturn
          · rintro - d ⟨⟩
            decide
        have hbytes : byteLength (c :: cs.take count) + byteLength (cs.drop count) =
            byteLength (c :: cs) := by
          rw [← byteLength_append, List.cons_append, List.take_append_drop]
        refine ⟨⟨kind, .ofOffsets offset stop⟩ :: front, last, tail, mark, finish, ?_, ?_, ?_⟩
        · rw [hshort]
          rfl
        · rw [List.cons_append, tokensFrom_cons hsame, List.take_append_of_le_length hcount,
            List.drop_append_of_le_length hcount, List.cons_append, List.cons_append, ← hlong]
          rfl
        · rw [← hbytes, ← Nat.add_assoc]
          exact hcut

end Lexer

/-! ## Registries -/

/-- Every operator binds more tightly than a line break. -/
def Registry.Binding (registry : Registry) : Prop :=
  (∀ entry ∈ registry.starting, 0 ≤ entry.2.precedence) ∧
    ∀ entry ∈ registry.continuing, 0 ≤ entry.2.precedence

instance (registry : Registry) : Decidable registry.Binding :=
  inferInstanceAs (Decidable (_ ∧ _))

instance (registry : Registry) : Decidable registry.Regular :=
  inferInstanceAs (Decidable (_ = _))

theorem Registry.Binding.binds {registry : Registry} (h : registry.Binding) {token : Token}
    (htoken : token.kind.Faithful registry) : Parser.Binds token := by
  intro found hkind op hop
  rw [hkind] at htoken
  obtain ⟨hstarting, hcontinuing⟩ := Parser.find?_tables htoken
  rcases hop with hop | hop
  · exact h.1 _ (mem_of_lookup (hstarting.symm.trans hop))
  · exact h.2 _ (mem_of_lookup (hcontinuing.symm.trans hop))

/-- The operators of the library make a registry like that. -/
theorem Library.registry_regular {registry : Registry} (h : Library.registry = .ok registry) :
    registry.Regular ∧ registry.Binding := by
  have hbinding : ∀ op ∈ Library.operators, 0 ≤ op.precedence := by decide
  have honly := Registry.holdsOnly_of_addAll h
  exact ⟨(Registry.registers_of_addAll h).regular,
    fun entry hentry => hbinding _ (honly.table .before entry hentry).1,
    fun entry hentry => hbinding _ (honly.table .between entry hentry).1⟩

/-! ## States -/

namespace Parser

variable {registry : Registry}

theorem meaningful_map_move (move : Nat → Nat) (tokens : List Token) :
    meaningful (tokens.map (moveToken move)) = (meaningful tokens).map (moveToken move) := by
  rw [meaningful, List.filter_map]
  rfl

/-- Further on in a text, the same tokens mean something. -/
theorem State.rest_shift {source : String} {tokens : List Token} {finish : Token} {count : Nat}
    (h : Lexer.tokensFrom registry count false source.toList = tokens ++ [finish]) :
    meaningful tokens = (ofSource registry source).rest.map (moveToken (Lexer.shift count)) := by
  obtain ⟨alone, mark, halone, -⟩ := Lexer.tokensFrom_faithful registry 0 false source.toList
  have hshift := Lexer.tokensFrom_shift registry count 0 false source.toList
  rw [Nat.zero_add, h, halone, List.map_append, List.map_singleton] at hshift
  obtain ⟨rfl, -⟩ := List.append_inj' hshift rfl
  rw [State.ofSource_eq halone, meaningful_map_move]

/-- Two source texts with a line feed between them. -/
structure State.Joined (registry : Registry) (ext : Extension) (first second : String) : Prop where
  /-- The first is read in a longer text. -/
  relates : ext.Relates (ofSource registry first) (ofSource registry (first ++ "\n" ++ second))
  /-- Behind it stands what can't be read, or a line break and the second text. -/
  tail : (∃ token ∈ ext.last, isSeparator token.kind = false) ∨
    ∃ mark count, isSeparator mark.kind = true ∧ ext.last.length ≤ 1 ∧
      mark.span.stop = Lexer.shift count 0 ∧
      ext.tail = mark :: (ofSource registry second).rest.map (moveToken (Lexer.shift count))

theorem State.exists_joined (hregular : registry.Regular) (hbinding : registry.Binding)
    (first second : String) : ∃ ext, Joined registry ext first second := by
  have hchars : (first ++ "\n" ++ second).toList = first.toList ++ '\n' :: second.toList := by
    simp
  obtain ⟨front, last, tail, mark, finish, hshort, hlong, hcut⟩ :=
    Lexer.tokensFrom_join hregular 0 false first.toList second.toList
  rw [← hchars] at hlong
  have hfirst := ofSource_faithful registry first
  have hboth := ofSource_faithful registry (first ++ "\n" ++ second)
  rw [ofSource_eq hshort, meaningful_append] at hfirst
  rw [ofSource_eq hlong] at hboth
  have hbinds : ∀ token ∈ meaningful front, Binds token := fun token htoken =>
    hbinding.binds (hfirst.rest token (List.mem_append_left _ htoken))
  have hrelates (last' tail' : List Token) (hseam : Seam last' tail')
      (hlast : meaningful last = last') (htail : meaningful tail = tail') :
      Extension.Relates ⟨id, last', tail', hseam⟩ (ofSource registry first)
        (ofSource registry (first ++ "\n" ++ second)) := by
    have hmove : (meaningful front).map (moveToken id) = meaningful front := List.map_id _
    rw [ofSource_eq hshort, ofSource_eq hlong, meaningful_append, meaningful_append, hlast, htail]
    refine ⟨⟨meaningful front, rfl, ?_, hbinds⟩, ⟨hfirst.finish, hboth.finish⟩, rfl, rfl⟩
    rw [hmove]
  have hbroken {kind : TokenKind} (h : kind = .lineBreak) :
      kind.isTrivia = false ∧ isSeparator kind = true := by
    rw [h]
    exact ⟨rfl, rfl⟩
  cases hcut with
  | @broken mark _ tokens hmark hstop htokens =>
    refine ⟨⟨id, [], mark :: meaningful tokens, .broken hmark⟩, hrelates _ _ _ rfl ?_, .inr ?_⟩
    · exact meaningful_cons (hbroken hmark).1 tokens
    · refine ⟨mark, _, (hbroken hmark).2, Nat.zero_le 1, ?_, congrArg _ (rest_shift htokens)⟩
      rw [hstop, Lexer.shift, Nat.zero_add (0 + _ + 1)]
  | @joined last mark _ tokens hlast hmark hstop htokens =>
    refine ⟨⟨id, [last], mark :: meaningful tokens, .joined hlast hmark⟩, hrelates _ _ _ ?_ ?_,
      .inr ?_⟩
    · exact meaningful_cons (hbroken hlast).1 []
    · exact meaningful_cons (hbroken hmark).1 tokens
    · refine ⟨mark, _, (hbroken hmark).2, Nat.le_refl 1, ?_, congrArg _ (rest_shift htokens)⟩
      rw [hstop, Lexer.shift, Nat.zero_add (0 + _ + 1)]
  | @unreadable token others tail hunknown =>
    have hkind : token.kind.isTrivia = false ∧ isSeparator token.kind = false := by
      cases hkind : token.kind with
      | unknown problem => exact ⟨rfl, rfl⟩
      | _ =>
        rw [hkind] at hunknown
        cases hunknown
    refine ⟨⟨id, token :: meaningful others, meaningful tail, .unreadable hunknown⟩,
      hrelates _ _ _ ?_ rfl, .inl ⟨token, List.mem_cons_self .., hkind.2⟩⟩
    exact meaningful_cons hkind.1 others

/-! ## Statements -/

/-- The statements of a script are what the loop gives. -/
theorem readScript_eq_ok {source : String} {values : List Value} :
    readScript registry source = .ok values ↔
      ∃ after, statementsLoop (grammar (State.ofSource registry source).fuel) .code
        (State.ofSource registry source).fuel (State.ofSource registry source) =
          .done values after := by
  have hscript : script (State.ofSource registry source) =
      countingLineBreaks true (statementsLoop (grammar (State.ofSource registry source).fuel) .code
        (State.ofSource registry source).fuel) (State.ofSource registry source) := rfl
  have hstart : { State.ofSource registry source with lineBreaks := true } =
      State.ofSource registry source := rfl
  rw [readScript, runOn_eq_ok_iff, hscript, countingLineBreaks, hstart]
  cases statementsLoop (grammar (State.ofSource registry source).fuel) .code
      (State.ofSource registry source).fuel (State.ofSource registry source) with
  | done found after => simp
  | failed error after => simp
  | outOfFuel => simp

/-- The seam of a script that can be read has nothing but separators in front. -/
theorem State.Joined.separated {ext : Extension} {first second : String} {values : List Value}
    (h : Joined registry ext first second) (hread : readScript registry first = .ok values) :
    ∀ token ∈ ext.last, isSeparator token.kind = true := by
  obtain ⟨after, hrun⟩ := readScript_eq_ok.1 hread
  obtain ⟨short, long, hrelates, -, hseparators, -⟩ := h.relates.statementsLoop_joins
    (grammar_follows (Nat.le_refl _)) (ofSource_faithful registry first) rfl hrun
  obtain ⟨same, hrest, -⟩ := hrelates.rest
  intro token htoken
  refine hseparators token ?_
  rw [hrest]
  exact List.mem_append_right _ htoken

/-- Behind separators a script is read as it is alone. -/
theorem statementsLoop_later (hbinding : registry.Binding) {source : String} {values : List Value}
    (hread : readScript registry source = .ok values) {state : State} {marks : List Token}
    {mark : Token} {count rounds : Nat}
    (hrest : state.rest =
      marks ++ mark :: (State.ofSource registry source).rest.map (moveToken (Lexer.shift count)))
    (hmarks : ∀ mark ∈ marks, isSeparator mark.kind = true) (hmark : isSeparator mark.kind = true)
    (hstop : mark.span.stop = Lexer.shift count 0) (hcount : state.lineBreaks = true)
    (hend : state.finish.kind = .endOfCode) (hrounds : 2 * state.rest.length + 8 ≤ rounds) :
    ∃ after, statementsLoop (grammar rounds) .code (1 + values.length) state =
      .done values after := by
  have hmark' : isSeparator state.finish.kind = false := by rw [hend]; rfl
  have hlength : state.rest.length =
      marks.length + (State.ofSource registry source).rest.length + 1 := by
    rw [hrest, List.length_append, List.length_cons, List.length_map, Nat.add_assoc]
  have hsource := State.ofSource_faithful registry source
  rw [statementsLoop_separators hcount hmark' hrest hmarks hmark (by change _ < rounds; omega)]
  have hrelates : Extension.Relates ⟨Lexer.shift count, [], [], .nothing⟩
      (State.ofSource registry source) (state.behind mark
        ((State.ofSource registry source).rest.map (moveToken (Lexer.shift count)))) := by
    refine ⟨⟨_, (List.append_nil _).symm, (List.append_nil _).symm, fun token htoken => ?_⟩,
      ⟨hsource.finish, hend⟩, hstop, hcount⟩
    exact hbinding.binds (hsource.rest token htoken)
  have hg : Extension.GrammarFollows ⟨Lexer.shift count, [], [], .nothing⟩
      (grammar (State.ofSource registry source).fuel) (grammar rounds) :=
    grammar_follows (by unfold State.fuel; omega)
  obtain ⟨after, hrun⟩ := readScript_eq_ok.1 hread
  obtain ⟨short, long, hrelates', hleads, hseparators, hjoins⟩ :=
    hrelates.statementsLoop_joins hg hsource rfl hrun
  obtain ⟨same, hshort, hlong, -⟩ := hrelates'.rest
  rw [List.append_nil] at hshort hlong
  have hshorter : long.rest.length < (grammar rounds).rounds := by
    have hle := hleads.rest.length_le
    change long.rest.length < rounds
    rw [hlong, List.length_map, ← hshort]
    omega
  have hlast : ∀ token ∈ long.rest, isSeparator token.kind = true := by
    rw [hlong]
    intro token htoken
    obtain ⟨other, hother, rfl⟩ := List.mem_map.1 htoken
    exact hseparators other (hshort ▸ hother)
  obtain ⟨after', hempty⟩ := statementsLoop_empty 0
    (hrelates'.lineBreaks.trans hleads.lineBreaks) hrelates'.finish.2 hlast hshorter
  have hdone := hjoins 1 [] after' hempty
  rw [List.append_nil] at hdone
  exact ⟨after', hdone⟩

/-- Scripts put together are read one after the other. -/
theorem readScript_join (hregular : registry.Regular) (hbinding : registry.Binding)
    {first second : String} {values others : List Value}
    (hfirst : readScript registry first = .ok values)
    (hsecond : readScript registry second = .ok others) :
    readScript registry (first ++ "\n" ++ second) = .ok (values ++ others) := by
  obtain ⟨ext, hjoined⟩ := State.exists_joined hregular hbinding first second
  have hseparated := hjoined.separated hfirst
  rcases hjoined.tail with ⟨token, htoken, hunreadable⟩ | ⟨mark, count, hmark, hlast, hstop, htail⟩
  · rw [hseparated token htoken] at hunreadable
    cases hunreadable
  have hmore : 1 ≤ ext.tail.length := by
    rw [htail]
    exact Nat.succ_le_succ (Nat.zero_le _)
  have hlength := hjoined.relates.length_rest
  have hg : ext.GrammarFollows (grammar (State.ofSource registry first).fuel)
      (grammar (State.ofSource registry (first ++ "\n" ++ second)).fuel) :=
    grammar_follows (by unfold State.fuel; omega)
  obtain ⟨after, hrun⟩ := readScript_eq_ok.1 hfirst
  -- The first script is read up to its last separators, and the second goes on from there.
  obtain ⟨short, long, hrelates, hleads, hseparators, hjoins⟩ :=
    hjoined.relates.statementsLoop_joins hg (State.ofSource_faithful registry first) rfl hrun
  have hlength' := hrelates.length_rest
  have hshorter := hleads.rest.length_le
  obtain ⟨marks, hshort, hlong, -⟩ := hrelates.rest
  rw [htail] at hlong
  have hmarks : ∀ mark ∈ marks.map (moveToken ext.move), isSeparator mark.kind = true := by
    intro token htoken
    obtain ⟨other, hother, rfl⟩ := List.mem_map.1 htoken
    exact hseparators other (hshort ▸ List.mem_append_left _ hother)
  obtain ⟨last, hlater⟩ := statementsLoop_later hbinding hsecond hlong hmarks hmark hstop
    (hrelates.lineBreaks.trans hleads.lineBreaks) hrelates.finish.2
    (by unfold State.fuel; omega : _ ≤ (State.ofSource registry (first ++ "\n" ++ second)).fuel)
  have hboth := hjoins _ _ _ hlater
  have hcount := statementsLoop_length_le (State.ofSource_faithful registry _) hboth
  refine readScript_eq_ok.2 (statementsLoop_enough hboth ?_)
  unfold State.fuel
  omega

end Parser

end CommandScript
