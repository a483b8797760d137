import CommandScript.Proofs.ReadingOn
import CommandScript.Proofs.Written

/-!
# The statements of a script

The loop over statements goes round once for each statement and once more at the end.  Each
statement takes a token at least, so there are no more of them than tokens.  Separators in front of
a statement do not matter.

A script in a longer text is read as before, up to the separators at its end.  What the rest of the
longer text gives follows its statements.
-/

namespace CommandScript.Parser

variable {registry : Registry} {g longer : Grammar} {state after : State}

/-! ## Separators -/

/-- Only separators are passed over. -/
theorem skipSeparators_done {fuel : Nat} (hcount : state.lineBreaks = true)
    (hend : isSeparator state.finish.kind = false)
    (hrun : skipSeparators fuel state = .done () after) :
    ∃ passed, state.rest = passed ++ after.rest ∧
      ∀ token ∈ passed, isSeparator token.kind = true := by
  induction fuel generalizing state with
  | zero => cases hrun
  | succ fuel ih =>
    rw [skipSeparators_succ, State.current_eq_headD hcount] at hrun
    split at hrun
    next hseparator =>
      cases hrest : state.rest with
      | nil =>
        rw [hrest, List.headD_nil, hend] at hseparator
        cases hseparator
      | cons token others =>
        rw [hrest, List.headD_cons] at hseparator
        rw [bind_of_done (advance_cons hcount hrest)] at hrun
        obtain ⟨passed, hsplit, hpassed⟩ := @ih (state.behind token others) hcount hend hrun
        refine ⟨token :: passed, ?_, List.forall_mem_cons.2 ⟨hseparator, hpassed⟩⟩
        rw [List.cons_append, ← hsplit]
        rfl
    next =>
      cases hrun
      exact ⟨[], rfl, List.forall_mem_nil _⟩

/-- More fuel than tokens is enough for the separators. -/
theorem skipSeparators_enough {fuel fuel' : Nat} (hcount : state.lineBreaks = true)
    (hend : isSeparator state.finish.kind = false) (h : state.rest.length < fuel)
    (h' : state.rest.length < fuel') : skipSeparators fuel state = skipSeparators fuel' state := by
  induction fuel generalizing state fuel' with
  | zero => omega
  | succ fuel ih =>
    obtain ⟨fuel', rfl⟩ := Nat.exists_eq_succ_of_ne_zero (by omega : fuel' ≠ 0)
    rw [skipSeparators_succ, skipSeparators_succ, State.current_eq_headD hcount]
    cases hrest : state.rest with
    | nil =>
      rw [List.headD_nil, hend]
      rfl
    | cons token others =>
      rw [hrest, List.length_cons] at h h'
      rw [bind_of_done (advance_cons hcount hrest), bind_of_done (advance_cons hcount hrest)]
      have hmore : skipSeparators fuel (state.behind token others) =
          skipSeparators fuel' (state.behind token others) :=
        ih hcount hend (Nat.lt_of_succ_lt_succ h) (Nat.lt_of_succ_lt_succ h')
      rw [hmore]

/-- Statements start behind the separators in front. -/
theorem statementsLoop_skip {closer : Closer} {other : State}
    (h : skipSeparators g.rounds state = skipSeparators g.rounds other) (fuel : Nat) :
    statementsLoop g closer fuel state = statementsLoop g closer fuel other := by
  cases fuel with
  | zero => rfl
  | succ fuel => simp only [statementsLoop, Bind.bind, h]

/-- A separator in front of the statements does not matter. -/
theorem statementsLoop_separator {closer : Closer} {fuel : Nat} {mark : Token} {others : List Token}
    (hcount : state.lineBreaks = true) (hend : isSeparator state.finish.kind = false)
    (hrest : state.rest = mark :: others) (hmark : isSeparator mark.kind = true)
    (hrounds : state.rest.length < g.rounds) :
    statementsLoop g closer fuel state =
      statementsLoop g closer fuel (state.behind mark others) := by
  refine statementsLoop_skip ?_ fuel
  rw [hrest, List.length_cons] at hrounds
  obtain ⟨rounds, hsucc⟩ := Nat.exists_eq_succ_of_ne_zero (by omega : g.rounds ≠ 0)
  rw [hsucc] at hrounds ⊢
  rw [skipSeparators_succ, State.current_eq_headD hcount, hrest, List.headD_cons, if_pos hmark,
    bind_of_done (advance_cons hcount hrest)]
  exact skipSeparators_enough hcount hend (Nat.lt_of_succ_lt_succ hrounds)
    (Nat.lt_of_succ_lt hrounds)

theorem statementsLoop_separators {closer : Closer} {fuel : Nat} {mark : Token}
    {marks others : List Token} (hcount : state.lineBreaks = true)
    (hend : isSeparator state.finish.kind = false) (hrest : state.rest = marks ++ mark :: others)
    (hmarks : ∀ mark ∈ marks, isSeparator mark.kind = true) (hmark : isSeparator mark.kind = true)
    (hrounds : state.rest.length < g.rounds) :
    statementsLoop g closer fuel state =
      statementsLoop g closer fuel (state.behind mark others) := by
  induction marks generalizing state with
  | nil => exact statementsLoop_separator hcount hend hrest hmark hrounds
  | cons first marks ih =>
    obtain ⟨hfirst, hmarks⟩ := List.forall_mem_cons.1 hmarks
    rw [statementsLoop_separator hcount hend hrest hfirst hrounds]
    rw [hrest, List.cons_append, List.length_cons] at hrounds
    exact @ih (state.behind first (marks ++ mark :: others)) hcount hend rfl hmarks
      (Nat.lt_of_succ_lt hrounds)

/-! ## Statements -/

variable {closer : Closer} {start middle : State} {first : Value} {others values : List Value}

/-- A statement stands at the start, and the code goes on behind it or ends. -/
structure ReadsStatement (g : Grammar) (closer : Closer) (start middle : State) (first : Value) :
    Prop where
  /-- The closer does not stand there. -/
  opened : closer.accepts start.current.kind = false
  /-- Nor does the end of the code. -/
  inside : isEnd start.current.kind = false
  /-- The statement is read. -/
  expression : g.expression 0 start = .done first middle
  /-- A separator or the closer follows. -/
  ends : (isSeparator middle.current.kind || closer.accepts middle.current.kind) = true

/-- How statements are read: separators, and then the closer or a statement and more. -/
theorem statementsLoop_done {fuel : Nat}
    (h : statementsLoop g closer fuel state = .done values after) :
    ∃ fuel' start, fuel = fuel' + 1 ∧ skipSeparators g.rounds state = .done () start ∧
      ((closer.accepts start.current.kind = true ∧ values = [] ∧
          advance start = .done start.current after) ∨
        ∃ first others middle, values = first :: others ∧
          ReadsStatement g closer start middle first ∧
          statementsLoop g closer fuel' middle = .done others after) := by
  cases fuel with
  | zero => cases h
  | succ fuel =>
    obtain ⟨_, start, hskip, hrest⟩ := bind_eq_done h
    refine ⟨fuel, start, rfl, hskip, ?_⟩
    obtain ⟨kind, same, hkind, hrest⟩ := bind_eq_done hrest
    cases hkind
    cases haccepts : closer.accepts start.current.kind with
    | true =>
      rw [haccepts] at hrest
      obtain ⟨token, behind, hread, hdone⟩ := bind_eq_done hrest
      cases hdone
      obtain ⟨behind', hread'⟩ := advance_current start
      cases hread'.symm.trans hread
      exact .inl ⟨rfl, rfl, hread'⟩
    | false =>
      right
      cases hend : isEnd start.current.kind with
      | true =>
        simp only [haccepts, hend] at hrest
        cases hrest
      | false =>
        simp only [haccepts, hend] at hrest
        obtain ⟨first, middle, hfirst, hrest⟩ := bind_eq_done hrest
        obtain ⟨kind, same, hkind, hrest⟩ := bind_eq_done hrest
        cases hkind
        cases hmore : isSeparator middle.current.kind || closer.accepts middle.current.kind with
        | true =>
          rw [hmore] at hrest
          obtain ⟨others, last, hothers, hdone⟩ := bind_eq_done hrest
          cases hdone
          exact ⟨first, others, middle, rfl, ⟨haccepts, hend, hfirst, hmore⟩, hothers⟩
        | false =>
          rw [hmore] at hrest
          cases hrest

theorem statementsLoop_nil {token : Token}
    (hskip : skipSeparators g.rounds state = .done () start)
    (haccepts : closer.accepts start.current.kind = true)
    (hread : advance start = .done token after)
    (fuel : Nat) : statementsLoop g closer (fuel + 1) state = .done [] after := by
  rw [statementsLoop, bind_of_done hskip, bind_of_done (nextKind_eq start), haccepts, if_pos rfl,
    bind_of_done hread]
  rfl

theorem statementsLoop_cons {fuel : Nat} (hskip : skipSeparators g.rounds state = .done () start)
    (hfirst : ReadsStatement g closer start middle first)
    (hothers : statementsLoop g closer fuel middle = .done others after) :
    statementsLoop g closer (fuel + 1) state = .done (first :: others) after := by
  rw [statementsLoop, bind_of_done hskip, bind_of_done (nextKind_eq start), hfirst.opened,
    hfirst.inside]
  simp only [Bool.false_eq_true, if_false]
  rw [bind_of_done hfirst.expression, bind_of_done (nextKind_eq middle), hfirst.ends, if_pos rfl,
    bind_of_done hothers]
  rfl

/-- The loop goes round once for each statement and once more. -/
theorem statementsLoop_enough {fuel fuel' : Nat}
    (h : statementsLoop g closer fuel state = .done values after) (hfuel : values.length < fuel') :
    ∃ after', statementsLoop g closer fuel' state = .done values after' := by
  induction values generalizing state fuel fuel' with
  | nil =>
    obtain ⟨fuel, start, rfl, hskip, ⟨haccepts, -⟩ | ⟨first, others, middle, hvalues, -⟩⟩ :=
      statementsLoop_done h
    · obtain ⟨fuel', rfl⟩ := Nat.exists_eq_succ_of_ne_zero (Nat.ne_zero_of_lt hfuel)
      obtain ⟨after', hread⟩ := advance_current start
      exact ⟨after', statementsLoop_nil hskip haccepts hread fuel'⟩
    · cases hvalues
  | cons value values ih =>
    obtain ⟨fuel, start, rfl, hskip,
      ⟨-, hvalues, -⟩ | ⟨first, others, middle, hvalues, hfirst, hothers⟩⟩ :=
      statementsLoop_done h
    · cases hvalues
    · cases hvalues
      obtain ⟨fuel', rfl⟩ := Nat.exists_eq_succ_of_ne_zero (Nat.ne_zero_of_lt hfuel)
      obtain ⟨after', hmore⟩ := ih hothers (Nat.lt_of_succ_lt_succ hfuel)
      exact ⟨after', statementsLoop_cons hskip hfirst hmore⟩

/-- There are no more statements than tokens. -/
theorem statementsLoop_length_le {fuel rounds : Nat} (hstate : state.Faithful registry)
    (h : statementsLoop (grammar rounds) closer fuel state = .done values after) :
    values.length ≤ state.rest.length := by
  induction values generalizing state fuel with
  | nil => exact Nat.zero_le _
  | cons value values ih =>
    obtain ⟨fuel, start, rfl, hskip,
      ⟨-, hvalues, -⟩ | ⟨first, others, middle, hvalues, hfirst, hothers⟩⟩ :=
      statementsLoop_done h
    · cases hvalues
    · cases hvalues
      obtain ⟨hleads, -⟩ := skipSeparators_takes _ _ _ _ hstate hskip
      have hstart := hleads.faithful hstate
      obtain ⟨hleads', -⟩ := (grammar_takes rounds).expression 0 _ _ _ hstart hfirst.expression
      calc values.length + 1
        _ ≤ middle.rest.length + 1 := Nat.succ_le_succ (ih (hleads'.faithful hstart) hothers)
        _ ≤ start.rest.length := expression_shorter hstart hfirst.expression
        _ ≤ state.rest.length := hleads.rest.length_le

/-- Separators alone are a script without statements. -/
theorem statementsLoop_empty (fuel : Nat) (hcount : state.lineBreaks = true)
    (hend : state.finish.kind = .endOfCode)
    (hrest : ∀ token ∈ state.rest, isSeparator token.kind = true)
    (hrounds : state.rest.length < g.rounds) :
    ∃ after, statementsLoop g .code (fuel + 1) state = .done [] after := by
  have hmark : isSeparator state.finish.kind = false := by rw [hend]; rfl
  induction htokens : state.rest generalizing state with
  | nil =>
    have hcurrent : state.current.kind = .endOfCode := by
      rw [State.current_eq_headD hcount, htokens, List.headD_nil, hend]
    have hskip : skipSeparators g.rounds state = .done () state := by
      obtain ⟨rounds, hsucc⟩ := Nat.exists_eq_succ_of_ne_zero (Nat.ne_zero_of_lt hrounds)
      rw [hsucc, skipSeparators_succ, hcurrent]
      rfl
    obtain ⟨after, hread⟩ := advance_current state
    exact ⟨after, statementsLoop_nil hskip (by rw [hcurrent]; rfl) hread fuel⟩
  | cons token others ih =>
    rw [htokens] at hrest
    obtain ⟨htoken, hothers⟩ := List.forall_mem_cons.1 hrest
    rw [statementsLoop_separator hcount hmark htokens htoken hrounds]
    rw [htokens, List.length_cons] at hrounds
    exact @ih (state.behind token others) hcount hend hothers (Nat.lt_of_succ_lt hrounds) hmark rfl

/-! ## A script in a longer text -/

variable {ext : Extension} {short long : State}

/-- Where line breaks count, nothing that a parser is stuck at ends a statement. -/
theorem Stuck.not_ends (hcount : state.lineBreaks = true) (h : Stuck state) :
    (isSeparator state.current.kind || Closer.code.accepts state.current.kind) ≠ true := by
  rcases h with (⟨hskipped, -⟩ | hunknown) | ⟨hopen, -⟩
  · rw [hcount] at hskipped
    cases hskipped
  · cases hkind : state.current.kind with
    | unknown problem => rintro ⟨⟩
    | _ =>
      rw [hkind] at hunknown
      cases hunknown
  · rw [hopen]
    rintro ⟨⟩

/-- Where the code ends, nothing is left. -/
theorem State.Faithful.rest_eq_nil (h : state.Faithful registry) (hcount : state.lineBreaks = true)
    (hend : Closer.code.accepts state.current.kind = true) : state.rest = [] := by
  rw [State.current_eq_headD hcount] at hend
  cases hrest : state.rest with
  | nil => rfl
  | cons token others =>
    have htoken := h.rest token (by rw [hrest]; exact List.mem_cons_self ..)
    rw [hrest, List.headD_cons] at hend
    cases hkind : token.kind with
    | endOfCode =>
      rw [hkind] at htoken
      exact htoken.elim
    | _ =>
      rw [hkind] at hend
      cases hend

/-- Behind a script nothing is left. -/
theorem statementsLoop_rest {fuel rounds : Nat} (hstate : state.Faithful registry)
    (hcount : state.lineBreaks = true)
    (h : statementsLoop (grammar rounds) .code fuel state = .done values after) :
    after.rest = [] := by
  induction values generalizing state fuel with
  | nil =>
    obtain ⟨fuel, start, rfl, hskip, ⟨hend, -, hread⟩ | ⟨first, others, middle, hvalues, -⟩⟩ :=
      statementsLoop_done h
    · obtain ⟨hleads, -⟩ := skipSeparators_takes _ _ _ _ hstate hskip
      have hstart := hleads.faithful hstate
      have hnil := hstart.rest_eq_nil (hleads.lineBreaks.trans hcount) hend
      have hbehind := (Takes.advance _ _ _ hstart hread).1.rest
      rw [hnil] at hbehind
      exact List.suffix_nil.1 hbehind
    · cases hvalues
  | cons value values ih =>
    obtain ⟨fuel, start, rfl, hskip,
      ⟨-, hvalues, -⟩ | ⟨first, others, middle, hvalues, hfirst, hothers⟩⟩ :=
      statementsLoop_done h
    · cases hvalues
    · cases hvalues
      obtain ⟨hleads, -⟩ := skipSeparators_takes _ _ _ _ hstate hskip
      have hstart := hleads.faithful hstate
      obtain ⟨hleads', -⟩ := (grammar_takes rounds).expression 0 _ _ _ hstart hfirst.expression
      exact ih (hleads'.faithful hstart)
        (hleads'.lineBreaks.trans (hleads.lineBreaks.trans hcount)) hothers

/-- What the longer text has more. -/
theorem Extension.Relates.length_rest (h : ext.Relates short long) :
    long.rest.length + ext.last.length = short.rest.length + ext.tail.length := by
  obtain ⟨same, hshort, hlong, -⟩ := h.rest
  rw [hshort, hlong, List.length_append, List.length_append, List.length_map]
  omega

/-- A statement is read in the longer text too. -/
theorem Extension.Relates.reads (hg : ext.GrammarFollows g longer)
    (hrelates : ext.Relates short long)
    (hread : ReadsStatement g .code short middle first) (hcount : middle.lineBreaks = true) :
    ∃ middle', ReadsStatement longer .code long middle' first ∧ ext.Relates middle middle' := by
  have hsame : long.current.kind = short.current.kind := by
    rcases hrelates.sees with hblocked | hsame | ⟨hend, -⟩
    · exact absurd hread.expression (hg.expression_blocked hblocked.over _ _)
    · exact hsame
    · have hinside := hread.inside
      rw [hend] at hinside
      cases hinside
  rcases hg.expression 0 (by decide) _ _ hrelates trivial _ _ hread.expression with hstuck |
    ⟨middle', hexpression, hrelates'⟩
  · exact absurd hread.ends (hstuck.not_ends hcount)
  · refine ⟨middle', ⟨hsame ▸ hread.opened, hsame ▸ hread.inside, hexpression, ?_⟩, hrelates'⟩
    rcases hrelates'.sees with hblocked | hsame' | ⟨-, hbreak⟩
    · exact absurd hread.ends (hblocked.stuck.not_ends hcount)
    · rw [hsame']
      exact hread.ends
    · rw [hbreak]
      rfl

/-- A script is read in a longer text up to the separators at its end.  What the longer text gives
from there on follows its statements. -/
theorem Extension.Relates.statementsLoop_joins {fuel rounds : Nat}
    (hg : ext.GrammarFollows (grammar rounds) longer) (hrelates : ext.Relates short long)
    (hstate : short.Faithful registry) (hcount : short.lineBreaks = true)
    (hrun : statementsLoop (grammar rounds) .code fuel short = .done values after) :
    ∃ short' long', ext.Relates short' long' ∧ short.Leads short' ∧
      (∀ token ∈ short'.rest, isSeparator token.kind = true) ∧
      ∀ fuel' more last, statementsLoop longer .code fuel' long' = .done more last →
        statementsLoop longer .code (fuel' + values.length) long = .done (values ++ more) last := by
  induction values generalizing short long fuel with
  | nil =>
    refine ⟨short, long, hrelates, .refl short, ?_, fun _ _ _ h => h⟩
    obtain ⟨fuel, start, rfl, hskip, ⟨hend, -⟩ | ⟨first, others, middle, hvalues, -⟩⟩ :=
      statementsLoop_done hrun
    · obtain ⟨hleads, -⟩ := skipSeparators_takes _ _ _ _ hstate hskip
      have hnil := (hleads.faithful hstate).rest_eq_nil (hleads.lineBreaks.trans hcount) hend
      have hmark : isSeparator short.finish.kind = false := by rw [hstate.finish]; rfl
      obtain ⟨passed, hpassed, hseparators⟩ := skipSeparators_done hcount hmark hskip
      rw [hpassed, hnil, List.append_nil]
      exact hseparators
    · cases hvalues
  | cons value values ih =>
    obtain ⟨fuel, start, rfl, hskip,
      ⟨-, hvalues, -⟩ | ⟨first, others, middle, hvalues, hfirst, hothers⟩⟩ :=
      statementsLoop_done hrun
    · cases hvalues
    · cases hvalues
      obtain ⟨hleads, -⟩ := skipSeparators_takes _ _ _ _ hstate hskip
      have hstart := hleads.faithful hstate
      obtain ⟨hleads', -⟩ := (grammar_takes rounds).expression 0 _ _ _ hstart hfirst.expression
      have hcount' : middle.lineBreaks = true :=
        hleads'.lineBreaks.trans (hleads.lineBreaks.trans hcount)
      have hskips : ext.Follows anyKind Over (skipSeparators (grammar rounds).rounds)
          (skipSeparators longer.rounds) :=
        skipSeparators_follows hg.rounds
      rcases hskips _ _ hrelates trivial _ _ hskip with hover | ⟨start', hskip', hrelates'⟩
      · exact absurd hfirst.expression (hg.expression_blocked hover _ _)
      · obtain ⟨middle', hfirst', hmiddle⟩ := hrelates'.reads hg hfirst hcount'
        obtain ⟨short', long', hends, hlast, hseparators, hjoins⟩ :=
          ih hmiddle (hleads'.faithful hstart) hcount' hothers
        refine ⟨short', long', hends, hleads.trans (hleads'.trans hlast), hseparators, ?_⟩
        intro fuel' more last hmore
        exact statementsLoop_cons hskip' hfirst' (hjoins fuel' more last hmore)

end CommandScript.Parser
