import CommandScript.Proofs.Lockstep
import CommandScript.Proofs.Registration

/-!
# Punctuation behind an operand

Closers, separators, line breaks and the end of the code stand behind an operand like operators, and
their precedences are there to end the expression.  They do so unless an expression is asked to bind
more tightly than something still looser.  So what counts is which precedences are asked for.

Brackets ask for 0, and pairs for a little more.  Inside an operation expressions bind more tightly
than around it, since it was taken up only for binding tightly enough.  That leaves the operators in
front of an operand, which ask for their own precedence wherever they stand.  As long as these bind
as tightly as the punctuation does, it always ends the expression, and what would happen to it
otherwise makes no difference.

There is one gap.  An operator in front of an operand may bind more loosely than a closer.  Then
the closer behind its operand is taken for an operation.
-/

namespace CommandScript

/-- The operators that are followed by an operand bind at least as tightly as a given precedence. -/
def Registry.LeadsAbove (registry : Registry) (bound : Int) : Prop :=
  ∀ entry ∈ registry.starting, entry.2.form = .before ∨ entry.2.form = .keywordBlock →
    bound ≤ entry.2.precedence

instance (registry : Registry) (bound : Int) : Decidable (registry.LeadsAbove bound) :=
  inferInstanceAs (Decidable (∀ entry ∈ registry.starting, _ → _))

namespace Parser

/-! ## Punctuation -/

/-- Whether a token closes or separates, breaks the line or ends the code. -/
def isPunctuation : TokenKind → Bool
  | .listClose | .blockClose | .groupClose | .itemSeparator | .statementSeparator | .lineBreak
  | .endOfCode => true
  | _ => false

/-- Of the punctuation, closers bind most tightly. -/
theorem precedence?_of_isPunctuation {kind : TokenKind} (h : isPunctuation kind = true) :
    ∃ precedence, precedence? kind = some precedence ∧ precedence ≤ -2 := by
  cases kind with
  | listClose | blockClose | groupClose | itemSeparator | statementSeparator | lineBreak
  | endOfCode => exact ⟨_, rfl, by decide⟩
  | _ => cases h

/-- The operations behind an operand, with a rule of its own for punctuation up to a precedence that
does not end the expression. -/
def operationsUnless (bound : Int) (entered : Value → Parser Value) (g : Grammar) (least : Int) :
    (fuel : Nat) → (left : Value) → Parser Value
  | 0, _ => exhausted
  | fuel + 1, left => do
    let kind ← nextKind
    match precedence? kind with
    | some precedence =>
      if precedence ≤ least then return left
      else if isPunctuation kind && decide (precedence ≤ bound) then entered left
      else
        let left ← operation g left
        operationsUnless bound entered g least fuel left
    | none => return left

/-! ## The precedences asked for -/

/-- A state in front of tokens whose operators ask for no looser expressions than a bound. -/
structure State.LeadsAbove (bound : Int) (state : State) : Prop where
  /-- Behind all tokens stands the end mark. -/
  finish : state.finish.kind = .endOfCode
  /-- The operators bind tightly enough. -/
  rest : ∀ token ∈ state.rest, ∀ found op, token.kind = .operator found →
    found.starting? = some op → op.form = .before ∨ op.form = .keywordBlock → bound ≤ op.precedence

theorem State.LeadsAbove.leads {bound : Int} {state after : State} (h : state.LeadsAbove bound)
    (hleads : state.Leads after) : after.LeadsAbove bound :=
  ⟨hleads.finish ▸ h.finish, fun token htoken => h.rest token (hleads.rest.subset htoken)⟩

/-- The next token is one of those that are left, if it is an operator. -/
theorem State.LeadsAbove.current {bound : Int} {state : State} (h : state.LeadsAbove bound)
    {found : KnownSpelling} {op : Operator} (hkind : state.current.kind = .operator found)
    (hop : found.starting? = some op) (hform : op.form = .before ∨ op.form = .keywordBlock) :
    bound ≤ op.precedence := by
  have hvisible := state.visible_suffix
  rw [State.current] at hkind
  cases hrest : state.visible with
  | nil =>
    rw [hrest, List.headD_nil, h.finish] at hkind
    cases hkind
  | cons token others =>
    rw [hrest] at hkind hvisible
    exact h.rest token (hvisible.subset List.mem_cons_self) found op hkind hop hform

/-- A source text is read from such tokens, if the registry has no looser operators. -/
theorem State.leadsAbove_ofSource {registry : Registry} {bound : Int}
    (h : registry.LeadsAbove bound) (source : String) :
    (State.ofSource registry source).LeadsAbove bound := by
  have hfaithful := State.ofSource_faithful registry source
  refine ⟨hfaithful.finish, fun token htoken found op hkind hop hform => ?_⟩
  have hfound := hfaithful.rest token htoken
  rw [hkind] at hfound
  rw [(find?_tables hfound).1] at hop
  exact h _ (mem_of_lookup hop) hform

/-- One reading beside itself.  No precedence looser than a bound is asked for. -/
def Lockstep.above {bound : Int} (hbound : bound ≤ 0) : Lockstep where
  Holds _ state other := other = state ∧ state.LeadsAbove bound
  finish h := h.2.finish
  lineBreaks h := by rw [h.1]
  counting flag h := ⟨by rw [h.1], h.2.finish, h.2.rest⟩
  kind h _ := by rw [h.1]
  next {nest nest' state other} h _ _ _ := ⟨by rw [h.1], h.2.leads state.leads_next⟩
  opens h _ _ := by rw [h.1]
  Asks least := bound ≤ least
  loosest := hbound
  tighter := Int.le_trans
  leading h _ hkind hop hform := h.2.current hkind hop hform

/-- The rule for punctuation is never asked. -/
theorem operationsUnless_keep {bound : Int} (hbound : bound ≤ 0)
    (entered : Value → Parser Value) :
    (Lockstep.above hbound).OperationsKeep (operationsUnless bound entered) := by
  intro g g' size hg least hasks fuel fuel' hfuel hfuel' left
  induction fuel generalizing fuel' size left with
  | zero => cases hfuel
  | succ fuel ih =>
    obtain ⟨fuel', rfl⟩ := Nat.exists_eq_succ_of_ne_zero (Nat.ne_zero_of_lt hfuel')
    refine .look fun kind => ?_
    cases hkind : precedence? kind with
    | none => exact .pure
    | some precedence =>
      dsimp only
      split
      next => exact .pure
      next hleast =>
        -- whatever binds more tightly than was asked for binds more tightly than the bound
        have hasks : bound ≤ least := hasks
        have habove : ¬ precedence ≤ bound := by omega
        rw [if_neg (by simp [habove])]
        have hkeeps := Lockstep.operation_keeps (fun size' hsize => hg.smaller hsize.le) hasks
          hkind (Int.not_le.1 hleast) left
        refine .andThen hkeeps fun value size' hsize => ?_
        exact ih (hg.smaller hsize.le) (by omega) (by omega) value

end Parser

/-- Punctuation up to a precedence ends the expression in front of it, in every script in which no
operator in front of an operand binds more loosely.  Whatever would be done where it does not end
the expression, the script is read as it is.  Other operators of the registry don't matter, and if
it has none that bind more loosely, this holds of every script. -/
theorem readScript_ends_at_punctuation {registry : Registry} {bound : Int} (hbound : bound ≤ 0)
    (entered : Value → Parser Value) {source : String}
    (hsource : (Parser.State.ofSource registry source).LeadsAbove bound) :
    SameReading (readScript registry source)
      (readScriptWith (Parser.operationsUnless bound entered) registry source) :=
  (Parser.Lockstep.above hbound).readScriptWith_same (Parser.operationsUnless_keep hbound entered)
    ⟨rfl, hsource⟩ (Nat.le_add_right _ _)

/-- An operator in front of an operand that binds as loosely as a closer. -/
theorem readScript_ends_at_closer :
    let loud : Operator := ⟨"loud", -2, .before, [], none⟩
    ∃ registry, Registry.empty.addAll [loud] = .ok registry ∧
      (Parser.State.ofSource registry "(loud 1)").LeadsAbove (-2) ∧
      (readScript registry "(loud 1)").toOption.isSome = true ∧
      SameReading (readScript registry "(loud 1)")
        (readScriptWith (Parser.operationsUnless (-2) fun _ => Parser.exhausted) registry
          "(loud 1)") := by
  intro loud
  obtain ⟨registry, hregistry, htest⟩ := exists_ok
    (show (Registry.empty.addAll [loud]).toOption.any (fun registry =>
      decide (registry.LeadsAbove (-2)) && (readScript registry "(loud 1)").toOption.isSome) = true
      by decide +kernel)
  rw [Bool.and_eq_true, decide_eq_true_eq] at htest
  have hsource := Parser.State.leadsAbove_ofSource htest.1 "(loud 1)"
  exact ⟨registry, hregistry, hsource, htest.2,
    readScript_ends_at_punctuation (by decide) _ hsource⟩

/-- An operator in front of an operand that binds more loosely.  The parenthesis behind its operand
is taken for an operation, where the script could be read if it ended the expression. -/
theorem closer_taken_for_operation :
    let loud : Operator := ⟨"loud", -3, .before, [], none⟩
    ∃ registry problem, Registry.empty.addAll [loud] = .ok registry ∧
      readScript registry "(loud 1)" = .error problem ∧
      problem.message = "Expected an operator but found “)”" ∧
      ¬ SameReading (readScript registry "(loud 1)")
        (readScriptWith (Parser.operationsUnless (-2) pure) registry "(loud 1)") := by
  intro loud
  let source := "(loud 1)"
  let ending := readScriptWith (Parser.operationsUnless (-2) pure)
  obtain ⟨registry, hregistry, htest⟩ := exists_ok
    (show (Registry.empty.addAll [loud]).toOption.any (fun registry =>
      decide (((readScript registry source).mapError SyntaxError.message).map (fun _ => ()) =
        .error "Expected an operator but found “)”") &&
      (ending registry source).toOption.isSome) = true by decide +kernel)
  rw [Bool.and_eq_true, decide_eq_true_eq] at htest
  obtain ⟨hmessage, hends⟩ := htest
  cases hread : readScript registry source with
  | ok values =>
    rw [hread] at hmessage
    cases hmessage
  | error problem =>
    rw [hread] at hmessage
    refine ⟨registry, problem, hregistry, hread, Except.error.inj hmessage, fun hsame => ?_⟩
    have hsame : SameReading (readScript registry source) (ending registry source) := hsame
    cases hending : ending registry source with
    | ok values =>
      rw [hread, hending] at hsame
      exact hsame
    | error other =>
      rw [hending] at hends
      cases hends

end CommandScript
