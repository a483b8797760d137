import CommandScript.Proofs.CommandFailure

/-!
# Commands that a target knows

The target in front of a scope is asked first, and the scope behind it only for names that the
target does not know.  Whether it knows a name is not asked: it is told from the error, which says,
without a cause, that nothing has the command's name.

Lists know `item` and `items`, and records know `get`.  What goes wrong when they answer these is
their own error: an argument fails, an index is out of range, a key is missing.  It comes out as it
is, and nothing behind the target is asked or evaluated again.

There is one gap, of three kinds.  The error may speak of the command's own name and mean something
else by it: a name inside an argument, a missing key, or a name in the answer.  Then it passes for
an unknown name, and the command goes on to the scope behind (`PassesForUnknown`).
-/

namespace CommandScript.Evaluation

variable {e : Evaluator} {command : Command} {caller : Scope} {wanted : Coercion}
  {store after : Store} {problem : EvalError}

/-! ## Errors of a target's own -/

/-- A target answers the command itself, and does not look its name up. -/
inductive OwnCommand (command : Command) : Target → Prop where
  | item {items : List Value} {index : Argument} :
      command.name.key = "item" → command.arguments = [index] → OwnCommand command (.list items)
  | items {items : List Value} {first last : Argument} :
      command.name.key = "items" → command.arguments = [first, last] →
      OwnCommand command (.list items)
  | get {record : Record} {key : Argument} :
      command.name.key = "get" → command.arguments = [key] → OwnCommand command (.record record)

/-- An argument of a target's own command can't be evaluated.  Those before it are indices. -/
inductive ArgumentFails (e : Evaluator) (command : Command) (caller : Scope) :
    Target → Store → EvalError → Store → Prop where
  | index {items : List Value} (front : List Argument) {rest : List Argument} {index : Argument}
      {found : List Int64} {store between after : Store} {problem : EvalError} :
      command.arguments = front ++ index :: rest →
      Eval.forEach (indexOf e caller) front store = .done found between →
      e.coerce .anything index.value caller between = .failed problem after →
      ArgumentFails e command caller (.list items) store problem after
  | key {record : Record} {key : Argument} {store after : Store} {problem : EvalError} :
      command.arguments = [key] →
      e.coerce .recordKey key.value caller store = .failed problem after →
      ArgumentFails e command caller (.record record) store problem after

/-- The error of a target's own command passes for one about a name that the target does not
know. -/
inductive PassesForUnknown (e : Evaluator) (command : Command) (caller : Scope)
    (wanted : Coercion) : Target → Store → EvalError → Store → Prop where
  /-- Code in an argument asks for something that has the command's name. -/
  | argument {target : Target} {store after : Store} {problem : EvalError} :
      ArgumentFails e command caller target store problem after →
      problem.isUnknownName command.name = true →
      PassesForUnknown e command caller wanted target store problem after
  /-- The missing key has the command's name. -/
  | missingKey {record : Record} {argument : Argument} {keyValue : Value} {key : Key}
      {store after : Store} :
      command.arguments = [argument] →
      e.coerce .recordKey argument.value caller store = .done keyValue after →
      keyValue.toKey? = some key → record.get? key = none →
      Text.lowercase key.content = command.name.key →
      PassesForUnknown e command caller wanted (.record record) store
        (.of (.valueNotFound key.content)) after
  /-- Code in the answer asks for something that has the command's name. -/
  | answer {target : Target} {store between after : Store} {answer : Value}
      {problem : EvalError} :
      handleTarget e command caller .expression target store = .done answer between →
      e.coerce wanted answer caller between = .failed problem after →
      problem.isUnknownName command.name = true →
      PassesForUnknown e command caller wanted target store problem after

theorem PassesForUnknown.isUnknownName {target : Target}
    (h : PassesForUnknown e command caller wanted target store problem after) :
    problem.isUnknownName command.name = true := by
  cases h with
  | argument _ hunknown => exact hunknown
  | missingKey _ _ _ _ hname => simp [EvalError.isUnknownName, EvalError.of, hname]
  | answer _ _ hunknown => exact hunknown

/-! ## Errors about names -/

/-- An index fails with an error about a name only while its argument is evaluated. -/
theorem indexOf_unknown {index : Argument} {name : Name}
    (h : indexOf e caller index store = .failed problem after)
    (hunknown : problem.isUnknownName name = true) :
    e.coerce .anything index.value caller store = .failed problem after := by
  rcases Outcome.andThen_eq_failed h with hargument | ⟨value, between, -, hvalue⟩
  · exact hargument
  · exfalso
    cases value with
    | text text =>
      cases hindex : text.scalar.toInt64 with
      | ok index =>
        simp only [hindex] at hvalue
        cases hvalue
      | error cause =>
        simp only [hindex] at hvalue
        cases hvalue
        cases hunknown
    | _ =>
      cases hvalue
      cases hunknown

/-- An index out of range is no error about a name. -/
theorem outOfRange_known {α : Type} {found : Except Int64 α} {name : Name}
    (h : found.mapError (fun index => .of (.constraint (.ofInt64 index) .indexOutOfRange)) =
      Except.error problem) :
    problem.isUnknownName name = false := by
  cases found with
  | ok value => cases h
  | error index =>
    cases h
    rfl

/-- A record without a field says so with the name of its key, and with no other name. -/
theorem fieldOf_unknown {record : Record} {keyValue : Value} {name : Name}
    (h : fieldOf record keyValue store = .failed problem after)
    (hunknown : problem.isUnknownName name = true) :
    ∃ key, keyValue.toKey? = some key ∧ record.get? key = none ∧
      problem = .of (.valueNotFound key.content) ∧ after = store := by
  cases hkey : keyValue.toKey? with
  | none =>
    rw [fieldOf, hkey] at h
    cases h
    cases hunknown
  | some key =>
    cases hfield : record.get? key with
    | some value =>
      simp only [fieldOf, hkey, hfield] at h
      cases h
    | none =>
      simp only [fieldOf, hkey, hfield] at h
      cases h
      exact ⟨key, rfl, hfield, rfl, rfl⟩

/-- Handing an expression on does not fail. -/
theorem coerce_expression_not_failed {fuel : Nat} {value : Value} :
    coerce fuel .expression value caller store ≠ .failed problem after := by
  cases fuel with
  | zero => exact nofun
  | succ fuel => exact nofun

variable {fuel : Nat}

/-- An answer that is there or not is handed on without an error about a name. -/
theorem answer_known {α : Type} {found : Except EvalError α} {toValue : α → Value} {name : Name}
    (hfound : ∀ problem, found = .error problem → problem.isUnknownName name = false)
    (h : (Eval.ofExcept found >>= fun answer =>
      coerce fuel .expression (toValue answer) caller) store = .failed problem after)
    (hunknown : problem.isUnknownName name = true) : False := by
  rcases Outcome.andThen_eq_failed h with hnone | ⟨answer, between, -, hcoerce⟩
  · cases found with
    | ok answer => cases hnone
    | error cause =>
      cases hnone
      rw [hfound problem rfl] at hunknown
      cases hunknown
  · exact coerce_expression_not_failed hcoerce

/-- A list that fails to answer its own command with an error about the command's name has failed to
evaluate an argument. -/
theorem handleList_unknown {items : List Value} (hown : OwnCommand command (.list items))
    (h : handleList (evaluator fuel) command caller .expression items store =
      .failed problem after)
    (hunknown : problem.isUnknownName command.name = true) :
    ArgumentFails (evaluator fuel) command caller (.list items) store problem after := by
  cases hown with
  | @item _ index hname harguments =>
    simp only [handleList, hname, harguments, beq_self_eq_true, if_true, Eval.bind_apply] at h
    rcases Outcome.andThen_eq_failed h with hindex | ⟨found, between, -, hrest⟩
    · have hargument := indexOf_unknown hindex hunknown
      exact .index [] harguments rfl hargument
    · exact (answer_known (fun _ hrange => outOfRange_known hrange) hrest hunknown).elim
  | @items _ first last hname harguments =>
    have hitem : ("items" == "item") = false := by decide
    simp only [handleList, hitem, hname, harguments, beq_self_eq_true, Bool.false_eq_true,
      if_false, Eval.bind_apply] at h
    rcases Outcome.andThen_eq_failed h with hfirst | ⟨start, between, hfirst, hrest⟩
    · have hargument := indexOf_unknown hfirst hunknown
      exact .index [] harguments rfl hargument
    · rcases Outcome.andThen_eq_failed hrest with hlast | ⟨stop, middle, -, hrest⟩
      · have hargument := indexOf_unknown hlast hunknown
        exact .index [first] harguments (Eval.bind_done hfirst) hargument
      · exact (answer_known (fun _ hrange => outOfRange_known hrange) hrest hunknown).elim

/-- A record fails so for its key, or for having no such field. -/
theorem handleRecord_unknown {record : Record} (hown : OwnCommand command (.record record))
    (h : handleRecord (evaluator fuel) command caller .expression record store =
      .failed problem after)
    (hunknown : problem.isUnknownName command.name = true) :
    PassesForUnknown (evaluator fuel) command caller wanted (.record record) store problem
      after := by
  cases hown with
  | get hname harguments =>
    simp only [handleRecord, hname, harguments, beq_self_eq_true, if_true, Eval.bind_apply] at h
    rcases Outcome.andThen_eq_failed h with hkey | ⟨keyValue, between, hkey, hrest⟩
    · exact .argument (.key harguments hkey) hunknown
    · rcases Outcome.andThen_eq_failed hrest with hfield | ⟨answer, middle, -, hcoerce⟩
      · obtain ⟨key, hvalue, hmissing, rfl, rfl⟩ := fieldOf_unknown hfield hunknown
        have hname : Text.lowercase key.content = command.name.key := by
          simpa [EvalError.isUnknownName, EvalError.of] using hunknown
        exact .missingKey harguments hkey hvalue hmissing hname
      · exact (coerce_expression_not_failed hcoerce).elim

/-- The error of a target's own command speaks of the command's name just in these ways. -/
theorem isUnknownName_iff {target : Target} (hown : OwnCommand command target)
    (hfailed : handleTarget (evaluator fuel) command caller wanted target store =
      .failed problem after) :
    problem.isUnknownName command.name = true ↔
      PassesForUnknown (evaluator fuel) command caller wanted target store problem after := by
  constructor
  · intro hunknown
    rw [handleTarget_expression (evaluator_handsOn fuel), Eval.bind_apply] at hfailed
    rcases Outcome.andThen_eq_failed hfailed with hunanswered | ⟨answer, between, hanswer, hcoerce⟩
    · cases target with
      | list items => exact .argument (handleList_unknown hown hunanswered hunknown) hunknown
      | record record => exact handleRecord_unknown hown hunanswered hunknown
      | frame environment => cases hown
    · exact .answer hanswer hcoerce hunknown
  · exact PassesForUnknown.isUnknownName

/-! ## What is behind the target -/

/-- A list or record that fails on a command it answers itself has the last word.  The error comes
out as it is, with the store that the target has left, and the command gets nowhere else.  Left out
are errors that pass for those about an unknown name.  Then the scope behind answers, from the store
that the target has left. -/
theorem handle_tell_own_failed (fuel : Nat) {target : Target} (hown : OwnCommand command target)
    (caller parent : Scope) (wanted : Coercion)
    (hfailed : handleTarget (evaluator fuel) command caller wanted target store =
      .failed problem after) :
    (¬ PassesForUnknown (evaluator fuel) command caller wanted target store problem after →
      handle (evaluator fuel) command caller wanted (.tell target parent) store =
          .failed problem after ∧
        ∀ receiver before,
          Reaches (evaluator fuel) command caller wanted (.tell target parent) store receiver
              before →
            receiver = .receiver target ∧ before = store) ∧
      (PassesForUnknown (evaluator fuel) command caller wanted target store problem after →
        handle (evaluator fuel) command caller wanted (.tell target parent) store =
          handle (evaluator fuel) command caller wanted parent after) := by
  constructor
  · intro hclear
    have hknown : problem.isUnknownName command.name = false := by
      rwa [← isUnknownName_iff hown hfailed, Bool.not_eq_true] at hclear
    refine ⟨?_, fun receiver before hreaches => ?_⟩
    · rw [handle]
      exact Eval.recover_failed hfailed hknown
    · cases hreaches with
      | target => exact ⟨rfl, rfl⟩
      | behind htarget hunknown _ =>
        cases hfailed.symm.trans htarget
        rw [hknown] at hunknown
        cases hunknown
  · intro hpasses
    simp only [handle, Eval.recover, hfailed, hpasses.isUnknownName, if_true]

/-- A handler with the command's name is there, behind the target, and is not called for an index
out of range. -/
theorem handle_tell_out_of_range :
    let item := Name.ofString "item"
    let handler : Handler := .native 0 ⟨item, [], .anything⟩ (.boolean true) true
    let store : Store := ⟨#[[⟨item, .handler handler, true⟩]], none, 1⟩
    let target : Target := .list [.boolean false]
    let scope : Scope := .tell target (.frame (.root 0))
    let command : Command := ⟨item, [⟨none, .ofInt64 5⟩], none⟩
    let problem : EvalError := .of (.constraint (.ofInt64 5) .indexOutOfRange)
    OwnCommand command target ∧
      handleTarget (evaluator 4) command scope .anything target store = .failed problem store ∧
      ¬ PassesForUnknown (evaluator 4) command scope .anything target store problem store ∧
      handle (evaluator 4) command scope .anything scope store = .failed problem store := by
  intro item handler store target scope command problem
  have hown : OwnCommand command target := .item (by decide +kernel) rfl
  have hfailed : handleTarget (evaluator 4) command scope .anything target store =
      .failed problem store := by
    dsimp only [problem, scope, command, store, handler, item, target]
    rfl
  have hclear :
      ¬ PassesForUnknown (evaluator 4) command scope .anything target store problem store := by
    intro hpasses
    cases hpasses.isUnknownName
  have hhandled := handle_tell_own_failed 4 hown scope (.frame (.root 0)) .anything hfailed
  exact ⟨hown, hfailed, hclear, (hhandled.1 hclear).1⟩

/-- A record without the key `get` is asked for it, and a list is asked for the item whose index is
an undefined `item`.  Both errors are about another name than the command's, which happens to be the
same.  The first command gets to a handler behind the record, and the error of the second is
replaced. -/
theorem handle_tell_passes_for_unknown :
    let get := Name.ofString "get"
    let item := Name.ofString "item"
    let key := Name.ofString "k"
    let handler : Handler :=
      .native 0 ⟨get, [⟨key, key, .anything⟩], .anything⟩ (.identifier key) false
    let store : Store := ⟨#[[⟨get, .handler handler, true⟩]], none, 1⟩
    let record : Target := .record (.fields [(.tag (.ofString "a"), .boolean true)])
    let list : Target := .list [.boolean true]
    let behindRecord : Scope := .tell record (.frame (.root 0))
    let behindList : Scope := .tell list (.frame (.root 0))
    let getGet : Command := ⟨get, [⟨none, .ofString "get"⟩], none⟩
    let itemItem : Command := ⟨item, [⟨none, .identifier item⟩], none⟩
    (handleTarget (evaluator 5) getGet behindRecord .anything record store =
        .failed (.of (.valueNotFound "get")) store ∧
      ∃ after, handle (evaluator 5) getGet behindRecord .anything behindRecord store =
        .done (.ofString "get") after) ∧
      handleTarget (evaluator 5) itemItem behindList .anything list store =
          .failed (.of (.valueNotFound "item")) store ∧
        handle (evaluator 5) itemItem behindList .anything behindList store =
          .failed (.of (.handlerNotFound "item")) store := by
  refine ⟨⟨rfl, _, rfl⟩, rfl, rfl⟩

end CommandScript.Evaluation
