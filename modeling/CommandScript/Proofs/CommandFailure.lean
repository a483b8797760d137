import CommandScript.Proofs.Routing

/-!
# Failed commands

A command that fails before it has an answer fails with an error that lasts.  Its arguments fail as
bad arguments, its handler's body as a failed handler, and names, attributes and items that are not
there have errors of their own.  None of these means that there is no value, so nothing is put in
their place.

An error that can be recovered from comes out of a command only where it was answered: the answer
is nothing, or code that stands for nothing.

There is one gap.  The key of a field that a record is asked for with `get` is coerced as it stands,
so an absent key passes for an absent field.
-/

namespace CommandScript

/-- An error that is not caught is handed on. -/
theorem Eval.recover_failed {α : Type} {catches : EvalError → Bool} {action instead : Eval α}
    {store after : Store} {problem : EvalError} (h : action store = .failed problem after)
    (hmissed : catches problem = false) :
    Eval.recover catches action instead store = .failed problem after := by
  simp only [Eval.recover, h, hmissed, Bool.false_eq_true, if_false]

/-- Whether a coercion runs the code it is given.  The others hand it on to another coercion, or
leave it as it is. -/
def Coercion.runsCode : Coercion → Bool
  | .expression | .lazy _ | .optional _ | .default .. | .noResult => false
  | _ => true

namespace Evaluation

variable {fuel : Nat} {command : Command} {caller : Scope}

theorem FailsLasting.no_absence {α : Type} {action : Eval α} {store after : Store}
    {problem : EvalError} (hlasts : FailsLasting action)
    (hfailed : action store = .failed problem after) (habsence : problem.isAbsence = true) :
    False := by
  obtain ⟨-, hlasting⟩ := hlasts.of_failed trivial hfailed
  exact Bool.eq_false_iff.1 hlasting habsence

/-! ## Failing before an answer -/

theorem get_failsLasting (name : Name) (scope : Scope) :
    FailsLasting (Eval.lookup fun store => scope.get store name) :=
  .lookup (fun _ _ _ _ => trivial) fun _ _ _ h => (Scope.get_plain h).isAbsence_eq

/-- Coercing to an expression runs nothing, so there is no absence to fail with. -/
theorem coerce_expression_failsLasting (fuel : Nat) (value : Value) (scope : Scope) :
    FailsLasting (coerce fuel .expression value scope) := by
  cases fuel with
  | zero => exact .exhausted
  | succ fuel => exact .pure trivial

/-- Where an argument fails the call names it, and that lasts. -/
theorem bindParameters_failsLasting (handler : Name) (caller : Scope) (parameters : List Parameter)
    (matching : Bool) (arguments : List Argument) :
    FailsLasting
      (bindParameters (evaluator fuel) handler caller parameters matching arguments) := by
  induction parameters generalizing matching arguments with
  | nil => exact .pure trivial
  | cons parameter parameters ih =>
    refine .bind (Eval.Ensures.any.mapError fun problem _ => rfl) fun value _ => ?_
    exact .bind (ih _ _) fun _ _ => .pure trivial

/-- So does a surplus of arguments. -/
theorem bindArguments_failsLasting (interface : Interface) (command : Command) (caller : Scope)
    (isEvent : Bool) :
    FailsLasting (bindArguments (evaluator fuel) interface command caller isEvent) := by
  refine .bind (bindParameters_failsLasting _ _ _ _ _) fun found _ => ?_
  dsimp only
  split
  next => exact .pure trivial
  next => exact .bind (P := fun _ => True) (.read fun _ _ => trivial) fun _ _ => .failWith rfl

theorem defineParameters_failsLasting (body : Environment) (parameters : List Parameter)
    (values : List Value) : FailsLasting (defineParameters body parameters values) := by
  induction parameters generalizing values with
  | nil => exact .pure trivial
  | cons parameter parameters ih =>
    cases values with
    | nil => exact .pure trivial
    | cons value values =>
      refine .bind (.change (fun _ _ _ _ => trivial) fun _ _ _ herror => ?_) fun _ _ => ih values
      exact (Environment.assign_plain herror).isAbsence_eq

/-- A handler whose answer is handed on as it is fails in its arguments or its body, both times for
good. -/
theorem callHandler_failsLasting (command : Command) (caller owner : Scope) (handler : Handler) :
    FailsLasting (callHandler (evaluator fuel) command caller owner .expression handler) := by
  cases handler with
  | native id interface action isEvent =>
    refine .bind (bindArguments_failsLasting _ _ _ _) fun values _ => ?_
    refine .bind (P := fun _ => True) (.make fun _ _ => ⟨trivial, trivial⟩) fun body _ => ?_
    refine .bind (defineParameters_failsLasting _ _ _) fun _ _ => ?_
    refine .bind (Eval.Ensures.any.causing fun _ _ _ => rfl) fun answer _ => ?_
    exact coerce_expression_failsLasting fuel answer caller
  | primitive id interface body =>
    refine .bind (bindArguments_failsLasting _ _ _ _) fun values _ => ?_
    refine .bind (Eval.Ensures.any.causing fun _ _ _ => rfl) fun answer _ => ?_
    exact coerce_expression_failsLasting fuel answer caller

theorem applyCoercion_failsLasting (callee : Coercion) (values : List Value) :
    FailsLasting (applyCoercion callee values) := by
  have hcoercion (value : Value) : FailsLasting (coercionOf value) := by
    cases value with
    | coercion given => exact .pure trivial
    | _ => exact .failWith rfl
  unfold applyCoercion
  split
  next item => exact .bind (hcoercion item) fun _ _ => .pure trivial
  next field => exact .bind (hcoercion field) fun _ _ => .pure trivial
  next inner => exact .bind (hcoercion inner) fun _ _ => .pure trivial
  next inner => exact .bind (hcoercion inner) fun _ _ => .pure trivial
  next fallback inner => exact .bind (hcoercion inner) fun _ _ => .pure trivial
  next => exact .pure trivial
  next => exact .failWith rfl

/-- Whatever is found under a name is called, built or handed on. -/
theorem callFound_failsLasting (command : Command) (caller owner : Scope) (callee : Value) :
    FailsLasting (callFound (evaluator fuel) command caller owner .expression callee) := by
  unfold callFound
  split
  next handler => exact callHandler_failsLasting command caller owner handler
  next handler scope => exact callHandler_failsLasting command caller scope handler
  next given =>
    split
    next => exact coerce_expression_failsLasting fuel _ caller
    next =>
      refine .bind (bindArguments_failsLasting _ _ _ _) fun values _ => ?_
      refine .bind (applyCoercion_failsLasting _ _) fun answer _ => ?_
      exact coerce_expression_failsLasting fuel answer caller
  next =>
    split
    next => exact coerce_expression_failsLasting fuel _ caller
    next => exact .failWith rfl

/-- A name that is not found fails for good. -/
theorem handleByName_failsLasting (command : Command) (caller receiver : Scope) :
    FailsLasting (handleByName (evaluator fuel) command caller receiver .expression) := by
  refine .bind (P := fun _ => True) (.lookup (fun _ _ _ _ => trivial) fun _ _ _ herror => ?_)
    fun found _ => ?_
  · exact (Scope.lookup_plain herror).isAbsence_eq
  · split
    next value owner => exact callFound_failsLasting command caller owner value
    next => exact .failWith rfl

theorem indexOf_failsLasting (caller : Scope) (argument : Argument) :
    FailsLasting (indexOf (evaluator fuel) caller argument) := by
  refine .bind (coerce_anything_failsLasting fuel argument.value caller) fun value _ => ?_
  split
  next =>
    split
    next => exact .pure trivial
    next => exact .failWith rfl
  next => exact .failWith rfl

theorem needsOneArgument_failsLasting {α : Type} (command : Command) :
    FailsLasting (needsOneArgument command : Eval α) :=
  .bind (P := fun _ => True) (.read fun _ _ => trivial) fun _ _ => .failWith rfl

/-- An item or a range that a list lacks is an error that lasts. -/
theorem handleList_failsLasting (command : Command) (caller : Scope) (items : List Value) :
    FailsLasting (handleList (evaluator fuel) command caller .expression items) := by
  unfold handleList
  split
  next =>
    split
    next argument _ =>
      refine .bind (indexOf_failsLasting caller argument) fun index _ => ?_
      refine .bind (P := fun _ => True)
        (.ofExcept (fun _ _ => trivial) fun _ h => (listItem_plain h).isAbsence_eq) fun answer _ => ?_
      exact coerce_expression_failsLasting fuel answer caller
    next => exact needsOneArgument_failsLasting command
  next =>
    split
    next first last _ _ =>
      refine .bind (indexOf_failsLasting caller first) fun start _ => ?_
      refine .bind (indexOf_failsLasting caller last) fun stop _ => ?_
      refine .bind (P := fun _ => True)
        (.ofExcept (fun _ _ => trivial) fun _ h => (listRange_plain h).isAbsence_eq) fun found _ => ?_
      exact coerce_expression_failsLasting fuel _ caller
    next => exact handleByName_failsLasting command caller _

theorem fieldOf_failsLasting (record : Record) (keyValue : Value) :
    FailsLasting (fieldOf record keyValue) := by
  unfold fieldOf
  split
  next => exact .failWith rfl
  next =>
    split
    next => exact .pure trivial
    next => exact .failWith rfl

/-- The command asks a record for the field with a key. -/
def AsksField (command : Command) (receiver : Scope) (key : Argument) : Prop :=
  (∃ record, receiver = .receiver (.record record)) ∧ command.name.key = "get" ∧
    command.arguments = [key]

/-- The error of a record that can be recovered from is that of a key. -/
theorem handleRecord_absence {record : Record} {store after : Store} {problem : EvalError}
    (h : handleRecord (evaluator fuel) command caller .expression record store =
      .failed problem after)
    (habsence : problem.isAbsence = true) :
    ∃ key, AsksField command (.receiver (.record record)) key ∧
      coerce fuel .recordKey key.value caller store = .failed problem after := by
  by_cases hget : (command.name.key == "get") = true
  · by_cases hone : ∃ key, command.arguments = [key]
    · obtain ⟨key, hone⟩ := hone
      simp only [handleRecord, hget, hone, if_true, Eval.bind_apply] at h
      rcases Outcome.andThen_eq_failed h with hkey | ⟨keyValue, between, -, hfield⟩
      · exact ⟨key, ⟨⟨record, rfl⟩, eq_of_beq hget, hone⟩, hkey⟩
      · have hlasts : FailsLasting (fieldOf record keyValue >>= fun answer =>
            coerce fuel .expression answer caller) :=
          .bind (fieldOf_failsLasting record keyValue)
            fun answer _ => coerce_expression_failsLasting fuel answer caller
        exact (hlasts.no_absence hfield habsence).elim
    · have hlasts : FailsLasting
          (handleRecord (evaluator fuel) command caller .expression record) := by
        simp only [handleRecord, hget, if_true]
        split
        next key hkey => exact absurd ⟨key, hkey⟩ hone
        next => exact needsOneArgument_failsLasting command
      exact (hlasts.no_absence h habsence).elim
  · simp only [handleRecord, hget] at h
    exact ((handleByName_failsLasting command caller _).no_absence h habsence).elim

/-- A receiver that has no answer says so with an error that lasts, unless it is a record that was
asked for a field without a key. -/
theorem Reaches.absence {wanted : Coercion} {scope receiver : Scope} {store before after : Store}
    {problem : EvalError}
    (hreaches : Reaches (evaluator fuel) command caller wanted scope store receiver before)
    (h : handle (evaluator fuel) command caller .expression receiver before =
      .failed problem after)
    (habsence : problem.isAbsence = true) :
    ∃ key, AsksField command receiver key ∧
      coerce fuel .recordKey key.value caller before = .failed problem after := by
  have htarget (target : Target) (start : Store)
      (hfailed : handleTarget (evaluator fuel) command caller .expression target start =
        .failed problem after) :
      ∃ key, AsksField command (.receiver target) key ∧
        coerce fuel .recordKey key.value caller start = .failed problem after := by
    cases target with
    | list items =>
      exact ((handleList_failsLasting command caller items).no_absence hfailed habsence).elim
    | record record => exact handleRecord_absence hfailed habsence
    | frame environment =>
      exact ((handleByName_failsLasting command caller _).no_absence hfailed habsence).elim
  induction hreaches with
  | frame => exact ((handleByName_failsLasting command caller _).no_absence h habsence).elim
  | receiver => exact htarget _ _ h
  | target => exact htarget _ _ h
  | behind _ _ _ ih => exact ih h

/-! ## Absent values -/

/-- The value is absent where it is evaluated: it is nothing, or code that stands for nothing. -/
inductive Absent : Coercion → Scope → Value → Store → Prop where
  | nothing {wanted : Coercion} {scope : Scope} {value : Value} {store : Store} :
      value.isNothing = true → Absent wanted scope value store
  /-- Code runs, and its answer is absent. -/
  | answer {fuel : Nat} {wanted : Coercion} {scope : Scope} {value answer : Value}
      {store between : Store} :
      Runs (evaluator fuel) wanted scope value store (.done answer between) →
      Absent wanted scope answer between → Absent wanted scope value store
  /-- The last statement of a block is run as it is, and a thunk in its place is evaluated. -/
  | statement {fuel : Nat} {wanted : Coercion} {scope : Scope} {items : List Value} {last : Value}
      {store between : Store} :
      coerceEach (evaluator fuel) scope items store = .done () between →
      Absent .expression scope last between → Absent wanted scope (.block (items ++ [last])) store
  | body {wanted inner : Coercion} {scope captured : Scope} {id : Nat} {body : Value}
      {store : Store} :
      Absent inner captured body store → Absent wanted scope (.thunk id body captured inner) store
  /-- A record is asked for a field without a key. -/
  | key {fuel : Nat} {wanted : Coercion} {scope receiver : Scope} {command : Command}
      {key : Argument} {store before : Store} :
      Reaches (evaluator fuel) command scope wanted scope store receiver before →
      AsksField command receiver key → Absent .recordKey scope key.value before →
      Absent wanted scope (.command command) store

/-- Only nothing is absent among the values that are no code. -/
theorem Absent.isNothing {wanted : Coercion} {scope : Scope} {value : Value} {store : Store}
    (h : Absent wanted scope value store) (hplain : value.isExpression = false) :
    value.isNothing = true := by
  cases h with
  | nothing hnothing => exact hnothing
  | answer hruns _ => cases hruns <;> cases hplain
  | statement | body | key => cases hplain

/-- Evaluating a value with a given amount of fuel fails for lack of a value only if the value is
absent. -/
structure FindsAbsent (fuel : Nat) : Prop where
  coerce {wanted : Coercion} {value : Value} {scope : Scope} {store after : Store}
    {problem : EvalError} :
    Evaluation.coerce fuel wanted value scope store = .failed problem after →
      problem.isAbsence = true → Absent wanted scope value store
  run {value : Value} {scope : Scope} {store after : Store} {problem : EvalError} :
    Evaluation.run fuel value scope store = .failed problem after →
      problem.isAbsence = true → Absent .expression scope value store

section Absence

variable {wanted : Coercion} {scope : Scope} {value : Value} {store after : Store}
  {problem : EvalError}

/-- Statements that are run fail as the last one does, if there is no value. -/
theorem runStatements_absence {items : List Value}
    (h : runStatements (evaluator fuel) scope .expression items store = .failed problem after)
    (habsence : problem.isAbsence = true) :
    ∃ front last between, items = front ++ [last] ∧
      coerceEach (evaluator fuel) scope front store = .done () between ∧
      run fuel last scope between = .failed problem after := by
  induction items generalizing store with
  | nil => exact ((coerce_expression_failsLasting fuel _ scope).no_absence h habsence).elim
  | cons item items ih =>
    cases items with
    | nil =>
      rcases Outcome.andThen_eq_failed h with hrun | ⟨answer, between, -, hcoerce⟩
      · exact ⟨[], item, store, rfl, rfl, hrun⟩
      · have hlasts := coerce_expression_failsLasting fuel answer scope
        exact (hlasts.no_absence hcoerce habsence).elim
    | cons next others =>
      rcases Outcome.andThen_eq_failed h with hitem | ⟨answer, between, hitem, hrest⟩
      · exact ((coerce_anything_failsLasting fuel item scope).no_absence hitem habsence).elim
      · obtain ⟨front, last, start, hitems, hfront, hlast⟩ := ih hrest
        refine ⟨item :: front, last, start, by rw [hitems, List.cons_append], ?_, hlast⟩
        exact (Eval.bind_done hitem).trans hfront

/-- Of the coercions, those that refuse nothing run code themselves. -/
theorem runOr_of_absence
    (h : coerce (fuel + 1) wanted value scope store = .failed problem after)
    (habsence : problem.isAbsence = true) :
    ∃ otherwise, runOr (evaluator fuel) scope wanted value otherwise store =
      .failed problem after := by
  have hrecovered {action : Eval Value} {fallback : Value}
      (hfailed : Eval.recover EvalError.isAbsence action (Eval.done fallback) store =
        .failed problem after) : False :=
    FailsLasting.no_absence recover_failsLasting hfailed habsence
  cases wanted with
  | anything | value | optional _ | default _ _ => exact (hrecovered h).elim
  | expression | lazy _ => cases h
  | noResult =>
    rcases Outcome.andThen_eq_failed h with hanything | ⟨_, _, -, hdone⟩
    · have hlasts := coerce_anything_failsLasting fuel value scope
      exact (hlasts.no_absence hanything habsence).elim
    · cases hdone
  | _ => exact ⟨_, h⟩

/-- If running a value fails with an absence, the value is absent. -/
theorem runOr_absence (hfinds : FindsAbsent fuel) (hvalue : value.isExpression = true)
    {otherwise : Eval Value}
    (h : runOr (evaluator fuel) scope wanted value otherwise store = .failed problem after)
    (habsence : problem.isAbsence = true) : Absent wanted scope value store := by
  obtain ⟨outcome, hruns, hrun⟩ :=
    runOr_eq_andThen (evaluator_handsOn fuel) wanted scope hvalue otherwise store
  rcases Outcome.andThen_eq_failed (hrun.symm.trans h) with rfl | ⟨answer, between, rfl, hanswer⟩
  · cases hruns with
    | identifier hfailed =>
      exact ((get_failsLasting _ scope).no_absence hfailed habsence).elim
    | command hreaches hfailed =>
      obtain ⟨key, hasks, hkey⟩ := hreaches.absence hfailed habsence
      exact .key hreaches hasks (hfinds.coerce hkey habsence)
    | block hfailed =>
      obtain ⟨front, last, between, rfl, hfront, hlast⟩ := runStatements_absence hfailed habsence
      exact .statement hfront (hfinds.run hlast habsence)
    | thunk hfailed => exact .body (hfinds.coerce hfailed habsence)
  · exact .answer hruns (hfinds.coerce hanswer habsence)

/-- All absences that coercing or running ends in are found.  The induction is on the fuel. -/
theorem findsAbsent (fuel : Nat) : FindsAbsent fuel := by
  induction fuel with
  | zero =>
    constructor <;> intros <;> contradiction
  | succ fuel ih =>
    refine ⟨fun {wanted value scope store problem after} h habsence => ?_,
      fun {value scope store problem after} h habsence => ?_⟩
    · cases hvalue : value.isExpression with
      | true =>
        obtain ⟨otherwise, hrun⟩ := runOr_of_absence h habsence
        exact runOr_absence ih hvalue hrun habsence
      | false =>
        cases hthere : value.isNothing with
        | true => exact .nothing hthere
        | false => exact ((coerce_failsLasting _ hvalue hthere).no_absence h habsence).elim
    · cases hvalue : value.isExpression with
      | true => exact runOr_absence ih hvalue h habsence
      | false =>
        rw [run_of_plain hvalue] at h
        cases h

end Absence

/-! ## Nothing is put in the place of a failure -/

/-- A failure that lasts goes through the coercion of the command. -/
theorem coerce_command_failed {wanted : Coercion} {scope : Scope} {store after : Store}
    {problem : EvalError} (hruns : wanted.runsCode = true)
    (h : handle (evaluator fuel) command scope wanted scope store = .failed problem after)
    (hlasting : problem.Lasting) :
    coerce (fuel + 1) wanted (.command command) scope store = .failed problem after := by
  cases wanted with
  | anything | value => exact Eval.recover_failed (Eval.bind_failed h) hlasting
  | expression | lazy _ | optional _ | default _ _ | noResult => cases hruns
  | _ => exact h

/-- No enclosing `optional` or `default` recovers from an error that lasts. -/
theorem coerce_within_failed {wanted : Coercion} {value : Value} {scope : Scope}
    {store after : Store} {problem : EvalError}
    (h : coerce fuel wanted value scope store = .failed problem after) (hlasting : problem.Lasting)
    (enclosing : List (Option Value)) :
    coerce (fuel + enclosing.length) (wanted.within enclosing) value scope store =
      .failed problem after := by
  induction enclosing with
  | nil => exact h
  | cons fallback others ih =>
    cases fallback with
    | none => exact Eval.recover_failed ih hlasting
    | some fallback => exact Eval.recover_failed ih hlasting

/-- A command that fails has failed before it was answered, or its answer can't be coerced.

* In the first case, where arguments and bodies fail, the error lasts.  Coercing the command gives
  it, and so does `anything`, and every `optional` and `default` around.
* In the second, the error can be recovered from only if the answer is absent.

Left out are records that are asked for a field with a key that is absent. -/
theorem handle_failed_lasts (fuel : Nat) (command : Command) (caller scope : Scope)
    (wanted : Coercion) (store after : Store) (problem : EvalError)
    (hfailed : handle (evaluator fuel) command caller wanted scope store = .failed problem after)
    (hkeys : ∀ receiver before key cause between,
      Reaches (evaluator fuel) command caller wanted scope store receiver before →
      AsksField command receiver key →
      coerce fuel .recordKey key.value caller before = .failed cause between →
      cause.isAbsence = false) :
    ∃ receiver before,
      Reaches (evaluator fuel) command caller wanted scope store receiver before ∧
      ((handle (evaluator fuel) command caller .expression receiver before =
          .failed problem after ∧
        problem.isAbsence = false ∧
        (caller = scope → wanted.runsCode = true → ∀ enclosing,
          coerce (fuel + 1 + enclosing.length) (wanted.within enclosing) (.command command) scope
            store = .failed problem after)) ∨
      ∃ answer between,
        handle (evaluator fuel) command caller .expression receiver before =
          .done answer between ∧
        coerce fuel wanted answer caller between = .failed problem after ∧
        (problem.isAbsence = true → Absent wanted caller answer between ∧
          (answer.isExpression = false → answer.isNothing = true))) := by
  obtain ⟨receiver, before, hreaches, hhandle⟩ :=
    handle_eq_andThen (evaluator_handsOn fuel) command caller wanted scope store
  refine ⟨receiver, before, hreaches, ?_⟩
  rcases Outcome.andThen_eq_failed (hhandle.symm.trans hfailed) with
    hunanswered | ⟨answer, between, hanswer, hcoerce⟩
  · left
    have hlasting : problem.isAbsence = false := by
      cases habsence : problem.isAbsence with
      | false => rfl
      | true =>
        obtain ⟨key, hasks, hkey⟩ := hreaches.absence hunanswered habsence
        exact habsence.symm.trans (hkeys receiver before key _ _ hreaches hasks hkey)
    refine ⟨hunanswered, hlasting, fun hcaller hruns enclosing => ?_⟩
    subst hcaller
    exact coerce_within_failed (coerce_command_failed hruns hfailed hlasting) hlasting enclosing
  · right
    refine ⟨answer, between, hanswer, hcoerce, fun habsence => ?_⟩
    have habsent := (findsAbsent fuel).coerce hcoerce habsence
    exact ⟨habsent, habsent.isNothing⟩

/-- A handler whose body has nothing to answer where a number was promised, called behind a list
that does not know its name. -/
theorem handle_failed_lasts_behind_list :
    let size := Name.ofString "size"
    let handler : Handler := .native 0 ⟨size, [], .number⟩ (.block []) false
    let store : Store := ⟨#[[⟨size, .handler handler, true⟩]], none, 1⟩
    let scope : Scope := .tell (.list [.boolean true]) (.frame (.root 0))
    let command : Command := ⟨size, [], none⟩
    ∃ problem after,
      handle (evaluator 5) command scope .number scope store = .failed problem after ∧
      problem.cause? = some (.of (.nullCoercion .number)) ∧
      problem.isAbsence = false ∧
      coerce 8 (.default (.boolean true) (.optional .number)) (.command command) scope store =
        .failed problem after := by
  intro size handler store scope command
  let after : Store := ⟨store.frames.push [], none, 1⟩
  let problem : EvalError :=
    .caused (.handlerFailed "size" (commandText command after)) (.of (.nullCoercion .number))
  have hfailed : handle (evaluator 5) command scope .number scope store =
      .failed problem after := by
    dsimp only [problem, after, scope, command, store, handler, size]
    rfl
  obtain ⟨receiver, before, hreaches, hends⟩ :=
    handle_failed_lasts 5 command scope scope .number store after problem hfailed
      fun _ _ _ _ _ _ hasks => absurd hasks.2.1 (by decide)
  refine ⟨problem, after, hfailed, rfl, ?_⟩
  rcases hends with ⟨-, hlasting, hsame⟩ | ⟨answer, between, hanswer, -⟩
  · exact ⟨hlasting, hsame rfl rfl [some (.boolean true), none]⟩
  · -- Neither the list nor the frame behind it has an answer.
    dsimp only [scope, command, store, handler, size] at hreaches hanswer
    cases hreaches with
    | target => cases hanswer
    | behind htarget _ hparent =>
      cases htarget
      cases hparent with
      | frame => cases hanswer

/-- A record in front takes an absent key for an absent field: the argument of `get` fails, and its
error is recovered from. -/
theorem get_recovers_from_absent_key :
    let command : Command := ⟨.ofString "get", [⟨none, .nothing⟩], none⟩
    let scope : Scope :=
      .tell (.record (.fields [(.tag (.ofString "a"), .boolean true)])) (.frame (.root 0))
    let problem : EvalError := .of (.nullCoercion .recordKey)
    coerce 4 .recordKey .nothing scope .silent = .failed problem .silent ∧
      handle (evaluator 4) command scope .boolean scope .silent = .failed problem .silent ∧
      problem.isAbsence = true ∧
      coerce 5 .anything (.command command) scope .silent = .done .nothing .silent ∧
      coerce 6 (.default (.boolean false) .boolean) (.command command) scope .silent =
        .done (.boolean false) .silent := by
  refine ⟨rfl, rfl, rfl, rfl, rfl⟩

end Evaluation

end CommandScript
