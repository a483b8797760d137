import CommandScript.Proofs.Splitting

/-!
# Where commands go

A command passes the targets that do not know its name and gets to the frame or the target that
deals with it.  There it is answered, and the answer is coerced to what the caller wants.  So to
handle a command is to *reach* a receiver, to get an answer from it, and to coerce the answer.

The same goes for all code.  Running an expression gives an answer, and what is wanted matters when
the answer is coerced.
-/

namespace CommandScript

/-- An evaluation that goes on with the result, if there is one. -/
def Outcome.andThen {α β : Type} (outcome : Outcome α) (next : α → Eval β) : Outcome β :=
  match outcome with
  | .done result store => next result store
  | .failed problem store => .failed problem store
  | .outOfFuel => .outOfFuel

theorem Eval.bind_apply {α β : Type} (first : Eval α) (next : α → Eval β) (store : Store) :
    (first >>= next) store = (first store).andThen next := rfl

namespace Outcome

variable {α β : Type} {outcome : Outcome α} {next : α → Eval β} {after : Store}

/-- Both parts of an evaluation that gives a result give one. -/
theorem andThen_eq_done {result : β} (h : outcome.andThen next = .done result after) :
    ∃ value between, outcome = .done value between ∧ next value between = .done result after := by
  cases outcome with
  | done value between => exact ⟨value, between, rfl, h⟩
  | failed problem between => cases h
  | outOfFuel => cases h

/-- Of an evaluation that fails, the first part fails, or the second. -/
theorem andThen_eq_failed {problem : EvalError} (h : outcome.andThen next = .failed problem after) :
    outcome = .failed problem after ∨
      ∃ value between, outcome = .done value between ∧
        next value between = .failed problem after := by
  cases outcome with
  | done value between => exact .inr ⟨value, between, rfl, h⟩
  | failed problem between =>
    cases h
    exact .inl rfl
  | outOfFuel => cases h

end Outcome

namespace Evaluation

variable {e : Evaluator} {wanted : Coercion}

/-! ## Targets -/

theorem handleList_expression (he : HandsOn e) (command : Command) (caller : Scope)
    (items : List Value) :
    handleList e command caller wanted items =
      handleList e command caller .expression items >>=
        fun answer => e.coerce wanted answer caller := by
  unfold handleList
  split
  next =>
    split
    next argument _ => simp only [Eval.bind_assoc, he wanted]
    next => rfl
  next =>
    split
    next first last _ _ => simp only [Eval.bind_assoc, he wanted]
    next => exact handleByName_expression he command caller _

theorem handleRecord_expression (he : HandsOn e) (command : Command) (caller : Scope)
    (record : Record) :
    handleRecord e command caller wanted record =
      handleRecord e command caller .expression record >>=
        fun answer => e.coerce wanted answer caller := by
  unfold handleRecord
  split
  next =>
    split
    next argument _ => simp only [Eval.bind_assoc, he wanted]
    next => rfl
  next => exact handleByName_expression he command caller _

theorem handleTarget_expression (he : HandsOn e) (command : Command) (caller : Scope)
    (target : Target) :
    handleTarget e command caller wanted target =
      handleTarget e command caller .expression target >>=
        fun answer => e.coerce wanted answer caller := by
  cases target with
  | list items => exact handleList_expression he command caller items
  | record record => exact handleRecord_expression he command caller record
  | frame environment => exact handleByName_expression he command caller _

/-! ## Receivers -/

/-- A command in a scope gets to a receiver, which is a frame or a target alone, and to the store
that the targets it passed have left. -/
inductive Reaches (e : Evaluator) (command : Command) (caller : Scope) (wanted : Coercion) :
    Scope → Store → Scope → Store → Prop where
  | frame {environment : Environment} {store : Store} :
      Reaches e command caller wanted (.frame environment) store (.frame environment) store
  | receiver {target : Target} {store : Store} :
      Reaches e command caller wanted (.receiver target) store (.receiver target) store
  /-- The target in front deals with the command. -/
  | target {target : Target} {parent : Scope} {store : Store} :
      Reaches e command caller wanted (.tell target parent) store (.receiver target) store
  /-- The target in front does not know the command's name. -/
  | behind {target : Target} {parent receiver : Scope} {store between before : Store}
      {problem : EvalError} :
      handleTarget e command caller wanted target store = .failed problem between →
      problem.isUnknownName command.name = true →
      Reaches e command caller wanted parent between receiver before →
      Reaches e command caller wanted (.tell target parent) store receiver before

variable {command : Command} {caller : Scope}

/-- Receivers coerce their answers last. -/
theorem Reaches.handle_expression (he : HandsOn e) {scope receiver : Scope} {store before : Store}
    (h : Reaches e command caller wanted scope store receiver before) :
    handle e command caller wanted receiver =
      handle e command caller .expression receiver >>=
        fun answer => e.coerce wanted answer caller := by
  induction h with
  | frame => exact handleByName_expression he command caller _
  | receiver => exact handleTarget_expression he command caller _
  | target => exact handleTarget_expression he command caller _
  | behind _ _ _ ih => exact ih

/-- A command is handled by the receiver that it gets to. -/
theorem exists_reaches (e : Evaluator) (command : Command) (caller : Scope) (wanted : Coercion) :
    ∀ (scope : Scope) (store : Store), ∃ receiver before,
      Reaches e command caller wanted scope store receiver before ∧
        handle e command caller wanted scope store = handle e command caller wanted receiver before
  | .frame _, store => ⟨_, store, .frame, rfl⟩
  | .receiver _, store => ⟨_, store, .receiver, rfl⟩
  | .tell target parent, store => by
    cases htarget : handleTarget e command caller wanted target store with
    | done answer after =>
      refine ⟨_, store, .target, ?_⟩
      simp only [handle, Eval.recover, htarget]
    | outOfFuel =>
      refine ⟨_, store, .target, ?_⟩
      simp only [handle, Eval.recover, htarget]
    | failed problem between =>
      cases hunknown : problem.isUnknownName command.name with
      | false =>
        refine ⟨_, store, .target, ?_⟩
        simp only [handle, Eval.recover, htarget, hunknown, Bool.false_eq_true, if_false]
      | true =>
        obtain ⟨receiver, before, hreaches, hparent⟩ :=
          exists_reaches e command caller wanted parent between
        refine ⟨receiver, before, .behind htarget hunknown hreaches, ?_⟩
        simp only [handle, Eval.recover, htarget, hunknown, if_true, hparent]

/-- Handling a command is getting an answer from a receiver and coercing it. -/
theorem handle_eq_andThen (he : HandsOn e) (command : Command) (caller : Scope) (wanted : Coercion)
    (scope : Scope) (store : Store) : ∃ receiver before,
      Reaches e command caller wanted scope store receiver before ∧
        handle e command caller wanted scope store =
          (handle e command caller .expression receiver before).andThen
            fun answer => e.coerce wanted answer caller := by
  obtain ⟨receiver, before, hreaches, hhandle⟩ := exists_reaches e command caller wanted scope store
  refine ⟨receiver, before, hreaches, ?_⟩
  rw [hhandle, hreaches.handle_expression he, Eval.bind_apply]

/-! ## Code -/

/-- How running code ends, before the answer is coerced. -/
inductive Runs (e : Evaluator) (wanted : Coercion) (scope : Scope) :
    Value → Store → Outcome Value → Prop where
  | identifier {name : Name} {store : Store} {outcome : Outcome Value} :
      Eval.lookup (fun store => scope.get store name) store = outcome →
      Runs e wanted scope (.identifier name) store outcome
  | command {command : Command} {receiver : Scope} {store before : Store}
      {outcome : Outcome Value} :
      Reaches e command scope wanted scope store receiver before →
      handle e command scope .expression receiver before = outcome →
      Runs e wanted scope (.command command) store outcome
  | block {items : List Value} {store : Store} {outcome : Outcome Value} :
      runStatements e scope .expression items store = outcome →
      Runs e wanted scope (.block items) store outcome
  | thunk {id : Nat} {body : Value} {captured : Scope} {inner : Coercion} {store : Store}
      {outcome : Outcome Value} :
      e.coerce inner body captured store = outcome →
      Runs e wanted scope (.thunk id body captured inner) store outcome

/-- Code is run, and its answer coerced. -/
theorem runOr_eq_andThen (he : HandsOn e) (wanted : Coercion) (scope : Scope) {value : Value}
    (hvalue : value.isExpression = true) (otherwise : Eval Value) (store : Store) :
    ∃ outcome, Runs e wanted scope value store outcome ∧
      runOr e scope wanted value otherwise store =
        outcome.andThen fun answer => e.coerce wanted answer scope := by
  cases value with
  | identifier name => exact ⟨_, .identifier rfl, rfl⟩
  | command command =>
    obtain ⟨receiver, before, hreaches, hhandle⟩ :=
      handle_eq_andThen he command scope wanted scope store
    exact ⟨_, .command hreaches rfl, hhandle⟩
  | block items =>
    refine ⟨_, .block rfl, ?_⟩
    rw [runOr, runStatements_expression he, Eval.bind_apply]
  | thunk id body captured inner => exact ⟨_, .thunk rfl, rfl⟩
  | _ => cases hvalue

end Evaluation

end CommandScript
