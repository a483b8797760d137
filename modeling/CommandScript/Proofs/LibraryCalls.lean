import CommandScript.Proofs.ArgumentMatching
import CommandScript.Proofs.DataLiterals
import CommandScript.Proofs.Routing

/-!
# Calls of library handlers

A name may stand for a handler of the library in any scope: in a frame, or behind targets that do
not know it, or as the attribute of a target.  A command with that name is a call of the handler.
Its arguments are bound where it was written, and the handler does what its body says.

Behind a target two things could come in between.  The target could deal with the command itself,
as lists do with `item` and `items` and records with `get`, but no handler of the library has such a
name.  And an error of the handler could pass for an unknown name, so that the command went on to
the scope behind.  But the errors of a primitive handler have a cause or are about its arguments.
-/

namespace CommandScript

/-! ## Handlers in scopes -/

/-- The value is a handler, alone or joined to a scope. -/
inductive Value.IsHandler (handler : Handler) : Value → Prop where
  | handler : IsHandler handler (.handler handler)
  | closure {scope : Scope} : IsHandler handler (.closure handler scope)

/-- The names that lists and records deal with themselves. -/
def Target.reserved : List String := ["item", "items", "get"]

namespace Evaluation

variable {fuel : Nat} {command : Command} {caller scope : Scope} {store after : Store}
  {value : Value} {interface : Interface} {body : Primitive} {id : Nat}

/-- A primitive handler runs nowhere but where it was called from. -/
theorem callFound_primitive {e : Evaluator} {wanted : Coercion}
    (h : value.IsHandler (.primitive id interface body)) (owner : Scope) :
    callFound e command caller owner wanted value =
      callHandler e command caller caller wanted (.primitive id interface body) := by
  cases h with
  | handler => rfl
  | closure => rfl

/-- A call of a primitive handler never fails for an unknown name: its errors have a cause, or are
about its arguments. -/
theorem callPrimitive_known (name : Name) (owner : Scope) :
    (callHandler (evaluator fuel) command caller owner .expression
      (.primitive id interface body)).Ensures (fun _ => True) (fun _ => True)
      fun problem => problem.isUnknownName name = false := by
  refine .bind (P := fun _ => True) (fun store _ => ?_) fun values _ => ?_
  · have hbinds := bindArguments_iff_binds.1
      (rfl : bindArguments (evaluator fuel) interface command caller false store = _)
    generalize bindArguments (evaluator fuel) interface command caller false store = outcome
      at hbinds
    cases hbinds with
    | bound => exact ⟨trivial, trivial⟩
    | unrecognized => exact ⟨trivial, rfl⟩
    | badArgument => exact ⟨trivial, rfl⟩
    | outOfFuel => trivial
  · refine .bind (Eval.Ensures.any.causing fun _ _ _ => rfl) fun answer _ => ?_
    cases fuel with
    | zero => exact .exhausted
    | succ fuel => exact .pure trivial

theorem isUnknownName_self (name : Name) :
    (EvalError.of (.handlerNotFound name.text)).isUnknownName name = true := by
  simp [EvalError.isUnknownName, EvalError.of, name.key_eq]

section Found

variable {e : Evaluator} {wanted : Coercion} {target : Target}

/-- A target hands a command on to the attribute with its name. -/
theorem handleTarget_eq (hname : command.name.key ∉ Target.reserved) (target : Target) :
    handleTarget e command caller wanted target =
      handleByName e command caller
        (match target with
          | .frame environment => .frame environment
          | other => .receiver other) wanted := by
  obtain ⟨hitem, hitems, hget⟩ : (command.name.key == "item") = false ∧
      (command.name.key == "items") = false ∧ (command.name.key == "get") = false := by
    simpa [Target.reserved] using hname
  cases target with
  | list items =>
    simp only [handleTarget, handleList, hitem, hitems, Bool.false_eq_true, if_false]
  | record record =>
    simp only [handleTarget, handleRecord, hget, Bool.false_eq_true, if_false]
  | frame environment => rfl

/-- A frame as a target joins a handler to the scope it was found in. -/
theorem lookup_of_get {environment : Environment} {name : Name} {handler : Handler}
    (h : (Target.frame environment).get store name = .ok value) (hvalue : value.IsHandler handler) :
    ∃ found owner, environment.lookup store name = .ok (some (found, owner)) ∧
      found.IsHandler handler := by
  rw [Target.get] at h
  cases hlookup : environment.lookup store name with
  | error problem =>
    rw [hlookup] at h
    cases h
  | ok result =>
    rw [hlookup] at h
    match result, h with
    | some (found, owner), h =>
      refine ⟨found, owner, rfl, ?_⟩
      cases found with
      | handler given =>
        cases h
        cases hvalue with
        | closure => exact .handler
      | _ =>
        cases h
        exact hvalue

theorem handleTarget_found (hname : command.name.key ∉ Target.reserved)
    (h : target.get store command.name = .ok value)
    (hvalue : value.IsHandler (.primitive id interface body)) :
    handleTarget e command caller wanted target store =
      callHandler e command caller caller wanted (.primitive id interface body) store := by
  have hreceiver : (Scope.receiver target).lookup store command.name =
      .ok (some (value, .receiver target)) := by
    rw [Scope.lookup, h]
    rfl
  rw [handleTarget_eq hname]
  cases target with
  | frame environment =>
    obtain ⟨found, owner, hlookup, hfound⟩ := lookup_of_get h hvalue
    have hlookup : (Scope.frame environment).lookup store command.name =
        .ok (some (found, owner)) := by
      rw [Scope.lookup, hlookup]
    rw [handleByName_found hlookup, callFound_primitive hfound]
  | list items => rw [handleByName_found hreceiver, callFound_primitive hvalue]
  | record record => rw [handleByName_found hreceiver, callFound_primitive hvalue]

/-- A target that has no such attribute does not know the name. -/
theorem handleTarget_absent (hname : command.name.key ∉ Target.reserved)
    (h : orAbsent command.name (target.get store command.name) = .ok none) :
    ∃ problem, handleTarget e command caller wanted target store = .failed problem store ∧
      problem.isUnknownName command.name = true := by
  have hnone {receiver : Scope} (hlookup : receiver.lookup store command.name = .ok none) :
      ∃ problem, handleByName e command caller receiver wanted store = .failed problem store ∧
        problem.isUnknownName command.name = true := by
    refine ⟨_, ?_, isUnknownName_self command.name⟩
    simp only [handleByName, Eval.bind_apply, Eval.lookup, hlookup]
    rfl
  have hreceiver : (Scope.receiver target).lookup store command.name = .ok none := by
    rw [Scope.lookup, h]
    rfl
  rw [handleTarget_eq hname]
  cases target with
  | frame environment =>
    rw [Target.get] at h
    cases hlookup : environment.lookup store command.name with
    | error problem =>
      rw [hlookup] at h
      refine ⟨problem, ?_, ?_⟩
      · simp only [handleByName, Eval.bind_apply, Eval.lookup, Scope.lookup, hlookup]
        rfl
      · simp only [orAbsent] at h
        split at h
        next hunknown => exact hunknown
        next => cases h
    | ok result =>
      rw [hlookup] at h
      cases result with
      | none => exact hnone (by rw [Scope.lookup, hlookup])
      | some found =>
        obtain ⟨found, owner⟩ := found
        cases found <;> cases h
  | list items => exact hnone hreceiver
  | record record => exact hnone hreceiver

end Found

theorem get_of_orAbsent {name : Name} {given : Except EvalError Value}
    (h : orAbsent name given = .ok (some value)) : given = .ok value := by
  cases given with
  | ok found =>
    cases h
    rfl
  | error problem =>
    simp only [orAbsent] at h
    split at h
    next => cases h
    next => cases h

/-- A command goes to the primitive handler that its name stands for, whatever scope it is in. -/
theorem handle_found (hname : command.name.key ∉ Target.reserved)
    (hvalue : value.IsHandler (.primitive id interface body)) :
    ∀ {scope owner : Scope}, scope.lookup store command.name = .ok (some (value, owner)) →
      handle (evaluator fuel) command caller .expression scope store =
        callHandler (evaluator fuel) command caller caller .expression
          (.primitive id interface body) store
  | .frame environment, owner, h => by
    rw [handle, handleByName_found h, callFound_primitive hvalue]
  | .receiver target, owner, h => by
    rw [Scope.lookup] at h
    split at h
    next found hfound =>
      cases found with
      | none => cases h
      | some found =>
        cases h
        exact handleTarget_found hname (get_of_orAbsent hfound) hvalue
    next => cases h
  | .tell target parent, owner, h => by
    rw [handle]
    rw [Scope.lookup] at h
    split at h
    next found hfound =>
      cases h
      -- The target answers, and no error of the handler passes for an unknown name.
      have htarget : handleTarget (evaluator fuel) command caller .expression target store =
          callHandler (evaluator fuel) command caller caller .expression
            (.primitive id interface body) store :=
        handleTarget_found hname (get_of_orAbsent hfound) hvalue
      simp only [Eval.recover, htarget]
      exact (callPrimitive_known command.name caller).recover_eq trivial
    next hfound =>
      obtain ⟨problem, htarget, hunknown⟩ :
          ∃ problem, handleTarget (evaluator fuel) command caller .expression target store =
              .failed problem store ∧ problem.isUnknownName command.name = true :=
        handleTarget_absent hname hfound
      simp only [Eval.recover, htarget, hunknown, if_true]
      exact handle_found hname hvalue h
    next => cases h

end Evaluation

/-! ## Handlers of the library -/

theorem Library.name_not_reserved : ∀ definition ∈ Library.handlers,
    definition.interface.name.key ∉ Target.reserved := by
  decide

namespace Evaluation

variable {fuel : Nat} {command : Command} {caller scope : Scope} {store after : Store}
  {interface : Interface} {body : Primitive}

/-- A name stands for the library's handler with a given body. -/
def StandsFor (scope : Scope) (store : Store) (name : Name) (body : Primitive) : Prop :=
  ∃ definition ∈ Library.handlers, definition.body = body ∧
    name.key = definition.interface.name.key ∧
    ∃ id value owner, scope.lookup store name = .ok (some (value, owner)) ∧
      value.IsHandler (.primitive id definition.interface definition.body)

/-- A command that stands for a handler of the library is a call of it. -/
theorem run_standsFor (h : StandsFor scope store command.name body) :
    ∃ definition ∈ Library.handlers, definition.body = body ∧
      run (fuel + 2) (.command command) scope store = (do
        let values ← bindArguments (evaluator (fuel + 1)) definition.interface command scope false
        (perform (evaluator (fuel + 1)) ⟨command, scope, values⟩ body).causing
          (handlerFailure definition.interface.name command)) store := by
  obtain ⟨definition, hmem, rfl, hkey, id, value, owner, hlookup, hvalue⟩ := h
  have hname : command.name.key ∉ Target.reserved :=
    hkey ▸ Library.name_not_reserved definition hmem
  refine ⟨definition, hmem, rfl, (handle_found hname hvalue hlookup).trans ?_⟩
  rw [callHandler]
  refine congrFun (congrArg (Bind.bind _) (funext fun values => ?_)) store
  exact Eval.bind_pure _

/-! ## Arguments for two parameters -/

/-- All arguments go to parameters, which get these values. -/
structure Passes (parameters : List Parameter) (arguments : List Argument) (values : List Value) :
    Prop where
  /-- All arguments are at the front. -/
  front : FrontFits parameters arguments arguments.length
  /-- The values. -/
  values_eq : (supplied parameters arguments arguments.length).map Prod.snd = values

/-- Two arguments without labels go to two parameters. -/
theorem passes_pair (first second : Parameter) (a b : Value) :
    Passes [first, second] [⟨none, a⟩, ⟨none, b⟩] [a, b] :=
  ⟨⟨Nat.le_refl _, Nat.le_refl _, .cons nofun (.cons nofun .nil)⟩, rfl⟩

/-- What two parameters get. -/
theorem FrontFits.exists_pair {first second : Parameter} {arguments : List Argument} {count : Nat}
    (h : FrontFits [first, second] arguments count) :
    ∃ a b, supplied [first, second] arguments count = [(first, a), (second, b)] := by
  have hparameters := h.supplied_fst
  match supplied [first, second] arguments count, hparameters with
  | [(_, a), (_, b)], rfl => exact ⟨a, b, rfl⟩

/-- The two parameters of a handler have values if no argument is left over and what they get is
coerced. -/
theorem bindArguments_pair {e : Evaluator} {first second : Parameter} {values : List Value}
    (h : interface.parameters = [first, second]) :
    bindArguments e interface command caller false store = .done values after ↔
      ∃ a b v w between, Passes [first, second] command.arguments [a, b] ∧
        e.coerce first.coercion a caller store = .done v between ∧
        e.coerce second.coercion b caller between = .done w after ∧ values = [v, w] := by
  rw [bindArguments_iff_binds]
  have hfits := frontFits_frontLength interface.parameters command.arguments
  constructor
  · intro hbinds
    cases hbinds with
    | bound hall hcount =>
      -- The front is as long as it can be, and here that is all there is.
      rw [hcount.resolve_right Bool.false_ne_true, h] at hall hfits
      obtain ⟨a, b, hsupplied⟩ := hfits.exists_pair
      rw [hsupplied] at hall
      cases hall with
      | cons hfirst hrest =>
        cases hrest with
        | cons hsecond hend =>
          cases hend
          exact ⟨a, b, _, _, _, ⟨hfits, by rw [hsupplied]; rfl⟩, hfirst, hsecond, rfl⟩
  · rintro ⟨a, b, v, w, between, ⟨hfront, hvalues⟩, hfirst, hsecond, rfl⟩
    have hcount : frontLength interface.parameters command.arguments = command.arguments.length :=
      Nat.le_antisymm hfits.le_arguments (h ▸ hfront).le_frontLength
    obtain ⟨a', b', hsupplied⟩ := hfront.exists_pair
    rw [hsupplied] at hvalues
    cases hvalues
    refine .bound ?_ (.inl hcount)
    rw [hcount, h, hsupplied]
    exact .cons hfirst (.cons hsecond .nil)

end Evaluation

end CommandScript
