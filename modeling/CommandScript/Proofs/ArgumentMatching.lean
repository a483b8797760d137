import Mathlib.Data.List.Forall2
import Mathlib.Order.Bounds.Defs
import Mathlib.Tactic.SplitIfs
import CommandScript.Evaluation.Arguments
import CommandScript.Proofs.Ensures

/-!
# Matching arguments

Arguments are matched at the front only.  Each of the first ones goes to the parameter at its own
position, up to the first that does not fit there.  That one and the rest are left over, and the
parameters from there on get nothing.

The parameters are coerced in order, with what they get, until a coercion fails.  What is left over
is never evaluated.  It is an error if all coercions succeed, except for event handlers.
-/

namespace CommandScript.Evaluation

variable {e : Evaluator} {caller : Scope} {parameter : Parameter} {parameters : List Parameter}
  {argument : Argument} {arguments : List Argument} {count : Nat} {store : Store}

/-! ## The front -/

/-- The first arguments, as many as given, have no label or that of the parameter at their own
position. -/
structure FrontFits (parameters : List Parameter) (arguments : List Argument) (count : Nat) :
    Prop where
  /-- There are as many parameters. -/
  le_parameters : count ≤ parameters.length
  /-- There are as many arguments. -/
  le_arguments : count ≤ arguments.length
  /-- A label is that of the parameter, up to case. -/
  fits : List.Forall₂
    (fun argument parameter => ∀ label ∈ argument.label, label.key = parameter.label.key)
    (arguments.take count) (parameters.take count)

/-- An argument can go to a parameter if it has no label or the parameter's. -/
theorem argumentFits_iff : argumentFits argument parameter = true ↔
    ∀ label ∈ argument.label, label.key = parameter.label.key := by
  unfold argumentFits
  cases argument.label with
  | none => simp
  | some label => simp

theorem FrontFits.zero (parameters : List Parameter) (arguments : List Argument) :
    FrontFits parameters arguments 0 :=
  ⟨Nat.zero_le _, Nat.zero_le _, .nil⟩

/-- A front fits if its first argument does and so do the others. -/
theorem frontFits_cons_succ :
    FrontFits (parameter :: parameters) (argument :: arguments) (count + 1) ↔
      argumentFits argument parameter = true ∧ FrontFits parameters arguments count := by
  rw [argumentFits_iff]
  constructor
  · rintro ⟨hparameters, harguments, hfits⟩
    obtain ⟨hfirst, hrest⟩ := List.forall₂_cons.1 hfits
    exact ⟨hfirst, Nat.le_of_succ_le_succ hparameters, Nat.le_of_succ_le_succ harguments, hrest⟩
  · rintro ⟨hfirst, hparameters, harguments, hrest⟩
    exact ⟨Nat.succ_le_succ hparameters, Nat.succ_le_succ harguments, .cons hfirst hrest⟩

/-- How many arguments are matched. -/
def frontLength : List Parameter → List Argument → Nat
  | parameter :: parameters, argument :: arguments =>
    if argumentFits argument parameter then frontLength parameters arguments + 1 else 0
  | _, _ => 0

/-- The front that is measured fits. -/
theorem frontFits_frontLength :
    ∀ parameters arguments, FrontFits parameters arguments (frontLength parameters arguments)
  | [], _ => .zero _ _
  | _ :: _, [] => .zero _ _
  | parameter :: parameters, argument :: arguments => by
    rw [frontLength]
    split_ifs with hfits
    · exact frontFits_cons_succ.2 ⟨hfits, frontFits_frontLength parameters arguments⟩
    · exact .zero _ _

/-- No longer front fits. -/
theorem FrontFits.le_frontLength :
    ∀ {parameters arguments count}, FrontFits parameters arguments count →
      count ≤ frontLength parameters arguments
  | _, _, 0, _ => Nat.zero_le _
  | [], _, _ + 1, h => absurd h.le_parameters (Nat.not_succ_le_zero _)
  | _ :: _, [], _ + 1, h => absurd h.le_arguments (Nat.not_succ_le_zero _)
  | parameter :: parameters, argument :: arguments, count + 1, h => by
    obtain ⟨hfits, hrest⟩ := frontFits_cons_succ.1 h
    rw [frontLength, if_pos hfits]
    exact Nat.succ_le_succ hrest.le_frontLength

/-! ## What the parameters get -/

/-- The parameters, each with what it gets: an argument for the first ones, as many as given, and
nothing for the others. -/
def supplied (parameters : List Parameter) (arguments : List Argument) (count : Nat) :
    List (Parameter × Value) :=
  (parameters.take count).zip ((arguments.take count).map Argument.value) ++
    (parameters.drop count).map fun parameter => (parameter, .nothing)

/-- Every parameter gets something, in order. -/
theorem FrontFits.supplied_fst (h : FrontFits parameters arguments count) :
    (supplied parameters arguments count).map Prod.fst = parameters := by
  have hlength : (parameters.take count).length ≤ ((arguments.take count).map
      Argument.value).length := by
    have hparameters := h.le_parameters
    have harguments := h.le_arguments
    simp only [List.length_map, List.length_take]
    omega
  have hrest : (parameters.drop count).map
      (Prod.fst ∘ fun parameter => (parameter, Value.nothing)) = parameters.drop count :=
    List.map_id _
  rw [supplied, List.map_append, List.map_fst_zip hlength, List.map_map, hrest,
    List.take_append_drop]

/-- What a parameter gets, coerced. -/
def coerceSupplied (e : Evaluator) (handler : Name) (caller : Scope) (pair : Parameter × Value) :
    Eval Value :=
  (e.coerce pair.1.coercion pair.2 caller).mapError
    (.caused (.badArgument handler.text pair.1.label.text pair.2))

variable {handler : Name}

/-- Once an argument did not fit, no parameter gets one. -/
theorem bindParameters_unmatched (parameters : List Parameter) (arguments : List Argument) :
    bindParameters e handler caller parameters false arguments = (do
      let values ← Eval.forEach (coerceSupplied e handler caller) (supplied parameters arguments 0)
      return (values, arguments)) := by
  induction parameters with
  | nil => rfl
  | cons parameter parameters ih =>
    have hnext : nextArgument parameter false arguments = (.nothing, arguments, false) := by
      cases arguments with
      | nil => rfl
      | cons argument rest => rfl
    rw [bindParameters, hnext]
    change _ = (Eval.forEach (coerceSupplied e handler caller)
      ((parameter, .nothing) :: supplied parameters arguments 0) >>= _)
    simp only [ih, Eval.forEach, Eval.bind_assoc, Eval.pure_bind]
    rfl

/-- The parameters are coerced in order, with what they get, and the arguments behind the front are
left over. -/
theorem bindParameters_eq (parameters : List Parameter) (arguments : List Argument) :
    bindParameters e handler caller parameters true arguments = (do
      let values ← Eval.forEach (coerceSupplied e handler caller)
        (supplied parameters arguments (frontLength parameters arguments))
      return (values, arguments.drop (frontLength parameters arguments))) := by
  induction parameters generalizing arguments with
  | nil => rfl
  | cons parameter parameters ih =>
    cases arguments with
    | nil => exact bindParameters_unmatched (parameter :: parameters) []
    | cons argument arguments =>
      cases hfits : argumentFits argument parameter with
      | false =>
        have hnext : nextArgument parameter true (argument :: arguments) =
            nextArgument parameter false (argument :: arguments) := by
          simp only [nextArgument, hfits, Bool.and_false]
        have hlength : frontLength (parameter :: parameters) (argument :: arguments) = 0 := by
          simp only [frontLength, hfits, Bool.false_eq_true, if_false]
        rw [hlength, bindParameters, hnext]
        exact bindParameters_unmatched (parameter :: parameters) (argument :: arguments)
      | true =>
        have hnext : nextArgument parameter true (argument :: arguments) =
            (argument.value, arguments, true) := by
          simp only [nextArgument, hfits, Bool.and_self, if_true]
        have hlength : frontLength (parameter :: parameters) (argument :: arguments) =
            frontLength parameters arguments + 1 := by
          simp only [frontLength, hfits, if_true]
        rw [hlength, bindParameters, hnext]
        change _ = (Eval.forEach (coerceSupplied e handler caller)
          ((parameter, argument.value) ::
            supplied parameters arguments (frontLength parameters arguments)) >>= _)
        simp only [ih, Eval.forEach, Eval.bind_assoc, Eval.pure_bind, List.drop_succ_cons]
        rfl

/-! ## How the coercions end -/

/-- All coercions succeed. -/
inductive Coerces (e : Evaluator) (caller : Scope) :
    List (Parameter × Value) → Store → List Value → Store → Prop where
  | nil {store : Store} : Coerces e caller [] store [] store
  | cons {parameter : Parameter} {code value : Value} {pairs : List (Parameter × Value)}
      {values : List Value} {store between after : Store} :
      e.coerce parameter.coercion code caller store = .done value between →
      Coerces e caller pairs between values after →
      Coerces e caller ((parameter, code) :: pairs) store (value :: values) after

/-- How matching ends, if that many arguments are at the front. -/
inductive Binds (e : Evaluator) (interface : Interface) (command : Command) (caller : Scope)
    (isEvent : Bool) (count : Nat) (store : Store) : Outcome (List Value) → Prop where
  /-- All coercions succeed and no argument is left over, or it does not matter. -/
  | bound {values : List Value} {after : Store} :
      Coerces e caller (supplied interface.parameters command.arguments count) store values after →
      count = command.arguments.length ∨ isEvent = true →
      Binds e interface command caller isEvent count store (.done values after)
  /-- All coercions succeed, but there are more arguments. -/
  | unrecognized {values : List Value} {after : Store} :
      Coerces e caller (supplied interface.parameters command.arguments count) store values after →
      count ≠ command.arguments.length → isEvent = false →
      Binds e interface command caller isEvent count store
        (.failed (.of (.unrecognizedArgument interface.name.text interface.parameters.length
          command.arguments.length (commandText command after))) after)
  /-- The first coercions succeed and the next one fails. -/
  | badArgument {front back : List (Parameter × Value)} {parameter : Parameter} {code : Value}
      {values : List Value} {between after : Store} {cause : EvalError} :
      supplied interface.parameters command.arguments count =
        front ++ (parameter, code) :: back →
      Coerces e caller front store values between →
      e.coerce parameter.coercion code caller between = .failed cause after →
      Binds e interface command caller isEvent count store
        (.failed (.caused (.badArgument interface.name.text parameter.label.text code) cause) after)
  /-- The first coercions succeed and the next one runs out of fuel. -/
  | outOfFuel {front back : List (Parameter × Value)} {parameter : Parameter} {code : Value}
      {values : List Value} {between : Store} :
      supplied interface.parameters command.arguments count =
        front ++ (parameter, code) :: back →
      Coerces e caller front store values between →
      e.coerce parameter.coercion code caller between = .outOfFuel →
      Binds e interface command caller isEvent count store .outOfFuel

variable {pairs front back : List (Parameter × Value)} {values : List Value} {between after : Store}
  {code : Value} {cause : EvalError}

theorem coerceSupplied_done {value : Value}
    (h : e.coerce parameter.coercion code caller store = .done value after) :
    coerceSupplied e handler caller (parameter, code) store = .done value after := by
  simp only [coerceSupplied, Eval.mapError, h]

theorem coerceSupplied_failed
    (h : e.coerce parameter.coercion code caller store = .failed cause after) :
    coerceSupplied e handler caller (parameter, code) store =
      .failed (.caused (.badArgument handler.text parameter.label.text code) cause) after := by
  simp only [coerceSupplied, Eval.mapError, h]

theorem coerceSupplied_outOfFuel
    (h : e.coerce parameter.coercion code caller store = .outOfFuel) :
    coerceSupplied e handler caller (parameter, code) store = .outOfFuel := by
  simp only [coerceSupplied, Eval.mapError, h]

/-- Coercions that succeed in turn succeed as a loop. -/
theorem Coerces.forEach (h : Coerces e caller pairs store values after) :
    Eval.forEach (coerceSupplied e handler caller) pairs store = .done values after := by
  induction h with
  | nil => rfl
  | cons hvalue _ ih =>
    exact (Eval.bind_done (coerceSupplied_done hvalue)).trans (Eval.bind_done ih)

/-- The coercions succeed, or one of them is the first that does not. -/
theorem coerces_or_stops (pairs : List (Parameter × Value)) (store : Store) :
    (∃ values after, Coerces e caller pairs store values after) ∨
    ∃ front parameter code back values between, pairs = front ++ (parameter, code) :: back ∧
      Coerces e caller front store values between ∧
      ((∃ cause after, e.coerce parameter.coercion code caller between = .failed cause after) ∨
        e.coerce parameter.coercion code caller between = .outOfFuel) := by
  induction pairs generalizing store with
  | nil => exact .inl ⟨_, _, .nil⟩
  | cons pair pairs ih =>
    obtain ⟨parameter, code⟩ := pair
    cases hfirst : e.coerce parameter.coercion code caller store with
    | done value between =>
      rcases ih between with ⟨values, after, hrest⟩ |
        ⟨front, p, c, back, values, b, rfl, hfront, hstop⟩
      · exact .inl ⟨_, _, .cons hfirst hrest⟩
      · exact .inr ⟨(parameter, code) :: front, p, c, back, _, b, rfl, .cons hfirst hfront, hstop⟩
    | failed cause after =>
      exact .inr ⟨[], parameter, code, pairs, _, store, rfl, .nil, .inl ⟨_, _, hfirst⟩⟩
    | outOfFuel =>
      exact .inr ⟨[], parameter, code, pairs, _, store, rfl, .nil, .inr hfirst⟩

variable {interface : Interface} {command : Command} {isEvent : Bool}

/-- For every front there is an outcome. -/
theorem binds_exists (count : Nat) (store : Store) :
    ∃ outcome, Binds e interface command caller isEvent count store outcome := by
  rcases coerces_or_stops (supplied interface.parameters command.arguments count) store with
    ⟨values, after, hall⟩ |
    ⟨front, parameter, code, back, values, between, hsplit, hfront, ⟨cause, after, hfails⟩ | hfuel⟩
  · by_cases hbound : count = command.arguments.length ∨ isEvent = true
    · exact ⟨_, .bound hall hbound⟩
    · obtain ⟨hcount, hevent⟩ := not_or.1 hbound
      exact ⟨_, .unrecognized hall hcount (Bool.eq_false_iff.2 hevent)⟩
  · exact ⟨_, .badArgument hsplit hfront hfails⟩
  · exact ⟨_, .outOfFuel hsplit hfront hfuel⟩

/-- Nothing is left over if all arguments are at the front. -/
theorem isEmpty_leftOver (h : FrontFits parameters arguments count) :
    (arguments.drop count).isEmpty = true ↔ count = arguments.length := by
  have hcount := h.le_arguments
  rw [List.isEmpty_iff, List.drop_eq_nil_iff]
  omega

/-- The code ends as the longest front that fits says. -/
theorem Binds.bindArguments {outcome : Outcome (List Value)}
    (h : Binds e interface command caller isEvent
      (frontLength interface.parameters command.arguments) store outcome) :
    bindArguments e interface command caller isEvent store = outcome := by
  have hleft := isEmpty_leftOver
    (frontFits_frontLength interface.parameters command.arguments)
  rw [Evaluation.bindArguments, bindParameters_eq, Eval.bind_assoc]
  cases h with
  | @bound values after hall hbound =>
    have hkept : (isEvent || (command.arguments.drop
        (frontLength interface.parameters command.arguments)).isEmpty) = true := by
      rcases hbound with hcount | hevent
      · rw [hleft.2 hcount, Bool.or_true]
      · rw [hevent, Bool.true_or]
    exact (Eval.bind_done hall.forEach).trans (congrFun (if_pos hkept) after)
  | @unrecognized values after hall hcount hevent =>
    have hsurplus : ¬(isEvent || (command.arguments.drop
        (frontLength interface.parameters command.arguments)).isEmpty) = true := by
      rw [hevent, Bool.false_or]
      exact mt hleft.1 hcount
    exact (Eval.bind_done hall.forEach).trans (congrFun (if_neg hsurplus) after)
  | badArgument hsplit hfront hfails =>
    rw [hsplit, Eval.forEach_append]
    exact Eval.bind_failed ((Eval.bind_done hfront.forEach).trans
      (Eval.bind_failed (Eval.bind_failed (coerceSupplied_failed hfails))))
  | outOfFuel hsplit hfront hfuel =>
    rw [hsplit, Eval.forEach_append]
    exact Eval.bind_outOfFuel ((Eval.bind_done hfront.forEach).trans
      (Eval.bind_outOfFuel (Eval.bind_outOfFuel (coerceSupplied_outOfFuel hfuel))))

theorem bindArguments_iff_binds {outcome : Outcome (List Value)} :
    bindArguments e interface command caller isEvent store = outcome ↔
      Binds e interface command caller isEvent
        (frontLength interface.parameters command.arguments) store outcome := by
  constructor
  · rintro rfl
    obtain ⟨actual, hactual⟩ := binds_exists (frontLength interface.parameters command.arguments)
      store
    rwa [hactual.bindArguments]
  · exact Binds.bindArguments

/-- Of the arguments, as many are matched as fit at the front.  How matching ends is told by the
coercions of the parameters, each with what it gets then. -/
theorem bindArguments_eq_iff (e : Evaluator) (interface : Interface) (command : Command)
    (caller : Scope) (isEvent : Bool) :
    ∃ count, IsGreatest {count | FrontFits interface.parameters command.arguments count} count ∧
      (supplied interface.parameters command.arguments count).map Prod.fst =
        interface.parameters ∧
      ∀ store outcome, bindArguments e interface command caller isEvent store = outcome ↔
        Binds e interface command caller isEvent count store outcome := by
  have hfits := frontFits_frontLength interface.parameters command.arguments
  exact ⟨_, ⟨hfits, fun _ h => h.le_frontLength⟩, hfits.supplied_fst, fun _ _ =>
    bindArguments_iff_binds⟩

end CommandScript.Evaluation
