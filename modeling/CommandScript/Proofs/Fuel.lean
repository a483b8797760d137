import CommandScript.Evaluation

/-!
# More fuel

An evaluation is *below* another if it ends as the other does whenever it ends at all.  It may run
out of fuel where the other goes on.

Every rule of evaluation hands on what the evaluator for the values inside does, so the rules for an
evaluator are below those for another above it.  By induction, less fuel is below more.
-/

namespace CommandScript

variable {α β : Type}

/-- An evaluation ends as another does, if it ends at all. -/
def Eval.Below (action other : Eval α) : Prop :=
  ∀ store, action store = .outOfFuel ∨ action store = other store

namespace Eval.Below

theorem refl (action : Eval α) : action.Below action := fun _ => .inr rfl

/-- What is above something above is above. -/
theorem trans {action middle other : Eval α} (h : action.Below middle) (h' : middle.Below other) :
    action.Below other := by
  intro store
  rcases h store with hfuel | hsame
  · exact .inl hfuel
  · rw [hsame]
    exact h' store

/-- An evaluation that ends tells how the other ends. -/
theorem eq {action other : Eval α} {store : Store} (h : action.Below other)
    (hends : action store ≠ .outOfFuel) : other store = action store :=
  ((h store).resolve_left hends).symm

/-- An evaluation without fuel is below all. -/
theorem exhausted (other : Eval α) : Eval.exhausted.Below other := fun _ => .inl rfl

/-- If what comes first is below and so is what comes next, both together are. -/
theorem bind {first first' : Eval α} {next next' : α → Eval β} (h : first.Below first')
    (hnext : ∀ value, (next value).Below (next' value)) :
    (first >>= next).Below (first' >>= next') := by
  intro store
  change Eval.andThen first next store = _ ∨ Eval.andThen first next store =
    Eval.andThen first' next' store
  unfold Eval.andThen
  rcases h store with hfuel | hsame
  · rw [hfuel]
    exact .inl rfl
  · rw [← hsame]
    cases first store with
    | done value after => exact hnext value after
    | failed error after => exact .inr rfl
    | outOfFuel => exact .inl rfl

/-- Only what comes first differs. -/
theorem bindFirst {first first' : Eval α} {next : α → Eval β} (h : first.Below first') :
    (first >>= next).Below (first' >>= next) :=
  bind h fun value => refl (next value)

/-- Only what comes next differs. -/
theorem bindNext {first : Eval α} {next next' : α → Eval β}
    (h : ∀ value, (next value).Below (next' value)) : (first >>= next).Below (first >>= next') :=
  bind (refl first) h

/-- Errors that are retold were the same before. -/
theorem mapError {action other : Eval α} (h : action.Below other)
    (retell : EvalError → EvalError) :
    (Eval.mapError retell action).Below (Eval.mapError retell other) := by
  intro store
  unfold Eval.mapError
  rcases h store with hfuel | hsame
  · rw [hfuel]
    exact .inl rfl
  · rw [← hsame]
    exact .inr rfl

theorem causing {action other : Eval α} (h : action.Below other) (tell : Store → Failure) :
    (Eval.causing tell action).Below (Eval.causing tell other) := by
  intro store
  unfold Eval.causing
  rcases h store with hfuel | hsame
  · rw [hfuel]
    exact .inl rfl
  · rw [← hsame]
    exact .inr rfl

/-- What is done instead may be below too. -/
theorem recover {action other instead instead' : Eval α} (h : action.Below other)
    (hinstead : instead.Below instead') (catches : EvalError → Bool) :
    (Eval.recover catches action instead).Below (Eval.recover catches other instead') := by
  intro store
  unfold Eval.recover
  rcases h store with hfuel | hsame
  · rw [hfuel]
    exact .inl rfl
  · rw [← hsame]
    cases action store with
    | done value after => exact .inr rfl
    | failed error after =>
      dsimp only
      split
      next => exact hinstead after
      next => exact .inr rfl
    | outOfFuel => exact .inl rfl

/-- By induction on the inputs. -/
theorem forEach {action other : α → Eval β} (h : ∀ input, (action input).Below (other input))
    (inputs : List α) : (Eval.forEach action inputs).Below (Eval.forEach other inputs) := by
  induction inputs with
  | nil => exact refl _
  | cons input rest ih => exact bind (h input) fun _ => bindFirst ih

end Eval.Below

/-- An evaluator that does what another does, as far as its fuel goes. -/
structure Evaluator.Below (e other : Evaluator) : Prop where
  /-- It coerces as the other does. -/
  coerce (wanted : Coercion) (value : Value) (scope : Scope) :
    (e.coerce wanted value scope).Below (other.coerce wanted value scope)
  /-- It runs as the other does. -/
  run (value : Value) (scope : Scope) : (e.run value scope).Below (other.run value scope)
  /-- Its loops go round no more often. -/
  rounds : e.rounds ≤ other.rounds

variable {e other : Evaluator}

/-! ## Conversions -/

namespace Evaluation

/-- The items of a collection are left to the evaluator. -/
theorem coerceItem_below (he : e.Below other) (scope : Scope) (wanted : Coercion) (item : Value) :
    (coerceItem e scope wanted item).Below (coerceItem other scope wanted item) :=
  (he.coerce wanted item scope).mapError _

theorem coerceItems_below (he : e.Below other) (scope : Scope) (wanted : Coercion)
    (items : List Value) :
    (coerceItems e scope wanted items).Below (coerceItems other scope wanted items) :=
  .forEach (coerceItem_below he scope wanted) items

/-- A record hands on its keys and its values. -/
theorem resolve_below (he : e.Below other) (scope : Scope) (wanted : Coercion) (record : Record) :
    (resolve e scope wanted record).Below (resolve other scope wanted record) := by
  cases record with
  | fields entries =>
    refine .bindFirst (.forEach (fun entry => ?_) entries)
    exact .bindFirst (coerceItem_below he scope wanted entry.2)
  | computed pairs =>
    refine .bindFirst (.forEach (fun pair => ?_) pairs)
    refine .bind (coerceItem_below he scope .recordKey pair.1) fun key => .bindNext fun _ => ?_
    exact .bindFirst (coerceItem_below he scope wanted pair.2)

theorem asAnything_below (he : e.Below other) (scope : Scope) (wanted : Coercion) (value : Value) :
    (asAnything e scope wanted value).Below (asAnything other scope wanted value) := by
  cases value with
  | list items => exact .bindFirst (coerceItems_below he scope wanted items)
  | record record => exact .bindFirst (resolve_below he scope wanted record)
  | pair key value => exact .bindFirst (he.coerce wanted value scope)
  | _ => exact .refl _

theorem asList_below (he : e.Below other) (scope : Scope) (item : Coercion) (value : Value) :
    (asList e scope item value).Below (asList other scope item value) := by
  cases value with
  | list items => exact .bindFirst (coerceItems_below he scope item items)
  | record record =>
    refine .bind (resolve_below he scope .anything record) fun resolved => ?_
    exact .bindFirst (coerceItems_below he scope item _)
  | _ => exact .bindFirst (coerceItem_below he scope item _)

theorem asRecord_below (he : e.Below other) (scope : Scope) (field : Coercion) (value : Value) :
    (asRecord e scope field value).Below (asRecord other scope field value) := by
  cases value with
  | record record => exact .bindFirst (resolve_below he scope field record)
  | list items =>
    cases items with
    | nil => exact .refl _
    | cons _ _ => exact .refl _
  | _ => exact .refl _

/-- Only a record whose keys are computed asks the evaluator for anything. -/
theorem asTarget_below (he : e.Below other) (scope : Scope) (value : Value) :
    (asTarget e scope value).Below (asTarget other scope value) := by
  cases value with
  | record record =>
    cases record with
    | fields entries => exact .refl _
    | computed pairs => exact .bindFirst (resolve_below he scope .anything _)
  | _ => exact .refl _

/-! ## Arguments -/

/-- Arguments are matched without fuel, and only coercing them needs some. -/
theorem bindParameters_below (he : e.Below other) (handler : Name) (caller : Scope)
    (parameters : List Parameter) (matching : Bool) (arguments : List Argument) :
    (bindParameters e handler caller parameters matching arguments).Below
      (bindParameters other handler caller parameters matching arguments) := by
  induction parameters generalizing matching arguments with
  | nil => exact .refl _
  | cons parameter parameters ih =>
    refine .bind ((he.coerce _ _ caller).mapError _) fun value => ?_
    exact .bindFirst (ih _ _)

theorem bindArguments_below (he : e.Below other) (interface : Interface) (command : Command)
    (caller : Scope) (isEvent : Bool) :
    (bindArguments e interface command caller isEvent).Below
      (bindArguments other interface command caller isEvent) :=
  .bindFirst (bindParameters_below he _ _ _ _ _)

/-! ## Host values -/

/-- A bridge asks the evaluator for the value that it unboxes. -/
theorem unboxCoercion_below (he : e.Below other) (scope : Scope) (given : Value) :
    (Bridge.unboxCoercion e scope given).Below (Bridge.unboxCoercion other scope given) :=
  .bindFirst (he.coerce .coercion given scope)

theorem unboxParameter_below (he : e.Below other) (scope : Scope) (given : Value) :
    (Bridge.unboxParameter e scope given).Below (Bridge.unboxParameter other scope given) := by
  refine .bind (he.coerce .value given scope) fun found => ?_
  split
  next => exact .refl _
  next => exact .bindNext fun _ => .bindFirst (unboxCoercion_below he scope _)
  next => exact .bindNext fun _ => .bindNext fun _ => .bindFirst (unboxCoercion_below he scope _)
  next => exact .refl _
  next => exact .refl _

/-- By induction on the bridge, for the bridges inside it. -/
theorem unbox_below (he : e.Below other) (scope : Scope) (bridge : Bridge) (given : Value) :
    (bridge.unbox e scope given).Below (bridge.unbox other scope given) := by
  induction bridge generalizing given with
  | bool | text | scalar | integer | real | tag => exact .bindFirst (he.coerce _ given scope)
  | value => exact he.coerce .value given scope
  | expression => exact .refl _
  | coercion => exact unboxCoercion_below he scope given
  | reference => exact .bindFirst (he.coerce .reference given scope)
  | parameter => exact unboxParameter_below he scope given
  | optional inner ih => exact .recover (.bindFirst (ih given)) (.refl _) _
  | list item ih =>
    refine .bind (he.coerce _ given scope) fun found => ?_
    split
    next items => exact .forEach (fun value => (ih value).mapError _) items
    next => exact .refl _

theorem read_below (he : e.Below other) (call : Call) {bridge : Bridge} {index : Nat} :
    (call.read e bridge index).Below (call.read other bridge index) :=
  .bindNext fun value => unbox_below he call.caller bridge value

/-! ## Primitive handlers -/

/-- A loop with a fixed number of rounds needs no fuel of its own. -/
theorem repeatLoop_below {action action' : Eval Value} (h : action.Below action') (count : Nat)
    (last : Value) : (repeatLoop action count last).Below (repeatLoop action' count last) := by
  induction count generalizing last with
  | zero => exact .refl _
  | succ count ih => exact .bind h fun answer => ih answer

/-- A loop with a condition takes its rounds from the fuel, and may have more of them above. -/
theorem whileLoop_below {condition condition' : Eval Bool} {action action' : Eval Value}
    {rounds rounds' : Nat} (hcondition : condition.Below condition') (h : action.Below action')
    (hrounds : rounds ≤ rounds') (last : Value) :
    (whileLoop condition action rounds last).Below (whileLoop condition' action' rounds' last) := by
  induction rounds generalizing rounds' last with
  | zero => exact .exhausted _
  | succ rounds ih =>
    obtain ⟨rounds', rfl⟩ := Nat.exists_eq_succ_of_ne_zero (by omega : rounds' ≠ 0)
    refine .bind hcondition fun holds => ?_
    split
    next => exact .bind h fun answer => ih (Nat.le_of_succ_le_succ hrounds) answer
    next => exact .refl _

theorem storeValue_below (he : e.Below other) (call : Call) :
    (storeValue e call).Below (storeValue other call) := by
  have hread {bridge : Bridge} {index : Nat} :
      (call.read e bridge index).Below (call.read other bridge index) := read_below he call
  refine .bind hread fun name => .bind hread fun value => ?_
  exact .bindFirst hread

theorem defineHandler_below (he : e.Below other) (call : Call) :
    (defineHandler e call).Below (defineHandler other call) := by
  have hread {bridge : Bridge} {index : Nat} :
      (call.read e bridge index).Below (call.read other bridge index) := read_below he call
  refine .bind hread fun text => .bind hread fun found => ?_
  refine .bind hread fun returns => .bind hread fun action => ?_
  exact .bindFirst hread

theorem collect_below (he : e.Below other) (call : Call) (index : Nat)
    (reads : List (Option Bridge)) :
    (collect e call index reads).Below (collect other call index reads) := by
  induction reads generalizing index with
  | nil => exact .refl _
  | cons read reads ih =>
    refine .bind ?_ fun value => .bindFirst (ih (index + 1))
    cases read with
    | none => exact .refl _
    | some bridge => exact .bindFirst (read_below he call)

/-- A primitive handler hands on what its loops and its parameters do. -/
theorem perform_below (he : e.Below other) (call : Call) (primitive : Primitive) :
    (perform e call primitive).Below (perform other call primitive) := by
  have hread {bridge : Bridge} {index : Nat} :
      (call.read e bridge index).Below (call.read other bridge index) := read_below he call
  cases primitive with
  | number _ | testNumbers _ | testTexts _ | logic _ | join =>
    exact .bind hread fun _ => .bindFirst hread
  | positive | negative | not | uppercase | lowercase | count => exact .bindFirst hread
  | «show» | formatCode => exact .refl _
  | ifThen =>
    refine .bind hread fun condition => .bind hread fun action => ?_
    split
    next => exact he.coerce .anything action call.caller
    next => exact .refl _
  | orElse =>
    refine .bind hread fun action => .bind hread fun instead => ?_
    refine .bind (he.run action call.caller) fun answer => ?_
    split
    next => exact he.coerce .anything instead call.caller
    next => exact .refl _
  | repeatTimes =>
    refine .bind hread fun count => .bind hread fun action => ?_
    exact repeatLoop_below (he.coerce .anything action call.caller) _ _
  | whileDo =>
    refine .bind hread fun condition => .bind hread fun action => ?_
    exact whileLoop_below (unbox_below he call.caller .bool condition)
      (he.coerce .anything action call.caller) he.rounds _
  | tell =>
    refine .bind hread fun reference => .bind hread fun action => ?_
    exact he.coerce .anything action _
  | store => exact storeValue_below he call
  | defineHandler => exact defineHandler_below he call
  | coerce =>
    refine .bind hread fun value => .bind hread fun wanted => ?_
    exact he.coerce wanted value call.caller
  | isA =>
    refine .bind hread fun value => .bind hread fun wanted => ?_
    exact .recover (.bindFirst (he.coerce wanted value call.caller)) (.refl _) _
  | collect reads => exact .bindFirst (collect_below he call 0 reads)

/-! ## Commands -/

/-- A handler evaluates its body in a frame of its own, which is the same above. -/
theorem callHandler_below (he : e.Below other) (command : Command) (caller owner : Scope)
    (wanted : Coercion) (handler : Handler) :
    (callHandler e command caller owner wanted handler).Below
      (callHandler other command caller owner wanted handler) := by
  cases handler with
  | native id interface action isEvent =>
    refine .bind (bindArguments_below he _ _ _ _) fun values => ?_
    refine .bindNext fun body => .bindNext fun _ => ?_
    refine .bind ((he.coerce _ action _).causing _) fun answer => ?_
    exact he.coerce wanted answer caller
  | primitive id interface body =>
    refine .bind (bindArguments_below he _ _ _ _) fun values => ?_
    refine .bind ((perform_below he _ body).causing _) fun answer => ?_
    exact he.coerce wanted answer caller

/-- Whatever is called, the evaluator is asked for the same values. -/
theorem callFound_below (he : e.Below other) (command : Command) (caller owner : Scope)
    (wanted : Coercion) (callee : Value) :
    (callFound e command caller owner wanted callee).Below
      (callFound other command caller owner wanted callee) := by
  have hself : (e.coerce wanted callee caller).Below (other.coerce wanted callee caller) :=
    he.coerce wanted callee caller
  cases callee with
  | handler handler => exact callHandler_below he command caller owner wanted handler
  | closure handler scope => exact callHandler_below he command caller scope wanted handler
  | coercion given =>
    simp only [callFound]
    split
    next => exact hself
    next =>
      refine .bind (bindArguments_below he _ _ _ _) fun values => .bindNext fun answer => ?_
      exact he.coerce wanted answer caller
  | _ =>
    simp only [callFound]
    split
    next => exact hself
    next => exact .refl _

/-- Names are looked up without fuel. -/
theorem handleByName_below (he : e.Below other) (command : Command) (caller receiver : Scope)
    (wanted : Coercion) :
    (handleByName e command caller receiver wanted).Below
      (handleByName other command caller receiver wanted) := by
  refine .bindNext fun found => ?_
  split
  next value owner => exact callFound_below he command caller owner wanted value
  next => exact .refl _

theorem indexOf_below (he : e.Below other) (caller : Scope) (argument : Argument) :
    (indexOf e caller argument).Below (indexOf other caller argument) :=
  .bindFirst (he.coerce .anything argument.value caller)

/-- A list has its indexes from the evaluator. -/
theorem handleList_below (he : e.Below other) (command : Command) (caller : Scope)
    (wanted : Coercion) (items : List Value) :
    (handleList e command caller wanted items).Below
      (handleList other command caller wanted items) := by
  unfold handleList
  split
  next =>
    split
    next argument _ =>
      refine .bind (indexOf_below he caller argument) fun index => .bindNext fun answer => ?_
      exact he.coerce wanted answer caller
    next => exact .refl _
  next =>
    split
    next first last _ _ =>
      refine .bind (indexOf_below he caller first) fun start => ?_
      refine .bind (indexOf_below he caller last) fun stop => .bindNext fun answer => ?_
      exact he.coerce wanted _ caller
    next => exact handleByName_below he command caller _ wanted

theorem handleRecord_below (he : e.Below other) (command : Command) (caller : Scope)
    (wanted : Coercion) (record : Record) :
    (handleRecord e command caller wanted record).Below
      (handleRecord other command caller wanted record) := by
  unfold handleRecord
  split
  next =>
    split
    next argument _ =>
      refine .bind (he.coerce .recordKey argument.value caller) fun key => ?_
      exact .bindNext fun answer => he.coerce wanted answer caller
    next => exact .refl _
  next => exact handleByName_below he command caller _ wanted

theorem handleTarget_below (he : e.Below other) (command : Command) (caller : Scope)
    (wanted : Coercion) (target : Target) :
    (handleTarget e command caller wanted target).Below
      (handleTarget other command caller wanted target) := by
  cases target with
  | list items => exact handleList_below he command caller wanted items
  | record record => exact handleRecord_below he command caller wanted record
  | frame environment => exact handleByName_below he command caller _ wanted

/-- By recursion on the scope, through the targets in it. -/
theorem handle_below (he : e.Below other) (command : Command) (caller : Scope) (wanted : Coercion) :
    ∀ scope : Scope, (handle e command caller wanted scope).Below
      (handle other command caller wanted scope)
  | .frame _ => handleByName_below he command caller _ wanted
  | .tell target parent =>
    .recover (handleTarget_below he command caller wanted target)
      (handle_below he command caller wanted parent) _
  | .receiver target => handleTarget_below he command caller wanted target
termination_by structural scope => scope

/-! ## Evaluation -/

/-- By induction on the statements. -/
theorem runStatements_below (he : e.Below other) (scope : Scope) (wanted : Coercion)
    (items : List Value) :
    (runStatements e scope wanted items).Below (runStatements other scope wanted items) := by
  induction items with
  | nil => exact he.coerce wanted .nothing scope
  | cons item items ih =>
    cases items with
    | nil => exact .bind (he.run item scope) fun answer => he.coerce wanted answer scope
    | cons _ _ => exact .bind (he.coerce .anything item scope) fun _ => ih

/-- Code is run, and anything else is left to what comes otherwise. -/
theorem runOr_below (he : e.Below other) (scope : Scope) (wanted : Coercion) (value : Value)
    {otherwise otherwise' : Eval Value} (h : otherwise.Below otherwise') :
    (runOr e scope wanted value otherwise).Below (runOr other scope wanted value otherwise') := by
  cases value with
  | identifier name => exact .bindNext fun found => he.coerce wanted found scope
  | command command => exact handle_below he command scope wanted scope
  | block items => exact runStatements_below he scope wanted items
  | thunk id body captured inner =>
    exact .bind (he.coerce inner body captured) fun answer => he.coerce wanted answer scope
  | _ => exact h

theorem runOrConvert_below (he : e.Below other) (scope : Scope) (wanted : Coercion) (value : Value)
    {convert convert' : Value → Eval Value} (h : (convert value).Below (convert' value)) :
    (runOrConvert e scope wanted value convert).Below
      (runOrConvert other scope wanted value convert') := by
  refine runOr_below he scope wanted value ?_
  split
  next => exact .refl _
  next => exact h

theorem coerceAnything_below (he : e.Below other) (wanted : Coercion) (value : Value)
    (scope : Scope) :
    (coerceAnything e wanted value scope).Below (coerceAnything other wanted value scope) :=
  .recover (.bindFirst (runOrConvert_below he scope wanted value
    (asAnything_below he scope wanted value))) (.refl _) _

/-- All rules of evaluation, one for each coercion. -/
theorem coerceWith_below (he : e.Below other) (wanted : Coercion) (value : Value) (scope : Scope) :
    (coerceWith e wanted value scope).Below (coerceWith other wanted value scope) := by
  cases wanted with
  | expression | «lazy» => exact .refl _
  | anything | value => exact coerceAnything_below he _ value scope
  | optional inner => exact .recover (he.coerce inner value scope) (.refl _) _
  | default fallback inner => exact .recover (he.coerce inner value scope) (.refl _) _
  | noResult => exact .bindFirst (he.coerce .anything value scope)
  | boolean | text | number | real | integer | tag | recordKey | coercion | handler =>
    exact runOrConvert_below he scope _ value (.refl _)
  | list item => exact runOrConvert_below he scope _ value (asList_below he scope item value)
  | record field => exact runOrConvert_below he scope _ value (asRecord_below he scope field value)
  | reference => exact runOr_below he scope _ value (asTarget_below he scope value)

/-- Less fuel is below more. -/
theorem evaluator_below {fuel fuel' : Nat} (h : fuel ≤ fuel') :
    (evaluator fuel).Below (evaluator fuel') := by
  induction fuel generalizing fuel' with
  | zero => exact ⟨fun _ _ _ => .exhausted _, fun _ _ => .exhausted _, h⟩
  | succ fuel ih =>
    obtain ⟨fuel', rfl⟩ := Nat.exists_eq_succ_of_ne_zero (by omega : fuel' ≠ 0)
    have he := ih (Nat.le_of_succ_le_succ h)
    refine ⟨coerceWith_below he, fun value scope => ?_, h⟩
    exact runOr_below he scope .expression value (.refl _)

end Evaluation

end CommandScript
