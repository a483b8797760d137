import CommandScript.Proofs.Soundness

/-!
# Internal errors

A few branches of the evaluator are there for the case that two of its parts disagree: a primitive
handler and its signature, a coercion and the values its parameters are bound to, a bridge and the
coercion in front of it.  They end in an internal error or a mismatch, and none of them is ever
taken.

The parts agree because binding gives one value for each parameter, because the primitive handlers
of the library read no more arguments than they declare, and because coercing is sound.  What the
library declares is a policy.  Under a discipline that has this policy, and that allows every error
except internal ones, no session of an interpreter meets an internal error.
-/

namespace CommandScript

open Eval

namespace Evaluation

/-! ## One value for each parameter -/

/-- Each parameter binds one value, from an argument or from its default. -/
theorem bindParameters_ensures_length (e : Evaluator) (handler : Name) (caller : Scope)
    (parameters : List Parameter) (matching : Bool) (arguments : List Argument) :
    (bindParameters e handler caller parameters matching arguments).Ensures (fun _ => True)
      (fun bound => bound.1.length = parameters.length) anyError := by
  induction parameters generalizing matching arguments with
  | nil => exact .pure rfl
  | cons parameter parameters ih =>
    refine .bind .any fun value _ => ?_
    refine .bind (ih _ _) fun bound hbound => ?_
    exact .pure (congrArg Nat.succ hbound)

/-- A call binds as many values as the interface has parameters. -/
theorem bindArguments_length {e : Evaluator} {interface : Interface} {command : Command}
    {caller : Scope} {isEvent : Bool} {store after : Store} {values : List Value}
    (h : bindArguments e interface command caller isEvent store = .done values after) :
    values.length = interface.parameters.length := by
  have hensures : (bindArguments e interface command caller isEvent).Ensures (fun _ => True)
      (fun values => values.length = interface.parameters.length) anyError := by
    refine .bind (bindParameters_ensures_length _ _ _ _ _ _) fun bound hbound => ?_
    obtain ⟨values, leftOver⟩ := bound
    dsimp only
    split
    next => exact .pure hbound
    next => exact .bind .any fun _ _ => .failWith trivial
  exact (hensures.of_done trivial h).2

/-- A coercion makes something of the values that are bound for it. -/
theorem applyCoercion_of_bound {fuel : Nat} {callee : Coercion} {command : Command}
    {caller : Scope} {isEvent : Bool} {store after : Store} {values : List Value}
    (h : bindArguments (evaluator fuel) callee.interface command caller isEvent store =
      .done values after) :
    ∃ answer, applyCoercion callee values = pure answer := by
  have hbinds : Discipline.free.Keeps (Supplied .free callee.interface.parameters)
      (bindArguments (evaluator fuel) callee.interface command caller isEvent) :=
    bindArguments_keeps (evaluator_respects .free fuel) (Discipline.runsIn_free caller)
      (interface_obeys callee.obeys_free) (Value.command command).obeys_free
  obtain ⟨-, hvalues⟩ := hbinds.of_done trivial h
  obtain ⟨answer, hanswer, -⟩ := applyCoercion_answers hvalues
  exact ⟨answer, hanswer⟩

/-! ## Reading no more than is declared -/

section Append

variable {e : Evaluator} {command : Command} {caller : Scope} {values more : List Value}

/-- A value that is declared is read from its own place. -/
theorem argument_append {index : Nat} (h : index < values.length) :
    Call.argument ⟨command, caller, values ++ more⟩ index =
      Call.argument ⟨command, caller, values⟩ index := by
  unfold Call.argument
  rw [List.getElem?_append_left h]

theorem read_append {b : Bridge} {index : Nat} (h : index < values.length) :
    Call.read e ⟨command, caller, values ++ more⟩ b index =
      Call.read e ⟨command, caller, values⟩ b index := by
  unfold Call.read
  rw [argument_append h]

theorem readThrough_append {read : Option Bridge} {index : Nat} (h : index < values.length) :
    readThrough e ⟨command, caller, values ++ more⟩ index read =
      readThrough e ⟨command, caller, values⟩ index read := by
  cases read with
  | none => exact argument_append h
  | some b => simp only [readThrough, read_append h]

theorem collect_append {reads : List (Option Bridge)} {index : Nat}
    (h : index + reads.length ≤ values.length) :
    collect e ⟨command, caller, values ++ more⟩ index reads =
      collect e ⟨command, caller, values⟩ index reads := by
  induction reads generalizing index with
  | nil => rfl
  | cons read reads ih =>
    rw [List.length_cons] at h
    unfold collect
    rw [readThrough_append (by omega), ih (by omega)]

/-- A primitive handler takes no notice of arguments after those it reads. -/
theorem perform_append {body : Primitive} (h : body.reads ≤ values.length) :
    perform e ⟨command, caller, values ++ more⟩ body = perform e ⟨command, caller, values⟩ body := by
  cases body with
  | collect reads =>
    have hreads : 0 + reads.length ≤ values.length := by simpa [Primitive.reads] using h
    simp only [perform, collect_append hreads]
  | _ =>
    simp only [Primitive.reads] at h
    simp only [perform, computeNumbers, negate, testNumbers, testTexts, mapText, storeValue,
      defineHandler, testCoercion]
    simp (disch := omega) only [read_append, argument_append]

end Append

end Evaluation

/-! ## Bridges behind their coercions -/

namespace Bridge

open Evaluation

/-- A bridge to a host type without parts finds what its coercion promises. -/
theorem unbox_done {b : Bridge} (hb : b ∈ [.bool, .text, .scalar, .integer, .real, .tag, .coercion])
    {fuel : Nat} {given value : Value} {scope : Scope} {store after : Store}
    (h : coerce fuel b.wanted given scope store = .done value after) :
    ∃ host, b.unbox (evaluator fuel) scope given store = .done host after := by
  obtain ⟨-, hshape⟩ := (coerce_ensures_shape fuel b.wanted given scope).of_done trivial h
  -- The host value is made of the coerced value, without touching the store.
  have hfound {next : Value → Eval b.Host} (host : b.Host)
      (hunbox : b.unbox (evaluator fuel) scope given = coerce fuel b.wanted given scope >>= next)
      (hnext : next value = pure host) :
      ∃ host, b.unbox (evaluator fuel) scope given store = .done host after :=
    ⟨host, by rw [hunbox, bind_done h, hnext]; rfl⟩
  cases b with
  | bool =>
    obtain ⟨flag, rfl⟩ := hshape
    exact hfound flag rfl rfl
  | text =>
    obtain ⟨content, rfl⟩ := hshape
    exact hfound content.content rfl rfl
  | scalar =>
    obtain ⟨content, -, rfl, -⟩ := hshape
    exact hfound content.scalar rfl rfl
  | integer =>
    obtain ⟨content, number, radix, rfl, hscalar⟩ := hshape
    exact hfound number rfl (by simp only [hscalar]; rfl)
  | real =>
    obtain ⟨content, number, rfl, hnumber⟩ := hshape
    exact hfound number rfl (by simp only [hnumber]; rfl)
  | tag =>
    obtain ⟨name, rfl⟩ := hshape
    exact hfound name rfl rfl
  | coercion =>
    obtain ⟨host, rfl⟩ := hshape
    exact hfound host rfl rfl
  | _ => simp at hb

end Bridge

/-! ## What the library declares -/

/-- Primitive handlers read no more arguments than their signatures declare. -/
def Policy.declaring : Policy where
  sentinel := True
  home := fun _ => True
  primitive := fun interface body => body.reads ≤ interface.parameters.length

theorem Policy.declaring_allows (store : Store) : Policy.declaring.Allows store :=
  ⟨fun _ => trivial, fun _ => trivial⟩

/-- The library declares every value that its handlers read. -/
theorem Policy.declaring_allowsLibrary : Policy.declaring.AllowsLibrary := by
  change ∀ definition ∈ Library.handlers,
    definition.body.reads ≤ definition.interface.parameters.length
  decide

/-- The runs without internal errors. -/
def Discipline.declaring : Discipline where
  toPolicy := .declaring
  store := Store.Obeys .declaring
  slots := fun h => h
  newId := fun h => Store.Edit.number.obeys h
  print := fun h => Store.Edit.line.obeys h
  newFrame := fun h => Store.Edit.frame.obeys h
  child := fun _ => trivial
  tell := fun _ => trivial
  put := fun h hhome hvalue hput => (Store.Edit.put hhome hvalue hput).obeys h
  define := fun h hhome hvalue hdefine => (Store.Edit.define hhome hvalue hdefine).obeys h
  error := EvalError.NoInternal
  plain := EvalError.Plain.noInternal
  absent := .of rfl
  caused := fun hfailure h => h.caused hfailure
  declares := .inl

/-! ## Sessions -/

namespace Interpreter

open Evaluation

/-- Nothing in the store and nothing behind the globals breaks a policy. -/
structure Obeys (p : Policy) (interpreter : Interpreter) : Prop where
  /-- Nothing in the store does. -/
  store : interpreter.store.Obeys p
  /-- Nothing behind the globals does. -/
  globals : (Scope.frame interpreter.globals).Obeys p

variable {p : Policy} {interpreter before after : Interpreter}

/-- An interpreter on a closed store obeys the policy. -/
theorem obeys_ofRoot {registry : Registry} {root : Nat} {store : Store} (h : store.Closed p root) :
    (ofRoot registry (.root root) store).Obeys p :=
  ⟨h.newFrame.obeys, .frame (.child (.frame .root))⟩

/-- So does a fresh one, with the library loaded. -/
theorem Fresh.obeys (hp : p.AllowsLibrary) (h : interpreter.Fresh) : interpreter.Obeys p := by
  cases h with
  | bare hstore => exact obeys_ofRoot (Store.closed_newRoot hstore)
  | library hstore hload =>
    rw [(withLibrary_eq hload).2]
    exact obeys_ofRoot (Library.load_closed .empty hp (Store.closed_newRoot hstore))

/-- A script leaves the discipline as it found it, and so does a session. -/
theorem Runs.declaring (h : before.Obeys .declaring) (hrun : before.Runs after) :
    after.Obeys .declaring := by
  have hallows := Policy.declaring_allows before.store
  obtain ⟨hedits, hglobals⟩ := hrun.edits hallows h.store h.globals trivial
  exact ⟨hedits.obeys h.store, hglobals ▸ h.globals⟩

theorem Reaches.declaring (h : before.Obeys .declaring) (hreaches : before.Reaches after) :
    after.Obeys .declaring := by
  induction hreaches with
  | refl => exact h
  | tail _ hlast ih => exact hlast.declaring ih

/-- No evaluation under the discipline ends in an internal error. -/
theorem evaluate_noInternal {fuel : Nat} {source : String} {problem : EvalError}
    (h : interpreter.Obeys .declaring)
    (hfailed : interpreter.evaluate fuel source = .failed (.evaluation problem) after) :
    problem.NoInternal := by
  unfold evaluate at hfailed
  split at hfailed
  next => cases hfailed
  next statements hread =>
    have hwanted : Coercion.anything.Obeys .declaring := .simple rfl
    have hblock := Value.Obeys.block (readScript_obeys .declaring hread)
    have hkeeps := (evaluator_respects .declaring fuel).sound hwanted hblock
      ⟨h.globals, trivial⟩
    unfold runScript at hfailed
    split at hfailed
    next => cases hfailed
    next hrun =>
      cases hfailed
      exact (hkeeps.of_failed h.store hrun).2
    next => cases hfailed

/-- No error of a session is internal, with the library or without.  Binding gives one value for
each parameter.  No handler of the library takes notice of more arguments than it declares.  A
coercion that is called makes something of the values of its parameters.  A bridge to a host type
without parts finds what its coercion promises. -/
theorem no_internal_errors :
    (∀ (start reached after : Interpreter) (fuel : Nat) (source : String) (problem : EvalError),
      start.Fresh → start.Reaches reached →
      reached.evaluate fuel source = .failed (.evaluation problem) after → problem.NoInternal) ∧
    (∀ (e : Evaluator) (interface : Interface) (command : Command) (caller : Scope)
      (isEvent : Bool) (store after : Store) (values : List Value),
      bindArguments e interface command caller isEvent store = .done values after →
      values.length = interface.parameters.length) ∧
    (∀ definition ∈ Library.handlers,
      ∀ (e : Evaluator) (command : Command) (caller : Scope) (values more : List Value),
      values.length = definition.interface.parameters.length →
      perform e ⟨command, caller, values ++ more⟩ definition.body =
        perform e ⟨command, caller, values⟩ definition.body) ∧
    (∀ (fuel : Nat) (callee : Coercion) (command : Command) (caller : Scope) (store after : Store)
      (values : List Value),
      bindArguments (evaluator fuel) callee.interface command caller false store =
        .done values after →
      ∃ answer, applyCoercion callee values = pure answer) ∧
    ∀ b ∈ [Bridge.bool, .text, .scalar, .integer, .real, .tag, .coercion],
      ∀ (fuel : Nat) (given value : Value) (scope : Scope) (store after : Store),
      coerce fuel b.wanted given scope store = .done value after →
      ∃ host, b.unbox (evaluator fuel) scope given store = .done host after := by
  refine ⟨fun start reached after fuel source problem hfresh hreaches hfailed => ?_,
    fun _ _ _ _ _ _ _ _ => bindArguments_length,
    fun definition hdefinition e command caller values more hvalues => ?_,
    fun _ _ _ _ _ _ _ => applyCoercion_of_bound,
    fun b hb fuel given value scope store after => Bridge.unbox_done hb⟩
  · have hstart := hfresh.obeys Policy.declaring_allowsLibrary
    exact evaluate_noInternal (hreaches.declaring hstart) hfailed
  · have hdeclares := Policy.declaring_allowsLibrary definition hdefinition
    exact perform_append (hvalues ▸ hdeclares)

/-- A script builds a list type on a number that an earlier script stored.  Then a default type is
called without a type to build on, two values are joined whether or not a third is there, and a
block answers a type. -/
theorem no_internal_errors_wrong_type :
    (∃ start reached after problem,
      standard = .ok start ∧ start.Reaches reached ∧
      reached.evaluate 60 "list(x)" = .failed (.evaluation problem) after ∧
      problem.NoInternal) ∧
    (bindArguments (evaluator 3) (Coercion.default .nothing .anything).interface
        ⟨.ofString "default", [⟨none, .boolean true⟩], none⟩ (.frame (.root 0)) false .silent =
          .done [.boolean true, .coercion .anything] .silent ∧
      [Value.boolean true, .coercion .anything].length =
        (Coercion.default .nothing .anything).interface.parameters.length ∧
      ∃ answer, applyCoercion (.default .nothing .anything)
        [.boolean true, .coercion .anything] = pure answer) ∧
    (∃ definition ∈ Library.handlers, definition.body = .join ∧
      perform (evaluator 3) ⟨⟨.ofString "&", [], none⟩, .frame (.root 0),
        [.boolean true, .nothing] ++ [.boolean false]⟩ definition.body =
      perform (evaluator 3) ⟨⟨.ofString "&", [], none⟩, .frame (.root 0),
        [.boolean true, .nothing]⟩ definition.body) ∧
    coerce 3 .coercion (.block [.coercion .text]) (.frame (.root 0)) .silent =
      .done (.coercion .text) .silent ∧
    ∃ host,
      Bridge.coercion.unbox (evaluator 3) (.frame (.root 0)) (.block [.coercion .text]) .silent =
        .done host .silent := by
  obtain ⟨hsessions, hbinds, hreads, hcalls, hbridges⟩ := no_internal_errors
  refine ⟨?session, ⟨?bound, hbinds _ _ _ _ _ _ _ _ ?bound, hcalls _ _ _ _ _ _ _ ?bound⟩, ?join,
    rfl, hbridges .coercion (by simp) 3 _ _ _ .silent .silent rfl⟩
  case bound => rfl
  case join =>
    have hjoin : ∃ definition ∈ Library.handlers, definition.body = .join ∧
        definition.interface.parameters.length = 2 := by
      decide
    obtain ⟨definition, hmem, hbody, hlength⟩ := hjoin
    exact ⟨definition, hmem, hbody, hreads definition hmem _ _ _ _ _ hlength.symm⟩
  case session =>
    have htest : (standard.toOption.any fun start =>
        (start.evaluate 60 "store(“x”, 3)").continued?.any fun reached =>
          (reached.evaluate 60 "list(x)").evalError?.isSome) = true := by
      decide +kernel
    obtain ⟨start, hstart, htest⟩ := exists_ok htest
    obtain ⟨result, reached, hfirst, htest⟩ := ScriptOutcome.exists_continued htest
    obtain ⟨problem, after, hfailed⟩ := ScriptOutcome.eq_failed_evaluation htest
    have hreaches : start.Reaches reached := .single ⟨60, _, by rw [hfirst]; rfl⟩
    have hnone := hsessions _ _ _ _ _ _ (fresh_standard hstart) hreaches hfailed
    exact ⟨start, reached, after, problem, hstart, hreaches, hfailed, hnone⟩

end Interpreter

end CommandScript
