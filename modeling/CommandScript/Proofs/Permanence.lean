import CommandScript.Proofs.Session

/-!
# Read-only slots are permanent

Whatever is done to a store, whether it succeeds or fails: no slot is lost, and a slot that is
read-only keeps its value and stays read-only.  Every operation is a number of edits, and an edit
puts no slot that is read-only.

With the library in a root frame of its own, all slots of that frame are read-only.  Scripts can't
add any either, since they run in front of it.  So the root frame stays as it was loaded.
-/

namespace CommandScript

open Evaluation

/-- Something is done to a store.  An operation that fails leaves a store too. -/
inductive Store.Operation : Store → Store → Prop where
  /-- A slot is made or changed in a frame. -/
  | define {before after : Store} (environment : Environment) (name : Name) (value : Value)
      (readOnly : Bool) :
      (Eval.change (environment.define name value readOnly) before).Leaves after →
      Operation before after
  /-- A value is assigned from a frame outwards, or in that frame only. -/
  | assign {before after : Store} (environment : Environment) (name : Name) (value : Value)
      (readOnly thisFrameOnly : Bool) :
      (Eval.change (environment.assign name value readOnly thisFrameOnly) before).Leaves after →
      Operation before after
  /-- An attribute of a target is changed. -/
  | set {before after : Store} (target : Target) (name : Name) (value : Value) :
      (Eval.change (target.set name value) before).Leaves after → Operation before after
  /-- A value is stored from a scope outwards. -/
  | put {before after : Store} (scope : Scope) (name : Name) (value : Value) (readOnly : Bool) :
      (Eval.change (scope.put name value readOnly) before).Leaves after → Operation before after
  /-- A value is coerced. -/
  | coerce {before after : Store} (fuel : Nat) (wanted : Coercion) (value : Value) (scope : Scope) :
      (coerce fuel wanted value scope before).Leaves after → Operation before after
  /-- A value is run. -/
  | run {before after : Store} (fuel : Nat) (value : Value) (scope : Scope) :
      (run fuel value scope before).Leaves after → Operation before after
  /-- A command is handled. -/
  | handle {before after : Store} (fuel : Nat) (command : Command) (caller scope : Scope)
      (wanted : Coercion) :
      (handle (evaluator fuel) command caller wanted scope before).Leaves after →
      Operation before after
  /-- A handler is called. -/
  | callHandler {before after : Store} (fuel : Nat) (command : Command) (caller owner : Scope)
      (wanted : Coercion) (handler : Handler) :
      (callHandler (evaluator fuel) command caller owner wanted handler before).Leaves after →
      Operation before after
  /-- A coercion is called. -/
  | callCoercion {before after : Store} (fuel : Nat) (command : Command) (caller : Scope)
      (wanted callee : Coercion) :
      (callCoercion (evaluator fuel) command caller wanted callee before).Leaves after →
      Operation before after
  /-- A script is run. -/
  | script (first last : Interpreter) : first.Runs last → Operation first.store last.store

namespace Store

variable {before after : Store}

/-- A change that may be refused makes an edit or nothing. -/
theorem edits_of_change {update : Store → Except EvalError Store}
    (hedit : ∀ {last}, update before = .ok last → Edit .free before last)
    (h : (Eval.change update before).Leaves after) : before.Edits .free after := by
  unfold Eval.change at h
  split at h
  next last hlast =>
    cases h
    exact .single (hedit hlast)
  next =>
    cases h
    exact .refl

/-- Every operation is a number of edits. -/
theorem Operation.edits (h : Operation before after) : before.Edits .free after := by
  -- Runs are edits under the free policy, which asks nothing of the values and scopes.
  let d := Discipline.editing .free before (Policy.free_allows before) before.obeys_free
  have hruns (scope : Scope) : d.RunsIn scope := ⟨scope.obeys_free, trivial⟩
  have hcommand (command : Command) : (Value.command command).Obeys .free :=
    Value.obeys_free _
  have hanswers (fuel : Nat) (caller : Scope) (wanted : Coercion) :
      (evaluator fuel).Answers d caller wanted fun _ => True := fun answer _ =>
    ((evaluator_respects d fuel).sound wanted.obeys_free answer.obeys_free (hruns caller)).result
      fun _ _ => trivial
  cases h with
  | define environment name value readOnly h =>
    exact edits_of_change (fun hok => .define trivial value.obeys_free hok) h
  | assign environment name value readOnly thisFrameOnly h =>
    refine edits_of_change (fun {last} hok => ?_) h
    cases thisFrameOnly with
    | true => exact .define trivial value.obeys_free hok
    | false =>
      have hput : (Scope.frame environment).put name value readOnly before = .ok last := hok
      exact .put trivial value.obeys_free hput
  | set target name value h =>
    refine edits_of_change (fun {last} hok => ?_) h
    have hput : (Scope.receiver target).put name value false before = .ok last := hok
    exact .put trivial value.obeys_free hput
  | put scope name value readOnly h =>
    exact edits_of_change (fun hok => .put trivial value.obeys_free hok) h
  | coerce fuel wanted value scope h =>
    have hkeeps :=
      (evaluator_respects d fuel).sound wanted.obeys_free value.obeys_free (hruns scope)
    exact hkeeps.of_leaves .refl h
  | run fuel value scope h =>
    have hkeeps := (evaluator_respects d fuel).run value.obeys_free (hruns scope)
    exact hkeeps.of_leaves .refl h
  | handle fuel command caller scope wanted h =>
    have hkeeps := handle_keeps (evaluator_respects d fuel) (hruns caller) (hcommand command)
      (hanswers fuel caller wanted) scope.obeys_free
    exact hkeeps.of_leaves .refl h
  | callHandler fuel command caller owner wanted handler h =>
    have hkeeps := callHandler_keeps (evaluator_respects d fuel) (hruns caller) owner.obeys_free
      (hcommand command) handler.obeys_free (hanswers fuel caller wanted)
    exact hkeeps.of_leaves .refl h
  | callCoercion fuel command caller wanted callee h =>
    have hkeeps := callCoercion_keeps (evaluator_respects d fuel) (hruns caller)
      (hcommand command) callee.obeys_free (hanswers fuel caller wanted)
    exact hkeeps.of_leaves .refl h
  | script first last h =>
    exact (h.edits (Policy.free_allows _) first.store.obeys_free
      (Scope.frame first.globals).obeys_free trivial).1

theorem Operation.preserves (h : Relation.ReflTransGen Operation before after) :
    before.Preserves after := by
  induction h with
  | refl => exact .refl before
  | tail _ hlast ih => exact ih.trans hlast.edits.preserves

end Store

namespace Interpreter

/-- No operation loses a slot or changes one that is read-only, and with the library in a root frame
of its own, no session changes that frame. -/
theorem readOnly_permanent :
    (∀ before after : Store, Relation.ReflTransGen Store.Operation before after →
      before.frames.size ≤ after.frames.size ∧
      ∀ number name slot, (before.frame number).slot? name = some slot →
        ∃ now, (after.frame number).slot? name = some now ∧
          (slot.readOnly = true → now = slot)) ∧
    ∀ (store : Store) (start reached : Interpreter), store.frames = #[] →
      withLibrary store.newRoot.1 store.newRoot.2 = .ok start → start.Reaches reached →
      reached.store.frame store.newRoot.1.id =
        (Library.load store.newRoot.1 .empty store.newRoot.2).store.frame store.newRoot.1.id := by
  refine ⟨fun before after hoperations => ?_, fun store start reached hstore hload hreaches => ?_⟩
  · have hpreserves := Store.Operation.preserves hoperations
    exact ⟨hpreserves.frames, hpreserves.slots⟩
  · obtain ⟨hguarded, hloaded⟩ := guarded_withLibrary (Store.closed_newRoot hstore) hload
    obtain ⟨hedits, -⟩ := hguarded.reach hreaches
    calc reached.store.frame store.newRoot.1.id
      _ = start.store.frame store.newRoot.1.id := (hedits.frame_eq hguarded.store).1
      _ = _ := hloaded

/-- A script that tries to replace a handler of the library. -/
theorem readOnly_permanent_show :
    ∃ start reached problem,
      standard = .ok start ∧
      start.evaluate 60 "store(“show”, 1)" = .failed problem reached ∧
      start.store.frames.size ≤ reached.store.frames.size ∧
      reached.store.frame Store.empty.newRoot.1.id =
        (Library.load Store.empty.newRoot.1 .empty Store.empty.newRoot.2).store.frame
          Store.empty.newRoot.1.id := by
  have htest : (standard.toOption.any fun start =>
      (start.evaluate 60 "store(“show”, 1)").error?.isSome) = true := by
    decide +kernel
  obtain ⟨start, hstart, hfailed⟩ := exists_ok htest
  obtain ⟨problem, reached, hrun⟩ := ScriptOutcome.eq_failed hfailed
  have hruns : start.Runs reached := ⟨60, _, by rw [hrun]; rfl⟩
  obtain ⟨hoperations, hsessions⟩ := readOnly_permanent
  obtain ⟨hsize, -⟩ := hoperations _ _ (.single (.script start reached hruns))
  have hroot := hsessions .empty start reached rfl hstart (.single hruns)
  exact ⟨start, reached, problem, hstart, hrun, hsize, hroot⟩

end Interpreter

end CommandScript
