import CommandScript.Proofs.Session

/-!
# Coercing is sound

Whatever a coercion gives has the shape that the coercion promises.  This holds for every value,
code included, in every scope and with every store: the free discipline asks nothing of them.

In particular, no code is left in what `anything` gives, and none in the results of scripts.  That a
control structure had nothing to do is seen by the code around it only: scripts neither return this
answer nor store it, however long the session.
-/

namespace CommandScript

namespace Evaluation

theorem coerce_ensures_shape (fuel : Nat) (wanted : Coercion) (value : Value) (scope : Scope) :
    (coerce fuel wanted value scope).Ensures (fun _ => True) wanted.Shape anyError := by
  have hrespects := evaluator_respects .free fuel
  have hsound := hrespects.sound wanted.obeys_free value.obeys_free (Discipline.runsIn_free scope)
  exact hsound.result fun _ h => h.shape

/-- A coercion gives what it promises, whether the value was converted, or was run and its answer
came from a name, a call, an attribute, a block or a thunk. -/
theorem coerce_shape {fuel : Nat} {wanted : Coercion} {value result : Value} {scope : Scope}
    {store after : Store} (h : coerce fuel wanted value scope store = .done result after) :
    wanted.Shape result :=
  ((coerce_ensures_shape fuel wanted value scope).of_done trivial h).2

/-- A block that answers a list with code in it, as a list of flags that may be absent. -/
theorem coerce_shape_flags :
    ∃ result after,
      coerce 6 (.list (.optional .boolean))
        (.block [.boolean false, .list [.block [.boolean true], .nothing,
          .thunk 0 (.list []) (.frame (.root 0)) .anything]])
        (.frame (.root 0)) .silent = .done result after ∧
      Coercion.Shape (.list (.optional .boolean)) result := by
  refine ⟨.list [.boolean true, .nothing, .boolean false], .silent, ?run, coerce_shape ?run⟩
  rfl

end Evaluation

namespace Interpreter

theorem evaluate_evaluated {fuel : Nat} {interpreter after : Interpreter} {source : String}
    {result : Value} (h : interpreter.evaluate fuel source = .done result after) :
    result.Evaluated := by
  unfold evaluate at h
  split at h
  next => cases h
  next statements _ =>
    unfold runScript at h
    split at h
    next hrun =>
      cases h
      exact ((Evaluation.coerce_ensures_shape fuel .anything _ _).of_done trivial hrun).2
    next => cases h
    next => cases h

/-- Results have no code left in them, and the answer of an idle control structure does not escape:
it is never in a slot, at no time in any session of an interpreter with a root frame of its own. -/
theorem results_evaluated :
    (∀ (fuel : Nat) (wanted : Coercion) (value : Value) (scope : Scope) (store after : Store)
      (result : Value), wanted = .anything ∨ wanted = .value →
      Evaluation.coerce fuel wanted value scope store = .done result after → result.Evaluated) ∧
    ∀ start reached : Interpreter, start.Fresh → start.Reaches reached →
      (∀ (fuel : Nat) (source : String) (result : Value) (after : Interpreter),
        reached.evaluate fuel source = .done result after → result.Evaluated) ∧
      start.store.Settled ∧ reached.store.Settled ∧
      Relation.ReflTransGen (fun earlier later => Store.Edit .free earlier later ∧ later.Settled)
        start.store reached.store := by
  refine ⟨fun fuel wanted value scope store after result hwanted hrun => ?_,
    fun start reached hfresh hreaches => ⟨fun _ _ _ _ hrun => evaluate_evaluated hrun, ?_⟩⟩
  · have hensures := Evaluation.coerce_ensures_shape fuel wanted value scope
    obtain ⟨-, hshape⟩ := hensures.of_done trivial hrun
    rcases hwanted with rfl | rfl
    · exact hshape
    · exact hshape
  · obtain ⟨root, hguarded⟩ := hfresh.guarded
    obtain ⟨hedits, hreached⟩ := hguarded.reach hreaches
    exact ⟨hguarded.store.obeys.settled, hreached.store.obeys.settled,
      hedits.settled hguarded.store.obeys⟩

/-- A control structure with nothing to do, run with the library. -/
theorem results_evaluated_idle :
    ∃ start reached result,
      standard = .ok start ∧
      start.evaluate 60 "if false \x7b 1 \x7d" = .done result reached ∧
      result.Evaluated ∧ reached.store.Settled := by
  have htest : (standard.toOption.any fun start =>
      (start.evaluate 60 "if false \x7b 1 \x7d").result?.isSome) = true := by
    decide +kernel
  obtain ⟨start, hstart, hdone⟩ := exists_ok htest
  obtain ⟨result, reached, hrun⟩ := ScriptOutcome.eq_done hdone
  have hfresh := fresh_standard hstart
  have hreaches : start.Reaches reached := .single ⟨60, _, by rw [hrun]; rfl⟩
  obtain ⟨-, hsessions⟩ := results_evaluated
  obtain ⟨hresults, -⟩ := hsessions start start hfresh .refl
  obtain ⟨-, -, hsettled, -⟩ := hsessions start reached hfresh hreaches
  exact ⟨start, reached, result, hstart, hrun, hresults _ _ _ _ hrun, hsettled⟩

end Interpreter

end CommandScript
