import CommandScript.Eval

/-!
# What evaluations ensure

An evaluation *ensures* three things at once.

* An invariant of the store: if it holds at the start, it holds at the end, whether the evaluation
  gave a result or failed.
* A property of the result, if there is one.
* A property of the error, if there is one.

An evaluation that runs out of fuel ensures everything.  There is one rule for each way to build an
evaluation, so that a proof about a function of the evaluator follows the function's own text.

A relation between the store before and after is an invariant too: what is kept is that the relation
leads from a fixed store to the present one.
-/

namespace CommandScript

namespace Eval

/-! ## One evaluation after another -/

/-- Which two of three evaluations are taken together makes no difference. -/
theorem bind_assoc {α β γ : Type} (first : Eval α) (next : α → Eval β) (last : β → Eval γ) :
    (first >>= next) >>= last = first >>= fun value => next value >>= last := by
  funext store
  change Eval.andThen (Eval.andThen first next) last store =
    Eval.andThen first (fun value => Eval.andThen (next value) last) store
  unfold Eval.andThen
  cases first store with
  | done value after => rfl
  | failed problem after => rfl
  | outOfFuel => rfl

theorem pure_bind {α β : Type} (value : α) (next : α → Eval β) :
    (pure value >>= next : Eval β) = next value := rfl

/-- Handing on a result changes nothing. -/
theorem bind_pure {α : Type} (action : Eval α) : action >>= pure = action := by
  funext store
  change Eval.andThen action pure store = action store
  unfold Eval.andThen
  cases action store with
  | done value after => rfl
  | failed problem after => rfl
  | outOfFuel => rfl

/-- What comes next goes on with the result and the store. -/
theorem bind_done {α β : Type} {first : Eval α} {next : α → Eval β} {store after : Store}
    {value : α} (h : first store = .done value after) :
    (first >>= next) store = next value after := by
  change Eval.andThen first next store = _
  rw [Eval.andThen, h]

/-- What failed is not gone on with. -/
theorem bind_failed {α β : Type} {first : Eval α} {next : α → Eval β} {store after : Store}
    {problem : EvalError} (h : first store = .failed problem after) :
    (first >>= next) store = .failed problem after := by
  change Eval.andThen first next store = _
  rw [Eval.andThen, h]

/-- Nor is what ran out of fuel. -/
theorem bind_outOfFuel {α β : Type} {first : Eval α} {next : α → Eval β} {store : Store}
    (h : first store = .outOfFuel) : (first >>= next) store = .outOfFuel := by
  change Eval.andThen first next store = _
  rw [Eval.andThen, h]

/-- The action on some things and then on others. -/
theorem forEach_append {α β : Type} (action : α → Eval β) (front back : List α) :
    Eval.forEach action (front ++ back) = (do
      let first ← Eval.forEach action front
      let rest ← Eval.forEach action back
      return first ++ rest) := by
  induction front with
  | nil => exact (Eval.bind_pure _).symm
  | cons input front ih =>
    simp only [List.cons_append, Eval.forEach, ih, Eval.bind_assoc, Eval.pure_bind]

end Eval

/-! ## What holds at the end -/

/-- What holds of the store, the result and the error at the end of an evaluation. -/
def Outcome.Ends {α : Type} (kept : Store → Prop) (result : α → Prop) (error : EvalError → Prop) :
    Outcome α → Prop
  | .done value store => kept store ∧ result value
  | .failed problem store => kept store ∧ error problem
  | .outOfFuel => True

/-- The evaluation keeps an invariant of the store, and its result and its error have a property. -/
def Eval.Ensures {α : Type} (kept : Store → Prop) (result : α → Prop) (error : EvalError → Prop)
    (action : Eval α) : Prop :=
  ∀ store, kept store → (action store).Ends kept result error

/-- Any error at all.  The rules are used with it where only stores and results matter. -/
abbrev anyError : EvalError → Prop := fun _ => True

namespace Eval.Ensures

variable {α β : Type} {kept : Store → Prop} {P : α → Prop} {Q : β → Prop}
  {E F : EvalError → Prop}

/-! ## Reading the end of a run -/

/-- What is ensured holds of a result that is there, and of the store behind it. -/
theorem of_done {action : Eval α} {store after : Store} {value : α}
    (h : action.Ensures kept P E) (hk : kept store) (he : action store = .done value after) :
    kept after ∧ P value := by
  have hend := h store hk
  rw [he] at hend
  exact hend

/-- What is ensured holds of an error that is there, and of the store behind it. -/
theorem of_failed {action : Eval α} {store after : Store} {problem : EvalError}
    (h : action.Ensures kept P E) (hk : kept store) (he : action store = .failed problem after) :
    kept after ∧ E problem := by
  have hend := h store hk
  rw [he] at hend
  exact hend

/-- Every evaluation ends somehow. -/
theorem any {action : Eval α} :
    action.Ensures (fun _ => True) (fun _ => True) anyError := by
  intro store _
  cases action store with
  | done value after => exact ⟨trivial, trivial⟩
  | failed problem after => exact ⟨trivial, trivial⟩
  | outOfFuel => trivial

/-! ## Results and errors that are there at once -/

theorem done {value : α} (h : P value) : (Eval.done value).Ensures kept P E :=
  fun _ hk => ⟨hk, h⟩

theorem pure {value : α} (h : P value) : (Pure.pure value : Eval α).Ensures kept P E :=
  fun _ hk => ⟨hk, h⟩

theorem fail {problem : EvalError} (h : E problem) :
    (Eval.fail problem : Eval α).Ensures kept P E :=
  fun _ hk => ⟨hk, h⟩

theorem failWith {failure : Failure} (h : E (.of failure)) :
    (Eval.failWith failure : Eval α).Ensures kept P E :=
  fail h

theorem exhausted : (Eval.exhausted : Eval α).Ensures kept P E :=
  fun _ _ => trivial

/-- What was found without a store is ensured by itself. -/
theorem ofExcept {given : Except EvalError α} (hok : ∀ value, given = .ok value → P value)
    (herror : ∀ problem, given = .error problem → E problem) :
    (Eval.ofExcept given).Ensures kept P E := by
  cases given with
  | ok value => exact done (hok value rfl)
  | error problem => exact fail (herror problem rfl)

/-! ## Reading and changing the store -/

/-- Reading leaves the store as it is. -/
theorem read {look : Store → α} (h : ∀ store, kept store → P (look store)) :
    (Eval.read look).Ensures kept P E :=
  fun store hk => ⟨hk, h store hk⟩

/-- Looking up leaves the store as it is, and may fail. -/
theorem lookup {look : Store → Except EvalError α}
    (hok : ∀ store value, kept store → look store = .ok value → P value)
    (herror : ∀ store problem, kept store → look store = .error problem → E problem) :
    (Eval.lookup look).Ensures kept P E := by
  intro store hk
  unfold Eval.lookup
  cases hl : look store with
  | ok value => exact ⟨hk, hok store value hk hl⟩
  | error problem => exact ⟨hk, herror store problem hk hl⟩

/-- A change of the store must keep the invariant where it succeeds, and what fails changes nothing.
-/
theorem change {update : Store → Except EvalError Store}
    (hok : ∀ store after, kept store → update store = .ok after → kept after)
    (herror : ∀ store problem, kept store → update store = .error problem → E problem) :
    (Eval.change update).Ensures kept (fun _ => True) E := by
  intro store hk
  unfold Eval.change
  cases hu : update store with
  | ok after => exact ⟨hok store after hk hu, trivial⟩
  | error problem => exact ⟨hk, herror store problem hk hu⟩

/-- What is made comes with the store that it is in. -/
theorem make {update : Store → α × Store}
    (h : ∀ store, kept store → kept (update store).2 ∧ P (update store).1) :
    (Eval.make update).Ensures kept P E :=
  fun store hk => h store hk

theorem print {line : String} (h : ∀ store, kept store → kept (store.print line)) :
    (Eval.print line).Ensures kept (fun _ => True) E :=
  fun store hk => ⟨h store hk, trivial⟩

/-! ## Evaluations made of others -/

/-- What ensures more ensures less. -/
theorem mono {P' : α → Prop} {action : Eval α} (h : action.Ensures kept P E)
    (hresult : ∀ value, P value → P' value) (herror : ∀ problem, E problem → F problem) :
    action.Ensures kept P' F := by
  intro store hk
  have hend := h store hk
  cases ha : action store with
  | done value after => rw [ha] at hend; exact ⟨hend.1, hresult value hend.2⟩
  | failed problem after => rw [ha] at hend; exact ⟨hend.1, herror problem hend.2⟩
  | outOfFuel => trivial

/-- Only the result is told differently. -/
theorem result {P' : α → Prop} {action : Eval α} (h : action.Ensures kept P E)
    (hresult : ∀ value, P value → P' value) : action.Ensures kept P' E :=
  h.mono hresult fun _ hp => hp

/-- What comes first need only ensure what the next relies on, and the invariant. -/
theorem bind {first : Eval α} {next : α → Eval β} (h : first.Ensures kept P E)
    (hnext : ∀ value, P value → (next value).Ensures kept Q E) :
    (first >>= next).Ensures kept Q E := by
  intro store hk
  have hend := h store hk
  change (Eval.andThen first next store).Ends kept Q E
  unfold Eval.andThen
  cases hf : first store with
  | done value after => rw [hf] at hend; exact hnext value hend.2 after hend.1
  | failed problem after => rw [hf] at hend; exact hend
  | outOfFuel => trivial

/-- Errors are retold, and the store behind them is kept. -/
theorem mapError {retell : EvalError → EvalError} {action : Eval α}
    (h : action.Ensures kept P E) (herror : ∀ problem, E problem → F (retell problem)) :
    (action.mapError retell).Ensures kept P F := by
  intro store hk
  have hend := h store hk
  unfold Eval.mapError
  cases ha : action store with
  | done value after => rw [ha] at hend; exact hend
  | failed problem after => rw [ha] at hend; exact ⟨hend.1, herror problem hend.2⟩
  | outOfFuel => trivial

/-- A failure is added with what the store tells at that moment. -/
theorem causing {tell : Store → Failure} {action : Eval α} (h : action.Ensures kept P E)
    (herror : ∀ store problem, E problem → F (.caused (tell store) problem)) :
    (action.causing tell).Ensures kept P F := by
  intro store hk
  have hend := h store hk
  unfold Eval.causing
  cases ha : action store with
  | done value after => rw [ha] at hend; exact hend
  | failed problem after => rw [ha] at hend; exact ⟨hend.1, herror after problem hend.2⟩
  | outOfFuel => trivial

/-- An error that is not caught is still an error of the first evaluation. -/
theorem recover {catches : EvalError → Bool} {action instead : Eval α}
    (h : action.Ensures kept P E) (hinstead : instead.Ensures kept P F)
    (herror : ∀ problem, catches problem = false → E problem → F problem) :
    (Eval.recover catches action instead).Ensures kept P F := by
  intro store hk
  have hend := h store hk
  unfold Eval.recover
  cases ha : action store with
  | done value after => rw [ha] at hend; exact hend
  | outOfFuel => trivial
  | failed problem after =>
    rw [ha] at hend
    cases hc : catches problem with
    | true =>
      simp only [hc, if_true]
      exact hinstead after hend.1
    | false =>
      simp only [hc, Bool.false_eq_true, if_false]
      exact ⟨hend.1, herror problem hc hend.2⟩

/-- Nothing is caught from an evaluation with no error to catch. -/
theorem recover_eq {catches : EvalError → Bool} {action instead : Eval α} {store : Store}
    (h : action.Ensures kept P fun problem => catches problem = false) (hk : kept store) :
    Eval.recover catches action instead store = action store := by
  have hend := h store hk
  unfold Eval.recover
  cases ha : action store with
  | done value after => rfl
  | outOfFuel => rfl
  | failed problem after =>
    rw [ha] at hend
    have hmissed : catches problem = false := hend.2
    simp [hmissed]

/-- By induction on the inputs, which may each have a result of their own. -/
theorem forEach {action : α → Eval β} {inputs : List α}
    (h : ∀ input ∈ inputs, (action input).Ensures kept Q E) :
    (Eval.forEach action inputs).Ensures kept (fun results => ∀ value ∈ results, Q value) E := by
  induction inputs with
  | nil => exact done (List.forall_mem_nil _)
  | cons input rest ih =>
    refine bind (h input (List.mem_cons_self ..)) fun value hvalue => ?_
    refine bind (ih fun other ho => h other (List.mem_cons_of_mem _ ho)) fun others hothers => ?_
    exact pure (List.forall_mem_cons.2 ⟨hvalue, hothers⟩)

end Eval.Ensures

end CommandScript
