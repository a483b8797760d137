import CommandScript.Proofs.Evaluation

/-!
# Absent values

An error that can be recovered from means that there was no value.  Coercing a value that is no code
fails in this way exactly if the value is nothing.

* A conversion never fails so.  What is absent inside a collection is a failure of the collection.
* `anything`, `value`, `optional` and `default` recover, and the errors that are left last.
* Nothing is refused by every other coercion, except where there is a place for it.

So a coercion of a collection gives the same within any number of `optional` and `default`.
-/

namespace CommandScript

/-- A coercion within others that recover: `optional` where there is no value to stand in, and
`default` where there is one. -/
def Coercion.within (inner : Coercion) : List (Option Value) → Coercion
  | [] => inner
  | none :: others => .optional (inner.within others)
  | some fallback :: others => .default fallback (inner.within others)

namespace Evaluation

variable {wanted : Coercion} {value : Value} {scope : Scope}

/-- The evaluation fails only with errors that last. -/
abbrev FailsLasting {α : Type} (action : Eval α) : Prop :=
  action.Ensures (fun _ => True) (fun _ => True) EvalError.Lasting

/-- The evaluation fails only because there is no value. -/
abbrev FailsAbsent (action : Eval Value) : Prop :=
  action.Ensures (fun _ => True) (fun _ => True) fun problem => problem.isAbsence = true

/-- What was recovered from leaves errors that last. -/
theorem recover_failsLasting {action : Eval Value} {fallback : Value} :
    FailsLasting (Eval.recover EvalError.isAbsence action (Eval.done fallback)) :=
  .recover .any (.done trivial) fun _ hlasting _ => hlasting

/-- Nothing is left to fail where every error is recovered from. -/
theorem recover_failsAbsent {action : Eval Value} {fallback : Value} (h : FailsAbsent action) :
    FailsAbsent (Eval.recover EvalError.isAbsence action (Eval.done fallback)) :=
  .recover h (.done trivial) fun _ _ habsent => habsent

/-- To wait never fails. -/
theorem coerceWith_lazy_ensures {e : Evaluator} {inner : Coercion} {E : EvalError → Prop} :
    (coerceWith e (.lazy inner) value scope).Ensures (fun _ => True) (fun _ => True) E :=
  fun _ _ => ⟨trivial, trivial⟩

/-! ## Values that are there -/

theorem coerce_anything_failsLasting (fuel : Nat) (value : Value) (scope : Scope) :
    FailsLasting (coerce fuel .anything value scope) := by
  cases fuel with
  | zero => exact .exhausted
  | succ fuel => exact recover_failsLasting

/-- What is no code and not nothing is converted. -/
theorem runOrConvert_of_plain {e : Evaluator} {convert : Value → Eval Value}
    (hplain : value.isExpression = false) (hthere : value.isNothing = false) :
    runOrConvert e scope wanted value convert = convert value := by
  cases value with
  | identifier _ | command _ | block _ | thunk _ _ _ _ => cases hplain
  | nothing | didNothing => cases hthere
  | _ => rfl

theorem coerce_failsLasting (fuel : Nat) (hplain : value.isExpression = false)
    (hthere : value.isNothing = false) : FailsLasting (coerce fuel wanted value scope) := by
  cases fuel with
  | zero => exact .exhausted
  | succ fuel =>
    have he := evaluator_respects .free fuel
    have hs := Discipline.runsIn_free scope
    have hv := value.obeys_free
    have hinner {c : Coercion} : ∀ v : Value, v.Obeys .free →
        Discipline.free.Keeps (fun _ => True) (coerce fuel c v scope) := fun _ _ => .any
    have hconvert {convert : Value → Eval Value} {Q : Value → Prop} {E : EvalError → Prop}
        (hlasting : ∀ problem, E problem → problem.Lasting)
        (h : (convert value).Ensures (fun _ => True) Q E) :
        FailsLasting (runOrConvert (evaluator fuel) scope wanted value convert) := by
      rw [runOrConvert_of_plain hplain hthere]
      exact h.mono (fun _ _ => trivial) hlasting
    have hatom {convert : Value → Eval Value} {Q : Value → Prop}
        (h : (convert value).Ensures (fun _ => True) Q EvalError.Plain) :
        FailsLasting (runOrConvert (evaluator fuel) scope wanted value convert) :=
      hconvert (fun _ hplain => hplain.isAbsence_eq) h
    have hcollection {convert : Value → Eval Value} {Q : Value → Prop}
        (h : (convert value).Ensures (fun _ => True) Q Discipline.free.Lasts) :
        FailsLasting (runOrConvert (evaluator fuel) scope wanted value convert) :=
      hconvert (fun _ hlasts => hlasts.lasting) h
    cases wanted with
    | anything | value | optional _ | default _ _ => exact recover_failsLasting
    | expression => exact .pure trivial
    | lazy inner => exact coerceWith_lazy_ensures
    | noResult =>
      exact .bind (coerce_anything_failsLasting fuel value scope) fun _ _ => .pure trivial
    | boolean => exact hatom (asBoolean_ensures value)
    | text => exact hatom (asText_ensures value)
    | number | real => exact hatom (asNumber_ensures _ value)
    | integer => exact hatom (asInteger_ensures value)
    | tag => exact hatom (asTag_ensures value)
    | recordKey => exact hatom (asRecordKey_ensures value)
    | coercion => exact hatom (asCoercion_ensures value)
    | handler => exact hatom (asCallable_ensures value)
    | list item => exact hcollection (asList_ensures he hs hv hinner)
    | record field => exact hcollection (asRecord_ensures he hs hv hinner)
    | reference =>
      have htarget : FailsLasting (asTarget (evaluator fuel) scope value) :=
        (asTarget_ensures he hs hv).mono (fun _ _ => trivial) fun _ hlasts => hlasts.lasting
      cases value with
      | identifier _ | command _ | block _ | thunk _ _ _ _ => cases hplain
      | _ => exact htarget

/-! ## Values that are not -/

theorem coerce_failsAbsent (fuel : Nat) (habsent : value.isNothing = true) :
    FailsAbsent (coerce fuel wanted value scope) := by
  -- The coercions inside `optional` and `default` are tried with less fuel.
  induction fuel generalizing wanted with
  | zero => exact .exhausted
  | succ fuel ih =>
    cases wanted with
    | optional inner => exact recover_failsAbsent ih
    | default fallback inner => exact recover_failsAbsent ih
    | noResult => exact .bind ih fun _ _ => .pure trivial
    | expression => exact .pure trivial
    | lazy inner => exact coerceWith_lazy_ensures
    | anything | value =>
      cases value with
      | nothing | didNothing => exact .done trivial
      | _ => cases habsent
    | reference =>
      cases value with
      | nothing | didNothing => exact .pure trivial
      | _ => cases habsent
    | _ =>
      cases value with
      | nothing | didNothing => exact .failWith rfl
      | _ => cases habsent

/-! ## Collections -/

theorem isNothing_of_isCollection (h : value.isCollection = true) : value.isNothing = false := by
  cases value with
  | nothing | didNothing => cases h
  | _ => rfl

/-- Coercions that recover have nothing to recover from. -/
theorem coerce_within (fuel : Nat) (hplain : value.isExpression = false)
    (hthere : value.isNothing = false) (enclosing : List (Option Value)) (store : Store) :
    coerce (fuel + enclosing.length) (wanted.within enclosing) value scope store =
      coerce fuel wanted value scope store := by
  induction enclosing with
  | nil => rfl
  | cons fallback others ih =>
    have hlasting :
        FailsLasting (coerce (fuel + others.length) (wanted.within others) value scope) :=
      coerce_failsLasting _ hplain hthere
    rw [← ih]
    cases fallback with
    | none => exact hlasting.recover_eq trivial
    | some fallback => exact hlasting.recover_eq trivial

/-- An error means that there is no value exactly if the value is nothing.  The errors of a
collection last, and nothing around it recovers from them. -/
theorem coerce_failed_isAbsence_iff (fuel : Nat) (wanted : Coercion) (value : Value)
    (scope : Scope) (store : Store) (hplain : value.isExpression = false) :
    (∀ problem after, coerce fuel wanted value scope store = .failed problem after →
      (problem.isAbsence = true ↔ value.isNothing = true)) ∧
    (value.isCollection = true →
      (∀ problem after, coerce fuel wanted value scope store = .failed problem after →
        problem.isAbsence = false) ∧
      ∀ enclosing, coerce (fuel + enclosing.length) (wanted.within enclosing) value scope store =
        coerce fuel wanted value scope store) := by
  refine ⟨fun problem after hfailed => ⟨fun habsence => ?_, fun hnothing => ?_⟩,
    fun hcollection => ⟨fun problem after hfailed => ?_, fun enclosing => ?_⟩⟩
  · cases hthere : value.isNothing with
    | true => rfl
    | false =>
      obtain ⟨-, hlasting⟩ := (coerce_failsLasting fuel hplain hthere).of_failed trivial hfailed
      exact absurd habsence (Bool.eq_false_iff.1 hlasting)
  · exact ((coerce_failsAbsent fuel hnothing).of_failed trivial hfailed).2
  · have hthere := isNothing_of_isCollection hcollection
    exact ((coerce_failsLasting fuel hplain hthere).of_failed trivial hfailed).2
  · exact coerce_within fuel hplain (isNothing_of_isCollection hcollection) enclosing store

/-- Two lists deep, a block answers nothing where a flag was asked for. -/
theorem coerce_failed_nested_nothing :
    ∃ problem,
      coerce 4 (.list (.list .boolean)) (.list [.list [.block []]]) (.frame (.root 0)) .silent =
        .failed problem .silent ∧
      problem.isAbsence = false ∧
      coerce 6 (.default (.boolean true) (.optional (.list (.list .boolean))))
        (.list [.list [.block []]]) (.frame (.root 0)) .silent = .failed problem .silent := by
  obtain ⟨-, hcollection⟩ := coerce_failed_isAbsence_iff 4 (.list (.list .boolean))
    (.list [.list [.block []]]) (.frame (.root 0)) .silent rfl
  obtain ⟨hlasting, hwithin⟩ := hcollection rfl
  refine ⟨_, ?failed, hlasting _ _ ?failed, hwithin [some (.boolean true), none]⟩
  rfl

end Evaluation

end CommandScript
