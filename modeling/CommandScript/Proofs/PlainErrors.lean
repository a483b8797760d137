import CommandScript.Scope

/-!
# Plain errors

A *plain* error has no cause, and says neither that a value is absent nor that a rule of the
evaluator is broken.  Looking up a name and storing under a name fail with plain errors only, and so
does everything that looks at a value without evaluating it.
-/

namespace CommandScript

/-! ## Failures -/

/-- Whether a rule of the evaluator itself is broken. -/
def Failure.isInternal : Failure → Bool
  | .internal _ => true
  | _ => false

/-- Whether the failure tells neither of an absent value nor of a broken rule. -/
def Failure.isPlain : Failure → Bool
  | .nullCoercion _ | .internal _ => false
  | _ => true

namespace EvalError

/-- No failure of the chain is internal. -/
def NoInternal (problem : EvalError) : Prop :=
  ∀ failure ∈ problem.failure :: problem.causes, failure.isInternal = false

/-- An error without a cause that is plain. -/
def Plain (problem : EvalError) : Prop := ∃ failure, problem = .of failure ∧ failure.isPlain = true

variable {problem : EvalError} {failure : Failure}

/-- A failure alone is plain if it tells of nothing else. -/
theorem Plain.of (h : failure.isPlain = true) : (EvalError.of failure).Plain := ⟨failure, rfl, h⟩

/-- A failure alone has no cause to look at. -/
theorem NoInternal.of (h : failure.isInternal = false) : (EvalError.of failure).NoInternal :=
  List.forall_mem_singleton.2 h

/-- A failure with a cause adds itself to the chain. -/
theorem NoInternal.caused (h : problem.NoInternal) (hfailure : failure.isInternal = false) :
    (caused failure problem).NoInternal :=
  List.forall_mem_cons.2 ⟨hfailure, h⟩

/-- A plain error can't be recovered from. -/
theorem Plain.isAbsence_eq (h : problem.Plain) : problem.isAbsence = false := by
  obtain ⟨failure, rfl, hplain⟩ := h
  cases failure with
  | nullCoercion | internal => cases hplain
  | _ => rfl

/-- A plain error breaks no rule. -/
theorem Plain.noInternal (h : problem.Plain) : problem.NoInternal := by
  obtain ⟨failure, rfl, hplain⟩ := h
  refine .of ?_
  cases failure with
  | nullCoercion | internal => cases hplain
  | _ => rfl

end EvalError

/-! ## Looking up -/

section Lookup

variable {store : Store} {name : Name} {problem : EvalError}

/-- An index out of range is told plainly. -/
theorem listItem_plain {items : List Value} {index : Int64}
    (h : listItem items index = .error problem) : problem.Plain := by
  unfold listItem at h
  cases hitem : Sequence.item items index with
  | ok value =>
    rw [hitem] at h
    cases h
  | error number =>
    rw [hitem] at h
    cases h
    exact .of rfl

theorem listRange_plain {items : List Value} {first last : Int64}
    (h : listRange items first last = .error problem) : problem.Plain := by
  unfold listRange at h
  cases hrange : Sequence.range items first last with
  | ok found =>
    rw [hrange] at h
    cases h
  | error number =>
    rw [hrange] at h
    cases h
    exact .of rfl

/-- So is a name that a list does not have. -/
theorem listAttribute_plain {items : List Value}
    (h : listAttribute items name = .error problem) : problem.Plain := by
  unfold listAttribute at h
  split at h
  next => cases h
  next =>
  split at h
  next => exact listItem_plain h
  next =>
  split at h
  next => exact listItem_plain h
  next =>
  split at h
  next => cases h
  next =>
  split at h
  next => cases h
  next => cases h; exact .of rfl

/-- So is a name that a record does not have. -/
theorem recordAttribute_plain {record : Record}
    (h : recordAttribute record name = .error problem) : problem.Plain := by
  unfold recordAttribute at h
  split at h
  next => cases h
  next =>
  split at h
  next => cases h
  next =>
  split at h
  next => cases h
  next =>
  split at h
  next => cases h
  next => cases h; exact .of rfl

theorem bindOwner_plain {found : Option (Value × Scope)}
    (h : bindOwner name found = .error problem) : problem.Plain := by
  unfold bindOwner at h
  split at h
  next => cases h
  next => cases h
  next =>
    cases h
    exact .of rfl

/-- An attribute that is not found is no error. -/
theorem orAbsent_eq_error {given : Except EvalError Value}
    (h : orAbsent name given = .error problem) : given = .error problem := by
  cases given with
  | ok value => cases h
  | error error =>
    simp only [orAbsent] at h
    split at h
    next => cases h
    next =>
      cases h
      rfl

-- The three follow the mutual recursion of looking up.
mutual

/-- Looking through frames never fails, since a name that is not there is no error yet. -/
theorem Environment.lookup_plain : ∀ {environment : Environment},
    environment.lookup store name = .error problem → problem.Plain
  | .root id, h => by
    simp only [Environment.lookup] at h
    cases h
  | .child id parent, h => by
    simp only [Environment.lookup] at h
    split at h
    next => cases h
    next => exact Scope.lookup_plain h
termination_by structural environment => environment

/-- By recursion on the scope, an error of a target is handed on. -/
theorem Scope.lookup_plain : ∀ {scope : Scope},
    scope.lookup store name = .error problem → problem.Plain
  | .frame environment, h => by
    simp only [Scope.lookup] at h
    exact Environment.lookup_plain h
  | .tell target parent, h => by
    simp only [Scope.lookup] at h
    split at h
    next => cases h
    next => exact Scope.lookup_plain h
    next error herror =>
      cases h
      exact Target.get_plain (orAbsent_eq_error herror)
  | .receiver target, h => by
    simp only [Scope.lookup] at h
    split at h
    next => cases h
    next error herror =>
      cases h
      exact Target.get_plain (orAbsent_eq_error herror)
termination_by structural scope => scope

/-- What a target tells is plain, whatever kind of target it is. -/
theorem Target.get_plain : ∀ {target : Target},
    target.get store name = .error problem → problem.Plain
  | .list items, h => by
    simp only [Target.get] at h
    exact listAttribute_plain h
  | .record record, h => by
    simp only [Target.get] at h
    exact recordAttribute_plain h
  | .frame environment, h => by
    simp only [Target.get] at h
    split at h
    next => exact bindOwner_plain h
    next error herror =>
      cases h
      exact Environment.lookup_plain herror
termination_by structural target => target

end

/-- A name that no scope has is told plainly. -/
theorem Scope.get_plain {scope : Scope} (h : scope.get store name = .error problem) :
    problem.Plain := by
  unfold Scope.get at h
  split at h
  next => exact bindOwner_plain h
  next error herror =>
    cases h
    exact Scope.lookup_plain herror

end Lookup

/-! ## Storing -/

section Storing

variable {store : Store} {name : Name} {value : Value} {readOnly : Bool} {problem : EvalError}

/-- Storing fails over a slot that is read-only, and plainly. -/
theorem Environment.assign_plain {environment : Environment} {thisFrameOnly : Bool}
    (h : environment.assign name value readOnly thisFrameOnly store = .error problem) :
    problem.Plain := by
  simp only [Environment.assign] at h
  split at h
  next =>
    split at h
    next =>
      cases h
      exact .of rfl
    next => cases h
  next => cases h

/-- By cases on the scope, storing to a target fails plainly, and so does storing to a frame. -/
theorem Scope.put_plain :
    ∀ (scope : Scope), scope.put name value readOnly store = .error problem → problem.Plain
  | .frame _, h => Environment.assign_plain h
  | .tell _ parent, h => parent.put_plain h
  | .receiver (.frame _), h => Environment.assign_plain h
  | .receiver (.list _), h => by
    cases h
    exact .of rfl
  | .receiver (.record _), h => by
    cases h
    exact .of rfl

end Storing

end CommandScript
