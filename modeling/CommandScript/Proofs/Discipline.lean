import CommandScript.Evaluation.Conversion
import CommandScript.Proofs.Ensures
import CommandScript.Proofs.PlainErrors
import CommandScript.Proofs.Policy
import CommandScript.Proofs.Shape

/-!
# Disciplines

A discipline is a policy together with an invariant of stores.  It says which stores can occur in a
run, and asks that every way of changing a store leads to such a store again: a new number, a new
frame, a printed line, a value stored from a scope that code may run in, and a parameter defined in
such a scope.

It also says which errors can occur.  Most of them must be allowed.  Only a broken rule of the
evaluator need not be, if the policy has no primitive handler that reads more arguments than its
signature declares.

An evaluator *respects* a discipline when evaluating stays within it.  Two exceptions are made for
`didNothing`, which a control structure may answer although the policy forbids it: running a value,
without coercing what it answers, may give it back, and so does the coercion `expression`, which
hands on what it is given.  Every coercion that looks at the value gets rid of it.
-/

namespace CommandScript

/-- An error that can't be recovered from. -/
def EvalError.Lasting (problem : EvalError) : Prop := problem.isAbsence = false

/-- How many arguments a primitive handler reads. -/
def Primitive.reads : Primitive → Nat
  | .number _ | .testNumbers _ | .testTexts _ | .logic _ | .join => 2
  | .positive | .negative | .not | .uppercase | .lowercase | .count | .show | .formatCode => 1
  | .ifThen | .orElse | .repeatTimes | .whileDo | .tell | .coerce | .isA => 2
  | .store => 3
  | .defineHandler => 5
  | .collect reads => reads.length

/-- A policy, and the stores and errors of the runs that follow it. -/
structure Discipline extends Policy where
  /-- The stores that can occur. -/
  store : Store → Prop
  /-- The errors that can occur. -/
  error : EvalError → Prop
  /-- Their slots hold only values that obey the policy. -/
  slots {s} : store s → s.Obeys toPolicy
  /-- A number may be used up. -/
  newId {s} : store s → store s.newId.2
  /-- A line may be printed. -/
  print {s line} : store s → store (s.print line)
  /-- A frame may be added. -/
  newFrame {s} : store s → store s.newFrame.2
  /-- Code may run in a new frame. -/
  child {s owner} : store s → home (.frame (.child s.frames.size owner))
  /-- Code may run behind a target wherever it may run without. -/
  tell {target scope} : home scope → home (.tell target scope)
  /-- A value may be stored from where code runs. -/
  put {s after scope name value readOnly} : store s → home scope → value.Obeys toPolicy →
    scope.put name value readOnly s = .ok after → store after
  /-- A parameter may be defined where code runs. -/
  define {s after environment name value readOnly} : store s → home (.frame environment) →
    value.Obeys toPolicy → environment.define name value readOnly s = .ok after → store after
  /-- Plain errors may occur. -/
  plain {problem} : problem.Plain → error problem
  /-- A value may be absent. -/
  absent {wanted} : error (.of (.nullCoercion wanted))
  /-- An error may cause a failure that is no broken rule. -/
  caused {failure problem} : failure.isInternal = false → error problem →
    error (.caused failure problem)
  /-- A primitive handler declares what it reads, unless rules may be broken. -/
  declares {interface body} : primitive interface body →
    body.reads ≤ interface.parameters.length ∨ ∀ message, error (.of (.internal message))

namespace Discipline

/-- A scope that code may run in. -/
structure RunsIn (d : Discipline) (scope : Scope) : Prop where
  /-- Nothing in it breaks the policy. -/
  obeys : scope.Obeys d.toPolicy
  /-- Code may run in it. -/
  home : d.home scope

/-- What running a value may give back. -/
def IsAnswer (d : Discipline) (value : Value) : Prop :=
  value.Obeys d.toPolicy ∨ value = .didNothing

/-- What coercing gives: a value that obeys the policy and has the shape that was asked for. -/
structure Sound (d : Discipline) (wanted : Coercion) (result : Value) : Prop where
  /-- Nothing in it breaks the policy. -/
  obeys : result.Obeys d.toPolicy
  /-- It is what the coercion promises. -/
  shape : wanted.Shape result

/-- An evaluation that stays within the discipline, and what it gives. -/
abbrev Keeps (d : Discipline) {α : Type} (result : α → Prop) (action : Eval α) : Prop :=
  action.Ensures d.store result d.error

/-- An error that may occur and can't be recovered from. -/
structure Lasts (d : Discipline) (problem : EvalError) : Prop where
  /-- It can't be recovered from. -/
  lasting : problem.Lasting
  /-- It may occur. -/
  error : d.error problem

/-- A plain error lasts under every discipline. -/
theorem lasts_of_plain {d : Discipline} {problem : EvalError} (h : problem.Plain) :
    d.Lasts problem :=
  ⟨h.isAbsence_eq, d.plain h⟩

/-- An error that is made permanent lasts, since it is no absence any more. -/
theorem permanent {d : Discipline} {problem : EvalError} (value : Value) (wanted : Coercion)
    (h : d.error problem) : d.Lasts (problem.permanent value wanted) := by
  unfold EvalError.permanent
  cases habsence : problem.isAbsence with
  | true => exact ⟨rfl, d.caused rfl h⟩
  | false => exact ⟨habsence, h⟩

/-- A plain failure. -/
theorem fails {d : Discipline} {α : Type} {result : α → Prop} {failure : Failure}
    (h : failure.isPlain = true) : d.Keeps result (Eval.failWith failure) :=
  .failWith (d.plain (.of h))

/-- Code may run behind a target that obeys the policy wherever it may run without. -/
theorem RunsIn.tell {d : Discipline} {target : Target} {scope : Scope} (h : d.RunsIn scope)
    (htarget : target.Obeys d.toPolicy) : d.RunsIn (.tell target scope) :=
  ⟨.tell htarget h.obeys, d.tell h.home⟩

theorem read_keeps {d : Discipline} {α : Type} {look : Store → α} :
    d.Keeps (fun _ => True) (Eval.read look) :=
  .read fun _ _ => trivial

theorem newId_keeps {d : Discipline} : d.Keeps (fun _ => True) (Eval.make Store.newId) :=
  .make fun _ hs => ⟨d.newId hs, trivial⟩

/-- Without invariant and under the free policy, every scope is one that code may run in, and every
error may occur. -/
def free : Discipline where
  toPolicy := .free
  store := fun _ => True
  slots := fun _ => Store.obeys_free _
  newId := fun _ => trivial
  print := fun _ => trivial
  newFrame := fun _ => trivial
  child := fun _ => trivial
  tell := fun _ => trivial
  put := fun _ _ _ _ => trivial
  define := fun _ _ _ _ => trivial
  error := fun _ => True
  plain := fun _ => trivial
  absent := trivial
  caused := fun _ _ => trivial
  declares := fun _ => .inr fun _ => trivial

/-- Every scope is good enough where nothing is asked. -/
theorem runsIn_free (scope : Scope) : free.RunsIn scope := ⟨scope.obeys_free, trivial⟩

end Discipline

/-- Whether a coercion looks at the value it is given.  The others may hand it on as it is. -/
def Coercion.looksAt : Coercion → Bool
  | .expression | .lazy _ | .optional _ | .default .. => false
  | _ => true

/-- An evaluator that stays within a discipline. -/
structure Evaluator.Respects (e : Evaluator) (d : Discipline) : Prop where
  /-- Coercing is sound. -/
  sound {wanted value scope} : wanted.Obeys d.toPolicy → value.Obeys d.toPolicy →
    d.RunsIn scope → d.Keeps (d.Sound wanted) (e.coerce wanted value scope)
  /-- Coercing gets rid of `didNothing`. -/
  collapse {wanted scope} : wanted.looksAt = true → d.RunsIn scope →
    d.Keeps (d.Sound wanted) (e.coerce wanted .didNothing scope)
  /-- An expression is handed on. -/
  expression {value scope} : d.Keeps (· = value) (e.coerce .expression value scope)
  /-- Running gives an answer. -/
  run {value scope} : value.Obeys d.toPolicy → d.RunsIn scope →
    d.Keeps d.IsAnswer (e.run value scope)

namespace Evaluator.Respects

variable {e : Evaluator} {d : Discipline} {scope : Scope} {wanted : Coercion} {value : Value}

/-- A value that is good stays good when it is coerced. -/
theorem coerce (he : e.Respects d) (hw : wanted.Obeys d.toPolicy) (hv : value.Obeys d.toPolicy)
    (hs : d.RunsIn scope) : d.Keeps (·.Obeys d.toPolicy) (e.coerce wanted value scope) :=
  (he.sound hw hv hs).result fun _ h => h.obeys

/-- A coercion that is not built on another one obeys every policy. -/
theorem coerceSimple (he : e.Respects d) (hw : wanted.buildsCoercion = false)
    (hv : value.Obeys d.toPolicy) (hs : d.RunsIn scope) :
    d.Keeps (·.Obeys d.toPolicy) (e.coerce wanted value scope) :=
  he.coerce (.simple hw) hv hs

/-- A coercion that looks at what it is given is sound for answers too. -/
theorem answer (he : e.Respects d) (hl : wanted.looksAt = true) (hw : wanted.Obeys d.toPolicy)
    (ha : d.IsAnswer value) (hs : d.RunsIn scope) :
    d.Keeps (d.Sound wanted) (e.coerce wanted value scope) := by
  rcases ha with hobeys | rfl
  · exact he.sound hw hobeys hs
  · exact he.collapse hl hs

end Evaluator.Respects

end CommandScript
