import CommandScript.Interpreter
import CommandScript.Proofs.Lexing
import CommandScript.Proofs.Loading
import CommandScript.Proofs.Reading

/-!
# Sessions

An interpreter runs one script after another.  A script that fails leaves an interpreter too, with
what was stored before, and a script that can't be read leaves the interpreter as it is.

What a script does to the store is a number of edits, since the code that was read obeys every
policy.  An interpreter over a root frame of its own is *guarded*: the root frame is closed, and
scripts run outside of it.  It stays guarded through every session, and its root frame stays as it
is.
-/

namespace CommandScript

/-- The interpreter that a script leaves, with a result or an error. -/
def ScriptOutcome.Leaves (after : Interpreter) : ScriptOutcome → Prop
  | .done _ interpreter => interpreter = after
  | .failed _ interpreter => interpreter = after
  | .outOfFuel => False

/-- The result of a script. -/
def ScriptOutcome.result? : ScriptOutcome → Option Value
  | .done result _ => some result
  | _ => none

/-- The interpreter behind the result of a script. -/
def ScriptOutcome.continued? : ScriptOutcome → Option Interpreter
  | .done _ interpreter => some interpreter
  | _ => none

/-- The error of a script. -/
def ScriptOutcome.error? : ScriptOutcome → Option ScriptError
  | .failed problem _ => some problem
  | _ => none

/-- The error of a script that was read. -/
def ScriptOutcome.evalError? : ScriptOutcome → Option EvalError
  | .failed (.evaluation problem) _ => some problem
  | _ => none

theorem ScriptOutcome.eq_done {outcome : ScriptOutcome} (h : outcome.result?.isSome = true) :
    ∃ result after, outcome = .done result after := by
  cases outcome with
  | done result after => exact ⟨result, after, rfl⟩
  | failed problem after => cases h
  | outOfFuel => cases h

theorem ScriptOutcome.eq_failed {outcome : ScriptOutcome} (h : outcome.error?.isSome = true) :
    ∃ problem after, outcome = .failed problem after := by
  cases outcome with
  | done result after => cases h
  | failed problem after => exact ⟨problem, after, rfl⟩
  | outOfFuel => cases h

/-- A test of the interpreter behind the result of a script is passed by that interpreter. -/
theorem ScriptOutcome.exists_continued {outcome : ScriptOutcome} {test : Interpreter → Bool}
    (h : outcome.continued?.any test = true) :
    ∃ result after, outcome = .done result after ∧ test after = true := by
  cases outcome with
  | done result after => exact ⟨result, after, rfl, h⟩
  | failed problem after => cases h
  | outOfFuel => cases h

theorem ScriptOutcome.eq_failed_evaluation {outcome : ScriptOutcome}
    (h : outcome.evalError?.isSome = true) :
    ∃ problem after, outcome = .failed (.evaluation problem) after := by
  cases outcome with
  | done result after => cases h
  | failed problem after =>
    cases problem with
    | evaluation problem => exact ⟨problem, after, rfl⟩
    | syntactic | library => cases h
  | outOfFuel => cases h

namespace Interpreter

/-- A script leads from one interpreter to another. -/
def Runs (before after : Interpreter) : Prop :=
  ∃ fuel source, (before.evaluate fuel source).Leaves after

/-- Any number of scripts in order. -/
def Reaches : Interpreter → Interpreter → Prop := Relation.ReflTransGen Runs

/-- An interpreter over a root frame of its own, with the library or without. -/
inductive Fresh : Interpreter → Prop where
  /-- Without the library. -/
  | bare {store : Store} : store.frames = #[] → Fresh (.bare store.newRoot.1 store.newRoot.2)
  /-- With the library. -/
  | library {store : Store} {interpreter : Interpreter} : store.frames = #[] →
      withLibrary store.newRoot.1 store.newRoot.2 = .ok interpreter → Fresh interpreter

/-! ## Scripts are edits -/

variable {p : Policy} {before after : Interpreter}

/-- Running statements edits the store and leaves the globals as they are. -/
theorem runScript_edits {fuel : Nat} {statements : List Value} (hallows : p.Allows before.store)
    (hstore : before.store.Obeys p) (hglobals : (Scope.frame before.globals).Obeys p)
    (hhome : p.home (.frame before.globals)) (hstatements : ∀ v ∈ statements, v.Obeys p)
    (h : (before.runScript fuel statements).Leaves after) :
    before.store.Edits p after.store ∧ after.globals = before.globals := by
  have hedits {last : Store} (hleaves : (Evaluation.coerce fuel .anything (.block statements)
      (.frame before.globals) before.store).Leaves last) : before.store.Edits p last :=
    Evaluation.coerce_edits hallows hstore (.simple rfl) (.block hstatements) hglobals hhome hleaves
  unfold runScript at h
  split at h
  next result last hrun =>
    cases h
    exact ⟨hedits (by rw [hrun]; rfl), rfl⟩
  next problem last hrun =>
    cases h
    exact ⟨hedits (by rw [hrun]; rfl), rfl⟩
  next => exact h.elim

/-- A script that can't be read runs nothing, so all that runs is an edit. -/
theorem Runs.edits (hallows : p.Allows before.store) (hstore : before.store.Obeys p)
    (hglobals : (Scope.frame before.globals).Obeys p) (hhome : p.home (.frame before.globals))
    (h : before.Runs after) :
    before.store.Edits p after.store ∧ after.globals = before.globals := by
  obtain ⟨fuel, source, hleaves⟩ := h
  unfold evaluate at hleaves
  split at hleaves
  next =>
    cases hleaves
    exact ⟨.refl, rfl⟩
  next statements hread =>
    have hstatements := readScript_obeys p hread
    exact runScript_edits hallows hstore hglobals hhome hstatements hleaves

/-! ## Guarded interpreters -/

/-- Scripts run outside of a root frame that is closed. -/
structure Guarded (root : Nat) (interpreter : Interpreter) : Prop where
  /-- The root frame is closed. -/
  store : interpreter.store.Closed (.outside root) root
  /-- Nothing behind the globals breaks the policy. -/
  globals : (Scope.frame interpreter.globals).Obeys (.outside root)
  /-- Scripts run outside the root frame. -/
  home : (Policy.outside root).home (.frame interpreter.globals)

variable {root : Nat}

/-- What a script edits is outside the root frame. -/
theorem Guarded.run (h : before.Guarded root) (hrun : before.Runs after) :
    before.store.Edits (.outside root) after.store ∧ after.Guarded root := by
  have hallows := Policy.outside_allows h.store.size
  obtain ⟨hedits, hglobals⟩ := hrun.edits hallows h.store.obeys h.globals h.home
  refine ⟨hedits, (hedits.frame_eq h.store).2, ?_, ?_⟩
  · exact hglobals ▸ h.globals
  · exact hglobals ▸ h.home

/-- A session makes edits from outside the root frame only. -/
theorem Guarded.reach (h : before.Guarded root) (hreach : before.Reaches after) :
    before.store.Edits (.outside root) after.store ∧ after.Guarded root := by
  induction hreach with
  | refl => exact ⟨.refl, h⟩
  | tail _ hlast ih =>
    obtain ⟨hedits, hguarded⟩ := ih
    obtain ⟨hmore, hguarded'⟩ := hguarded.run hlast
    exact ⟨hedits.trans hmore, hguarded'⟩

/-- An interpreter on a closed store is guarded. -/
theorem guarded_ofRoot {registry : Registry} {store : Store}
    (h : store.Closed (.outside root) root) :
    (ofRoot registry (.root root) store).Guarded root where
  store := h.newFrame
  globals := .frame (.child (.frame .root))
  home := fun hstart => by
    have hnumber : store.frames.size = root := Option.some.inj hstart
    have := h.size
    omega

/-- The frames of the store are as they were: its own frame is a new one. -/
theorem frame_ofRoot (registry : Registry) (environment : Environment) (store : Store)
    (number : Nat) :
    (ofRoot registry environment store).store.frame number = store.frame number :=
  Store.frame_newFrame store number

theorem registry_ofRoot (registry : Registry) (environment : Environment) (store : Store) :
    (ofRoot registry environment store).registry = registry := rfl

/-- The interpreter with the library runs in front of what loading left, which got to the end. -/
theorem withLibrary_eq {root : Environment} {store : Store} {interpreter : Interpreter}
    (h : withLibrary root store = .ok interpreter) :
    (Library.load root .empty store).failure = none ∧
      interpreter = ofRoot (Library.load root .empty store).registry root
        (Library.load root .empty store).store := by
  unfold withLibrary at h
  dsimp only at h
  generalize Library.load root .empty store = loading at h ⊢
  obtain ⟨registry, loaded, failure⟩ := loading
  cases failure with
  | some problem => cases h
  | none => exact ⟨rfl, (Except.ok.inj h).symm⟩

/-- The root frame of a new interpreter is the one that was loaded. -/
theorem guarded_withLibrary {store : Store} {interpreter : Interpreter}
    (hstore : store.Closed (.outside root) root)
    (h : withLibrary (.root root) store = .ok interpreter) :
    interpreter.Guarded root ∧ interpreter.store.frame root =
      (Library.load (.root root) .empty store).store.frame root := by
  have hallows := Policy.outside_allowsLibrary root
  rw [(withLibrary_eq h).2]
  exact ⟨guarded_ofRoot (Library.load_closed .empty hallows hstore), frame_ofRoot ..⟩

/-- The standard interpreter is fresh. -/
theorem fresh_standard {interpreter : Interpreter} (h : standard = .ok interpreter) :
    interpreter.Fresh := by
  have hempty : Store.empty.frames = #[] := rfl
  exact .library hempty h

/-- The library can be loaded. -/
theorem exists_standard : ∃ interpreter, standard = .ok interpreter := by
  obtain ⟨interpreter, hstandard, -⟩ :=
    exists_ok (show standard.toOption.any (fun _ => true) = true by decide +kernel)
  exact ⟨interpreter, hstandard⟩

/-- Every fresh interpreter is guarded, with or without the library. -/
theorem Fresh.guarded {interpreter : Interpreter} (h : interpreter.Fresh) :
    ∃ root, interpreter.Guarded root := by
  cases h with
  | bare hstore => exact ⟨_, guarded_ofRoot (Store.closed_newRoot hstore)⟩
  | library hstore hload =>
    exact ⟨_, (guarded_withLibrary (Store.closed_newRoot hstore) hload).1⟩

end Interpreter

end CommandScript
