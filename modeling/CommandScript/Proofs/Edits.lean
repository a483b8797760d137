import Mathlib.Logic.Relation
import CommandScript.Proofs.Evaluation
import CommandScript.Proofs.Slots

/-!
# Edits of the store

A run changes its store by edits, one after another: it uses up a number, prints a line, adds a
frame, stores a value from where it runs, or defines a parameter.  So what every edit keeps, every
run keeps, whether it ends with a result or with an error.

The edits that a policy allows store only values that obey it, from scopes that code may run in.
That a run makes only such edits is a discipline, for every policy that lets code run in new frames
and behind targets.
-/

namespace CommandScript

/-! ## Stores from scopes -/

/-- The frame that storing from a scope starts at.  Lists and records can't be changed. -/
def Scope.start? : Scope → Option Nat
  | .frame environment => some environment.id
  | .tell _ parent => parent.start?
  | .receiver (.frame environment) => some environment.id
  | .receiver _ => none

/-- Storing from a scope puts one slot. -/
theorem Scope.put_put {name : Name} {value : Value} {readOnly : Bool} {store after : Store} :
    ∀ (scope : Scope), scope.put name value readOnly store = .ok after →
      ∃ start owner flag, scope.start? = some start ∧ store.Assignable start name owner ∧
        after = store.put owner name value flag
  | .frame environment, h => by
    obtain ⟨owner, howner, hafter⟩ := Environment.assign_put h
    exact ⟨environment.id, owner, readOnly, rfl, howner, hafter⟩
  | .tell _ parent, h => parent.put_put h
  | .receiver (.frame environment), h => by
    obtain ⟨owner, howner, hafter⟩ := Environment.assign_put h
    exact ⟨environment.id, owner, false, rfl, howner, hafter⟩
  | .receiver (.list _), h => nomatch h
  | .receiver (.record _), h => nomatch h

/-! ## Edits -/

namespace Store

/-- One change that a policy allows a run to make of its store. -/
inductive Edit (p : Policy) : Store → Store → Prop where
  /-- A number is used up. -/
  | number {store : Store} : Edit p store store.newId.2
  /-- A line is printed. -/
  | line {store : Store} {content : String} : Edit p store (store.print content)
  /-- A frame is added. -/
  | frame {store : Store} : Edit p store store.newFrame.2
  /-- A value is stored. -/
  | put {store after : Store} {scope : Scope} {name : Name} {value : Value} {readOnly : Bool} :
      p.home scope → value.Obeys p → scope.put name value readOnly store = .ok after →
      Edit p store after
  /-- A parameter is defined. -/
  | define {store after : Store} {environment : Environment} {name : Name} {value : Value}
      {readOnly : Bool} : p.home (.frame environment) → value.Obeys p →
      environment.define name value readOnly store = .ok after → Edit p store after

/-- Any number of edits in order. -/
def Edits (p : Policy) : Store → Store → Prop := Relation.ReflTransGen (Edit p)

variable {p : Policy} {before after : Store}

/-- What an edit does to the frames. -/
inductive Effect (p : Policy) (before : Store) : Store → Prop where
  /-- They are as they were, with perhaps one more. -/
  | same {after : Store} : before.frames.size ≤ after.frames.size →
      (∀ number, after.frame number = before.frame number) → Effect p before after
  /-- One slot is put, from a scope that code may run in. -/
  | put {scope : Scope} {start owner : Nat} {name : Name} {value : Value} {readOnly : Bool} :
      p.home scope → scope.start? = some start → value.Obeys p →
      before.Assignable start name owner → Effect p before (before.put owner name value readOnly)

/-- An edit leaves the frames as they were, with perhaps one more, or puts one slot. -/
theorem Edit.effect (h : Edit p before after) : Effect p before after := by
  cases h with
  | number => exact .same (Nat.le_refl _) (frame_newId before)
  | line => exact .same (Nat.le_refl _) (frame_print before _)
  | frame => exact .same (by simp) (frame_newFrame before)
  | put hhome hvalue hput =>
    obtain ⟨start, owner, flag, hstart, howner, rfl⟩ := Scope.put_put _ hput
    exact .put hhome hstart hvalue howner
  | define hhome hvalue hdefine =>
    obtain ⟨owner, howner, rfl⟩ := Environment.assign_put hdefine
    exact .put hhome rfl hvalue howner

/-- No edit takes a frame or a slot away. -/
theorem Edit.preserves (h : Edit p before after) : before.Preserves after := by
  cases h.effect with
  | same hsize hframes => exact preserves_of_frame_eq hsize hframes
  | put _ _ _ howner => exact preserves_put howner.editable

/-- No edit writes what the policy forbids. -/
theorem Edit.obeys (h : Edit p before after) (hbefore : before.Obeys p) : after.Obeys p := by
  intro number slot hslot
  cases h.effect with
  | same _ hframes =>
    rw [hframes number] at hslot
    exact hbefore number slot hslot
  | put _ _ hvalue _ =>
    rcases mem_frame_put hslot with hold | ⟨hnew, _⟩
    · exact hbefore number slot hold
    · exact hnew ▸ hvalue

/-- The free policy allows every edit that another allows. -/
theorem Edit.free (h : Edit p before after) : Edit .free before after := by
  cases h with
  | number => exact .number
  | line => exact .line
  | frame => exact .frame
  | put _ _ hput => exact .put trivial (Value.obeys_free _) hput
  | define _ _ hdefine => exact .define trivial (Value.obeys_free _) hdefine

namespace Edits

/-- Neither do many. -/
theorem preserves (h : Edits p before after) : before.Preserves after := by
  induction h with
  | refl => exact .refl before
  | tail _ hlast ih => exact ih.trans hlast.preserves

/-- Nor do many. -/
theorem obeys (h : Edits p before after) (hbefore : before.Obeys p) : after.Obeys p := by
  induction h with
  | refl => exact hbefore
  | tail _ hlast ih => exact hlast.obeys ih

end Edits

end Store

/-! ## Runs are edits -/

/-- A policy that lets code run behind targets, and in the frames that are added to a store. -/
structure Policy.Allows (p : Policy) (start : Store) : Prop where
  /-- Code may run behind a target wherever it may run without. -/
  tell {target : Target} {scope : Scope} : p.home scope → p.home (.tell target scope)
  /-- Code may run in a new frame. -/
  child {number : Nat} {owner : Scope} : start.frames.size ≤ number →
    p.home (.frame (.child number owner))

theorem Policy.free_allows (start : Store) : Policy.free.Allows start :=
  ⟨fun _ => trivial, fun _ => trivial⟩

/-- The runs that make only edits, from a store on, whatever their errors. -/
def Discipline.editing (p : Policy) (start : Store) (hallows : p.Allows start)
    (hobeys : start.Obeys p) : Discipline where
  toPolicy := p
  store := start.Edits p
  slots := fun h => h.obeys hobeys
  newId := fun h => h.tail .number
  print := fun h => h.tail .line
  newFrame := fun h => h.tail .frame
  child := fun h => hallows.child h.preserves.frames
  tell := hallows.tell
  put := fun h hhome hvalue hput => h.tail (.put hhome hvalue hput)
  define := fun h hhome hvalue hdefine => h.tail (.define hhome hvalue hdefine)
  error := fun _ => True
  plain := fun _ => trivial
  absent := trivial
  caused := fun _ _ => trivial
  declares := fun _ => .inr fun _ => trivial

/-- The store that an evaluation leaves, with a result or an error. -/
def Outcome.Leaves {α : Type} (after : Store) : Outcome α → Prop
  | .done _ store => store = after
  | .failed _ store => store = after
  | .outOfFuel => False

theorem Eval.Ensures.of_leaves {α : Type} {kept : Store → Prop} {P : α → Prop}
    {E : EvalError → Prop} {action : Eval α} {store after : Store}
    (h : action.Ensures kept P E) (hk : kept store) (hleaves : (action store).Leaves after) :
    kept after := by
  have hend := h store hk
  cases ha : action store with
  | done value last =>
    rw [ha] at hend hleaves
    cases hleaves
    exact hend.1
  | failed problem last =>
    rw [ha] at hend hleaves
    cases hleaves
    exact hend.1
  | outOfFuel =>
    rw [ha] at hleaves
    exact hleaves.elim

namespace Evaluation

/-- Coercing a value makes only edits that a policy allows, if it starts within the policy. -/
theorem coerce_edits {p : Policy} {fuel : Nat} {wanted : Coercion} {value : Value} {scope : Scope}
    {store after : Store} (hallows : p.Allows store) (hstore : store.Obeys p)
    (hwanted : wanted.Obeys p) (hvalue : value.Obeys p) (hscope : scope.Obeys p)
    (hhome : p.home scope) (h : (coerce fuel wanted value scope store).Leaves after) :
    store.Edits p after := by
  let d := Discipline.editing p store hallows hstore
  have hsound := (evaluator_respects d fuel).sound hwanted hvalue ⟨hscope, hhome⟩
  exact hsound.of_leaves .refl h

end Evaluation

end CommandScript
