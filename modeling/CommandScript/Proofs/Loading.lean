import CommandScript.Library
import CommandScript.Proofs.Edits

/-!
# The library as loaded

A root frame is *closed* when all its slots are read-only.  Loading the library into a new root
frame gives a closed one, and nothing in it breaks a policy that allows its handlers.

From then on, code that runs outside the root frame leaves it exactly as it is.  To put a slot there
it would have to be stored from the frame itself, or the frame would have to have the name already,
in a slot that is not read-only.
-/

namespace CommandScript

/-- Code runs outside of a frame, and the answer of an idle control structure is never stored. -/
def Policy.outside (root : Nat) : Policy where
  sentinel := False
  home := fun scope => scope.start? ≠ some root
  primitive := fun _ _ => True

/-- A policy that allows every primitive handler of the library. -/
def Policy.AllowsLibrary (p : Policy) : Prop :=
  ∀ definition ∈ Library.handlers, p.primitive definition.interface definition.body

theorem Policy.outside_allowsLibrary (root : Nat) : (Policy.outside root).AllowsLibrary :=
  fun _ _ => trivial

theorem Policy.outside_allows {root : Nat} {store : Store} (h : root < store.frames.size) :
    (Policy.outside root).Allows store where
  tell := fun hscope => hscope
  child := fun {number _} hnew hstart => by
    have hnumber : number = root := Option.some.inj hstart
    omega

namespace Store

/-- No slot of any frame holds the answer of an idle control structure. -/
def Settled (store : Store) : Prop :=
  ∀ number, ∀ slot ∈ store.frame number, slot.value ≠ .didNothing

theorem Obeys.settled {root : Nat} {store : Store} (h : store.Obeys (.outside root)) :
    store.Settled := by
  intro number slot hslot hvalue
  have hobeys := h number slot hslot
  rw [hvalue] at hobeys
  cases hobeys with
  | didNothing hsentinel => exact hsentinel

/-- A store with a root frame that is read-only throughout, and values that obey a policy. -/
structure Closed (p : Policy) (root : Nat) (store : Store) : Prop where
  /-- The frame is there. -/
  size : root < store.frames.size
  /-- All its slots are read-only. -/
  readOnly : ∀ slot ∈ store.frame root, slot.readOnly = true
  /-- Nothing in the store breaks the policy. -/
  obeys : store.Obeys p

variable {root : Nat} {p : Policy} {before after : Store}

/-- A closed frame has no slot that can be put. -/
theorem Assignable.owner_ne {start owner : Nat} {name : Name}
    (h : before.Assignable start name owner) (hstart : start ≠ root)
    (hclosed : ∀ slot ∈ before.frame root, slot.readOnly = true) : owner ≠ root := by
  rintro rfl
  rcases h.reached with heq | hholds
  · exact hstart heq.symm
  · obtain ⟨slot, hslot⟩ := Option.isSome_iff_exists.1 hholds
    have hreadOnly := hclosed slot (List.mem_of_find?_eq_some hslot)
    have heditable := h.editable slot hslot
    simp [hreadOnly] at heditable

/-- An edit from outside leaves a closed frame as it is. -/
theorem Edit.frame_eq (h : Edit (.outside root) before after)
    (hclosed : ∀ slot ∈ before.frame root, slot.readOnly = true) :
    after.frame root = before.frame root := by
  cases h.effect with
  | same _ hframes => exact hframes root
  | @put _ start _ _ _ _ hhome hstart _ howner =>
    have hne : start ≠ root := fun heq => hhome (heq ▸ hstart)
    exact frame_put_of_ne (howner.owner_ne hne hclosed).symm

/-- Edits from outside leave a closed frame as it is, and the store closed. -/
theorem Edits.frame_eq (h : Edits (.outside root) before after)
    (hclosed : before.Closed (.outside root) root) :
    after.frame root = before.frame root ∧ after.Closed (.outside root) root := by
  have hsame : after.frame root = before.frame root := by
    induction h with
    | refl => rfl
    | tail _ hlast ih =>
      rw [← ih]
      exact hlast.frame_eq (ih ▸ hclosed.readOnly)
  refine ⟨hsame, Nat.lt_of_lt_of_le hclosed.size h.preserves.frames, ?_, h.obeys hclosed.obeys⟩
  rw [hsame]
  exact hclosed.readOnly

/-- Edit by edit, such an answer is never in a slot. -/
theorem Edits.settled (h : Edits (.outside root) before after)
    (hbefore : before.Obeys (.outside root)) :
    Relation.ReflTransGen (fun earlier later => Edit .free earlier later ∧ later.Settled)
      before after := by
  induction h with
  | refl => exact .refl
  | tail hedits hlast ih =>
    have hobeys := hlast.obeys (Edits.obeys hedits hbefore)
    exact ih.tail ⟨hlast.free, hobeys.settled⟩

theorem Closed.newFrame (h : before.Closed p root) : before.newFrame.2.Closed p root where
  size := Nat.lt_of_lt_of_le h.size (by simp)
  readOnly := by simpa using h.readOnly
  obeys := fun number => by simpa using h.obeys number

theorem Closed.newId (h : before.Closed p root) : before.newId.2.Closed p root :=
  ⟨h.size, h.readOnly, h.obeys⟩

/-- Defining something read-only leaves a store closed. -/
theorem Closed.define {environment : Environment} {name : Name} {value : Value}
    (h : before.Closed p root) (hvalue : value.Obeys p)
    (hdefine : environment.define name value true before = .ok after) : after.Closed p root := by
  obtain ⟨owner, -, rfl⟩ := Environment.assign_put hdefine
  refine ⟨by simpa using h.size, fun slot hslot => ?_, fun number slot hslot => ?_⟩
  · rcases mem_frame_put hslot with hold | ⟨_, hnew⟩
    · exact h.readOnly slot hold
    · exact hnew
  · rcases mem_frame_put hslot with hold | ⟨hnew, _⟩
    · exact h.obeys number slot hold
    · exact hnew ▸ hvalue

/-- A new root frame of a store without frames is closed, since it is empty. -/
theorem closed_newRoot {store : Store} (h : store.frames = #[]) :
    store.newRoot.2.Closed p store.newRoot.1.id := by
  obtain ⟨frames, printed, nextId⟩ := store
  cases h
  have hempty : ∀ number, (Store.newRoot ⟨#[], printed, nextId⟩).2.frame number = [] :=
    frame_newFrame ⟨#[], printed, nextId⟩
  refine ⟨Nat.zero_lt_one, fun slot hslot => ?_, fun number slot hslot => ?_⟩
  all_goals
    rw [hempty] at hslot
    exact absurd hslot List.not_mem_nil

end Store

/-! ## Loading -/

namespace Library

/-- The coercions of the library's parameters obey every policy. -/
theorem handlers_obey (p : Policy) :
    ∀ definition ∈ handlers, ∀ q ∈ definition.interface.parameters, q.coercion.Obeys p := by
  simp only [handlers, arithmeticHandlers, comparisonHandlers, logicHandlers, textHandlers,
    controlHandlers, stateHandlers, numberHandler, numberTest, textTest, logicHandler, define,
    operands, parameter, action, flag, Parameter.ofName, List.forall_mem_append,
    List.forall_mem_cons, List.not_mem_nil, false_implies, implies_true, and_true,
    Coercion.obeys_list, Coercion.obeys_default, Value.obeys_coercion]
  repeat' constructor

theorem namedCoercions_obey (p : Policy) : ∀ entry ∈ namedCoercions, entry.2.Obeys p := by
  simp only [namedCoercions, coercions, coercionAliases, List.map_cons, List.map_nil,
    List.forall_mem_append, List.forall_mem_cons, List.not_mem_nil, false_implies, implies_true,
    and_true, Coercion.obeys_list, Coercion.obeys_record, Coercion.obeys_lazy,
    Coercion.obeys_optional, Coercion.obeys_default]
  repeat' constructor

theorem constants_obey (p : Policy) : ∀ entry ∈ constants, entry.2.Obeys p := by
  simp only [constants, List.forall_mem_cons, List.not_mem_nil, false_implies, implies_true,
    and_true]
  repeat' constructor

variable {p : Policy} {number : Nat} {root : Environment} {store after : Store}

/-- Every change of the library is the definition of something read-only. -/
theorem changes_closed {change : Change} (hp : p.AllowsLibrary) (hchange : change ∈ changes root)
    (hstore : store.Closed p number) (h : change store = .ok after) : after.Closed p number := by
  simp only [changes, List.mem_append, List.mem_map] at hchange
  rcases hchange with (⟨definition, hmem, rfl⟩ | ⟨entry, hmem, rfl⟩) | ⟨entry, hmem, rfl⟩
  · have hparameters := handlers_obey p definition hmem
    exact hstore.newId.define (.handler (.primitive hparameters (hp definition hmem))) h
  · exact hstore.define (.coercion (namedCoercions_obey p entry hmem)) h
  · exact hstore.define (constants_obey p entry hmem) h

/-- What the library defines in the root frame is allowed there. -/
theorem applyChanges_closed {list : List Change} (hp : p.AllowsLibrary)
    (hlist : ∀ change ∈ list, change ∈ changes root)
    (hstore : store.Closed p number) : (applyChanges list store).1.Closed p number := by
  induction list generalizing store with
  | nil => exact hstore
  | cons change rest ih =>
    obtain ⟨hchange, hrest⟩ := List.forall_mem_cons.1 hlist
    unfold applyChanges
    cases h : change store with
    | ok next => exact ih hrest (changes_closed hp hchange hstore h)
    | error problem => exact hstore

/-- Loading that got to the end has added all operators and made all changes. -/
theorem load_done {registry : Registry}
    (h : (load root registry store).failure = none) :
    registry.addAll operators = .ok (load root registry store).registry ∧
      applyChanges (changes root) store = ((load root registry store).store, none) := by
  unfold load at h ⊢
  -- Which operators and changes they are does not matter, and is better not looked at.
  generalize operators = ops, changes root = list at h ⊢
  cases hops : registry.addAll ops with
  | error problem =>
    rw [hops] at h
    cases h
  | ok registry =>
    cases hmade : applyChanges list store with
    | mk after failure =>
      simp only [hops, hmade] at h
      cases failure with
      | some problem => cases h
      | none => exact ⟨rfl, rfl⟩

/-- Loading leaves a store closed, whether or not it gets to the end. -/
theorem load_closed (registry : Registry) (hp : p.AllowsLibrary) (hstore : store.Closed p number) :
    (load root registry store).store.Closed p number := by
  unfold load
  cases registry.addAll operators with
  | error problem => exact hstore
  | ok registry => exact applyChanges_closed hp (fun _ h => h) hstore

end Library

end CommandScript
