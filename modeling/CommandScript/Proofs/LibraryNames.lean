import CommandScript.Proofs.Session
import Mathlib.Data.List.Nodup

/-!
# The names of the library

In an interpreter with the library, over a root frame of its own, every handler, every coercion and
every constant of the library is found under its name.

Loading defines one name after the other, and each slot it makes is read-only.  So a slot is still
there when loading has got to its end, and the globals in front of the root frame have no slots yet.
-/

namespace CommandScript

/-! ## Handlers -/

/-- No two handlers of the library do the same, so what a handler does tells its signature. -/
theorem Library.eq_of_body_eq {a b : Definition} (ha : a ∈ handlers) (hb : b ∈ handlers)
    (h : a.body = b.body) : a = b := by
  have hbodies : (handlers.map Definition.body).Nodup := by decide
  exact List.inj_on_of_nodup_map hbodies ha hb h

/-! ## Slots that were defined -/

/-- A slot that was put is found, with the spelling it was first given. -/
theorem Frame.slot?_put (frame : Frame) (name : Name) (value : Value) (readOnly : Bool) :
    (Frame.put name value readOnly frame).slot? name =
      some ⟨(frame.slot? name).elim name Slot.name, value, readOnly⟩ := by
  induction frame with
  | nil => simp [Frame.put, Frame.slot?]
  | cons first rest ih =>
    by_cases hname : first.name == name
    · simp [Frame.put, Frame.slot?, hname]
    · simpa [Frame.put, Frame.slot?, hname] using ih

theorem Store.frame_put_of_lt {store : Store} {number : Nat} (h : number < store.frames.size)
    (name : Name) (value : Value) (readOnly : Bool) :
    (store.put number name value readOnly).frame number =
      Frame.put name value readOnly (store.frame number) := by
  simp only [Store.frame, Store.put, Array.getElem?_modify, if_true, Array.getElem?_eq_getElem h]
  rfl

variable {environment : Environment} {name : Name} {value : Value} {readOnly : Bool}
  {store after : Store}

/-- A definition puts a slot of the frame itself, which was not read-only before. -/
theorem Environment.define_put (h : environment.define name value readOnly store = .ok after) :
    after = store.put environment.id name value readOnly ∧
      ∀ slot, (store.frame environment.id).slot? name = some slot → slot.readOnly = false := by
  simp only [Environment.define, Environment.assign, if_true] at h
  split at h
  next slot hslot =>
    split at h
    next => cases h
    next hopen =>
      cases h
      refine ⟨rfl, fun found hfound => ?_⟩
      rw [hslot] at hfound
      cases hfound
      simpa using hopen
  next hslot =>
    cases h
    refine ⟨rfl, fun found hfound => ?_⟩
    rw [hslot] at hfound
    cases hfound

theorem Environment.define_preserves
    (h : environment.define name value readOnly store = .ok after) : store.Preserves after := by
  obtain ⟨rfl, hopen⟩ := Environment.define_put h
  exact Store.preserves_put hopen

namespace Library

/-! ## Loading -/

variable {root : Environment} {before last : Store}

theorem changes_preserves {change : Change} (hchange : change ∈ changes root)
    (h : change store = .ok after) : store.Preserves after := by
  simp only [changes, List.mem_append, List.mem_map] at hchange
  rcases hchange with (⟨definition, -, rfl⟩ | ⟨entry, -, rfl⟩) | ⟨entry, -, rfl⟩
  · have hid : store.Preserves store.newId.2 :=
      Store.preserves_of_frame_eq (Nat.le_refl _) fun _ => rfl
    exact hid.trans (Environment.define_preserves h)
  · exact Environment.define_preserves h
  · exact Environment.define_preserves h

/-- Every change was made at some time, and what it made was preserved. -/
theorem applyChanges_made {list : List Change} (hlist : ∀ change ∈ list, change ∈ changes root)
    (h : applyChanges list store = (last, none)) :
    store.Preserves last ∧ ∀ change ∈ list, ∃ before after,
      store.Preserves before ∧ change before = .ok after ∧ after.Preserves last := by
  induction list generalizing store with
  | nil =>
    cases h
    exact ⟨.refl _, nofun⟩
  | cons change rest ih =>
    obtain ⟨hchange, hrest⟩ := List.forall_mem_cons.1 hlist
    unfold applyChanges at h
    cases hmade : change store with
    | error problem =>
      rw [hmade] at h
      cases h
    | ok next =>
      rw [hmade] at h
      have hnext := changes_preserves hchange hmade
      obtain ⟨hlast, hothers⟩ := ih hrest h
      refine ⟨hnext.trans hlast, List.forall_mem_cons.2 ⟨?_, fun other hother => ?_⟩⟩
      · exact ⟨store, next, .refl store, hmade, hlast⟩
      · obtain ⟨before, after, hbefore, hother, hafter⟩ := hothers other hother
        exact ⟨before, after, hnext.trans hbefore, hother, hafter⟩

/-- The library has a value under a name. -/
inductive Names : String → Value → Prop where
  | coercion {name : String} {c : Coercion} : (name, c) ∈ namedCoercions →
      Names name (.coercion c)
  | constant {name : String} {value : Value} : (name, value) ∈ constants → Names name value

theorem Names.mem_changes {name : String} {value : Value} (h : Names name value)
    (root : Environment) : addValue root name value ∈ changes root := by
  cases h with
  | @coercion c hmem =>
    exact List.mem_append_left _ (List.mem_append_right _ (List.mem_map.2 ⟨(name, c), hmem, rfl⟩))
  | constant hmem => exact List.mem_append_right _ (List.mem_map.2 ⟨(name, value), hmem, rfl⟩)

/-- What was defined while loading is still there at its end. -/
theorem slot_of_define {name : Name} {value : Value} (hroot : root.id < store.frames.size)
    (hbefore : store.Preserves before) (hmade : root.define name value true before = .ok after)
    (hafter : after.Preserves last) :
    ∃ written, (last.frame root.id).slot? name = some ⟨written, value, true⟩ := by
  obtain ⟨rfl, -⟩ := Environment.define_put hmade
  have hslot := Frame.slot?_put (before.frame root.id) name value true
  rw [← Store.frame_put_of_lt (Nat.lt_of_lt_of_le hroot hbefore.frames)] at hslot
  obtain ⟨now, hnow, hkept⟩ := hafter.slots root.id _ _ hslot
  exact ⟨_, hnow.trans (congrArg some (hkept rfl))⟩

theorem Names.slot {name : String} {value : Value} (h : Names name value)
    (hroot : root.id < store.frames.size)
    (hload : applyChanges (changes root) store = (last, none)) :
    ∃ written, (last.frame root.id).slot? (.ofString name) = some ⟨written, value, true⟩ := by
  obtain ⟨before, after, hbefore, hmade, hafter⟩ :=
    (applyChanges_made (fun _ hmem => hmem) hload).2 _ (h.mem_changes root)
  exact slot_of_define hroot hbefore hmade hafter

/-- A handler of the library has a slot too, and a number of its own. -/
theorem handler_slot {definition : Definition} (h : definition ∈ handlers)
    (hroot : root.id < store.frames.size)
    (hload : applyChanges (changes root) store = (last, none)) :
    ∃ number written, (last.frame root.id).slot? definition.interface.name =
      some ⟨written, .handler (.primitive number definition.interface definition.body), true⟩ := by
  have hmem : installHandler root definition ∈ changes root :=
    List.mem_append_left _ (List.mem_append_left _ (List.mem_map.2 ⟨definition, h, rfl⟩))
  obtain ⟨before, after, hbefore, hmade, hafter⟩ :=
    (applyChanges_made (fun _ hmem => hmem) hload).2 _ hmem
  have hnumbered : store.Preserves before.newId.2 :=
    hbefore.trans (Store.preserves_of_frame_eq (Nat.le_refl _) fun _ => rfl)
  exact ⟨before.newId.1, slot_of_define hroot hnumbered hmade hafter⟩

end Library

/-! ## Looking up -/

namespace Interpreter

variable {root : Environment} {interpreter : Interpreter}

/-- An interpreter with the library was loaded to the end, and has a new frame of globals. -/
theorem withLibrary_eq_ok (h : withLibrary root store = .ok interpreter) :
    ∃ loaded, Library.applyChanges (Library.changes root) store = (loaded, none) ∧
      interpreter = ofRoot interpreter.registry root loaded := by
  obtain ⟨hdone, hinterpreter⟩ := withLibrary_eq h
  refine ⟨(Library.load root .empty store).store, (Library.load_done hdone).2, ?_⟩
  rw [hinterpreter, registry_ofRoot]

theorem lookup_root {number : Nat} {slot : Slot} (h : (store.frame number).slot? name = some slot) :
    (Scope.frame (.root number)).lookup store name =
      .ok (some (slot.value, .frame (.root number))) := by
  rw [Scope.lookup, Environment.lookup, h]
  rfl

/-- From a new frame, what is found is found behind it. -/
theorem lookup_child (scope : Scope) (store : Store) (name : Name) :
    (Scope.frame (scope.child store).1).lookup (scope.child store).2 name =
      scope.lookup (scope.child store).2 name := by
  have hempty : (scope.child store).2.frame store.frames.size = [] := by
    rw [Scope.child, Store.frame_newFrame]
    simp [Store.frame]
  change (Environment.child store.frames.size scope).lookup (scope.child store).2 name = _
  rw [Environment.lookup, hempty]
  rfl

/-- A slot of the root frame is found from the globals of a new interpreter. -/
theorem lookup_ofRoot {registry : Registry} {number : Nat} {slot : Slot}
    (h : (store.frame number).slot? name = some slot) :
    (Scope.frame (ofRoot registry (.root number) store).globals).lookup
        (ofRoot registry (.root number) store).store name =
      .ok (some (slot.value, .frame (.root number))) := by
  rw [← frame_ofRoot registry (.root number) store] at h
  exact (lookup_child (.frame (.root number)) store _).trans (lookup_root h)

theorem newRoot_lt (start : Store) : start.newRoot.1.id < start.newRoot.2.frames.size := by
  change start.frames.size < start.newFrame.2.frames.size
  rw [Store.size_newFrame]
  exact Nat.lt_succ_self _

/-- A name of the library is found from the globals of a new interpreter. -/
theorem lookup_globals {start : Store}
    (hload : withLibrary start.newRoot.1 start.newRoot.2 = .ok interpreter) {name : String}
    {value : Value} (hname : Library.Names name value) :
    (Scope.frame interpreter.globals).lookup interpreter.store (.ofString name) =
      .ok (some (value, .frame start.newRoot.1)) := by
  obtain ⟨loaded, hloaded, hinterpreter⟩ := withLibrary_eq_ok hload
  obtain ⟨written, hslot⟩ := hname.slot (newRoot_lt start) hloaded
  rw [hinterpreter]
  exact lookup_ofRoot hslot

/-- So is a handler of the library, under the name of its signature. -/
theorem lookup_handler {start : Store}
    (hload : withLibrary start.newRoot.1 start.newRoot.2 = .ok interpreter)
    {definition : Library.Definition} (h : definition ∈ Library.handlers) :
    ∃ number, (Scope.frame interpreter.globals).lookup interpreter.store
        definition.interface.name =
      .ok (some (.handler (.primitive number definition.interface definition.body),
        .frame start.newRoot.1)) := by
  obtain ⟨loaded, hloaded, hinterpreter⟩ := withLibrary_eq_ok hload
  obtain ⟨number, written, hslot⟩ := Library.handler_slot h (newRoot_lt start) hloaded
  rw [hinterpreter]
  exact ⟨number, lookup_ofRoot hslot⟩

end Interpreter

end CommandScript
