import CommandScript.Eval
import CommandScript.Proofs.LibraryNames

/-!
# Assignments

An assignment writes one slot.  It is the slot of the nearest frame that holds the name, or a new
slot of the frame the assignment was asked of.  Nothing else in the store changes, and a read-only
slot refuses the assignment.

Frames are shared, so one write shows in every chain that runs through the written frame.  A name
looked up from any chain of frames is found as before, unless it is the assigned name and the
nearest frame that holds it is the written one.

The owner of a name and the value of a name are found by two searches of the same chain.  Both are
told here as a search of `Environment.frames`, the frames in the order they are asked.
-/

namespace CommandScript

/-! ## Chains of frames -/

mutual

/-- The frames that are asked for the owner of a name, nearest first. -/
def Environment.frames : Environment → List Environment
  | .root id => [.root id]
  | .child id parent => .child id parent :: parent.frames
termination_by structural environment => environment

/-- The frames behind a scope.  A target in front of a scope is no frame. -/
def Scope.frames : Scope → List Environment
  | .frame environment => environment.frames
  | .tell _ parent => parent.frames
  | .receiver _ => []
termination_by structural scope => scope

end

namespace Environment

/-- There are frames and no targets behind a frame. -/
inductive OnFrames : Environment → Prop
  | root (id : Nat) : OnFrames (.root id)
  | child (id : Nat) {parent : Environment} : OnFrames parent → OnFrames (.child id (.frame parent))

/-- The nearest frame that holds a name. -/
def nearest? (environment : Environment) (store : Store) (name : Name) : Option Environment :=
  environment.frames.find? fun frame => (store.frame frame.id).holds name

theorem frames_eq_cons (environment : Environment) :
    ∃ behind, environment.frames = environment :: behind := by
  cases environment with
  | root id => exact ⟨[], by rw [frames]⟩
  | child id parent => exact ⟨parent.frames, by rw [frames]⟩

/-- A frame that holds a name is itself the nearest one. -/
theorem nearest?_of_holds {environment : Environment} {store : Store} {name : Name}
    (h : (store.frame environment.id).holds name = true) :
    environment.nearest? store name = some environment := by
  obtain ⟨behind, hframes⟩ := environment.frames_eq_cons
  rw [nearest?, hframes]
  exact List.find?_cons_of_pos h

theorem nearest?_child (id : Nat) (parent : Environment) {store : Store} {name : Name}
    (h : (store.frame id).holds name = false) :
    (child id (.frame parent)).nearest? store name = parent.nearest? store name := by
  rw [nearest?, frames, List.find?_cons_of_neg (by simpa [Environment.id] using h), Scope.frames]
  rfl

theorem nearest?_root (id : Nat) {store : Store} {name : Name}
    (h : (store.frame id).holds name = false) : (root id).nearest? store name = none := by
  rw [nearest?, frames, List.find?_cons_of_neg (by simpa [Environment.id] using h)]
  rfl

end Environment

section Owner

variable {store : Store} {name : Name}

mutual

/-- The owner of a name is the nearest frame that holds it. -/
theorem Environment.owner?_eq_nearest? : ∀ environment : Environment,
    environment.owner? store name = (environment.nearest? store name).map Environment.id
  | .root id => by
    rw [Environment.owner?]
    cases h : (store.frame id).holds name with
    | true =>
      rw [if_pos rfl, Environment.nearest?_of_holds (by exact h)]
      rfl
    | false =>
      rw [if_neg (by decide), Environment.nearest?_root id h]
      rfl
  | .child id parent => by
    rw [Environment.owner?]
    cases h : (store.frame id).holds name with
    | true =>
      rw [if_pos rfl, Environment.nearest?_of_holds (by exact h)]
      rfl
    | false =>
      rw [if_neg (by decide), Environment.nearest?, Environment.frames,
        List.find?_cons_of_neg (by simpa [Environment.id] using h)]
      exact parent.owner?_eq_find?

theorem Scope.owner?_eq_find? : ∀ scope : Scope,
    scope.owner? store name =
      (scope.frames.find? fun frame => (store.frame frame.id).holds name).map Environment.id
  | .frame environment => by
    rw [Scope.owner?, Scope.frames]
    exact environment.owner?_eq_nearest?
  | .tell _ parent => by
    rw [Scope.owner?, Scope.frames]
    exact parent.owner?_eq_find?
  | .receiver _ => by
    rw [Scope.owner?, Scope.frames]
    rfl

end

end Owner

/-! ## Writing a slot -/

/-- Names with the same key have the same slot. -/
theorem Frame.slot?_congr {name other : Name} (frame : Frame) (h : name.key = other.key) :
    frame.slot? name = frame.slot? other := by
  have hsame (slot : Slot) : (slot.name == name) = (slot.name == other) := by
    change (slot.name.key == name.key) = (slot.name.key == other.key)
    rw [h]
  simp only [Frame.slot?, hsame]

theorem Frame.holds_eq_false {frame : Frame} {name : Name} :
    frame.holds name = false ↔ frame.slot? name = none := by
  simp [Frame.holds]

/-- The slots of other names are as they were. -/
theorem Frame.slot?_put_of_ne {name other : Name} (h : other.key ≠ name.key) (frame : Frame)
    (value : Value) (readOnly : Bool) :
    (Frame.put name value readOnly frame).slot? other = frame.slot? other := by
  induction frame with
  | nil =>
    have hother : ¬ (name == other) = true := fun hsame => h ((Name.beq_iff ..).1 hsame).symm
    simp [Frame.put, Frame.slot?, hother]
  | cons first rest ih =>
    by_cases hname : first.name == name
    · have hother : ¬ (first.name == other) = true := fun hsame =>
        h (((Name.beq_iff ..).1 hsame).symm.trans ((Name.beq_iff ..).1 hname))
      simp [Frame.put, Frame.slot?, hname, hother]
    · by_cases hother : first.name == other
      · simp [Frame.put, Frame.slot?, hname, hother]
      · simpa [Frame.put, Frame.slot?, hname, hother] using ih

/-- At most one slot is made, behind the others. -/
theorem Frame.map_name_put (frame : Frame) (name : Name) (value : Value) (readOnly : Bool) :
    (Frame.put name value readOnly frame).map Slot.name =
      frame.map Slot.name ++ if frame.holds name then [] else [name] := by
  induction frame with
  | nil => rfl
  | cons first rest ih =>
    by_cases hname : first.name == name
    · simp [Frame.put, Frame.holds, Frame.slot?, hname]
    · have hholds : Frame.holds (first :: rest) name = Frame.holds rest name := by
        simp [Frame.holds, Frame.slot?, hname]
      simp [Frame.put, hname, hholds, ih]

/-- One store differs from another by one slot of one frame. -/
structure Store.Writes (before after : Store) (number : Nat) (name : Name) (value : Value)
    (readOnly : Bool) : Prop where
  /-- No frame is made. -/
  size : after.frames.size = before.frames.size
  /-- Nothing is printed. -/
  printed : after.printed = before.printed
  /-- Nothing is numbered. -/
  nextId : after.nextId = before.nextId
  /-- The other frames are as they were. -/
  frames (other : Nat) : other ≠ number → after.frame other = before.frame other
  /-- In the written frame the other names have the slots they had. -/
  slots (other : Name) : other.key ≠ name.key →
    (after.frame number).slot? other = (before.frame number).slot? other
  /-- The slot is there, with the spelling it was first given. -/
  slot : (after.frame number).slot? name =
    some ⟨((before.frame number).slot? name).elim name Slot.name, value, readOnly⟩
  /-- The slots are the same ones, with a new one at the end if the name had none. -/
  names : (after.frame number).map Slot.name =
    (before.frame number).map Slot.name ++ if (before.frame number).holds name then [] else [name]

theorem Store.writes_put {store : Store} {number : Nat} (h : number < store.frames.size)
    (name : Name) (value : Value) (readOnly : Bool) :
    store.Writes (store.put number name value readOnly) number name value readOnly where
  size := Store.size_put
  printed := rfl
  nextId := rfl
  frames _ hother := Store.frame_put_of_ne hother
  slots _ hother := by
    rw [Store.frame_put_of_lt h]
    exact Frame.slot?_put_of_ne hother ..
  slot := by
    rw [Store.frame_put_of_lt h]
    exact Frame.slot?_put ..
  names := by
    rw [Store.frame_put_of_lt h]
    exact Frame.map_name_put ..

/-! ## What a write shows -/

section Shows

variable {before after : Store} {number : Nat} {name : Name} {value : Value} {readOnly : Bool}

/-- A name has the slot it had in every frame, unless it is the written slot. -/
theorem Store.Writes.slot?_of_ne (h : before.Writes after number name value readOnly)
    {id : Nat} {other : Name} (hother : ¬ (other.key = name.key ∧ id = number)) :
    (after.frame id).slot? other = (before.frame id).slot? other := by
  by_cases hid : id = number
  · subst hid
    exact h.slots other fun hkey => hother ⟨hkey, rfl⟩
  · rw [h.frames id hid]

theorem Store.Writes.slot?_of_key_eq (h : before.Writes after number name value readOnly)
    {other : Name} (hkey : other.key = name.key) :
    ∃ slot, (after.frame number).slot? other = some slot ∧ slot.value = value :=
  ⟨_, ((after.frame number).slot?_congr hkey).trans h.slot, rfl⟩

namespace Environment

/-- A frame with a slot for a name answers with it. -/
theorem lookup_of_slot {environment : Environment} {store : Store} {slot : Slot}
    (h : (store.frame environment.id).slot? name = some slot) :
    environment.lookup store name = .ok (some (slot.value, .frame environment)) := by
  cases environment with
  | root id =>
    rw [lookup, show (store.frame id).slot? name = some slot from h]
    rfl
  | child id parent =>
    rw [lookup, show (store.frame id).slot? name = some slot from h]

theorem lookup_of_no_slot {id : Nat} {parent : Environment} {store : Store}
    (h : (store.frame id).slot? name = none) :
    (child id (.frame parent)).lookup store name = parent.lookup store name := by
  rw [lookup, h, Scope.lookup]

/-- From a chain of frames, the nearest frame that holds a name answers with its slot. -/
theorem lookup_eq_nearest? {environment : Environment} (hframes : environment.OnFrames)
    (store : Store) (name : Name) :
    environment.lookup store name = .ok ((environment.nearest? store name).bind fun owner =>
      ((store.frame owner.id).slot? name).map fun slot => (slot.value, .frame owner)) := by
  induction hframes with
  | root id =>
    cases hslot : (store.frame id).slot? name with
    | none =>
      rw [nearest?_root id (Frame.holds_eq_false.2 hslot), lookup, hslot]
      rfl
    | some slot =>
      have hheld : (store.frame (root id).id).slot? name = some slot := hslot
      rw [lookup_of_slot hheld, nearest?_of_holds (by simp [Frame.holds, hheld]),
        Option.bind_some, hheld]
      rfl
  | @child id parent _ ih =>
    cases hslot : (store.frame id).slot? name with
    | none =>
      rw [nearest?_child id parent (Frame.holds_eq_false.2 hslot), lookup_of_no_slot hslot, ih]
    | some slot =>
      have hheld : (store.frame (child id (.frame parent)).id).slot? name = some slot := hslot
      rw [lookup_of_slot hheld, nearest?_of_holds (by simp [Frame.holds, hheld]),
        Option.bind_some, hheld]
      rfl

/-- A name is found in the written slot if the nearest frame that holds it is the written one. -/
theorem lookup_of_writes (h : before.Writes after number name value readOnly)
    {environment : Environment} (hframes : environment.OnFrames) {other : Name}
    (hkey : other.key = name.key)
    (hnearest : (environment.nearest? after other).map Environment.id = some number) :
    ∃ owner : Environment, owner.id = number ∧
      environment.lookup after other = .ok (some (value, .frame owner)) := by
  obtain ⟨owner, howner, rfl⟩ := Option.map_eq_some_iff.1 hnearest
  obtain ⟨slot, hslot, rfl⟩ := h.slot?_of_key_eq hkey
  refine ⟨owner, rfl, ?_⟩
  rw [lookup_eq_nearest? hframes, howner, Option.bind_some, hslot]
  rfl

/-- The written frame holds the name, so a search that ends elsewhere met no frame that changed. -/
theorem lookup_of_writes_elsewhere (h : before.Writes after number name value readOnly)
    {environment : Environment} (hframes : environment.OnFrames) {other : Name}
    (hnearest : ¬ (other.key = name.key ∧
      (environment.nearest? after other).map Environment.id = some number)) :
    environment.lookup after other = environment.lookup before other := by
  have hpassed {frame : Environment} (hnot : ¬ (other.key = name.key ∧
      (frame.nearest? after other).map Environment.id = some number)) :
      (after.frame frame.id).slot? other = (before.frame frame.id).slot? other := by
    refine h.slot?_of_ne fun ⟨hkey, hid⟩ => hnot ⟨hkey, ?_⟩
    obtain ⟨slot, hslot, -⟩ := h.slot?_of_key_eq hkey
    rw [nearest?_of_holds (by simp [Frame.holds, hid, hslot]), Option.map_some, hid]
  induction hframes with
  | root id => rw [lookup, lookup, show (after.frame id).slot? other = _ from hpassed hnearest]; rfl
  | @child id parent _ ih =>
    have hslot : (after.frame id).slot? other = (before.frame id).slot? other := hpassed hnearest
    cases hfound : (before.frame id).slot? other with
    | none =>
      rw [hfound] at hslot
      rw [lookup_of_no_slot hslot, lookup_of_no_slot hfound]
      rw [nearest?_child id parent (Frame.holds_eq_false.2 hslot)] at hnearest
      exact ih hnearest
    | some slot =>
      rw [hfound] at hslot
      exact (lookup_of_slot hslot).trans (lookup_of_slot hfound).symm

end Environment

end Shows

/-! ## Assignments -/

namespace Environment

/-- The frame whose slot an assignment finds under a name. -/
def holder? (environment : Environment) (thisFrameOnly : Bool) (store : Store) (name : Name) :
    Option Environment :=
  if thisFrameOnly then [environment].find? fun frame => (store.frame frame.id).holds name
  else environment.nearest? store name

/-- A found frame holds the name. -/
theorem holds_of_holder? {environment owner : Environment} {thisFrameOnly : Bool} {store : Store}
    {name : Name} (h : environment.holder? thisFrameOnly store name = some owner) :
    (store.frame owner.id).holds name = true := by
  unfold holder? nearest? at h
  split at h
  all_goals
    have hfound := List.find?_some h
    exact hfound

/-- Without one, the frame itself does not hold the name. -/
theorem holds_of_holder?_eq_none {environment : Environment} {thisFrameOnly : Bool} {store : Store}
    {name : Name} (h : environment.holder? thisFrameOnly store name = none) :
    (store.frame environment.id).holds name = false := by
  obtain ⟨behind, hframes⟩ := environment.frames_eq_cons
  unfold holder? nearest? at h
  rw [hframes] at h
  split at h
  all_goals simpa using List.find?_eq_none.1 h environment (List.mem_cons_self ..)

/-- An assignment goes to the frame found, or else to the frame it was asked of. -/
theorem assign_eq (environment : Environment) (name : Name) (value : Value)
    (readOnly thisFrameOnly : Bool) (store : Store) :
    environment.assign name value readOnly thisFrameOnly store =
      if (environment.holder? thisFrameOnly store name).any fun owner =>
          ((store.frame owner.id).slot? name).any Slot.readOnly then
        .error (.of (.readOnlyValue name.text))
      else .ok (store.put ((environment.holder? thisFrameOnly store name).getD environment).id
        name value readOnly) := by
  -- The definition asks for the owner's number, and takes the frame's own number without one.
  have howner : (if thisFrameOnly then environment.id
      else (environment.owner? store name).getD environment.id) =
      ((environment.holder? thisFrameOnly store name).getD environment).id := by
    cases thisFrameOnly with
    | false =>
      rw [if_neg (by decide), owner?_eq_nearest?, holder?, if_neg (by decide)]
      cases environment.nearest? store name <;> rfl
    | true =>
      rw [if_pos rfl, holder?, if_pos rfl]
      cases hholds : (store.frame environment.id).holds name <;> simp [hholds]
  unfold assign
  dsimp only
  rw [howner]
  cases hfound : environment.holder? thisFrameOnly store name with
  | none =>
    have hslot := Frame.holds_eq_false.1 (holds_of_holder?_eq_none hfound)
    simp only [Option.getD_none, hslot, Option.any_none, Bool.false_eq_true, if_false]
  | some owner =>
    obtain ⟨slot, hslot⟩ := Option.isSome_iff_exists.1 (holds_of_holder? hfound)
    simp only [Option.getD_some, hslot, Option.any_some]

/-- The frame that an assignment writes to is in the store. -/
theorem holder?_lt {environment : Environment} {store : Store}
    (hframe : environment.id < store.frames.size) (thisFrameOnly : Bool) (name : Name) :
    ((environment.holder? thisFrameOnly store name).getD environment).id < store.frames.size := by
  cases hfound : environment.holder? thisFrameOnly store name with
  | none => exact hframe
  | some owner =>
    refine Nat.lt_of_not_le fun hmissing => ?_
    have hnone : store.frames[owner.id]? = none := Array.getElem?_eq_none hmissing
    have hempty : store.frame owner.id = [] := by rw [Store.frame, hnone, Option.getD_none]
    have hholds := holds_of_holder? hfound
    rw [hempty] at hholds
    cases hholds

/-- An assignment is refused by a read-only slot, and the store is left alone.  Otherwise it writes
one slot, in the frame found or else in the frame it was asked of, and a name looked up from any
chain of frames is found as before, unless it is the assigned name and the nearest frame that holds
it is the written one. -/
theorem assign_writes_one_slot (environment : Environment) (name : Name) (value : Value)
    (readOnly thisFrameOnly : Bool) (store : Store)
    (hframe : environment.id < store.frames.size) :
    let holder := environment.holder? thisFrameOnly store name
    let written := (holder.getD environment).id
    let locked := holder.any fun owner => ((store.frame owner.id).slot? name).any Slot.readOnly
    let outcome := Eval.change (environment.assign name value readOnly thisFrameOnly) store
    (locked = true → outcome = .failed (.of (.readOnlyValue name.text)) store) ∧
    (locked = false → ∃ after, outcome = .done () after ∧
      store.Writes after written name value readOnly ∧
      ∀ start : Environment, start.OnFrames → ∀ other : Name,
        let shows := other.key = name.key ∧
          (start.nearest? after other).map Environment.id = some written
        (shows → ∃ owner : Environment, owner.id = written ∧
          start.lookup after other = .ok (some (value, .frame owner))) ∧
        (¬ shows → start.lookup after other = start.lookup store other)) := by
  dsimp only
  refine ⟨fun hlocked => ?_, fun hopen => ?_⟩
  · rw [Eval.change, assign_eq, if_pos hlocked]
  · have hwrites := Store.writes_put (holder?_lt hframe thisFrameOnly name) name value readOnly
    refine ⟨_, by rw [Eval.change, assign_eq, if_neg (by simp [hopen])], hwrites, ?_⟩
    intro start hstart other
    exact ⟨fun ⟨hkey, hnearest⟩ => lookup_of_writes hwrites hstart hkey hnearest,
      lookup_of_writes_elsewhere hwrites hstart⟩

/-- Two frames share a parent.  What one of them assigns to a name of the parent is seen by the
other, and a slot of its own hides it. -/
theorem assign_writes_one_slot_shared :
    let colour := Name.ofString "colour"
    let slot (value : String) : Frame := [⟨colour, .tag (.ofString value), false⟩]
    let store : Store := ⟨#[slot "red", [], [], slot "blue"], some "", 0⟩
    let frame (id : Nat) : Environment := .child id (.frame (.root 0))
    let green := Value.tag (.ofString "green")
    (frame 1).id < store.frames.size ∧
      ∃ after, Eval.change ((frame 1).assign (.ofString "Colour") green false false) store =
          .done () after ∧
        (frame 2).lookup after colour = .ok (some (green, .frame (.root 0))) ∧
        (frame 3).lookup after colour = (frame 3).lookup store colour := by
  intro colour slot store frame green
  have hframe : (frame 1).id < store.frames.size := by decide
  have hchain (id : Nat) : (frame id).OnFrames := .child id (.root 0)
  obtain ⟨-, hwritten⟩ :=
    assign_writes_one_slot (frame 1) (.ofString "Colour") green false false store hframe
  obtain ⟨after, hafter, -, hshows⟩ := hwritten (by decide +kernel)
  refine ⟨hframe, after, hafter, ?_, ?_⟩
  · cases hafter
    rfl
  · cases hafter
    exact (hshows (frame 3) (hchain 3) colour).2 (by decide +kernel)

end Environment

end CommandScript
