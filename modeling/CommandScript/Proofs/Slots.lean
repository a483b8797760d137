import CommandScript.Scope

/-!
# Slots and frames

What it means to put a value into a slot, and which slots an assignment can reach.  An assignment
changes one slot, or makes one.  The slot is in the frame it was asked of, or in a frame behind it
that already has the name, and it was not read-only before.
-/

namespace CommandScript

/-! ## Frames -/

namespace Frame

variable {name other : Name} {value : Value} {readOnly : Bool} {slot : Slot}

/-- No slot is lost, and one that is read-only stays as it is. -/
def Preserves (before after : Frame) : Prop :=
  ∀ name slot, before.slot? name = some slot →
    ∃ now, after.slot? name = some now ∧ (slot.readOnly = true → now = slot)

theorem Preserves.refl (frame : Frame) : frame.Preserves frame :=
  fun _ slot h => ⟨slot, h, fun _ => rfl⟩

/-- Slots that are kept twice are kept. -/
theorem Preserves.trans {before middle after : Frame} (h : before.Preserves middle)
    (h' : middle.Preserves after) : before.Preserves after := by
  intro name slot hslot
  obtain ⟨between, hbetween, hkept⟩ := h name slot hslot
  obtain ⟨now, hnow, hkept'⟩ := h' name between hbetween
  refine ⟨now, hnow, fun hreadOnly => ?_⟩
  obtain rfl := hkept hreadOnly
  exact hkept' hreadOnly

/-- A slot that is not read-only, or is not there, can be put without harm to the others. -/
theorem preserves_put {frame : Frame}
    (h : ∀ slot, frame.slot? name = some slot → slot.readOnly = false) :
    frame.Preserves (put name value readOnly frame) := by
  induction frame with
  | nil => exact fun _ _ hslot => nomatch hslot
  | cons first rest ih =>
    intro other slot hslot
    by_cases hname : first.name == name
    · have hopen : first.readOnly = false := h first (by simp [slot?, hname])
      by_cases hother : first.name == other
      · have hfirst : first = slot := by simpa [slot?, hother] using hslot
        subst hfirst
        refine ⟨⟨first.name, value, readOnly⟩, by simp [slot?, put, hname, hother], ?_⟩
        intro hreadOnly
        simp [hopen] at hreadOnly
      · refine ⟨slot, ?_, fun _ => rfl⟩
        simpa [slot?, put, hname, hother] using hslot
    · by_cases hother : first.name == other
      · refine ⟨slot, ?_, fun _ => rfl⟩
        simpa [slot?, put, hname, hother] using hslot
      · have hrest := ih (fun found hfound => h found (by simpa [slot?, hname] using hfound))
          other slot (by simpa [slot?, hother] using hslot)
        simpa [slot?, put, hname, hother] using hrest

/-- Every slot was there before, or is the one that was put. -/
theorem mem_put {frame : Frame} (h : slot ∈ put name value readOnly frame) :
    slot ∈ frame ∨ slot.value = value ∧ slot.readOnly = readOnly := by
  induction frame with
  | nil =>
    obtain rfl := List.mem_singleton.1 h
    exact .inr ⟨rfl, rfl⟩
  | cons first rest ih =>
    unfold put at h
    split at h
    next =>
      rcases List.mem_cons.1 h with rfl | hrest
      · exact .inr ⟨rfl, rfl⟩
      · exact .inl (List.mem_cons_of_mem _ hrest)
    next =>
      rcases List.mem_cons.1 h with rfl | hrest
      · exact .inl (List.mem_cons_self ..)
      · exact (ih hrest).imp (List.mem_cons_of_mem _) id

end Frame

/-! ## Stores -/

namespace Store

variable {store : Store} {number other : Nat} {name : Name} {value : Value} {readOnly : Bool}

@[simp] theorem frame_newId (store : Store) (number : Nat) :
    store.newId.2.frame number = store.frame number := rfl

@[simp] theorem frame_print (store : Store) (line : String) (number : Nat) :
    (store.print line).frame number = store.frame number := rfl

/-- Using up a number, printing a line or adding a frame changes no frame that is there. -/
@[simp] theorem frame_newFrame (store : Store) (number : Nat) :
    store.newFrame.2.frame number = store.frame number := by
  simp only [frame, newFrame, Array.getElem?_push]
  split
  next h => simp [h]
  next => rfl

/-- Putting a slot changes one frame. -/
theorem frame_put_of_ne (h : other ≠ number) :
    (store.put number name value readOnly).frame other = store.frame other := by
  simp only [frame, put, Array.getElem?_modify]
  split
  next heq => exact absurd heq.symm h
  next => rfl

/-- In the frame itself the slot is put, unless there is no such frame. -/
theorem frame_put_self (store : Store) (number : Nat) (name : Name) (value : Value)
    (readOnly : Bool) :
    (store.put number name value readOnly).frame number =
        Frame.put name value readOnly (store.frame number) ∨
      (store.put number name value readOnly).frame number = store.frame number := by
  simp only [frame, put, Array.getElem?_modify, if_true]
  cases store.frames[number]? with
  | some slots => exact .inl rfl
  | none => exact .inr rfl

@[simp] theorem size_newFrame (store : Store) :
    store.newFrame.2.frames.size = store.frames.size + 1 := by
  simp [newFrame]

@[simp] theorem size_put :
    (store.put number name value readOnly).frames.size = store.frames.size := by
  simp [put]

/-- No frame and no slot is lost, and a slot that is read-only stays as it is. -/
structure Preserves (before after : Store) : Prop where
  /-- The frames are still there. -/
  frames : before.frames.size ≤ after.frames.size
  /-- So are their slots. -/
  slots (number : Nat) : (before.frame number).Preserves (after.frame number)

theorem Preserves.refl (store : Store) : store.Preserves store :=
  ⟨Nat.le_refl _, fun number => .refl (store.frame number)⟩

theorem Preserves.trans {before middle after : Store} (h : before.Preserves middle)
    (h' : middle.Preserves after) : before.Preserves after :=
  ⟨Nat.le_trans h.frames h'.frames, fun number => (h.slots number).trans (h'.slots number)⟩

/-- The frames are as they were, with perhaps more of them. -/
theorem preserves_of_frame_eq {before after : Store}
    (hsize : before.frames.size ≤ after.frames.size)
    (h : ∀ number, after.frame number = before.frame number) : before.Preserves after := by
  refine ⟨hsize, fun number => ?_⟩
  rw [h number]
  exact .refl (before.frame number)

theorem preserves_put
    (h : ∀ slot, (store.frame number).slot? name = some slot → slot.readOnly = false) :
    store.Preserves (store.put number name value readOnly) := by
  refine ⟨by simp, fun other => ?_⟩
  by_cases hother : other = number
  · subst hother
    rcases frame_put_self store other name value readOnly with heq | heq
    · rw [heq]
      exact Frame.preserves_put h
    · rw [heq]
      exact .refl (store.frame other)
  · rw [frame_put_of_ne hother]
    exact .refl (store.frame other)

/-- Every slot of a frame was there before, or is the one that was put. -/
theorem mem_frame_put {slot : Slot}
    (h : slot ∈ (store.put number name value readOnly).frame other) :
    slot ∈ store.frame other ∨ slot.value = value ∧ slot.readOnly = readOnly := by
  by_cases hother : other = number
  · subst hother
    rcases frame_put_self store other name value readOnly with heq | heq
    · rw [heq] at h
      exact Frame.mem_put h
    · rw [heq] at h
      exact .inl h
  · rw [frame_put_of_ne hother] at h
    exact .inl h

end Store

/-! ## Assignments -/

mutual

/-- The owner of a name has it. -/
theorem Environment.owner?_holds {store : Store} {name : Name} {owner : Nat} :
    ∀ (environment : Environment), environment.owner? store name = some owner →
      (store.frame owner).holds name = true
  | .root number, h => by
    unfold Environment.owner? at h
    split at h
    next hholds =>
      cases h
      exact hholds
    next => cases h
  | .child number parent, h => by
    unfold Environment.owner? at h
    split at h
    next hholds =>
      cases h
      exact hholds
    next => exact parent.owner?_holds h

/-- The frame that owns a name holds it. -/
theorem Scope.owner?_holds {store : Store} {name : Name} {owner : Nat} :
    ∀ (scope : Scope), scope.owner? store name = some owner →
      (store.frame owner).holds name = true
  | .frame environment, h => environment.owner?_holds h
  | .tell _ parent, h => parent.owner?_holds h
  | .receiver _, h => nomatch h

end

/-- The slot that an assignment from a frame may put: it is in the frame or already there, and not
read-only. -/
structure Store.Assignable (store : Store) (start : Nat) (name : Name) (owner : Nat) : Prop where
  /-- It is in the frame itself, or in a frame that has the name. -/
  reached : owner = start ∨ (store.frame owner).holds name = true
  /-- It is not read-only. -/
  editable : ∀ slot, (store.frame owner).slot? name = some slot → slot.readOnly = false

/-- An assignment puts one slot. -/
theorem Environment.assign_put {environment : Environment} {name : Name} {value : Value}
    {readOnly thisFrameOnly : Bool} {store after : Store}
    (h : environment.assign name value readOnly thisFrameOnly store = .ok after) :
    ∃ owner, store.Assignable environment.id name owner ∧
      after = store.put owner name value readOnly := by
  unfold Environment.assign at h
  dsimp only at h
  generalize howner : (if thisFrameOnly then environment.id
    else (environment.owner? store name).getD environment.id) = owner at h
  have hreached : owner = environment.id ∨ (store.frame owner).holds name = true := by
    split at howner
    next => exact .inl howner.symm
    next =>
      cases hfound : environment.owner? store name with
      | none =>
        simp only [hfound, Option.getD_none] at howner
        exact .inl howner.symm
      | some found =>
        simp only [hfound, Option.getD_some] at howner
        subst howner
        exact .inr (environment.owner?_holds hfound)
  split at h
  next slot hslot =>
    split at h
    next => cases h
    next hopen =>
      cases h
      refine ⟨owner, ⟨hreached, fun found hfound => ?_⟩, rfl⟩
      rw [hslot] at hfound
      cases hfound
      simpa using hopen
  next hslot =>
    cases h
    refine ⟨owner, ⟨hreached, fun found hfound => ?_⟩, rfl⟩
    rw [hslot] at hfound
    cases hfound

end CommandScript
