import CommandScript.Library.Handlers
import CommandScript.Proofs.LexicalScope
import CommandScript.Proofs.LibraryNames
import CommandScript.Proofs.Routing

/-!
# The target of `tell`

The target is coerced once, where the command was written, and the body runs behind what came of it.
Code is run there until it comes to a value that is none, and a computed record gets its fields.  No
code is left in them, so what the body looks up in the target is data: evaluating it again runs
nothing and finds no name to look up.

A list, a record with keys and a reference are handed on as they are.  If code was left in them, it
is found by the body and runs there.
-/

namespace CommandScript

/-! ## Evaluating data -/

/-- Between two stores nothing was stored and nothing printed.  Numbers may have been used up. -/
structure Store.Untouched (before after : Store) : Prop where
  frames : after.frames = before.frames
  printed : after.printed = before.printed

theorem Store.Untouched.refl (store : Store) : store.Untouched store := ⟨rfl, rfl⟩

theorem Store.Untouched.newId {before after : Store} (h : before.Untouched after) :
    before.Untouched after.newId.2 := ⟨h.frames, h.printed⟩

/-- An evaluation that touches nothing, and what is known of its result otherwise. -/
theorem Eval.Ensures.and_result {α : Type} {kept : Store → Prop} {P Q : α → Prop} {action : Eval α}
    (hkept : action.Ensures kept P anyError)
    (hresult : action.Ensures (fun _ => True) Q anyError) :
    action.Ensures kept Q anyError := by
  intro store hk
  have hkeptEnd := hkept store hk
  have hresultEnd := hresult store trivial
  cases haction : action store with
  | done value after =>
    rw [haction] at hkeptEnd hresultEnd
    exact ⟨hkeptEnd.1, hresultEnd.2⟩
  | failed problem after =>
    rw [haction] at hkeptEnd
    exact hkeptEnd
  | outOfFuel => trivial

namespace Evaluation

variable {fuel : Nat} {start : Store} {scope : Scope} {wanted : Coercion} {value : Value}

/-- The evaluation touches nothing. -/
abbrev Inert {α : Type} (start : Store) (action : Eval α) : Prop :=
  action.Ensures start.Untouched (fun _ => True) anyError

/-- Evaluating data with a given amount of fuel touches nothing. -/
def LeavesData (fuel : Nat) (start : Store) : Prop :=
  ∀ {wanted : Coercion} {value : Value} (scope : Scope), value.Evaluated →
    Inert start (coerce fuel wanted value scope)

/-- Coercing data item by item changes nothing in the store. -/
theorem coerceItems_inert (h : LeavesData fuel start) {items : List Value}
    (hitems : ∀ item ∈ items, item.Evaluated) :
    Inert start (coerceItems (evaluator fuel) scope wanted items) := by
  refine Eval.Ensures.result (.forEach (Q := fun _ => True) fun item hitem => ?_) fun _ _ => trivial
  exact (h scope (hitems item hitem)).mapError fun _ _ => trivial

/-- Nor does resolving a record of data. -/
theorem resolve_inert (h : LeavesData fuel start) {entries : List (Key × Value)}
    (hentries : ∀ entry ∈ entries, entry.2.Evaluated) :
    Inert start (resolve (evaluator fuel) scope wanted (.fields entries)) := by
  refine .bind (.forEach (Q := fun _ => True) fun entry hentry => ?_) fun found _ => ?_
  · refine .bind ((h scope (hentries entry hentry)).mapError fun _ _ => trivial) fun _ _ => ?_
    exact .pure trivial
  · unfold recordOf
    split
    next => exact .pure trivial
    next => exact .failWith trivial

theorem asAnything_inert (h : LeavesData fuel start) (hvalue : value.Evaluated) :
    Inert start (asAnything (evaluator fuel) scope wanted value) := by
  cases hvalue with
  | list hitems => exact .bind (coerceItems_inert h hitems) fun _ _ => .pure trivial
  | record hentries => exact .bind (resolve_inert h hentries) fun _ _ => .pure trivial
  | pair hvalue => exact .bind (h scope hvalue) fun _ _ => .pure trivial
  | _ => exact .pure trivial

theorem asList_inert {item : Coercion} (h : LeavesData fuel start) (hvalue : value.Evaluated) :
    Inert start (asList (evaluator fuel) scope item value) := by
  have hself := hvalue
  cases hvalue with
  | list hitems => exact .bind (coerceItems_inert h hitems) fun _ _ => .pure trivial
  | @record entries hentries =>
    have hresolved :=
      (resolve_inert h hentries).and_result (resolve_evaluated fuel scope (.fields entries))
    refine .bind hresolved fun record hrecord => ?_
    refine .bind (coerceItems_inert h fun pair hpair => ?_) fun _ _ => .pure trivial
    obtain ⟨entry, hentry, rfl⟩ := List.mem_map.1 hpair
    cases record with
    | fields found => exact .pair (hrecord.2 entry hentry)
    | computed _ => exact hrecord.elim
  | _ =>
    exact .bind ((h scope hself).mapError fun _ _ => trivial) fun _ _ => .pure trivial

theorem asRecord_inert {field : Coercion} (h : LeavesData fuel start) (hvalue : value.Evaluated) :
    Inert start (asRecord (evaluator fuel) scope field value) := by
  cases hvalue with
  | record hentries => exact .bind (resolve_inert h hentries) fun _ _ => .pure trivial
  | @list items _ =>
    cases items with
    | nil => exact .pure trivial
    | cons _ _ => exact .failWith trivial
  | _ => exact .failWith trivial

/-- Data is a target as it is, or none. -/
theorem asTarget_inert (hvalue : value.Evaluated) :
    Inert start (asTarget (evaluator fuel) scope value) := by
  cases hvalue with
  | nothing | list _ | record _ | reference => exact .pure trivial
  | _ => exact .failWith trivial

theorem runOrConvert_inert {convert : Value → Eval Value} (hvalue : value.Evaluated)
    (h : Inert start (convert value)) :
    Inert start (runOrConvert (evaluator fuel) scope wanted value convert) := by
  cases hvalue with
  | nothing => exact .failWith trivial
  | _ => exact h

/-- At each level of coercing, data runs no code. -/
theorem coerceWith_inert (h : LeavesData fuel start) (hvalue : value.Evaluated) :
    Inert start (coerceWith (evaluator fuel) wanted value scope) := by
  have hatom {convert : Value → Eval Value} {P : Value → Prop}
      (hensures : (convert value).Ensures start.Untouched P EvalError.Plain) :
      Inert start (runOrConvert (evaluator fuel) scope wanted value convert) :=
    runOrConvert_inert hvalue (hensures.mono (fun _ _ => trivial) fun _ _ => trivial)
  have hanything {kind : Coercion} :
      Inert start (coerceAnything (evaluator fuel) kind value scope) := by
    have hconvert : Inert start (runOrConvert (evaluator fuel) scope kind value
        (asAnything (evaluator fuel) scope kind)) :=
      runOrConvert_inert hvalue (asAnything_inert h hvalue)
    refine .recover (.bind hconvert fun _ _ => .pure trivial) (.done trivial) fun _ _ _ => trivial
  cases wanted with
  | anything | value => exact hanything
  | expression => exact .pure trivial
  | lazy inner =>
    exact .bind (P := fun _ => True) (.make fun _ hs => ⟨hs.newId, trivial⟩)
      fun _ _ => .pure trivial
  | optional inner => exact .recover (h scope hvalue) (.done trivial) fun _ _ _ => trivial
  | default fallback inner =>
    exact .recover (h scope hvalue) (.done trivial) fun _ _ _ => trivial
  | noResult => exact .bind (h scope hvalue) fun _ _ => .pure trivial
  | boolean => exact hatom (asBoolean_ensures value)
  | text => exact hatom (asText_ensures value)
  | number | real => exact hatom (asNumber_ensures _ value)
  | integer => exact hatom (asInteger_ensures value)
  | tag => exact hatom (asTag_ensures value)
  | recordKey => exact hatom (asRecordKey_ensures value)
  | coercion => exact hatom (asCoercion_ensures value)
  | handler => exact hatom (asCallable_ensures value)
  | list item => exact runOrConvert_inert hvalue (asList_inert h hvalue)
  | record field => exact runOrConvert_inert hvalue (asRecord_inert h hvalue)
  | reference =>
    have htarget : Inert start (asTarget (evaluator fuel) scope value) := asTarget_inert hvalue
    cases hvalue <;> exact htarget

/-- With any fuel, coercing data leaves the store untouched. -/
theorem leavesData (fuel : Nat) (start : Store) : LeavesData fuel start := by
  induction fuel with
  | zero => exact fun _ _ => .exhausted
  | succ fuel ih => exact fun _ hvalue => coerceWith_inert ih hvalue

end Evaluation

/-! ## What targets give -/

/-- No code is left in what a target holds.  A frame has what was stored in it. -/
def Target.Evaluated : Target → Prop
  | .list items => ∀ item ∈ items, item.Evaluated
  | .record (.fields entries) => ∀ entry ∈ entries, entry.2.Evaluated
  | .record (.computed _) => False
  | .frame _ => True

/-- A list or record gives a value: an attribute, an item, some items, or a field. -/
inductive Target.Gives (store : Store) : Target → Value → Prop where
  | listAttribute {items : List Value} {name : Name} {value : Value} :
      (Target.list items).get store name = .ok value → Gives store (.list items) value
  | recordAttribute {record : Record} {name : Name} {value : Value} :
      (Target.record record).get store name = .ok value → Gives store (.record record) value
  | item {items : List Value} {index : Int64} {value : Value} :
      listItem items index = .ok value → Gives store (.list items) value
  | items {items found : List Value} {first last : Int64} :
      listRange items first last = .ok found → Gives store (.list items) (.list found)
  | field {record : Record} {key : Key} {value : Value} :
      record.get? key = some value → Gives store (.record record) value

theorem Record.entries_evaluated {record : Record} (h : (Target.record record).Evaluated) :
    ∀ entry ∈ record.entries, entry.2.Evaluated := by
  cases record with
  | fields entries => exact h
  | computed pairs => exact h.elim

/-- A target without code gives data. -/
theorem Target.Gives.evaluated {store : Store} {target : Target} {value : Value}
    (h : target.Gives store value) (htarget : target.Evaluated) : value.Evaluated := by
  have hkey (key : Key) : (Value.ofKey key).Evaluated := by
    cases key with
    | text content => exact .text
    | tag name => exact .tag
  cases h with
  | listAttribute hget =>
    exact listAttribute_holds (fun _ => .text) (fun _ hfound => .list hfound) htarget hget
  | recordAttribute hget =>
    exact recordAttribute_holds (fun _ => .text) hkey (fun _ hfound => .list hfound)
      (Record.entries_evaluated htarget) hget
  | item hitem => exact htarget _ (listItem_mem hitem)
  | items hrange => exact .list fun item hitem => htarget item (listRange_subset hrange item hitem)
  | field hfield =>
    obtain ⟨entry, hentry, rfl⟩ := Record.mem_entries_of_get? hfield
    exact Record.entries_evaluated htarget entry hentry

/-! ## What code comes to -/

namespace Evaluation

/-- Running a value, and each answer that is code in turn, comes to a value. -/
inductive ComesTo (wanted : Coercion) (scope : Scope) : Value → Store → Value → Store → Prop where
  | refl {value : Value} {store : Store} : ComesTo wanted scope value store value store
  | step {fuel : Nat} {value answer result : Value} {store between after : Store} :
      Runs (evaluator fuel) wanted scope value store (.done answer between) →
      ComesTo wanted scope answer between result after →
      ComesTo wanted scope value store result after

/-- As a target, the value has no code in it.  A computed record may, since it gets its fields
first. -/
def IsPlainTarget : Value → Prop
  | .record (.computed _) => True
  | value => ∀ target, value.toTarget? = some target → target.Evaluated

variable {fuel : Nat} {value result : Value} {scope : Scope} {store after : Store}

/-- A target is made of what the value comes to. -/
theorem coerce_reference_comesTo
    (h : coerce fuel .reference value scope store = .done result after) :
    ∃ fuel' answer between, ComesTo .reference scope value store answer between ∧
      asTarget (evaluator fuel') scope answer between = .done result after := by
  induction fuel generalizing value store with
  | zero => cases h
  | succ fuel ih =>
    cases hvalue : value.isExpression with
    | true =>
      have hrun : runOr (evaluator fuel) scope .reference value
          (asTarget (evaluator fuel) scope value) store = .done result after := h
      obtain ⟨outcome, hruns, hends⟩ := runOr_eq_andThen (evaluator_handsOn fuel) .reference scope
        hvalue (asTarget (evaluator fuel) scope value) store
      obtain ⟨answer, between, rfl, hanswer⟩ := Outcome.andThen_eq_done (hends.symm.trans hrun)
      obtain ⟨fuel', last, reached, hcomes, htarget⟩ := ih hanswer
      exact ⟨fuel', last, reached, .step hruns hcomes, htarget⟩
    | false =>
      refine ⟨fuel, value, store, .refl, ?_⟩
      cases value with
      | identifier _ | command _ | block _ | thunk _ _ _ _ => cases hvalue
      | _ => exact h

/-- What a reference is coerced to has the shape of one. -/
theorem reference_shape (h : coerce fuel .reference value scope store = .done result after) :
    Coercion.Shape .reference result :=
  ((coerce_ensures_shape fuel .reference value scope).of_done trivial h).2

/-- What is made a target has no code in it, unless it had before. -/
theorem asTarget_evaluated (h : asTarget (evaluator fuel) scope value store = .done result after)
    (hplain : IsPlainTarget value) :
    ∀ target, result.toTarget? = some target → target.Evaluated := by
  cases value with
  | nothing | didNothing =>
    cases h
    rintro target ⟨⟩
  | list items =>
    cases h
    exact hplain
  | reference id target =>
    cases h
    exact hplain
  | record record =>
    cases record with
    | fields entries =>
      cases h
      exact hplain
    | computed pairs =>
      obtain ⟨found, between, hresolve, hdone⟩ := Outcome.andThen_eq_done h
      cases hdone
      obtain ⟨-, hholds⟩ :=
        (resolve_evaluated fuel scope (.computed pairs)).of_done trivial hresolve
      rintro target ⟨⟩
      cases found with
      | fields entries => exact hholds.2
      | computed _ => exact hholds.elim
  | _ => cases h

/-- A target without code is data. -/
theorem evaluated_of_shape (hshape : Coercion.Shape .reference result)
    (h : ∀ target, result.toTarget? = some target → target.Evaluated) : result.Evaluated := by
  rcases hshape with rfl | ⟨items, rfl⟩ | ⟨entries, rfl⟩ | ⟨number, target, rfl⟩
  · exact .nothing
  · exact .list (h _ rfl)
  · exact .record (h _ rfl)
  · exact .reference

/-! ## Telling -/

/-- In the library only one handler tells, with a target and an action. -/
theorem tell_parameters : ∀ definition ∈ Library.handlers, definition.body = .tell →
    definition.interface.parameters =
      [Library.parameter "target" .reference, Library.action] := by
  have hknown : Library.define "tell" [Library.parameter "target" .reference, Library.action]
      .anything .tell ∈ Library.handlers := by
    simp [Library.handlers, Library.controlHandlers]
  intro definition hmem hbody
  rw [Library.eq_of_body_eq hmem hknown hbody]
  rfl

/-- What was made a target is taken as it is. -/
theorem unboxReference_target {target : Target} (hshape : Coercion.Shape .reference result)
    (htarget : result.toTarget? = some target) (fuel : Nat) (scope : Scope) (store : Store) :
    ∃ id after, store.Untouched after ∧
      Bridge.unboxReference (evaluator (fuel + 1)) scope result store =
        .done ⟨id, target⟩ after := by
  rcases hshape with rfl | ⟨items, rfl⟩ | ⟨entries, rfl⟩ | ⟨number, target, rfl⟩
  · cases htarget
  · cases htarget
    exact ⟨_, _, (Store.Untouched.refl store).newId, rfl⟩
  · cases htarget
    exact ⟨_, _, (Store.Untouched.refl store).newId, rfl⟩
  · cases htarget
    exact ⟨_, _, .refl store, rfl⟩

/-- To tell a target to act is to coerce the target where the command was written, and the action
behind what came of it. -/
theorem callHandler_tell {interface : Interface} {command : Command} {body : Value}
    {target : Target} (id : Nat) (owner : Scope) (wanted : Coercion)
    (hparameters : interface.parameters =
      [Library.parameter "target" .reference, Library.action])
    (harguments : command.arguments = [⟨none, value⟩, ⟨none, body⟩])
    (hreference : coerce fuel .reference value scope store = .done result after)
    (htarget : result.toTarget? = some target) :
    ∃ before, after.Untouched before ∧
      callHandler (evaluator fuel) command scope owner wanted
          (.primitive id interface .tell) store =
        ((coerce fuel .anything body (.tell target scope)).causing
            (handlerFailure interface.name command) >>=
          fun answer => coerce fuel wanted answer scope) before := by
  cases fuel with
  | zero => cases hreference
  | succ fuel =>
    have hbound : bindArguments (evaluator (fuel + 1)) interface command scope false store =
        .done [result, body] after := by
      have hvalue (failure : Failure) :
          ((evaluator (fuel + 1)).coerce .reference value scope).mapError (.caused failure) store =
            .done result after := by
        simp only [Eval.mapError, evaluator, hreference]
      have hvalues : bindParameters (evaluator (fuel + 1)) interface.name scope
          [Library.parameter "target" .reference, Library.action] true
          [⟨none, value⟩, ⟨none, body⟩] store = .done ([result, body], []) after :=
        Eval.bind_done (hvalue _)
      unfold bindArguments
      rw [hparameters, harguments]
      exact Eval.bind_done hvalues
    obtain ⟨number, before, huntouched, hunbox⟩ :=
      unboxReference_target (reference_shape hreference) htarget fuel scope after
    refine ⟨before, huntouched, (Eval.bind_done hbound).trans ?_⟩
    have hperform : perform (evaluator (fuel + 1)) ⟨command, scope, [result, body]⟩ .tell after =
        coerce (fuel + 1) .anything body (.tell target scope) before :=
      Eval.bind_done hunbox
    have hcausing (tell : Store → Failure) :
        (perform (evaluator (fuel + 1)) ⟨command, scope, [result, body]⟩ .tell).causing tell after =
          (coerce (fuel + 1) .anything body (.tell target scope)).causing tell before := by
      simp only [Eval.causing, hperform]
    rw [Eval.bind_apply, Eval.bind_apply, hcausing]
    rfl

/-- A target is evaluated where the command was written, and once.

* What `reference` gives has no code in it.
* What the body gets from the target is data.  Evaluating it stores and prints nothing, and gives
  the same wherever it is evaluated.
* To tell the target to act is to coerce the target, and then only the action behind it.

Left out are targets that come to a list, a record with keys or a reference in which there is
code. -/
theorem coerce_reference_evaluated (fuel : Nat) (value result : Value) (scope : Scope)
    (store after : Store)
    (hdone : coerce fuel .reference value scope store = .done result after)
    (hplain : ∀ answer between, ComesTo .reference scope value store answer between →
      IsPlainTarget answer) :
    result.Evaluated ∧
    ∀ target, result.toTarget? = some target →
      (∀ now found, target.Gives now found →
        found.Evaluated ∧
        ∀ more wanted here,
          (coerce more wanted found here now).Ends now.Untouched (fun _ => True) anyError ∧
          (wanted.IsEager → ∀ there,
            coerce more wanted found here now = coerce more wanted found there now)) ∧
      ∀ definition ∈ Library.handlers, definition.body = .tell →
        ∀ id command body owner wanted, command.arguments = [⟨none, value⟩, ⟨none, body⟩] →
          ∃ before, after.Untouched before ∧
            callHandler (evaluator fuel) command scope owner wanted
                (.primitive id definition.interface definition.body) store =
              ((coerce fuel .anything body (.tell target scope)).causing
                  (handlerFailure definition.interface.name command) >>=
                fun answer => coerce fuel wanted answer scope) before := by
  obtain ⟨fuel', answer, between, hcomes, htarget⟩ := coerce_reference_comesTo hdone
  have hevaluated := asTarget_evaluated htarget (hplain answer between hcomes)
  refine ⟨evaluated_of_shape (reference_shape hdone) hevaluated, fun target hresult => ⟨?_, ?_⟩⟩
  · intro now found hgives
    have hfound := hgives.evaluated (hevaluated target hresult)
    refine ⟨hfound, fun more wanted here => ⟨?_, fun heager there => ?_⟩⟩
    · exact leavesData more now here hfound now (.refl now)
    · exact congrFun (evaluator_agrees more here there heager hfound) now
  · intro definition hmem hbody id command body owner wanted harguments
    rw [hbody]
    exact callHandler_tell id owner wanted (tell_parameters definition hmem hbody) harguments hdone
      hresult

/-- A block that answers a computed record, whose only field has the name that its value stands
for. -/
theorem coerce_reference_evaluated_shadowed :
    let colour := Name.ofString "colour"
    let store : Store := ⟨#[[⟨colour, .boolean true, false⟩]], none, 0⟩
    let value : Value := .block [.record (.computed [(.tag colour, .identifier colour)])]
    let record : Record := .fields [(.tag colour, .boolean true)]
    coerce 5 .reference value (.frame (.root 0)) store = .done (.record record) store ∧
      (Value.record record).Evaluated ∧
      ∀ found, (Target.record record).Gives store found → found.Evaluated := by
  intro colour store value record
  have hdone : coerce 5 .reference value (.frame (.root 0)) store =
      .done (.record record) store := by
    dsimp only [record, value, store, colour]
    rfl
  -- The block runs in one step, and the record it answers is no code.
  have hplain : ∀ answer between,
      ComesTo .reference (.frame (.root 0)) value store answer between → IsPlainTarget answer := by
    intro answer between hcomes
    simp only [value] at hcomes
    cases hcomes with
    | refl => rintro target ⟨⟩
    | @step fuel _ _ _ _ _ _ hruns hcomes =>
      cases hruns with
      | block hrun =>
        cases fuel with
        | zero => cases hrun
        | succ fuel =>
          cases hrun
          cases hcomes with
          | refl => trivial
          | step hruns _ => cases hruns
  obtain ⟨hresult, htarget⟩ :=
    coerce_reference_evaluated 5 value (.record record) (.frame (.root 0)) store store hdone hplain
  obtain ⟨hgives, -⟩ := htarget _ rfl
  exact ⟨hdone, hresult, fun found hfound => (hgives store found hfound).1⟩

/-- A list is handed on with the code in it, and the body runs that code behind the list: `last`
is looked up in the list itself, and not where the target was written. -/
theorem list_target_runs_in_body :
    let last := Name.ofString "last"
    let store : Store := ⟨#[[⟨last, .boolean true, false⟩]], none, 0⟩
    let items : List Value := [.identifier last, .boolean false]
    let here : Scope := .frame (.root 0)
    coerce 4 .reference (.list items) here store = .done (.list items) store ∧
      ¬(Value.list items).Evaluated ∧
      coerce 4 .anything (.identifier last) here store = .done (.boolean true) store ∧
      coerce 4 .anything (.identifier (.ofString "first")) (.tell (.list items) here) store =
        .done (.boolean false) store := by
  refine ⟨rfl, fun hevaluated => ?_, rfl, rfl⟩
  cases hevaluated with
  | list hitems => cases hitems _ (List.mem_cons_self ..)

end Evaluation

end CommandScript
