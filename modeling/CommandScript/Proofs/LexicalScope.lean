import CommandScript.Proofs.Soundness

/-!
# Lexical scope

The body of a handler runs in front of the scope the handler was found in.  The calling scope is
used twice only: to coerce the arguments, and to coerce what the body answered.  Neither of them
looks anything up there, as long as both are values with no code left in them.

* Coercing an evaluated value gives the same in every scope, unless a thunk is made of it.
* What a return coercion gives is evaluated, unless the coercion hands on what it is given.

So a call with evaluated arguments ends in the same way from everywhere.
-/

namespace CommandScript

/-! ## The parts of coercions -/

namespace Coercion

/-- The coercions that a coercion is built from, itself included. -/
def parts : Coercion → List Coercion
  | .list item => .list item :: item.parts
  | .record field => .record field :: field.parts
  | .optional inner => .optional inner :: inner.parts
  | .lazy inner => .lazy inner :: inner.parts
  | .default fallback inner => .default fallback inner :: inner.parts
  | simple => [simple]
termination_by structural c => c

/-- Whether a coercion makes a thunk. -/
def isLazy : Coercion → Bool
  | .lazy _ => true
  | _ => false

/-- Whether code may be left in what a coercion gives. -/
def mayGiveCode : Coercion → Bool
  | .expression | .reference | .lazy _ => true
  | _ => false

/-- No thunk is made, at any depth. -/
def IsEager (c : Coercion) : Prop := ∀ part ∈ c.parts, part.isLazy = false

/-- At no depth is code left in what is given, and every value that may stand in is evaluated. -/
structure GivesData (c : Coercion) : Prop where
  /-- No part hands on code. -/
  parts : ∀ part ∈ c.parts, part.mayGiveCode = false
  /-- No code stands in for an absent value. -/
  fallbacks : ∀ fallback inner, .default fallback inner ∈ c.parts → fallback.Evaluated

/-- Anything is wanted without a thunk. -/
theorem isEager_anything : Coercion.anything.IsEager := by
  simp [IsEager, parts, isLazy]

theorem mem_parts_self (c : Coercion) : c ∈ c.parts := by
  cases c <;> simp [Coercion.parts]

/-- What holds of a coercion's parts holds of the parts of a coercion it is built on. -/
theorem GivesData.of_subset {c inner : Coercion} (h : c.GivesData)
    (hsub : ∀ part ∈ inner.parts, part ∈ c.parts) : inner.GivesData :=
  ⟨fun part hpart => h.parts part (hsub part hpart),
    fun fallback given hpart => h.fallbacks fallback given (hsub _ hpart)⟩

/-- A value of the shape that a coercion promises is evaluated, if the coercion gives data. -/
theorem GivesData.evaluated : ∀ {c : Coercion} {value : Value}, c.GivesData → c.Shape value →
    value.Evaluated
  | .anything, _, _, h | .value, _, _, h => h
  | .expression, _, hdata, _ => by cases hdata.parts _ (mem_parts_self _)
  | .reference, _, hdata, _ => by cases hdata.parts _ (mem_parts_self _)
  | .lazy _, _, hdata, _ => by cases hdata.parts _ (mem_parts_self _)
  | .boolean, _, _, ⟨_, rfl⟩ => .boolean
  | .text, _, _, ⟨_, rfl⟩ => .text
  | .number, _, _, ⟨_, _, rfl, _⟩ | .real, _, _, ⟨_, _, rfl, _⟩ => .text
  | .integer, _, _, ⟨_, _, _, rfl, _⟩ => .text
  | .tag, _, _, ⟨_, rfl⟩ => .tag
  | .recordKey, _, _, .inl ⟨_, rfl⟩ => .text
  | .recordKey, _, _, .inr ⟨_, rfl⟩ => .tag
  | .noResult, _, _, rfl => .nothing
  | .coercion, _, _, ⟨_, rfl⟩ => .coercion
  | .handler, _, _, .inl ⟨_, rfl⟩ => .handler
  | .handler, _, _, .inr (.inl ⟨_, _, rfl⟩) => .closure
  | .handler, _, _, .inr (.inr ⟨_, rfl⟩) => .coercion
  | .list item, _, hdata, ⟨items, rfl, hitems⟩ => by
    have hitem : item.GivesData := hdata.of_subset fun part hpart => by simp [Coercion.parts, hpart]
    exact .list fun value hvalue => hitem.evaluated (hitems value hvalue)
  | .record field, _, hdata, ⟨.fields entries, rfl, hentries⟩ => by
    have hfield : field.GivesData :=
      hdata.of_subset fun part hpart => by simp [Coercion.parts, hpart]
    exact .record fun entry hentry => hfield.evaluated (hentries.2 entry hentry)
  | .optional _, _, _, .inl rfl => .nothing
  | .optional inner, _, hdata, .inr h => by
    have hinner : inner.GivesData :=
      hdata.of_subset fun part hpart => by simp [Coercion.parts, hpart]
    exact hinner.evaluated h
  | .default fallback inner, _, hdata, .inl rfl => hdata.fallbacks _ inner (mem_parts_self _)
  | .default fallback inner, _, hdata, .inr h => by
    have hinner : inner.GivesData :=
      hdata.of_subset fun part hpart => by simp [Coercion.parts, hpart]
    exact hinner.evaluated h
termination_by structural c => c

end Coercion

/-- An evaluation goes on in the same way, if it does so for every result that the first part can
have. -/
theorem Eval.Ensures.bind_congr {α β : Type} {P : α → Prop} {first : Eval α}
    {next other : α → Eval β} (h : first.Ensures (fun _ => True) P anyError)
    (hnext : ∀ value, P value → next value = other value) :
    (first >>= next) = (first >>= other) := by
  funext store
  change Eval.andThen first next store = Eval.andThen first other store
  unfold Eval.andThen
  cases hfirst : first store with
  | done value after =>
    obtain ⟨-, hvalue⟩ := h.of_done trivial hfirst
    simp only [hnext value hvalue]
  | failed problem after => rfl
  | outOfFuel => rfl

/-- The same for each of some things. -/
theorem Eval.forEach_congr {α β : Type} {action other : α → Eval β} {inputs : List α}
    (h : ∀ input ∈ inputs, action input = other input) :
    Eval.forEach action inputs = Eval.forEach other inputs := by
  induction inputs with
  | nil => rfl
  | cons input rest ih =>
    obtain ⟨hinput, hrest⟩ := List.forall_mem_cons.1 h
    simp only [Eval.forEach, hinput, ih hrest]

/-! ## Coercing evaluated values -/

/-- Coercing an evaluated value gives the same in two scopes. -/
def Evaluator.Agrees (e : Evaluator) (here there : Scope) : Prop :=
  ∀ {wanted : Coercion} {value : Value}, wanted.IsEager → value.Evaluated →
    e.coerce wanted value here = e.coerce wanted value there

namespace Evaluation

variable {e : Evaluator} {here there : Scope} {wanted : Coercion} {value : Value}

/-- Data is coerced in the same way in any two scopes, since it looks up no names. -/
theorem coerceItem_agrees (h : e.Agrees here there) (hw : wanted.IsEager) (hv : value.Evaluated) :
    coerceItem e here wanted value = coerceItem e there wanted value := by
  simp only [coerceItem, h hw hv]

theorem coerceItems_agrees (h : e.Agrees here there) (hw : wanted.IsEager) {items : List Value}
    (hitems : ∀ item ∈ items, item.Evaluated) :
    coerceItems e here wanted items = coerceItems e there wanted items :=
  Eval.forEach_congr fun item hitem => coerceItem_agrees h hw (hitems item hitem)

/-- So is a record of data. -/
theorem resolve_agrees (h : e.Agrees here there) (hw : wanted.IsEager)
    {entries : List (Key × Value)} (hentries : ∀ entry ∈ entries, entry.2.Evaluated) :
    resolve e here wanted (.fields entries) = resolve e there wanted (.fields entries) := by
  have hfields : Eval.forEach (coerceField e here wanted) entries =
      Eval.forEach (coerceField e there wanted) entries := by
    refine Eval.forEach_congr fun entry hentry => ?_
    simp only [coerceField, coerceItem_agrees h hw (hentries entry hentry)]
  simp only [resolve, hfields]

theorem asAnything_agrees (h : e.Agrees here there) (hw : wanted.IsEager)
    (hv : value.Evaluated) : asAnything e here wanted value = asAnything e there wanted value := by
  cases hv with
  | list hitems => simp only [asAnything, coerceItems_agrees h hw hitems]
  | record hentries => simp only [asAnything, resolve_agrees h hw hentries]
  | pair hvalue => simp only [asAnything, h hw hvalue]
  | _ => rfl

/-- What `anything` makes of a record has data in its fields. -/
theorem resolve_evaluated (fuel : Nat) (scope : Scope) (record : Record) :
    (resolve (evaluator fuel) scope .anything record).Ensures (fun _ => True)
      (Record.Holds Value.Evaluated) anyError := by
  have he := evaluator_respects .free fuel
  have hs := Discipline.runsIn_free scope
  have hsound (v : Value) (hobeys : v.Obeys .free) :
      Discipline.free.Keeps Value.Evaluated ((evaluator fuel).coerce .anything v scope) :=
    (he.sound (.simple rfl) hobeys hs).result fun _ hresult => hresult.shape
  have hresolved := resolve_ensures he hs (Value.obeys_free (.record record)) hsound
  exact hresolved.mono (fun _ hholds => hholds) fun _ _ => trivial

/-- A record becomes the list of its pairs, which are evaluated again. -/
theorem asList_agrees {fuel : Nat} {item : Coercion} (h : (evaluator fuel).Agrees here there)
    (hw : item.IsEager) (hv : value.Evaluated) :
    asList (evaluator fuel) here item value = asList (evaluator fuel) there item value := by
  have hself := hv
  cases hv with
  | list hitems => simp only [asList, coerceItems_agrees h hw hitems]
  | record hentries =>
    rename_i entries
    simp only [asList, resolve_agrees h Coercion.isEager_anything hentries]
    have hresolved := resolve_evaluated fuel there (.fields entries)
    refine hresolved.bind_congr fun record hrecord => ?_
    have hpairs : ∀ pair ∈ record.entries.map fun entry => Value.pair (.ofKey entry.1) entry.2,
        pair.Evaluated := by
      intro pair hpair
      obtain ⟨entry, hentry, rfl⟩ := List.mem_map.1 hpair
      cases record with
      | fields found => exact .pair (hrecord.2 entry hentry)
      | computed _ => exact hrecord.elim
    simp only [coerceItems_agrees h hw hpairs]
  | _ => simp only [asList, coerceItem_agrees h hw hself]

theorem asRecord_agrees {field : Coercion} (h : e.Agrees here there) (hw : field.IsEager)
    (hv : value.Evaluated) : asRecord e here field value = asRecord e there field value := by
  cases hv with
  | record hentries => simp only [asRecord, resolve_agrees h hw hentries]
  | @list items _ =>
    cases items with
    | nil => rfl
    | cons _ _ => rfl
  | _ => rfl

theorem asTarget_agrees (hv : value.Evaluated) :
    asTarget e here value = asTarget e there value := by
  cases hv <;> rfl

/-- What is no code is not run. -/
theorem runOr_agrees {action other : Eval Value} (hv : value.Evaluated) (h : action = other) :
    runOr e here wanted value action = runOr e there wanted value other := by
  cases hv <;> exact h

theorem runOrConvert_agrees {convert other : Value → Eval Value} (hv : value.Evaluated)
    (h : convert value = other value) :
    runOrConvert e here wanted value convert = runOrConvert e there wanted value other :=
  runOr_agrees hv (by rw [h])

theorem coerceAnything_agrees (h : e.Agrees here there) (hw : wanted.IsEager)
    (hv : value.Evaluated) :
    coerceAnything e wanted value here = coerceAnything e wanted value there := by
  have hanswer : runOrConvert e here wanted value (asAnything e here wanted) =
      runOrConvert e there wanted value (asAnything e there wanted) :=
    runOrConvert_agrees hv (asAnything_agrees h hw hv)
  simp only [coerceAnything, hanswer]

/-- One level of coercing agrees in two scopes if the level below does. -/
theorem coerceWith_agrees {fuel : Nat} (h : (evaluator fuel).Agrees here there)
    (hw : wanted.IsEager) (hv : value.Evaluated) :
    coerceWith (evaluator fuel) wanted value here =
      coerceWith (evaluator fuel) wanted value there := by
  have hinner {inner : Coercion} (hsub : ∀ part ∈ inner.parts, part ∈ wanted.parts) :
      inner.IsEager := fun part hpart => hw part (hsub part hpart)
  cases wanted with
  | anything | value => exact coerceAnything_agrees h hw hv
  | expression => rfl
  | boolean | text | number | real | integer | tag | recordKey | coercion | handler =>
    exact runOrConvert_agrees hv rfl
  | noResult => simp only [coerceWith, h Coercion.isEager_anything hv]
  | reference => exact runOr_agrees hv (asTarget_agrees hv)
  | list item =>
    have hitem : item.IsEager := hinner fun part hpart => by simp [Coercion.parts, hpart]
    exact runOrConvert_agrees hv (asList_agrees h hitem hv)
  | record field =>
    have hfield : field.IsEager := hinner fun part hpart => by simp [Coercion.parts, hpart]
    exact runOrConvert_agrees hv (asRecord_agrees h hfield hv)
  | optional inner =>
    have hpart : inner.IsEager := hinner fun part hpart => by simp [Coercion.parts, hpart]
    simp only [coerceWith, h hpart hv]
  | default fallback inner =>
    have hpart : inner.IsEager := hinner fun part hpart => by simp [Coercion.parts, hpart]
    simp only [coerceWith, h hpart hv]
  | lazy inner => cases hw _ (Coercion.mem_parts_self _)

/-- So all levels do, by induction on the fuel. -/
theorem evaluator_agrees (fuel : Nat) (here there : Scope) :
    (evaluator fuel).Agrees here there := by
  induction fuel with
  | zero => exact fun _ _ => rfl
  | succ fuel ih => exact fun hw hv => coerceWith_agrees ih hw hv

/-! ## Calls -/

/-- A parameter gets an argument, or nothing. -/
theorem nextArgument_evaluated (parameter : Parameter) (matching : Bool)
    {arguments : List Argument} (h : ∀ argument ∈ arguments, argument.value.Evaluated) :
    (nextArgument parameter matching arguments).1.Evaluated ∧
      ∀ argument ∈ (nextArgument parameter matching arguments).2.1, argument.value.Evaluated := by
  cases arguments with
  | nil => exact ⟨.nothing, h⟩
  | cons argument rest =>
    obtain ⟨hargument, hrest⟩ := List.forall_mem_cons.1 h
    cases hfits : matching && argumentFits argument parameter with
    | true => simpa only [nextArgument, hfits] using ⟨hargument, hrest⟩
    | false => simpa only [nextArgument, hfits] using ⟨.nothing, h⟩

/-- A call with data for arguments binds the same values from any two scopes. -/
theorem bindParameters_agrees {handler : Name} {parameters : List Parameter} {matching : Bool}
    {arguments : List Argument} (h : e.Agrees here there)
    (hparameters : ∀ parameter ∈ parameters, parameter.coercion.IsEager)
    (harguments : ∀ argument ∈ arguments, argument.value.Evaluated) :
    bindParameters e handler here parameters matching arguments =
      bindParameters e handler there parameters matching arguments := by
  induction parameters generalizing matching arguments with
  | nil => rfl
  | cons parameter parameters ih =>
    obtain ⟨hparameter, hrest⟩ := List.forall_mem_cons.1 hparameters
    obtain ⟨hnext, hleft⟩ := nextArgument_evaluated parameter matching harguments
    simp only [bindParameters, h hparameter hnext, ih hrest hleft]

/-- A call can't tell where it comes from: it ends in the same way, with the same store and with the
same lines printed, whatever the two callers know.  Only the owner of the handler matters. -/
theorem callHandler_ignores_caller (fuel id : Nat) (interface : Interface) (action : Value)
    (isEvent : Bool) (command : Command) (owner here there : Scope) (store : Store)
    (hreturns : interface.returns.GivesData)
    (hparameters : ∀ parameter ∈ interface.parameters, parameter.coercion.IsEager)
    (harguments : ∀ argument ∈ command.arguments, argument.value.Evaluated) :
    callHandler (evaluator fuel) command here owner .anything
        (.native id interface action isEvent) store =
      callHandler (evaluator fuel) command there owner .anything
        (.native id interface action isEvent) store := by
  have hagrees : (evaluator fuel).Agrees here there := evaluator_agrees fuel here there
  have hbound : bindArguments (evaluator fuel) interface command here isEvent =
      bindArguments (evaluator fuel) interface command there isEvent := by
    simp only [bindArguments, bindParameters_agrees hagrees hparameters harguments]
  -- The answer is data, so that coercing it for the caller finds nothing to look up.
  have hanswer (body : Environment) :
      ((evaluator fuel).coerce interface.returns action (.frame body)).Ensures (fun _ => True)
        Value.Evaluated anyError :=
    (coerce_ensures_shape fuel interface.returns action (.frame body)).result
      fun _ hshape => hreturns.evaluated hshape
  have hcall : callHandler (evaluator fuel) command here owner .anything
        (.native id interface action isEvent) =
      callHandler (evaluator fuel) command there owner .anything
        (.native id interface action isEvent) := by
    simp only [callHandler, hbound]
    refine Eval.Ensures.any.bind_congr fun values _ => ?_
    refine Eval.Ensures.any.bind_congr fun body _ => ?_
    refine Eval.Ensures.any.bind_congr fun _ _ => ?_
    refine ((hanswer body).causing fun _ _ _ => trivial).bind_congr fun answer hevaluated => ?_
    exact hagrees Coercion.isEager_anything hevaluated
  rw [hcall]

/-- A handler that answers what `colour` is.  It is red where the handler belongs, and green and
blue where it is called from. -/
theorem callHandler_ignores_caller_colour :
    let colour := Name.ofString "colour"
    let slot (value : String) : Frame := [⟨colour, .tag (.ofString value), false⟩]
    let store : Store := ⟨#[slot "red", slot "green", slot "blue"], some "", 0⟩
    let size := Name.ofString "size"
    let interface : Interface := ⟨.ofString "paint", [.ofName size .integer], .tag⟩
    let command : Command := ⟨.ofString "paint", [⟨none, .ofInt64 3⟩], none⟩
    let call (caller : Scope) : Outcome Value :=
      callHandler (evaluator 6) command caller (.frame (.root 0)) .anything
        (.native 0 interface (.identifier colour) false) store
    let after : Store := ⟨store.frames.push [⟨size, .ofInt64 3, false⟩], some "", 0⟩
    call (.frame (.root 1)) = .done (.tag (.ofString "red")) after ∧
      call (.frame (.root 2)) = .done (.tag (.ofString "red")) after := by
  intro colour slot store size interface command call after
  have hgreen : call (.frame (.root 1)) = .done (.tag (.ofString "red")) after := by rfl
  have hsame : call (.frame (.root 2)) = call (.frame (.root 1)) := by
    refine callHandler_ignores_caller _ _ _ _ _ _ _ _ _ _ ?returns ?parameters ?arguments
    case returns =>
      exact ⟨by simp [interface, Coercion.parts, Coercion.mayGiveCode],
        by simp [interface, Coercion.parts]⟩
    case parameters =>
      simp [interface, Parameter.ofName, Coercion.IsEager, Coercion.parts, Coercion.isLazy]
    case arguments => simp [command, Value.ofInt64, Value.ofScalar, Value.Evaluated.text]
  exact ⟨hgreen, hsame.trans hgreen⟩

end Evaluation

end CommandScript
