import CommandScript.Proofs.Assignment
import CommandScript.Proofs.Boxing
import CommandScript.Proofs.Definitions

/-!
# Signatures as code

A handler is defined by its signature as printed.  In a new interpreter with the library, `to`, the
signature and an empty block define a handler with the same signature, which is found under its
name.

What the signature leaves out is put back on the way.  A parameter with one name has it as its label
and as its binding.  A coercion that is left out is `anything`, and any other is named or built by
the code it is printed as.  The definition passes all this on as a list of lists, whose parts the
coercions of its parameters keep, and which is read as parameters in the end.
-/

namespace CommandScript

open CommandScript.Parser Evaluation

/-! ## The same signature -/

/-- A parameter has the label of another one, in any case, its binding and its coercion. -/
structure Parameter.Same (given other : Parameter) : Prop where
  /-- The labels are equal. -/
  label : (given.label == other.label) = true
  /-- The bindings are. -/
  binding : given.binding = other.binding
  /-- The coercions are. -/
  coercion : given.coercion = other.coercion

/-- A signature is another one up to the case of labels. -/
structure Interface.Same (given other : Interface) : Prop where
  /-- The names are equal. -/
  name : given.name = other.name
  /-- The parameters are the same, in order. -/
  parameters : List.Forall₂ Parameter.Same given.parameters other.parameters
  /-- The return coercions are equal. -/
  returns : given.returns = other.returns

/-- The signature as it is read back. -/
def Interface.shown (interface : Interface) : Interface :=
  { interface with parameters := interface.parameters.map Parameter.shown }

theorem Parameter.shown_binding (parameter : Parameter) :
    parameter.shown.binding = parameter.binding := by
  unfold shown
  split
  next => rfl
  next => rfl

theorem Parameter.shown_coercion (parameter : Parameter) :
    parameter.shown.coercion = parameter.coercion := by
  unfold shown
  split
  next => rfl
  next => rfl

/-- A signature is the same when it is shown. -/
theorem Parameter.same_shown (parameter : Parameter) : parameter.Same parameter.shown := by
  refine ⟨?_, parameter.shown_binding.symm, parameter.shown_coercion.symm⟩
  unfold shown
  split
  next h => exact h
  next => exact (Name.beq_iff _ _).2 rfl

theorem Interface.same_shown (interface : Interface) : interface.Same interface.shown where
  name := rfl
  parameters := List.forall₂_map_right_iff.2 (List.forall₂_same.2 fun p _ => p.same_shown)
  returns := rfl

/-! ## New names -/

namespace Environment

variable {environment : Environment} {store : Store} {name : Name}

/-- A name that is not found is held by no frame. -/
theorem nearest?_of_lookup (hframes : environment.OnFrames)
    (h : environment.lookup store name = .ok none) : environment.nearest? store name = none := by
  cases hnearest : environment.nearest? store name with
  | none => rfl
  | some owner =>
    rw [lookup_eq_nearest? hframes, hnearest] at h
    have hholds := List.find?_some hnearest
    obtain ⟨slot, hslot⟩ : ∃ slot, (store.frame owner.id).slot? name = some slot :=
      Option.isSome_iff_exists.1 hholds
    rw [Option.bind_some, hslot] at h
    cases h

/-- A number that is used up changes nothing that is found. -/
theorem lookup_newId (hframes : environment.OnFrames) :
    environment.lookup store.newId.2 name = environment.lookup store name :=
  (lookup_eq_nearest? hframes _ _).trans (lookup_eq_nearest? hframes store name).symm

/-- A name that is not found is assigned in the frame itself, where it is found then. -/
theorem assign_new (hframes : environment.OnFrames) (hframe : environment.id < store.frames.size)
    (h : environment.lookup store name = .ok none) (value : Value) (readOnly : Bool) :
    ∃ after, environment.assign name value readOnly false store = .ok after ∧
      environment.lookup after name = .ok (some (value, .frame environment)) := by
  have hnone := nearest?_of_lookup hframes h
  have hwrites := Store.writes_put hframe name value readOnly
  refine ⟨_, by rw [assign_eq, holder?, if_neg Bool.false_ne_true, hnone]; rfl, ?_⟩
  exact lookup_of_slot hwrites.slot

end Environment

/-! ## Defining a handler -/

namespace Evaluation

theorem Call.read_done {call : Call} {e : Evaluator} {b : Bridge} {index : Nat} {value : Value}
    {host : b.Host} {store : Store} (hargument : call.arguments[index]? = some value)
    (hunbox : b.unbox e call.caller value store = .done host store) :
    call.read e b index store = .done host store := by
  have hgiven : call.argument index store = .done value store := by
    simp only [Call.argument, hargument]
    rfl
  exact (Eval.bind_done hgiven).trans hunbox

variable {store after : Store} {caller : Scope} {command : Command} {interface : Interface}
  {action : Value} {isEvent : Bool}

/-- A new handler with a number of its own. -/
def newHandler (interface : Interface) (action : Value) (isEvent : Bool) (store : Store) : Value :=
  .handler (.native store.nextId interface action isEvent)

/-- A handler is defined by its name, its parameters, its return coercion and its action. -/
theorem perform_defineHandler
    (hnamed : ∀ parameter ∈ interface.parameters, Bridge.parameter.Named parameter)
    (hput : caller.put interface.name (newHandler interface action isEvent store) true
      store.newId.2 = .ok after) :
    ∃ enough, ∀ fuel, enough ≤ fuel →
      perform (evaluator fuel)
        ⟨command, caller, [.ofString interface.name.text,
          .list (interface.parameters.map Bridge.boxParameter), .coercion interface.returns, action,
          .boolean isEvent]⟩ .defineHandler store =
        .done (newHandler interface action isEvent store) after := by
  obtain ⟨name, parameters, returns⟩ := interface
  obtain ⟨e₀, hname⟩ : Bridge.text.Unboxes caller store (.ofString name.text) name.text :=
    Bridge.unboxes_of_accepts (Bridge.RoundTrips.text.accepts_box _) (fun _ => rfl) rfl
  obtain ⟨e₁, hparameters⟩ : (Bridge.list .parameter).Unboxes caller store
      (.list (parameters.map Bridge.boxParameter)) parameters :=
    Bridge.Unboxes.list .parameter fun parameter hmem =>
      Bridge.unboxes_parameter (hnamed parameter hmem)
  obtain ⟨e₂, hreturns⟩ : Bridge.coercion.Unboxes caller store (.coercion returns) returns :=
    Bridge.unboxes_coercion _
  obtain ⟨e₃, hevent⟩ : Bridge.bool.Unboxes caller store (.boolean isEvent) isEvent :=
    Bridge.unboxes_of_accepts (Bridge.RoundTrips.bool.accepts_box _) (fun _ => rfl) rfl
  refine ⟨e₀ + e₁ + e₂ + e₃, fun fuel hfuel => ?_⟩
  refine (Eval.bind_done (Call.read_done rfl (hname fuel (by omega)))).trans ?_
  refine (Eval.bind_done (Call.read_done rfl (hparameters fuel (by omega)))).trans ?_
  refine (Eval.bind_done (Call.read_done rfl (hreturns fuel (by omega)))).trans ?_
  refine (Eval.bind_done (Call.read_done rfl rfl)).trans ?_
  refine (Eval.bind_done (Call.read_done rfl (hevent fuel (by omega)))).trans ?_
  have hid : Eval.make Store.newId store = .done store.nextId store.newId.2 := rfl
  refine (Eval.bind_done hid).trans ?_
  rw [ofString_text]
  have hchange : Eval.change (fun made => caller.put name
      (newHandler ⟨name, parameters, returns⟩ action isEvent store) true made) store.newId.2 =
        .done () after := by
    simp only [Eval.change, hput]
  exact Eval.bind_done hchange

end Evaluation

/-! ## The code of a definition -/

variable {start : Store} {interpreter : Interpreter} {code : Value} {c : Coercion}

/-- Code for a coercion in a signature. -/
structure GivesCoercion (interpreter : Interpreter) (code : Value) (c : Coercion) : Prop where
  /-- It is written in the signature as the coercion is. -/
  written (frames : FrameDescription) : CodeOf interpreter.registry frames code c
  /-- It gives the coercion where one is wanted. -/
  coercion : Settles (.frame interpreter.globals) interpreter.store .coercion code (.coercion c)
  /-- It gives the coercion where a value is wanted. -/
  value : Settles (.frame interpreter.globals) interpreter.store .value code (.coercion c)

theorem givesCoercion_anything : GivesCoercion interpreter (.coercion .anything) .anything :=
  ⟨fun _ => .leftOut, settles_of_succ fun _ => rfl, settles_of_succ fun _ => rfl⟩

theorem Builds.givesCoercion (h : Builds interpreter code c) (hc : c.isAnything = false) :
    GivesCoercion interpreter code c where
  written frames := .written hc h.call (h.printable frames) (h.display frames)
  coercion := h.runs.settles_coercion
  value := h.runs.settles .value (settles_of_succ fun _ => rfl) rfl

/-- Every coercion that is a literal has code that gives it. -/
theorem exists_codeOf
    (hload : Interpreter.withLibrary start.newRoot.1 start.newRoot.2 = .ok interpreter) :
    ∃ codeOf : Coercion → Value, ∀ c, (Value.coercion c).IsLiteral →
      GivesCoercion interpreter (codeOf c) c := by
  have hcode (c : Coercion) :
      ∃ code, (Value.coercion c).IsLiteral → GivesCoercion interpreter code c := by
    by_cases hc : (Value.coercion c).IsLiteral
    · cases hanything : c.isAnything with
      | true =>
        obtain rfl : c = .anything := by cases c <;> first | rfl | cases hanything
        exact ⟨_, fun _ => givesCoercion_anything⟩
      | false =>
        obtain ⟨code, hbuilds⟩ := (hc.exists_code hload).2 c rfl
        exact ⟨code, fun _ => hbuilds.givesCoercion hanything⟩
    · exact ⟨.nothing, fun h => absurd h hc⟩
  exact Classical.skolem.1 hcode

/-- The code of a coercion is no pair, so it is an argument without a label. -/
theorem GivesCoercion.ofValue (h : GivesCoercion interpreter code c) :
    Argument.ofValue code = ⟨none, code⟩ := by
  cases h.written fun _ => "" with
  | leftOut => rfl
  | written _ _ hprintable _ => exact hprintable.ofValue

variable {codeOf : Coercion → Value} {interface : Interface}

/-- What a definition gives to `define_handler`, as code and as values. -/
def definitionSupplies (codeOf : Coercion → Value) (interface : Interface) : List Supply :=
  [⟨Library.parameter "name" .text, .ofString interface.name.text, .ofString interface.name.text⟩,
   ⟨Library.parameter "parameters" (.list .value),
      .list (interface.parameters.map (parameterCode codeOf)),
      .list (interface.shown.parameters.map Bridge.boxParameter)⟩,
   ⟨Library.parameter "return_type" (.default (.coercion .anything) .coercion),
      codeOf interface.returns, .coercion interface.returns⟩,
   ⟨Library.action, .block [], .block []⟩,
   ⟨Library.flag "is_event_handler" false, .boolean false, .boolean false⟩]

/-- The list a parameter is read as is kept where a value is wanted, with its coercion in place of
the code. -/
theorem settles_parameterCode {parameter : Parameter}
    (h : GivesCoercion interpreter (codeOf parameter.coercion) parameter.coercion) :
    Settles (.frame interpreter.globals) interpreter.store .value (parameterCode codeOf parameter)
      (Bridge.boxParameter parameter.shown) := by
  rw [Bridge.boxParameter, parameter.shown_binding, parameter.shown_coercion]
  have hlabel : Settles (.frame interpreter.globals) interpreter.store .value
      (.ofString parameter.shown.label.text) (.ofString parameter.shown.label.text) :=
    settles_of_succ fun _ => rfl
  have hbinding : Settles (.frame interpreter.globals) interpreter.store .value
      (.ofString parameter.binding.text) (.ofString parameter.binding.text) :=
    settles_of_succ fun _ => rfl
  exact settles_list .value (.cons hlabel (.cons hbinding (.cons h.value .nil)))

theorem settles_definitionSupplies
    (hparameters : ∀ parameter ∈ interface.parameters,
      GivesCoercion interpreter (codeOf parameter.coercion) parameter.coercion)
    (hreturns : GivesCoercion interpreter (codeOf interface.returns) interface.returns) :
    ∀ supply ∈ definitionSupplies codeOf interface, Settles (.frame interpreter.globals)
      interpreter.store supply.parameter.coercion supply.code supply.value := by
  have hlist : List.Forall₂ (Settles (.frame interpreter.globals) interpreter.store .value)
      (interface.parameters.map (parameterCode codeOf))
      (interface.shown.parameters.map Bridge.boxParameter) := by
    rw [Interface.shown, List.map_map]
    refine List.forall₂_map_left_iff.2 (List.forall₂_map_right_iff.2 (List.forall₂_same.2 ?_))
    exact fun parameter hmem => settles_parameterCode (hparameters parameter hmem)
  have hflag : Settles (.frame interpreter.globals) interpreter.store .boolean (.boolean false)
      (.boolean false) := settles_of_succ fun _ => rfl
  simp only [definitionSupplies, List.forall_mem_cons]
  refine ⟨settles_of_succ fun _ => rfl, settles_listOf hlist, hreturns.coercion.default _,
    settles_of_succ fun _ => rfl, hflag.default _, List.forall_mem_nil _⟩

/-- Plain names are not empty, also those that are left out. -/
theorem Parser.PlainNames.named {registry : Registry} (h : PlainNames registry interface) :
    ∀ parameter ∈ interface.shown.parameters, Bridge.parameter.Named parameter := by
  have hempty {text : String} (hplain : PlainName registry text) : text ≠ "" := by
    rintro rfl
    cases hplain.plain
  intro _ hshown
  obtain ⟨parameter, hmem, rfl⟩ := List.mem_map.1 hshown
  have hbinding := hempty (h.bindings parameter hmem)
  refine ⟨?_, by rwa [parameter.shown_binding]⟩
  unfold Parameter.shown
  split
  next => exact hbinding
  next => exact hempty (h.labels parameter hmem)

/-- The handler of the library that defines a handler. -/
def Library.handlerDefinition : Library.Definition :=
  Library.define "define_handler"
    [Library.parameter "name" .text, Library.parameter "parameters" (.list .value),
      Library.parameter "return_type" (.default (.coercion .anything) .coercion), Library.action,
      Library.flag "is_event_handler" false]
    .handler .defineHandler

theorem Library.mem_handlerDefinition : Library.handlerDefinition ∈ Library.handlers := by
  simp [Library.handlers, Library.stateHandlers, Library.handlerDefinition]

/-- The code of a definition defines the handler. -/
theorem run_definition
    (hload : Interpreter.withLibrary start.newRoot.1 start.newRoot.2 = .ok interpreter)
    (hnamed : ∀ parameter ∈ interface.shown.parameters, Bridge.parameter.Named parameter)
    (hparameters : ∀ parameter ∈ interface.parameters,
      GivesCoercion interpreter (codeOf parameter.coercion) parameter.coercion)
    (hreturns : GivesCoercion interpreter (codeOf interface.returns) interface.returns)
    {after : Store} (hput : (Scope.frame interpreter.globals).put interface.name
      (newHandler interface.shown (.block []) false interpreter.store) true
      interpreter.store.newId.2 = .ok after) :
    ∃ enough, ∀ fuel, enough ≤ fuel → ∀ wanted otherwise,
      runOr (evaluator fuel) (.frame interpreter.globals) wanted
          (definition definitionOperator interface.name.text
            (interface.parameters.map (parameterCode codeOf)) (codeOf interface.returns) [] false)
          otherwise interpreter.store =
        coerce fuel wanted (newHandler interface.shown (.block []) false interpreter.store)
          (.frame interpreter.globals) after := by
  obtain ⟨number, hlookup⟩ := Interpreter.lookup_handler hload Library.mem_handlerDefinition
  have hsupplied : Library.handlerDefinition.interface.parameters =
      (definitionSupplies codeOf interface).map Supply.parameter := rfl
  have harguments : (Command.ofValues (.ofString definitionOperator.handler)
      [.ofString interface.name.text, .list (interface.parameters.map (parameterCode codeOf)),
        codeOf interface.returns, .block [], .boolean false]).arguments =
      (definitionSupplies codeOf interface).map Supply.argument := by
    simp only [Command.ofValues, List.map_cons, List.map_nil, hreturns.ofValue]
    rfl
  exact run_primitive hlookup hsupplied harguments
    (settles_definitionSupplies hparameters hreturns) (perform_defineHandler hnamed hput)

namespace Interpreter

/-- The globals of a new interpreter are a frame of its store in front of the root frame. -/
theorem globals_onFrames
    (hload : withLibrary start.newRoot.1 start.newRoot.2 = .ok interpreter) :
    interpreter.globals.OnFrames ∧
      interpreter.globals.id < interpreter.store.frames.size := by
  obtain ⟨loaded, -, hinterpreter⟩ := withLibrary_eq_ok hload
  rw [hinterpreter]
  refine ⟨.child _ (.root _), ?_⟩
  change loaded.frames.size < loaded.newFrame.2.frames.size
  rw [Store.size_newFrame]
  exact Nat.lt_succ_self _

/-- A script of one statement gives what the statement does. -/
theorem evaluate_single {source : String} {fuel : Nat} {value : Value} {after : Store}
    (hread : readScript interpreter.registry source = .ok [code])
    (hdone : coerce fuel .anything code (.frame interpreter.globals) interpreter.store =
      .done value after) :
    interpreter.evaluate (fuel + 2) source = .done value { interpreter with store := after } := by
  have hblock := (below_coerce_single fuel code).eq (by rw [hdone]; nofun)
  rw [evaluate, hread]
  simp only [runScript, hblock, hdone]

/-- A signature with plain names, a name that is not defined yet, and coercions whose defaults are
literals, printed between `to` and an empty block and evaluated in a new interpreter with the
library, gives a handler with that signature, which is found under its name. -/
theorem evaluate_signature (start : Store) (interpreter : Interpreter)
    (hload : withLibrary start.newRoot.1 start.newRoot.2 = .ok interpreter)
    (interface : Interface) (hnames : PlainNames interpreter.registry interface)
    (hnew : (Scope.frame interpreter.globals).lookup interpreter.store interface.name = .ok none)
    (hparameters : ∀ parameter ∈ interface.parameters,
      (Value.coercion parameter.coercion).IsLiteral)
    (hreturns : (Value.coercion interface.returns).IsLiteral) (frames : FrameDescription) :
    ∃ handler after, interface.Same handler.interface ∧
      (∃ enough, ∀ fuel, enough ≤ fuel →
        interpreter.evaluate fuel ("to " ++ interface.display frames ++ " \x7b\x7d") =
          .done (.handler handler) after) ∧
      (Scope.frame after.globals).lookup after.store interface.name =
        .ok (some (.handler handler, .frame after.globals)) := by
  obtain ⟨codeOf, hcodeOf⟩ := exists_codeOf hload
  have hcodes : ∀ parameter ∈ interface.parameters,
      GivesCoercion interpreter (codeOf parameter.coercion) parameter.coercion :=
    fun parameter hmem => hcodeOf _ (hparameters parameter hmem)
  have hread := readScript_signature (registry_withLibrary hload) hnames
    (fun parameter hmem => (hcodes parameter hmem).written frames)
    ((hcodeOf _ hreturns).written frames)
  -- The handler gets a number first, and is then put into the globals.
  obtain ⟨hframes, hframe⟩ := globals_onFrames hload
  obtain ⟨stored, hput, hfound⟩ := Environment.assign_new hframes
    (show interpreter.globals.id < interpreter.store.newId.2.frames.size from hframe)
    ((Environment.lookup_newId hframes).trans hnew)
    (newHandler interface.shown (.block []) false interpreter.store) true
  obtain ⟨enough, hrun⟩ := run_definition hload hnames.named hcodes (hcodeOf _ hreturns) hput
  refine ⟨.native interpreter.store.nextId interface.shown (.block []) false,
    { interpreter with store := stored }, interface.same_shown, ⟨enough + 4, ?_⟩, hfound⟩
  intro fuel hfuel
  obtain ⟨fuel, rfl⟩ : ∃ smaller, fuel = smaller + 4 := ⟨fuel - 4, by omega⟩
  exact evaluate_single hread
    (recover_done (Eval.bind_done (hrun (fuel + 1) (by omega) .anything _)))

/-- A signature with a default in a nested coercion, a label of its own, a label that is the binding
in another case, and a return coercion. -/
def moveSignature : Interface :=
  ⟨.ofString "move",
    [⟨.ofString "by", .ofString "steps",
        .default (.list [.text (.number "0x1F" (.integer 31 16)), .nothing])
          (.list (.optional .integer))⟩,
      ⟨.ofString "Target", .ofString "target", .anything⟩],
    .record .anything⟩

theorem evaluate_signature_nested :
    ∃ interpreter handler after, standard = .ok interpreter ∧
      moveSignature.Same handler.interface ∧
      (∃ enough, ∀ fuel, enough ≤ fuel →
        interpreter.evaluate fuel ("to move(by: steps as default([0x1F, nothing], " ++
          "list(optional(integer))), target) returning record \x7b\x7d") =
          .done (.handler handler) after) ∧
      (Scope.frame after.globals).lookup after.store (.ofString "move") =
        .ok (some (.handler handler, .frame after.globals)) := by
  have htest : (standard.toOption.any fun interpreter =>
      (["move", "by", "steps", "Target", "target"].all fun text =>
        Character.needsNoQuotes text.toList && (interpreter.registry.find? text).isNone) &&
      (((Scope.frame interpreter.globals).lookup interpreter.store (.ofString "move")).toOption.any
        Option.isNone)) = true := by
    decide +kernel
  obtain ⟨interpreter, hstandard, htest⟩ := exists_ok htest
  obtain ⟨hwords, hmissing⟩ := Bool.and_eq_true_iff.1 htest
  have hplain (text : String) (hmem : text ∈ ["move", "by", "steps", "Target", "target"]) :
      PlainName interpreter.registry text := by
    obtain ⟨hquotes, hfree⟩ := Bool.and_eq_true_iff.1 (List.all_eq_true.1 hwords text hmem)
    exact ⟨hquotes, Option.isNone_iff_eq_none.1 hfree⟩
  have hpair {α : Type} {P : α → Prop} {a b : α} (h : P a ∧ P b) : ∀ x ∈ [a, b], P x :=
    List.forall_mem_cons.2 ⟨h.1, List.forall_mem_singleton.2 h.2⟩
  have hnames : PlainNames interpreter.registry moveSignature :=
    ⟨hplain "move" (by decide),
      hpair ⟨hplain "by" (by decide), hplain "Target" (by decide)⟩,
      hpair ⟨hplain "steps" (by decide), hplain "target" (by decide)⟩⟩
  have hnew : (Scope.frame interpreter.globals).lookup interpreter.store moveSignature.name =
      .ok none := by
    rw [show moveSignature.name = Name.ofString "move" from rfl]
    generalize (Scope.frame interpreter.globals).lookup interpreter.store (.ofString "move") = found
      at hmissing ⊢
    cases found with
    | error problem => cases hmissing
    | ok found => exact congrArg _ (Option.isNone_iff_eq_none.1 hmissing)
  have hnumber : Numeral.scan? "0x1F".toList = some ⟨"0x1F".toList.length, .integer 31 16⟩ := by
    have hscan := Numeral.scan?_hexadecimal (.inl rfl) (.inl rfl) (List.cons_ne_nil '1' ['F'])
      (hpair ⟨rfl, rfl⟩)
    rw [Numeral.hexScalar_eq _ _ _ (show _ = (31 : Int) by decide), if_pos (by decide)] at hscan
    exact hscan
  have hparameters : ∀ parameter ∈ moveSignature.parameters,
      (Value.coercion parameter.coercion).IsLiteral :=
    hpair ⟨.default (.list (hpair ⟨.number hnumber, .nothing⟩))
      (.listOf (.optional (.coercion rfl))), .coercion rfl⟩
  have hshown : "to " ++ moveSignature.display Store.empty.describe ++ " \x7b\x7d" =
      "to move(by: steps as default([0x1F, nothing], " ++
        "list(optional(integer))), target) returning record \x7b\x7d" := by
    decide +kernel
  obtain ⟨handler, after, hsame, hgives, hfound⟩ :=
    evaluate_signature Store.empty interpreter hstandard moveSignature hnames hnew hparameters
      (.recordOf (.coercion rfl)) Store.empty.describe
  rw [hshown] at hgives
  exact ⟨interpreter, handler, after, hstandard, hsame, hgives, hfound⟩

end Interpreter

end CommandScript
