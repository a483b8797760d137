import CommandScript.Proofs.IntegerLiterals
import CommandScript.Proofs.LibraryNames
import CommandScript.Proofs.Printing
import CommandScript.Proofs.Splitting
import Mathlib.Data.List.Forall2

/-!
# Data as code

Data that is printed, read as a script and run in a new interpreter is the data.

Data is nothing, truth values, exact integers, texts, tags and coercions, and lists and records of
data.  Printed data is code that stands for it.  For most data the code is the data itself, with the
code of its items inside.  The exceptions are what has a name in the library: `nothing`, `true` and
`false` are read as operators without operands, and a coercion as its name or as a call that builds
it.  So each form of data has code that is printed as it is, is read back, and gives it when run.
-/

namespace CommandScript

/-! ## Integers -/

/-- An integer is printed in decimal digits, which read as the integer again. -/
theorem Numeral.scan?_int64 (number : Int64) :
    scan? (toString number.toInt).toList =
      some ⟨(toString number.toInt).toList.length, .ofInt64 number⟩ := by
  obtain ⟨l, htext, hscalar⟩ :=
    IntegerLiteral.exists_scalar_eq number (.inl rfl) fun hleast => nomatch hleast.1
  have hliteral : Scalar.literal (.integer number 10) = toString number.toInt := by
    rw [Scalar.literal, if_neg (by decide)]
  have hread := l.scan?_text
  rwa [htext, hscalar, hliteral] at hread

/-! ## What code gives -/

/-- `anything` and `value` do the same. -/
inductive Coercion.IsGeneral : Coercion → Prop where
  | anything : IsGeneral .anything
  | value : IsGeneral .value

/-- General coercions all evaluate in the same way. -/
theorem Coercion.IsGeneral.coerce_succ {wanted : Coercion} (h : wanted.IsGeneral) (fuel : Nat)
    (value : Value) (scope : Scope) (store : Store) :
    Evaluation.coerce (fuel + 1) wanted value scope store =
      Evaluation.coerceAnything (Evaluation.evaluator fuel) wanted value scope store := by
  cases h with
  | anything => rfl
  | value => rfl

namespace Evaluation

variable {scope : Scope} {store : Store} {wanted : Coercion} {code value : Value}

/-- Coercing code gives a value, with enough fuel, and leaves the store as it is. -/
def Settles (scope : Scope) (store : Store) (wanted : Coercion) (code value : Value) : Prop :=
  ∃ enough, ∀ fuel, enough ≤ fuel → coerce fuel wanted code scope store = .done value store

/-- Code runs to a value, which is coerced to whatever is wanted. -/
def RunsTo (scope : Scope) (store : Store) (code value : Value) : Prop :=
  ∃ enough, ∀ fuel, enough ≤ fuel → ∀ wanted otherwise,
    runOr (evaluator fuel) scope wanted code otherwise store = coerce fuel wanted value scope store

/-- Nothing is recovered where nothing fails. -/
theorem recover_done {α : Type} {catches : EvalError → Bool} {action instead : Eval α}
    {result : α} {after : Store} (h : action store = .done result after) :
    Eval.recover catches action instead store = .done result after := by
  simp only [Eval.recover, h]

theorem settles_of_succ
    (h : ∀ fuel, coerce (fuel + 1) wanted code scope store = .done value store) :
    Settles scope store wanted code value := by
  refine ⟨1, fun fuel hfuel => ?_⟩
  obtain ⟨fuel, rfl⟩ := Nat.exists_eq_succ_of_ne_zero (Nat.ne_zero_of_lt hfuel)
  exact h fuel

/-- A default is not needed for what is there. -/
theorem Settles.default (h : Settles scope store wanted code value) (fallback : Value) :
    Settles scope store (.default fallback wanted) code value := by
  obtain ⟨enough, hsettles⟩ := h
  refine ⟨enough + 1, fun fuel hfuel => ?_⟩
  obtain ⟨fuel, rfl⟩ := Nat.exists_eq_succ_of_ne_zero (Nat.ne_zero_of_lt hfuel)
  exact recover_done (hsettles fuel (Nat.le_of_succ_le_succ hfuel))

/-! ### Expressions -/

/-- Code settles as what it runs to, unless that is collapsed first. -/
theorem RunsTo.settles (h : RunsTo scope store code value) (hwanted : wanted.IsGeneral)
    (hvalue : Settles scope store wanted value value) (hcollapse : collapse value = value) :
    Settles scope store wanted code value := by
  obtain ⟨enough, hruns⟩ := h
  obtain ⟨enough', hsettles⟩ := hvalue
  refine ⟨enough + enough' + 1, fun fuel hfuel => ?_⟩
  obtain ⟨fuel, rfl⟩ := Nat.exists_eq_succ_of_ne_zero (Nat.ne_zero_of_lt hfuel)
  refine (hwanted.coerce_succ fuel _ scope store).trans (recover_done ?_)
  have hrun := hruns fuel (by omega) wanted
  refine (Eval.bind_done ((hrun _).trans (hsettles fuel (by omega)))).trans ?_
  rw [hcollapse]
  rfl

/-- So does code for a coercion, where one is wanted. -/
theorem RunsTo.settles_coercion {c : Coercion} (h : RunsTo scope store code (.coercion c)) :
    Settles scope store .coercion code (.coercion c) := by
  obtain ⟨enough, hruns⟩ := h
  refine ⟨enough + 2, fun fuel hfuel => ?_⟩
  obtain ⟨fuel, rfl⟩ : ∃ smaller, fuel = smaller + 2 := ⟨fuel - 2, by omega⟩
  exact hruns (fuel + 1) (by omega) .coercion _

/-- A name runs to its value. -/
theorem runsTo_identifier {name : Name} (h : scope.get store name = .ok value) :
    RunsTo scope store (.identifier name) value := by
  have hfound : Eval.lookup (fun store => scope.get store name) store = .done value store := by
    simp only [Eval.lookup, h]
  exact ⟨0, fun fuel _ wanted otherwise => Eval.bind_done hfound⟩

variable {environment : Environment} {owner : Scope}

theorem handleByName_found {e : Evaluator} {command : Command} {caller receiver : Scope}
    (h : receiver.lookup store command.name = .ok (some (value, owner))) :
    handleByName e command caller receiver wanted store =
      callFound e command caller owner wanted value store := by
  have hfound : Eval.lookup (fun store => receiver.lookup store command.name) store =
      .done (some (value, owner)) store := by
    simp only [Eval.lookup, h]
  exact Eval.bind_done hfound

/-- A command without arguments runs to what its name stands for. -/
theorem runsTo_constant {command : Command} (harguments : command.arguments = [])
    (h : (Scope.frame environment).lookup store command.name = .ok (some (value, owner)))
    (hvalue : value.isCallable = false) :
    RunsTo (.frame environment) store (.command command) value := by
  refine ⟨0, fun fuel _ wanted otherwise => (handleByName_found h).trans ?_⟩
  cases value with
  | handler handler => cases hvalue
  | closure handler scope => cases hvalue
  | _ => simp only [callFound, harguments, List.isEmpty_nil, if_true, evaluator]

/-! ### Calls -/

/-- A parameter, the code for its argument, and the value of that code. -/
structure Supply where
  /-- The parameter. -/
  parameter : Parameter
  /-- The code. -/
  code : Value
  /-- The value. -/
  value : Value

/-- The argument of a call. -/
def Supply.argument (supply : Supply) : Argument := ⟨none, supply.code⟩

/-- Arguments that settle are bound to their parameters in turn, each with enough fuel for all. -/
theorem bindParameters_supplied (handler : Name) {supplies : List Supply}
    (h : ∀ supply ∈ supplies,
      Settles scope store supply.parameter.coercion supply.code supply.value) :
    ∃ enough, ∀ fuel, enough ≤ fuel →
      bindParameters (evaluator fuel) handler scope (supplies.map Supply.parameter) true
          (supplies.map Supply.argument) store =
        .done (supplies.map Supply.value, []) store := by
  induction supplies with
  | nil => exact ⟨0, fun _ _ => rfl⟩
  | cons supply supplies ih =>
    obtain ⟨⟨enough, hsettles⟩, hothers⟩ := List.forall_mem_cons.1 h
    obtain ⟨enough', hbinds⟩ := ih hothers
    refine ⟨enough + enough', fun fuel hfuel => ?_⟩
    have hvalue : ((evaluator fuel).coerce supply.parameter.coercion supply.code scope).mapError
        (.caused (.badArgument handler.text supply.parameter.label.text supply.code)) store =
          .done supply.value store := by
      simp only [Eval.mapError, evaluator, hsettles fuel (by omega)]
    refine (Eval.bind_done hvalue).trans ?_
    exact Eval.bind_done (hbinds fuel (by omega))

/-- The arguments of a command, one for each parameter, have their values. -/
theorem bindArguments_supplied {interface : Interface} {command : Command} {supplies : List Supply}
    (hparameters : interface.parameters = supplies.map Supply.parameter)
    (harguments : command.arguments = supplies.map Supply.argument)
    (hsettles : ∀ supply ∈ supplies,
      Settles scope store supply.parameter.coercion supply.code supply.value) :
    ∃ enough, ∀ fuel, enough ≤ fuel →
      bindArguments (evaluator fuel) interface command scope false store =
        .done (supplies.map Supply.value) store := by
  obtain ⟨enough, hbinds⟩ := bindParameters_supplied interface.name hsettles
  refine ⟨enough, fun fuel hfuel => ?_⟩
  unfold bindArguments
  rw [hparameters, harguments]
  exact Eval.bind_done (hbinds fuel hfuel)

/-- A call of a coercion runs to what the coercion makes of the values it is given. -/
theorem runsTo_call {command : Command} {callee : Coercion} {supplies : List Supply}
    (h : (Scope.frame environment).lookup store command.name =
      .ok (some (.coercion callee, owner)))
    (hparameters : callee.interface.parameters = supplies.map Supply.parameter)
    (harguments : command.arguments = supplies.map Supply.argument) (hsupplies : supplies ≠ [])
    (hsettles : ∀ supply ∈ supplies,
      Settles (.frame environment) store supply.parameter.coercion supply.code supply.value)
    (hanswer : applyCoercion callee (supplies.map Supply.value) = pure value) :
    RunsTo (.frame environment) store (.command command) value := by
  obtain ⟨enough, hbinds⟩ := bindArguments_supplied hparameters harguments hsettles
  refine ⟨enough, fun fuel hfuel wanted otherwise => (handleByName_found h).trans ?_⟩
  have hempty : command.arguments.isEmpty = false := by
    rw [harguments]
    simpa using hsupplies
  simp only [callFound, hempty, Bool.false_eq_true, if_false]
  refine (Eval.bind_done (hbinds fuel hfuel)).trans ?_
  rw [hanswer]
  rfl

/-- A call of a primitive handler gives what the handler answers to the values it is given, coerced
to whatever is wanted, and the store is as the handler leaves it. -/
theorem run_primitive {command : Command} {number : Nat} {interface : Interface} {body : Primitive}
    {supplies : List Supply} {after : Store}
    (h : (Scope.frame environment).lookup store command.name =
      .ok (some (.handler (.primitive number interface body), owner)))
    (hparameters : interface.parameters = supplies.map Supply.parameter)
    (harguments : command.arguments = supplies.map Supply.argument)
    (hsettles : ∀ supply ∈ supplies,
      Settles (.frame environment) store supply.parameter.coercion supply.code supply.value)
    (hanswer : ∃ enough, ∀ fuel, enough ≤ fuel →
      perform (evaluator fuel) ⟨command, .frame environment, supplies.map Supply.value⟩ body store =
        .done value after) :
    ∃ enough, ∀ fuel, enough ≤ fuel → ∀ wanted otherwise,
      runOr (evaluator fuel) (.frame environment) wanted (.command command) otherwise store =
        coerce fuel wanted value (.frame environment) after := by
  obtain ⟨enough, hbinds⟩ := bindArguments_supplied hparameters harguments hsettles
  obtain ⟨enough', hperforms⟩ := hanswer
  refine ⟨enough + enough', fun fuel hfuel wanted otherwise => (handleByName_found h).trans ?_⟩
  refine (Eval.bind_done (hbinds fuel (by omega))).trans ?_
  have hcausing : (perform (evaluator fuel)
      ⟨command, .frame environment, supplies.map Supply.value⟩ body).causing
        (handlerFailure interface.name command) store = .done value after := by
    simp only [Eval.causing, hperforms fuel (by omega)]
  exact Eval.bind_done hcausing

/-! ### Collections -/

/-- An evaluation for each of some things, if each gives what it should. -/
theorem forEach_settles {α β : Type} {action : Nat → β → Eval α} {codes : List β}
    {things : List α} (h : List.Forall₂ (fun code thing => ∃ enough, ∀ fuel, enough ≤ fuel →
      action fuel code store = .done thing store) codes things) :
    ∃ enough, ∀ fuel, enough ≤ fuel →
      Eval.forEach (action fuel) codes store = .done things store := by
  induction h with
  | nil => exact ⟨0, fun _ _ => rfl⟩
  | cons hfirst _ ih =>
    obtain ⟨enough, hfirst⟩ := hfirst
    obtain ⟨enough', hrest⟩ := ih
    refine ⟨enough + enough', fun fuel hfuel => ?_⟩
    refine (Eval.bind_done (hfirst fuel (by omega))).trans ?_
    exact Eval.bind_done (hrest fuel (by omega))

/-- The same for things that something is made of. -/
theorem forall₂_made {α β : Type} {R : β → α → Prop} {make : α → β} {things : List α}
    (h : ∀ thing ∈ things, R (make thing) thing) : List.Forall₂ R (things.map make) things :=
  List.forall₂_map_left_iff.2 (List.forall₂_same.2 h)

theorem coerceItem_settles (h : Settles scope store wanted code value) :
    ∃ enough, ∀ fuel, enough ≤ fuel →
      coerceItem (evaluator fuel) scope wanted code store = .done value store := by
  obtain ⟨enough, hsettles⟩ := h
  refine ⟨enough, fun fuel hfuel => ?_⟩
  simp only [coerceItem, Eval.mapError, evaluator, hsettles fuel hfuel]

/-- A list settles item by item. -/
theorem coerceItems_settles {codes items : List Value}
    (h : List.Forall₂ (Settles scope store wanted) codes items) :
    ∃ enough, ∀ fuel, enough ≤ fuel →
      coerceItems (evaluator fuel) scope wanted codes store = .done items store :=
  forEach_settles (h.imp fun _ _ => coerceItem_settles)

/-- Where anything is wanted, a list literal gives the list. -/
theorem settles_list {codes items : List Value} (hwanted : wanted.IsGeneral)
    (h : List.Forall₂ (Settles scope store wanted) codes items) :
    Settles scope store wanted (.list codes) (.list items) := by
  obtain ⟨enough, hitems⟩ := coerceItems_settles h
  refine ⟨enough + 1, fun fuel hfuel => ?_⟩
  obtain ⟨fuel, rfl⟩ := Nat.exists_eq_succ_of_ne_zero (Nat.ne_zero_of_lt hfuel)
  have hconverted : asAnything (evaluator fuel) scope wanted (.list codes) store =
      .done (.list items) store := Eval.bind_done (hitems fuel (Nat.le_of_succ_le_succ hfuel))
  exact (hwanted.coerce_succ fuel _ scope store).trans (recover_done (Eval.bind_done hconverted))

/-- So it does where a list of something is wanted. -/
theorem settles_listOf {item : Coercion} {codes items : List Value}
    (h : List.Forall₂ (Settles scope store item) codes items) :
    Settles scope store (.list item) (.list codes) (.list items) := by
  obtain ⟨enough, hitems⟩ := coerceItems_settles h
  refine ⟨enough + 1, fun fuel hfuel => ?_⟩
  obtain ⟨fuel, rfl⟩ := Nat.exists_eq_succ_of_ne_zero (Nat.ne_zero_of_lt hfuel)
  exact Eval.bind_done (hitems fuel (Nat.le_of_succ_le_succ hfuel))

/-- A field with code in place of its value. -/
def fieldCode (make : Value → Value) (entry : Key × Value) : Key × Value := (entry.1, make entry.2)

/-- A record literal gives the record, field by field. -/
theorem settles_record {make : Value → Value} {entries : List (Key × Value)}
    (hunique : Record.repeatedKey? [] entries = none)
    (h : ∀ entry ∈ entries, Settles scope store .anything (make entry.2) entry.2) :
    Settles scope store .anything (.record (.fields (entries.map (fieldCode make))))
      (.record (.fields entries)) := by
  have hfield : ∀ entry ∈ entries, ∃ enough, ∀ fuel, enough ≤ fuel →
      coerceField (evaluator fuel) scope .anything (fieldCode make entry) store =
        .done entry store := by
    intro entry hentry
    obtain ⟨enough, hvalue⟩ := coerceItem_settles (h entry hentry)
    exact ⟨enough, fun fuel hfuel => Eval.bind_done (hvalue fuel hfuel)⟩
  obtain ⟨enough, hentries⟩ := forEach_settles (forall₂_made hfield)
  refine ⟨enough + 1, fun fuel hfuel => ?_⟩
  obtain ⟨fuel, rfl⟩ := Nat.exists_eq_succ_of_ne_zero (Nat.ne_zero_of_lt hfuel)
  have hresolved : resolve (evaluator fuel) scope .anything
      (.fields (entries.map (fieldCode make))) store = .done (.fields entries) store := by
    refine (Eval.bind_done (hentries fuel (Nat.le_of_succ_le_succ hfuel))).trans ?_
    simp only [recordOf, Record.ofFields, hunique]
    rfl
  have hconverted : asAnything (evaluator fuel) scope .anything
      (.record (.fields (entries.map (fieldCode make)))) store =
        .done (.record (.fields entries)) store := Eval.bind_done hresolved
  exact recover_done (Eval.bind_done hconverted)

end Evaluation

/-! ## Names of the library as code -/

open CommandScript.Parser Lexer

variable {registry : Registry}

/-- A name that needs no quotes could stand between them. -/
theorem isName_of_needsNoQuotes {text : String}
    (h : Character.needsNoQuotes text.toList = true) : IsName text := by
  unfold IsName
  cases hchars : text.toList with
  | nil =>
    rw [hchars] at h
    cases h
  | cons c cs =>
    rw [hchars, Character.needsNoQuotes, Bool.and_eq_true, List.all_eq_true] at h
    obtain ⟨hstarts, hcontinues⟩ := h
    refine ⟨List.cons_ne_nil _ _, List.forall_mem_cons.2 ⟨?_, fun d hd => ?_⟩⟩
    · exact isQuotable_of_continuesName (continuesName_of_startsName hstarts)
    · exact isQuotable_of_continuesName (hcontinues d hd)

/-- The name of a coercion needs no quotes and is not the spelling of an operator. -/
theorem coercion_name (h : Library.registry = .ok registry) (c : Coercion) :
    FreeName registry c.name ∧ Display.name c.name = c.name := by
  have hall : Library.registry.toOption.all fun registry => Library.coercions.all fun c =>
      Character.needsNoQuotes c.name.toList && (registry.find? c.name).isNone := by
    decide +kernel
  have hmem : c.name ∈ Library.coercions.map Coercion.name := by
    cases c <;> simp [Library.coercions, Coercion.name]
  obtain ⟨known, hknown, hname⟩ := List.mem_map.1 hmem
  have hnames := test_of_ok hall h
  have htest := List.all_eq_true.1 hnames known hknown
  rw [hname, Bool.and_eq_true, Option.isNone_iff_eq_none] at htest
  obtain ⟨hplain, hfree⟩ := htest
  exact ⟨⟨isName_of_needsNoQuotes hplain, hfree⟩, if_pos hplain⟩

theorem Library.mem_namedCoercions {c : Coercion} (h : c ∈ Library.coercions) :
    (c.name, c) ∈ Library.namedCoercions :=
  List.mem_append_left _ (List.mem_map.2 ⟨c, h, rfl⟩)

/-- Every coercion that is built of nothing else is in the library under its name. -/
theorem Library.mem_coercions {c : Coercion} (h : c.buildsCoercion = false) :
    c ∈ Library.coercions := by
  cases c <;> simp_all [Library.coercions, Coercion.buildsCoercion]

namespace Coercion

variable {frames : FrameDescription}

theorem display_of_plain {c : Coercion} (h : c.buildsCoercion = false) :
    c.display frames = c.name := by
  cases c with
  | list _ | record _ | optional _ | lazy _ | default _ _ => cases h
  | _ => rfl

theorem display_list (c : Coercion) : (Coercion.list c).display frames =
    if c.isAnything then "list" else "list(" ++ c.display frames ++ ")" := rfl

theorem display_record (c : Coercion) : (Coercion.record c).display frames =
    if c.isAnything then "record" else "record(" ++ c.display frames ++ ")" := rfl

theorem display_optional (c : Coercion) :
    (Coercion.optional c).display frames = "optional(" ++ c.display frames ++ ")" := rfl

theorem display_lazy (c : Coercion) :
    (Coercion.lazy c).display frames = "lazy(" ++ c.display frames ++ ")" := rfl

theorem display_default (fallback : Value) (c : Coercion) :
    (Coercion.default fallback c).display frames =
      "default(" ++ fallback.display frames ++ ", " ++ c.display frames ++ ")" := rfl

end Coercion

/-- The operator that a constant is read as. -/
def constantOperator (name : String) : Operator := ⟨name, 0, .atom, [], none⟩

/-- The constants of the library are operators that are operands. -/
theorem starting?_constant (h : Library.registry = .ok registry) {name : String}
    (hname : name ∈ ["nothing", "true", "false"]) :
    registry.starting? name = some (constantOperator name) := by
  have hkeys : ∀ name ∈ ["nothing", "true", "false"], Text.lowercase name = name := by
    decide +kernel
  have hops : ∀ name ∈ ["nothing", "true", "false"], constantOperator name ∈ Library.operators := by
    simp [Library.operators, Library.atomOperators, constantOperator]
  have hfound := (Registry.registers_of_addAll h).starting? (hops name hname) rfl
    (List.mem_cons_self (a := name))
  rwa [hkeys name hname] at hfound

/-! ## Data -/

/-- A value that is data. -/
inductive Value.IsData : Value → Prop where
  | nothing : IsData .nothing
  | boolean (flag : Bool) : IsData (.boolean flag)
  | integer (number : Int64) : IsData (.ofInt64 number)
  | text (content : String) : IsData (.ofString content)
  | tag {name : Name} : IsName name.text → IsData (.tag name)
  | list {items : List Value} : (∀ item ∈ items, IsData item) → IsData (.list items)
  | record {entries : List (Key × Value)} : (∀ entry ∈ entries, IsData (.ofKey entry.1)) →
      (∀ entry ∈ entries, IsData entry.2) → Record.repeatedKey? [] entries = none →
      IsData (.record (.fields entries))
  | coercion {c : Coercion} : c.buildsCoercion = false → IsData (.coercion c)
  | listOf {c : Coercion} : IsData (.coercion c) → IsData (.coercion (.list c))
  | recordOf {c : Coercion} : IsData (.coercion c) → IsData (.coercion (.record c))
  | optional {c : Coercion} : IsData (.coercion c) → IsData (.coercion (.optional c))
  | lazy {c : Coercion} : IsData (.coercion c) → IsData (.coercion (.lazy c))
  | default {fallback : Value} {c : Coercion} : IsData fallback → IsData (.coercion c) →
      IsData (.coercion (.default fallback c))

/-- A value that is written as a literal.  That is data, and numbers of any kind are told apart by
how they were written. -/
inductive Value.IsLiteral : Value → Prop where
  | nothing : IsLiteral .nothing
  | boolean (flag : Bool) : IsLiteral (.boolean flag)
  | number {literal : String} {scalar : Scalar} :
      Numeral.scan? literal.toList = some ⟨literal.toList.length, scalar⟩ →
      IsLiteral (.text (.number literal scalar))
  | text (content : String) : IsLiteral (.ofString content)
  | tag {name : Name} : IsName name.text → IsLiteral (.tag name)
  | list {items : List Value} : (∀ item ∈ items, IsLiteral item) → IsLiteral (.list items)
  | record {entries : List (Key × Value)} : (∀ entry ∈ entries, IsLiteral (.ofKey entry.1)) →
      (∀ entry ∈ entries, IsLiteral entry.2) → Record.repeatedKey? [] entries = none →
      IsLiteral (.record (.fields entries))
  | coercion {c : Coercion} : c.buildsCoercion = false → IsLiteral (.coercion c)
  | listOf {c : Coercion} : IsLiteral (.coercion c) → IsLiteral (.coercion (.list c))
  | recordOf {c : Coercion} : IsLiteral (.coercion c) → IsLiteral (.coercion (.record c))
  | optional {c : Coercion} : IsLiteral (.coercion c) → IsLiteral (.coercion (.optional c))
  | lazy {c : Coercion} : IsLiteral (.coercion c) → IsLiteral (.coercion (.lazy c))
  | default {fallback : Value} {c : Coercion} : IsLiteral fallback → IsLiteral (.coercion c) →
      IsLiteral (.coercion (.default fallback c))

/-- Data is printed as a literal. -/
theorem Value.IsData.isLiteral {value : Value} (h : value.IsData) : value.IsLiteral := by
  induction h with
  | nothing => exact .nothing
  | boolean flag => exact .boolean flag
  | integer number => exact .number (Numeral.scan?_int64 number)
  | text content => exact .text content
  | tag hname => exact .tag hname
  | list _ ih => exact .list ih
  | record _ _ hunique ihKeys ih => exact .record ihKeys ih hunique
  | coercion hplain => exact .coercion hplain
  | listOf _ ih => exact .listOf ih
  | recordOf _ ih => exact .recordOf ih
  | optional _ ih => exact .optional ih
  | lazy _ ih => exact .lazy ih
  | default _ _ ihFallback ih => exact .default ihFallback ih

open Evaluation

variable {interpreter : Interpreter} {code value : Value}

/-- Code that is printed as a value is, that is read back, and that gives the value. -/
structure StandsFor (interpreter : Interpreter) (code value : Value) : Prop where
  /-- The code is read back. -/
  printable (frames : FrameDescription) : Printable interpreter.registry frames code
  /-- The code is printed as the value is. -/
  display (frames : FrameDescription) : code.display frames = value.display frames
  /-- The code gives the value. -/
  settles : Settles (.frame interpreter.globals) interpreter.store .anything code value
  /-- It gives a coercion too where one is wanted. -/
  coercion {c : Coercion} : value = .coercion c →
    Settles (.frame interpreter.globals) interpreter.store .coercion code value

/-! ### Atoms -/

/-- Texts, numbers and tags are their own code. -/
theorem standsFor_itself
    (hprintable : ∀ frames, Printable interpreter.registry frames value)
    (hsettles : ∀ fuel,
      coerce (fuel + 1) .anything value (.frame interpreter.globals) interpreter.store =
        .done value interpreter.store)
    (hvalue : ∀ c, value ≠ .coercion c) : StandsFor interpreter value value where
  printable := hprintable
  display := fun _ => rfl
  settles := settles_of_succ hsettles
  coercion := fun hcoercion => absurd hcoercion (hvalue _)

variable {start : Store}

/-- The constants are printed as their words, which run to them. -/
theorem standsFor_constant {name : String}
    (hload : Interpreter.withLibrary start.newRoot.1 start.newRoot.2 = .ok interpreter)
    (hname : name ∈ ["nothing", "true", "false"]) (hnames : Library.Names name value)
    (hdisplay : ∀ frames, value.display frames = name)
    (hvalue : value = .nothing ∨ ∃ flag, value = .boolean flag) :
    StandsFor interpreter (commandWith (constantOperator name) .atom []) value := by
  have hregistry := Interpreter.registry_withLibrary hload
  have hlookup := Interpreter.lookup_globals hload hnames
  refine ⟨fun frames => .atom (starting?_constant hregistry hname) rfl, fun frames => ?_, ?_, ?_⟩
  · rw [hdisplay]
    rfl
  · rcases hvalue with rfl | ⟨flag, rfl⟩
    · exact (runsTo_constant rfl hlookup rfl).settles .anything (settles_of_succ fun _ => rfl) rfl
    · exact (runsTo_constant rfl hlookup rfl).settles .anything (settles_of_succ fun _ => rfl) rfl
  · rintro c rfl
    rcases hvalue with hvalue | ⟨flag, hvalue⟩ <;> cases hvalue

/-! ### Coercions -/

/-- A name, or a name with arguments in parentheses. -/
def Value.IsCall : Value → Prop
  | .identifier _ => True
  | .command c => c.writtenAs = none
  | _ => False

/-- Code that names or builds a coercion, and is printed as the coercion is. -/
structure Builds (interpreter : Interpreter) (code : Value) (c : Coercion) : Prop where
  /-- The code is a name or a call. -/
  call : code.IsCall
  /-- The code is read back. -/
  printable (frames : FrameDescription) : Printable interpreter.registry frames code
  /-- The code is printed as the coercion is. -/
  display (frames : FrameDescription) : code.display frames = c.display frames
  /-- The code runs to the coercion. -/
  runs : RunsTo (.frame interpreter.globals) interpreter.store code (.coercion c)

/-- Code that builds a coercion stands for it. -/
theorem Builds.standsFor {c : Coercion} (h : Builds interpreter code c) :
    StandsFor interpreter code (.coercion c) where
  printable := h.printable
  display := h.display
  settles := h.runs.settles .anything (settles_of_succ fun _ => rfl) rfl
  coercion := fun _ => h.runs.settles_coercion

/-- The name of a coercion of the library names it. -/
theorem builds_name {c : Coercion}
    (hload : Interpreter.withLibrary start.newRoot.1 start.newRoot.2 = .ok interpreter)
    (hmem : c ∈ Library.coercions) (hdisplay : ∀ frames, c.display frames = c.name) :
    Builds interpreter (.identifier (.ofString c.name)) c := by
  obtain ⟨hfree, hprinted⟩ := coercion_name (Interpreter.registry_withLibrary hload) c
  have hlookup := Interpreter.lookup_globals hload (.coercion (Library.mem_namedCoercions hmem))
  refine ⟨trivial, fun frames => .identifier hfree, fun frames => ?_, ?_⟩
  · rw [hdisplay]
    exact hprinted
  · refine runsTo_identifier ?_
    rw [Scope.get, hlookup]
    rfl

/-- A call of a coercion of the library builds another one. -/
theorem builds_call (callee : Coercion) (supplies : List Supply) {built : Coercion}
    (hload : Interpreter.withLibrary start.newRoot.1 start.newRoot.2 = .ok interpreter)
    (hmem : callee ∈ Library.coercions)
    (hparameters : callee.interface.parameters = supplies.map Supply.parameter)
    (hsupplies : supplies ≠ [])
    (hcode : ∀ supply ∈ supplies, StandsFor interpreter supply.code supply.value)
    (hsettles : ∀ supply ∈ supplies, Settles (.frame interpreter.globals) interpreter.store
      supply.parameter.coercion supply.code supply.value)
    (hbuilt : applyCoercion callee (supplies.map Supply.value) = pure (.coercion built))
    (hdisplay : ∀ frames, built.display frames =
      callee.name ++ "(" ++ displayItems frames ", " (supplies.map Supply.value) ++ ")") :
    Builds interpreter
      (.command ⟨.ofString callee.name, supplies.map Supply.argument, none⟩) built := by
  obtain ⟨hfree, hprinted⟩ := coercion_name (Interpreter.registry_withLibrary hload) callee
  have hlookup := Interpreter.lookup_globals hload (.coercion (Library.mem_namedCoercions hmem))
  refine ⟨rfl, fun frames => .call hfree ?_ ?_, fun frames => ?_,
    runsTo_call hlookup hparameters rfl hsupplies hsettles hbuilt⟩
  · intro argument hargument
    obtain ⟨supply, -, rfl⟩ := List.mem_map.1 hargument
    exact nofun
  · intro argument hargument
    obtain ⟨supply, hsupply, rfl⟩ := List.mem_map.1 hargument
    exact (hcode supply hsupply).printable frames
  · have harguments : displayArguments frames (supplies.map Supply.argument) =
        displayItems frames ", " (supplies.map Supply.value) := by
      have htexts : supplies.map (argumentText frames ∘ Supply.argument) =
          supplies.map ((fun item => (item.display frames).toList) ∘ Supply.value) := by
        refine List.map_congr_left fun supply hsupply => ?_
        have hsame := (hcode supply hsupply).display frames
        simp [argumentText, Supply.argument, Display.label, hsame]
      apply String.toList_inj.1
      rw [toList_displayArguments, toList_displayItems, List.map_map, List.map_map, htexts]
      rfl
    have hcommand : Value.display frames
        (.command ⟨.ofString callee.name, supplies.map Supply.argument, none⟩) =
          Display.name callee.name ++ "(" ++
            displayArguments frames (supplies.map Supply.argument) ++ ")" := rfl
    rw [hcommand, hprinted, harguments, hdisplay]

/-- A coercion that is built on another one is built by a call. -/
theorem exists_builds (build : Coercion → Coercion) {c : Coercion}
    (hload : Interpreter.withLibrary start.newRoot.1 start.newRoot.2 = .ok interpreter)
    (hmem : build .anything ∈ Library.coercions)
    (hparameters : (build .anything).interface.parameters = [Coercion.typeParameter])
    (hbuilt : applyCoercion (build .anything) [.coercion c] = pure (.coercion (build c)))
    (hdisplay : ∀ frames, (build c).display frames =
      (build .anything).name ++ "(" ++ c.display frames ++ ")")
    (h : ∃ code, StandsFor interpreter code (.coercion c)) :
    ∃ code, Builds interpreter code (build c) := by
  obtain ⟨code, hcode⟩ := h
  have hsettles := (hcode.coercion rfl).default (.coercion .anything)
  exact ⟨_, builds_call (build .anything) [⟨Coercion.typeParameter, code, .coercion c⟩] hload
    hmem hparameters (List.cons_ne_nil _ _) (List.forall_mem_singleton.2 hcode)
    (List.forall_mem_singleton.2 hsettles) hbuilt hdisplay⟩

/-- A coercion of collections of anything is named, and any other is built by a call. -/
theorem exists_builds_collection (build : Coercion → Coercion) {c : Coercion}
    (hload : Interpreter.withLibrary start.newRoot.1 start.newRoot.2 = .ok interpreter)
    (hmem : build .anything ∈ Library.coercions)
    (hparameters : (build .anything).interface.parameters = [Coercion.typeParameter])
    (hbuilt : applyCoercion (build .anything) [.coercion c] = pure (.coercion (build c)))
    (hdisplay : ∀ frames, (build c).display frames =
      if c.isAnything then (build .anything).name
      else (build .anything).name ++ "(" ++ c.display frames ++ ")")
    (h : ∃ code, StandsFor interpreter code (.coercion c)) :
    ∃ code, Builds interpreter code (build c) := by
  cases hc : c.isAnything with
  | true =>
    obtain rfl : c = .anything := by cases c <;> first | rfl | cases hc
    exact ⟨_, builds_name hload hmem hdisplay⟩
  | false =>
    refine exists_builds build hload hmem hparameters hbuilt (fun frames => ?_) h
    rw [hdisplay, hc]
    rfl

/-- A default is built by a call with its fallback and the coercion inside. -/
theorem exists_builds_default {fallback : Value} {c : Coercion}
    (hload : Interpreter.withLibrary start.newRoot.1 start.newRoot.2 = .ok interpreter)
    (hfallback : ∃ code, StandsFor interpreter code fallback)
    (h : ∃ code, StandsFor interpreter code (.coercion c)) :
    ∃ code, Builds interpreter code (.default fallback c) := by
  obtain ⟨code, hcode⟩ := hfallback
  obtain ⟨inner, hinner⟩ := h
  have hsettles := (hinner.coercion rfl).default (.coercion .anything)
  refine ⟨_, builds_call (.default .nothing .anything)
    [⟨.ofName (.ofString "value") .anything, code, fallback⟩,
      ⟨Coercion.typeParameter, inner, .coercion c⟩]
    hload (by simp [Library.coercions]) rfl (List.cons_ne_nil _ _) ?_ ?_ rfl fun frames => ?_⟩
  · exact List.forall_mem_cons.2 ⟨hcode, List.forall_mem_singleton.2 hinner⟩
  · exact List.forall_mem_cons.2 ⟨hcode.settles, List.forall_mem_singleton.2 hsettles⟩
  · apply String.toList_inj.1
    have hitems : displayItems frames ", " [fallback, .coercion c] =
        fallback.display frames ++ ", " ++ c.display frames := rfl
    simp [Coercion.display_default, Coercion.name, hitems]

/-! ### Collections -/

/-- Code for each of some values. -/
theorem exists_make {items : List Value}
    (h : ∀ item ∈ items, ∃ code, StandsFor interpreter code item) :
    ∃ make : Value → Value, ∀ item ∈ items, StandsFor interpreter (make item) item :=
  ⟨fun item => Classical.epsilon fun code => StandsFor interpreter code item,
    fun item hitem => Classical.epsilon_spec (h item hitem)⟩

/-- A list literal of the items' code stands for the list. -/
theorem exists_standsFor_list {items : List Value}
    (h : ∀ item ∈ items, ∃ code, StandsFor interpreter code item) :
    ∃ code, StandsFor interpreter code (.list items) := by
  obtain ⟨make, hmake⟩ := exists_make h
  refine ⟨.list (items.map make), fun frames => .list fun code hcode => ?_, fun frames => ?_,
    settles_list .anything (forall₂_made fun item hitem => (hmake item hitem).settles), nofun⟩
  · obtain ⟨item, hitem, rfl⟩ := List.mem_map.1 hcode
    exact (hmake item hitem).printable frames
  · have htexts : items.map ((fun item => (item.display frames).toList) ∘ make) =
        items.map fun item => (item.display frames).toList :=
      List.map_congr_left fun item hitem =>
        congrArg String.toList ((hmake item hitem).display frames)
    have hitems : displayItems frames ", " (items.map make) = displayItems frames ", " items := by
      apply String.toList_inj.1
      rw [toList_displayItems, toList_displayItems, List.map_map, htexts]
    rw [display_list, display_list, hitems]

theorem repeatedKey?_fieldCode (make : Value → Value) (earlier : List Key)
    (entries : List (Key × Value)) :
    Record.repeatedKey? earlier (entries.map (fieldCode make)) =
      Record.repeatedKey? earlier entries := by
  induction entries generalizing earlier with
  | nil => rfl
  | cons entry entries ih =>
    rw [List.map_cons, fieldCode, Record.repeatedKey?, Record.repeatedKey?, ih]

/-- The key of a field is printed as itself. -/
theorem printable_key {key : Key} (h : (Value.ofKey key).IsLiteral) (frames : FrameDescription) :
    Printable registry frames (.ofKey key) := by
  cases key with
  | text content =>
    cases h with
    | number hnumber => exact .number hnumber
    | text content => exact .text
  | tag name =>
    cases h with
    | tag hname => exact .tag hname

/-- A record literal stands for the record; its keys stay as they are. -/
theorem exists_standsFor_record {entries : List (Key × Value)}
    (hkeys : ∀ entry ∈ entries, (Value.ofKey entry.1).IsLiteral)
    (hunique : Record.repeatedKey? [] entries = none)
    (h : ∀ entry ∈ entries, ∃ code, StandsFor interpreter code entry.2) :
    ∃ code, StandsFor interpreter code (.record (.fields entries)) := by
  obtain ⟨make, hmake⟩ := exists_make (List.forall_mem_map.2 h)
  replace hmake := List.forall_mem_map.1 hmake
  refine ⟨.record (.fields (entries.map (fieldCode make))), fun frames => .record ?_ ?_ ?_,
    fun frames => ?_, settles_record hunique fun entry hentry => (hmake entry hentry).settles,
    nofun⟩
  · exact List.forall_mem_map.2 fun entry hentry => printable_key (hkeys entry hentry) frames
  · exact List.forall_mem_map.2 fun entry hentry => (hmake entry hentry).printable frames
  · rw [repeatedKey?_fieldCode, hunique]
  · have htexts : entries.map (fieldText frames ∘ fieldCode make) =
        entries.map (fieldText frames) := by
      refine List.map_congr_left fun entry hentry => ?_
      simp only [Function.comp, fieldText, fieldCode, (hmake entry hentry).display frames]
    have hentries : displayEntries frames (entries.map (fieldCode make)) =
        displayEntries frames entries := by
      apply String.toList_inj.1
      rw [toList_displayEntries, toList_displayEntries, List.map_map, htexts]
    cases entries with
    | nil => rfl
    | cons entry entries =>
      rw [List.map_cons] at hentries ⊢
      rw [display_record, display_record, hentries]

/-! ## Data read back -/

/-- Every literal has code that stands for it, and a coercion is named or built by a call. -/
theorem Value.IsLiteral.exists_code
    (hload : Interpreter.withLibrary start.newRoot.1 start.newRoot.2 = .ok interpreter)
    (h : value.IsLiteral) :
    (∃ code, StandsFor interpreter code value) ∧
      ∀ c, value = .coercion c → ∃ code, Builds interpreter code c := by
  have hbuilt {c : Coercion} (h : ∃ code, Builds interpreter code c) :
      (∃ code, StandsFor interpreter code (.coercion c)) ∧
        ∀ d, Value.coercion c = .coercion d → ∃ code, Builds interpreter code d := by
    refine ⟨h.imp fun _ hcode => hcode.standsFor, ?_⟩
    rintro _ ⟨⟩
    exact h
  have hother {value : Value} (h : ∃ code, StandsFor interpreter code value)
      (hvalue : ∀ c, value ≠ .coercion c) :
      (∃ code, StandsFor interpreter code value) ∧
        ∀ c, value = .coercion c → ∃ code, Builds interpreter code c :=
    ⟨h, fun c hcoercion => absurd hcoercion (hvalue c)⟩
  induction h with
  | nothing =>
    refine hother ⟨_, standsFor_constant hload (by decide)
      (.constant (by simp [Library.constants])) (fun _ => rfl) (.inl rfl)⟩ ?_
    rintro _ ⟨⟩
  | boolean flag =>
    refine hother ?_ (by rintro _ ⟨⟩)
    cases flag with
    | false =>
      exact ⟨_, standsFor_constant hload (by decide) (.constant (by simp [Library.constants]))
        (fun _ => rfl) (.inr ⟨false, rfl⟩)⟩
    | true =>
      exact ⟨_, standsFor_constant hload (by decide) (.constant (by simp [Library.constants]))
        (fun _ => rfl) (.inr ⟨true, rfl⟩)⟩
  | number hnumber =>
    refine hother ⟨_, standsFor_itself (fun _ => .number hnumber) (fun _ => rfl) ?_⟩ ?_
    all_goals rintro _ ⟨⟩
  | text content =>
    refine hother ⟨_, standsFor_itself (fun _ => .text) (fun _ => rfl) ?_⟩ ?_
    all_goals rintro _ ⟨⟩
  | tag hname =>
    refine hother ⟨_, standsFor_itself (fun _ => .tag hname) (fun _ => rfl) ?_⟩ ?_
    all_goals rintro _ ⟨⟩
  | list _ ih =>
    exact hother (exists_standsFor_list fun item hitem => (ih item hitem).1) (by rintro _ ⟨⟩)
  | record hkeys _ hunique _ ih =>
    exact hother (exists_standsFor_record hkeys hunique fun entry hentry => (ih entry hentry).1)
      (by rintro _ ⟨⟩)
  | coercion hplain =>
    exact hbuilt ⟨_, builds_name hload (Library.mem_coercions hplain)
      fun frames => Coercion.display_of_plain hplain⟩
  | listOf _ ih =>
    exact hbuilt (exists_builds_collection .list hload (by simp [Library.coercions]) rfl rfl
      (fun frames => by simp [Coercion.display_list, Coercion.name]) ih.1)
  | recordOf _ ih =>
    exact hbuilt (exists_builds_collection .record hload (by simp [Library.coercions]) rfl rfl
      (fun frames => by simp [Coercion.display_record, Coercion.name]) ih.1)
  | optional _ ih =>
    exact hbuilt (exists_builds .optional hload (by simp [Library.coercions]) rfl rfl
      (fun frames => by simp [Coercion.display_optional, Coercion.name]) ih.1)
  | lazy _ ih =>
    exact hbuilt (exists_builds .lazy hload (by simp [Library.coercions]) rfl rfl
      (fun frames => by simp [Coercion.display_lazy, Coercion.name]) ih.1)
  | default _ _ ihFallback ih => exact hbuilt (exists_builds_default hload ihFallback.1 ih.1)

/-- Every form of data has code that stands for it. -/
theorem Value.IsData.exists_standsFor
    (hload : Interpreter.withLibrary start.newRoot.1 start.newRoot.2 = .ok interpreter)
    (h : value.IsData) : ∃ code, StandsFor interpreter code value :=
  (h.isLiteral.exists_code hload).1

/-- Data that is printed, read as a script and run in a new interpreter with the library is the
data, and the interpreter is as it was. -/
theorem Interpreter.evaluate_display (start : Store) (interpreter : Interpreter)
    (hload : withLibrary start.newRoot.1 start.newRoot.2 = .ok interpreter)
    (value : Value) (hvalue : value.IsData) (frames : FrameDescription) :
    ∃ enough, ∀ fuel, enough ≤ fuel →
      interpreter.evaluate fuel (value.display frames) = .done value interpreter := by
  obtain ⟨code, hcode⟩ := hvalue.exists_standsFor hload
  have hread : readScript interpreter.registry (value.display frames) = .ok [code] := by
    rw [← hcode.display]
    exact (hcode.printable frames).readScript_display (prints_library (registry_withLibrary hload))
  obtain ⟨enough, hsettles⟩ := hcode.settles
  refine ⟨enough + 2, fun fuel hfuel => ?_⟩
  obtain ⟨fuel, rfl⟩ : ∃ smaller, fuel = smaller + 2 := ⟨fuel - 2, by omega⟩
  have hdone := hsettles fuel (by omega)
  have hblock := (below_coerce_single fuel code).eq (by rw [hdone]; nofun)
  rw [evaluate, hread]
  simp only [runScript, hblock, hdone]

/-- Data with a quoted tag, the least integer, an empty record, a text with quotes and a line break,
and coercions inside others. -/
def nestedData : Value :=
  .record (.fields
    [(.tag (.ofString "a b"), .list [.ofInt64 Int64.minValue, .nothing, .record (.fields [])]),
     (.text (.plain "say “hi”"),
       .coercion (.default (.ofString "x\ny") (.list (.optional .recordKey))))])

theorem isData_nestedData : nestedData.IsData := by
  refine .record ?_ ?_ (by decide +kernel)
  · have hname : IsName "a b" := ⟨by decide +kernel, forall_mem_of_all (by decide +kernel)⟩
    refine List.forall_mem_cons.2 ⟨.tag hname, ?_⟩
    exact List.forall_mem_singleton.2 (.text _)
  · refine List.forall_mem_cons.2 ⟨.list ?_, List.forall_mem_singleton.2 ?_⟩
    · exact List.forall_mem_cons.2 ⟨.integer _, List.forall_mem_cons.2
        ⟨.nothing, List.forall_mem_singleton.2 (.record nofun nofun rfl)⟩⟩
    · exact .default (.text _) (.listOf (.optional (.coercion rfl)))

theorem Interpreter.evaluate_display_nested :
    ∃ interpreter, standard = .ok interpreter ∧ ∃ enough, ∀ fuel, enough ≤ fuel →
      interpreter.evaluate fuel ("[#'a b': [-9223372036854775808, nothing, [:]], " ++
        "“say \\“hi\\””: default(“x\\ny”, list(optional(record_key)))]") =
          .done nestedData interpreter := by
  have hdisplay : nestedData.display Store.empty.describe =
      "[#'a b': [-9223372036854775808, nothing, [:]], " ++
        "“say \\“hi\\””: default(“x\\ny”, list(optional(record_key)))]" := by
    decide +kernel
  obtain ⟨interpreter, hstandard⟩ := exists_standard
  refine ⟨interpreter, hstandard, ?_⟩
  rw [← hdisplay]
  exact evaluate_display Store.empty interpreter hstandard nestedData isData_nestedData _

end CommandScript
