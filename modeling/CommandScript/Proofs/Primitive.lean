import Mathlib.Data.List.Forall2
import CommandScript.Evaluation.Primitive
import CommandScript.Proofs.Conversion

/-!
# What primitive handlers answer

Under any discipline that the evaluator respects, the values of parameters obey the policy, so do
the host values that bridges make of them, and a primitive handler gives an answer.  The answer may
be `didNothing`, but only as a whole: what a handler stores, and what it puts into a list, obeys the
policy.
-/

namespace CommandScript

open Eval

variable {e : Evaluator} {d : Discipline} {scope caller : Scope}

namespace Evaluation

/-! ## Arguments -/

/-- A parameter gets code from the command, or nothing, and what is left over is code from the
command too. -/
theorem nextArgument_obeys {p : Policy} (parameter : Parameter) (matching : Bool)
    {arguments : List Argument} (h : ∀ argument ∈ arguments, argument.value.Obeys p) :
    (nextArgument parameter matching arguments).1.Obeys p ∧
      ∀ argument ∈ (nextArgument parameter matching arguments).2.1, argument.value.Obeys p := by
  cases arguments with
  | nil => exact ⟨.nothing, h⟩
  | cons argument rest =>
    obtain ⟨hfirst, hrest⟩ := List.forall_mem_cons.1 h
    simp only [nextArgument]
    split
    next => exact ⟨hfirst, hrest⟩
    next => exact ⟨.nothing, h⟩

/-- The values of parameters, each as sound as its parameter wants. -/
abbrev Supplied (d : Discipline) : List Parameter → List Value → Prop :=
  List.Forall₂ fun parameter value => d.Sound parameter.coercion value

/-- Sound values obey the policy. -/
theorem Supplied.obeys {parameters : List Parameter} {values : List Value}
    (h : Supplied d parameters values) : ∀ value ∈ values, value.Obeys d.toPolicy := by
  induction h with
  | nil => exact List.forall_mem_nil _
  | cons hfirst _ ih => exact List.forall_mem_cons.2 ⟨hfirst.obeys, ih⟩

/-- By induction on the parameters, each value is as sound as its own parameter wants. -/
theorem bindParameters_keeps {handler : Name} {parameters : List Parameter} {matching : Bool}
    {arguments : List Argument} (he : e.Respects d) (hc : d.RunsIn caller)
    (hparameters : ∀ q ∈ parameters, q.coercion.Obeys d.toPolicy)
    (harguments : ∀ argument ∈ arguments, argument.value.Obeys d.toPolicy) :
    d.Keeps (fun bound => Supplied d parameters bound.1)
      (bindParameters e handler caller parameters matching arguments) := by
  induction parameters generalizing matching arguments with
  | nil => exact .pure .nil
  | cons parameter parameters ih =>
    obtain ⟨hfirst, hothers⟩ := List.forall_mem_cons.1 hparameters
    obtain ⟨hexpression, hrest⟩ := nextArgument_obeys parameter matching harguments
    refine .bind ((he.sound hfirst hexpression hc).mapError fun _ h => d.caused rfl h)
      fun value hv => ?_
    refine .bind (ih hothers hrest) fun bound hbound => ?_
    exact .pure (.cons hv hbound)

/-- A handler gets sound values for all its parameters, or is not called. -/
theorem bindArguments_keeps {interface : Interface} {command : Command} {isEvent : Bool}
    (he : e.Respects d) (hc : d.RunsIn caller)
    (hparameters : ∀ q ∈ interface.parameters, q.coercion.Obeys d.toPolicy)
    (hcommand : (Value.command command).Obeys d.toPolicy) :
    d.Keeps (Supplied d interface.parameters)
      (bindArguments e interface command caller isEvent) := by
  refine .bind (bindParameters_keeps he hc hparameters (Value.obeys_command.1 hcommand))
    fun bound hbound => ?_
  obtain ⟨values, leftOver⟩ := bound
  dsimp only
  split
  next => exact .pure hbound
  next => exact .bind Discipline.read_keeps fun _ _ => Discipline.fails rfl

end Evaluation

/-! ## Bridges -/

namespace Bridge

/-- A host value in which nothing breaks a policy. -/
def HostObeys (p : Policy) : (b : Bridge) → b.Host → Prop
  | .bool, _ | .text, _ | .scalar, _ | .integer, _ | .real, _ | .tag, _ => True
  | .value, host | .expression, host => Value.Obeys p host
  | .coercion, host => Coercion.Obeys p host
  | .reference, host => Target.Obeys p (Reference.target host)
  | .parameter, host => Coercion.Obeys p (Parameter.coercion host)
  | .optional inner, host => ∀ found ∈ host, inner.HostObeys p found
  | .list item, hosts => ∀ host ∈ hosts, item.HostObeys p host

/-- What a bridge asks for is a coercion without values of its own. -/
theorem wanted_obeys {p : Policy} : ∀ b : Bridge, b.wanted.Obeys p
  | .optional inner => .optional inner.wanted_obeys
  | .list item => .list item.wanted_obeys
  | .bool | .text | .scalar | .integer | .real | .tag | .value | .expression | .coercion
  | .reference | .parameter => .simple rfl

/-- A host value becomes a value that obeys again. -/
theorem box_obeys {p : Policy} : ∀ {b : Bridge} {host : b.Host}, b.HostObeys p host →
    (b.box host).Obeys p
  | .bool, _, _ => .boolean
  | .text, _, _ | .scalar, _, _ | .integer, _, _ | .real, _, _ => .text
  | .tag, _, _ => .tag
  | .value, _, h | .expression, _, h => h
  | .coercion, _, h => .coercion h
  | .reference, _, h => .reference h
  | .parameter, _, h => by
    refine .list fun item hitem => ?_
    simp only [List.mem_cons, List.not_mem_nil, or_false] at hitem
    rcases hitem with rfl | rfl | rfl
    · exact .text
    · exact .text
    · exact .coercion h
  | .optional _, none, _ => .nothing
  | .optional inner, some _, h => box_obeys (b := inner) (h _ rfl)
  | .list item, hosts, h => by
    refine .list fun value hvalue => ?_
    obtain ⟨host, hhost, rfl⟩ := List.mem_map.1 hvalue
    exact box_obeys (b := item) (h host hhost)

/-- The name of a parameter is read off a value, and nothing is evaluated. -/
theorem parameterName_keeps (value : Value) :
    d.Keeps (fun _ => True) (parameterName value) := by
  cases value with
  | text content =>
    simp only [parameterName]
    split
    next => exact Discipline.fails rfl
    next => exact .pure trivial
  | tag name => exact .pure trivial
  | _ => exact Discipline.fails rfl

/-- A number that can't be used is told plainly. -/
theorem useScalar_keeps {α : Type} {content : TextValue} {given : Except ScalarError α} :
    d.Keeps (fun _ => True) (useScalar content given) := by
  cases given with
  | ok number => exact .pure trivial
  | error problem => exact Discipline.fails rfl

/-- A coercion is evaluated before it is unboxed, so the evaluator vouches for it. -/
theorem unboxCoercion_keeps {given : Value} (he : e.Respects d) (hs : d.RunsIn scope)
    (hv : given.Obeys d.toPolicy) :
    d.Keeps (·.Obeys d.toPolicy) (unboxCoercion e scope given) := by
  refine .bind (he.coerceSimple rfl hv hs) fun value hvalue => ?_
  split
  next host => exact .pure (Value.obeys_coercion.1 hvalue)
  next => exact Discipline.fails rfl

/-- A parameter on the host side has a coercion that obeys. -/
theorem unboxParameter_keeps {given : Value} (he : e.Respects d) (hs : d.RunsIn scope)
    (hv : given.Obeys d.toPolicy) :
    d.Keeps (fun parameter => parameter.coercion.Obeys d.toPolicy)
      (unboxParameter e scope given) := by
  refine .bind (he.coerceSimple rfl hv hs) fun value hvalue => ?_
  split
  next binding =>
    exact .bind (parameterName_keeps binding) fun _ _ => .pure (.simple rfl)
  next binding type =>
    have htype := Value.obeys_list.1 hvalue type (by simp)
    refine .bind (parameterName_keeps binding) fun _ _ => ?_
    exact .bind (unboxCoercion_keeps he hs htype) fun _ hwanted => .pure hwanted
  next label binding type =>
    have htype := Value.obeys_list.1 hvalue type (by simp)
    refine .bind (parameterName_keeps label) fun _ _ => ?_
    refine .bind (parameterName_keeps binding) fun _ _ => ?_
    exact .bind (unboxCoercion_keeps he hs htype) fun _ hwanted => .pure hwanted
  next => exact Discipline.fails rfl
  next => exact .bind (parameterName_keeps value) fun _ _ => .pure (.simple rfl)

/-- A reference leads to a target that obeys. -/
theorem unboxReference_keeps {given : Value} (he : e.Respects d) (hs : d.RunsIn scope)
    (hv : given.Obeys d.toPolicy) :
    d.Keeps (fun host => host.target.Obeys d.toPolicy) (unboxReference e scope given) := by
  refine .bind (he.coerceSimple rfl hv hs) fun value hvalue => ?_
  split
  next => exact .failWith d.absent
  next => exact .failWith d.absent
  next number target =>
    cases hvalue with
    | reference htarget => exact .pure htarget
  next items => exact .bind Discipline.newId_keeps fun _ _ => .pure (.list hvalue)
  next record => exact .bind Discipline.newId_keeps fun _ _ => .pure (.record hvalue)
  next => exact Discipline.fails rfl

/-- By recursion on the bridge, for the bridges inside it. -/
theorem unbox_keeps (he : e.Respects d) (hs : d.RunsIn scope) :
    ∀ {b : Bridge} {given : Value}, given.Obeys d.toPolicy →
      d.Keeps (b.HostObeys d.toPolicy) (b.unbox e scope given)
  | .bool, given, hv | .text, given, hv | .scalar, given, hv | .tag, given, hv => by
    refine .bind (he.coerceSimple rfl hv hs) fun value _ => ?_
    split
    next => exact .pure trivial
    next => exact Discipline.fails rfl
  | .integer, given, hv | .real, given, hv => by
    refine .bind (he.coerceSimple rfl hv hs) fun value _ => ?_
    split
    next => exact useScalar_keeps
    next => exact Discipline.fails rfl
  | .value, given, hv => he.coerceSimple rfl hv hs
  | .expression, given, hv => .done hv
  | .coercion, given, hv => unboxCoercion_keeps he hs hv
  | .reference, given, hv => unboxReference_keeps he hs hv
  | .parameter, given, hv => unboxParameter_keeps he hs hv
  | .optional inner, given, hv => by
    refine .recover (.bind (unbox_keeps he hs (b := inner) hv) fun host hhost => .pure ?_)
      (.done fun _ h => nomatch h) fun _ _ h => h
    intro found hfound
    cases hfound
    exact hhost
  | .list item, given, hv => by
    refine .bind (he.coerce (.list item.wanted_obeys) hv hs) fun value hvalue => ?_
    split
    next items =>
      refine .forEach fun value hmem => ?_
      have hobeys := Value.obeys_list.1 hvalue value hmem
      exact (unbox_keeps he hs (b := item) hobeys).mapError fun _ h => (d.permanent _ _ h).error
    next => exact Discipline.fails rfl

end Bridge

namespace Evaluation

/-! ## Reading parameters -/

/-- A call whose scope and values stay within a discipline, with a number of values to read.  Its
command is only shown. -/
structure Call.Within (call : Call) (d : Discipline) (count : Nat) : Prop where
  /-- The scope it was written in. -/
  caller : d.RunsIn call.caller
  /-- The values of the parameters. -/
  arguments : ∀ value ∈ call.arguments, value.Obeys d.toPolicy
  /-- The values to read are there, unless rules may be broken. -/
  reads : count ≤ call.arguments.length ∨ ∀ message, d.error (.of (.internal message))

section Calls

variable {call : Call} {count : Nat}

/-- A handler that declares what it reads finds every parameter. -/
theorem argument_keeps (hc : call.Within d count) (index : Nat)
    (hindex : index < count := by simp [Primitive.reads]) :
    d.Keeps (·.Obeys d.toPolicy) (call.argument index) := by
  unfold Call.argument
  cases h : call.arguments[index]? with
  | some value => exact .pure (hc.arguments value (List.mem_of_getElem? h))
  | none =>
    rcases hc.reads with hthere | hbroken
    · have hshort := List.getElem?_eq_none_iff.1 h
      omega
    · exact .failWith (hbroken _)

/-- A parameter read through a bridge obeys as a host value. -/
theorem read_keeps (he : e.Respects d) (hc : call.Within d count) (b : Bridge) (index : Nat)
    (hindex : index < count := by simp [Primitive.reads]) :
    d.Keeps (b.HostObeys d.toPolicy) (call.read e b index) :=
  .bind (argument_keeps hc index hindex) fun _ hvalue => Bridge.unbox_keeps he hc.caller hvalue

theorem readThrough_keeps (he : e.Respects d) (hc : call.Within d count) {index : Nat}
    (hindex : index < count) :
    ∀ read : Option Bridge, d.Keeps (·.Obeys d.toPolicy) (readThrough e call index read)
  | none => argument_keeps hc index hindex
  | some b => .bind (read_keeps he hc b index hindex) fun _ hhost => .pure (Bridge.box_obeys hhost)

/-- All parameters read one after another obey, and so does the list of them. -/
theorem collect_keeps (he : e.Respects d) (hc : call.Within d count) {reads : List (Option Bridge)}
    {index : Nat} (hindex : index + reads.length ≤ count) :
    d.Keeps (fun values => ∀ value ∈ values, value.Obeys d.toPolicy)
      (collect e call index reads) := by
  induction reads generalizing index with
  | nil => exact .pure (List.forall_mem_nil _)
  | cons read reads ih =>
    rw [List.length_cons] at hindex
    refine .bind (readThrough_keeps he hc (by omega) read) fun value hvalue => ?_
    refine .bind (ih (by omega)) fun values hvalues => ?_
    exact .pure (List.forall_mem_cons.2 ⟨hvalue, hvalues⟩)

/-! ## Answers -/

/-- A value that obeys may be answered. -/
theorem answer {value : Value} (h : value.Obeys d.toPolicy) :
    d.Keeps d.IsAnswer (Pure.pure value) :=
  .pure (.inl h)

/-- A number that was computed is answered as a text, and one that could not be is told plainly. -/
theorem answerScalar_keeps {subject : Value} {given : Except ScalarError Scalar} :
    d.Keeps d.IsAnswer (answerScalar subject given) := by
  cases given with
  | ok scalar => exact answer .text
  | error problem => exact Discipline.fails rfl

theorem countOf_keeps (value : Value) : d.Keeps (fun _ => True) (countOf value) := by
  cases value with
  | list items => exact .pure trivial
  | record record => exact .pure trivial
  | text content => exact .pure trivial
  | tag name => exact .pure trivial
  | _ => exact Discipline.fails rfl

/-- By induction on the rounds, the last answer is an answer. -/
theorem repeatLoop_keeps {action : Eval Value} (h : d.Keeps d.IsAnswer action) {count : Nat}
    {last : Value} (hlast : d.IsAnswer last) :
    d.Keeps d.IsAnswer (repeatLoop action count last) := by
  induction count generalizing last with
  | zero => exact .pure hlast
  | succ count ih => exact .bind h fun value hvalue => ih hvalue

/-- Nor does it matter how often the condition is asked. -/
theorem whileLoop_keeps {condition : Eval Bool} {action : Eval Value}
    (hcondition : d.Keeps (fun _ => True) condition) (h : d.Keeps d.IsAnswer action) {fuel : Nat}
    {last : Value} (hlast : d.IsAnswer last) :
    d.Keeps d.IsAnswer (whileLoop condition action fuel last) := by
  induction fuel generalizing last with
  | zero => exact .exhausted
  | succ fuel ih =>
    refine .bind hcondition fun holds _ => ?_
    cases holds with
    | true => exact .bind h fun value hvalue => ih hvalue
    | false => exact .pure hlast

/-- What is stored obeys the policy, and it is stored from where code runs. -/
theorem storeValue_keeps (he : e.Respects d) (hc : call.Within d 3) :
    d.Keeps d.IsAnswer (storeValue e call) := by
  refine .bind (read_keeps he hc .text 0) fun name _ => ?_
  refine .bind (read_keeps he hc .value 1) fun value hvalue => ?_
  refine .bind (read_keeps he hc .bool 2) fun readOnly _ => ?_
  refine .bind (.change (fun _ _ hs hput => d.put hs hc.caller.home hvalue hput)
    fun _ _ _ => d.plain ∘ Scope.put_plain _) fun _ _ => ?_
  exact answer hvalue

/-- A definition stores a handler whose parameters and body obey. -/
theorem defineHandler_keeps (he : e.Respects d) (hc : call.Within d 5) :
    d.Keeps d.IsAnswer (defineHandler e call) := by
  refine .bind (read_keeps he hc .text 0) fun text _ => ?_
  refine .bind (read_keeps he hc (.list .parameter) 1) fun parameters hparameters => ?_
  refine .bind (read_keeps he hc .coercion 2) fun returns hreturns => ?_
  refine .bind (read_keeps he hc .expression 3) fun action haction => ?_
  refine .bind (read_keeps he hc .bool 4) fun isEvent _ => ?_
  refine .bind Discipline.newId_keeps fun number _ => ?_
  have hhandler : (Value.handler (.native number ⟨.ofString text, parameters, returns⟩ action
      isEvent)).Obeys d.toPolicy := .handler (.native hparameters hreturns haction)
  refine .bind (.change (fun _ _ hs hput => d.put hs hc.caller.home hhandler hput)
    fun _ _ _ => d.plain ∘ Scope.put_plain _) fun _ _ => ?_
  exact answer hhandler

theorem testCoercion_keeps (he : e.Respects d) (hc : call.Within d 2) :
    d.Keeps d.IsAnswer (testCoercion e call) := by
  refine .bind (read_keeps he hc .expression 0) fun value hvalue => ?_
  refine .bind (read_keeps he hc .coercion 1) fun wanted hwanted => ?_
  have hcoerce := he.coerce hwanted hvalue hc.caller
  exact .recover (.bind hcoerce fun _ _ => answer .boolean) (.done (.inl .boolean))
    fun _ _ h => h

/-- A primitive handler gives an answer. -/
theorem perform_keeps (he : e.Respects d) {body : Primitive} (hc : call.Within d body.reads) :
    d.Keeps d.IsAnswer (perform e call body) := by
  cases body with
  | number operation =>
    refine .bind (read_keeps he hc .scalar 0) fun left _ => ?_
    exact .bind (read_keeps he hc .scalar 1) fun right _ => answerScalar_keeps
  | positive => exact .bind (read_keeps he hc .scalar 0) fun right _ => answer .text
  | negative => exact .bind (read_keeps he hc .scalar 0) fun right _ => answerScalar_keeps
  | testNumbers test =>
    refine .bind (read_keeps he hc .scalar 0) fun left _ => ?_
    refine .bind (read_keeps he hc .scalar 1) fun right _ => ?_
    split
    next => exact answer .boolean
    next => exact Discipline.fails rfl
  | testTexts test =>
    refine .bind (read_keeps he hc .text 0) fun left _ => ?_
    exact .bind (read_keeps he hc .text 1) fun right _ => answer .boolean
  | not => exact .bind (read_keeps he hc .bool 0) fun right _ => answer .boolean
  | logic connective =>
    refine .bind (read_keeps he hc .bool 0) fun left _ => ?_
    exact .bind (read_keeps he hc .bool 1) fun right _ => answer .boolean
  | uppercase => exact .bind (read_keeps he hc .text 0) fun content _ => answer .text
  | lowercase => exact .bind (read_keeps he hc .text 0) fun content _ => answer .text
  | join =>
    refine .bind (read_keeps he hc .text 0) fun left _ => ?_
    exact .bind (read_keeps he hc .text 1) fun right _ => answer .text
  | count =>
    refine .bind (read_keeps he hc .value 0) fun value _ => ?_
    exact .bind (countOf_keeps value) fun count _ => answer .text
  | «show» =>
    refine .bind (argument_keeps hc 0) fun value _ => ?_
    refine .bind Discipline.read_keeps fun line _ => ?_
    exact .bind (.print fun _ hs => d.print hs) fun _ _ => answer .nothing
  | formatCode =>
    refine .bind (argument_keeps hc 0) fun value _ => ?_
    exact .bind Discipline.read_keeps fun code _ => answer .text
  | ifThen =>
    refine .bind (read_keeps he hc .bool 0) fun condition _ => ?_
    refine .bind (read_keeps he hc .expression 1) fun action haction => ?_
    cases condition with
    | true => exact (he.coerceSimple rfl haction hc.caller).result fun _ => .inl
    | false => exact .pure (.inr rfl)
  | orElse =>
    refine .bind (read_keeps he hc .expression 0) fun action haction => ?_
    refine .bind (read_keeps he hc .expression 1) fun alternative halternative => ?_
    refine .bind (he.run haction hc.caller) fun value hvalue => ?_
    split
    next => exact (he.coerceSimple rfl halternative hc.caller).result fun _ => .inl
    next => exact .pure hvalue
  | repeatTimes =>
    refine .bind (read_keeps he hc .integer 0) fun count _ => ?_
    refine .bind (read_keeps he hc .expression 1) fun action haction => ?_
    exact repeatLoop_keeps ((he.coerceSimple rfl haction hc.caller).result fun _ => .inl)
      (.inr rfl)
  | whileDo =>
    refine .bind (read_keeps he hc .expression 0) fun condition hcondition => ?_
    refine .bind (read_keeps he hc .expression 1) fun action haction => ?_
    exact whileLoop_keeps (Bridge.unbox_keeps (b := .bool) he hc.caller hcondition)
      ((he.coerceSimple rfl haction hc.caller).result fun _ => .inl) (.inr rfl)
  | tell =>
    refine .bind (read_keeps he hc .reference 0) fun reference hreference => ?_
    refine .bind (read_keeps he hc .expression 1) fun action haction => ?_
    exact (he.coerceSimple rfl haction (hc.caller.tell hreference)).result fun _ => .inl
  | store => exact storeValue_keeps he hc
  | defineHandler => exact defineHandler_keeps he hc
  | coerce =>
    refine .bind (read_keeps he hc .expression 0) fun value hvalue => ?_
    refine .bind (read_keeps he hc .coercion 1) fun wanted hwanted => ?_
    exact (he.coerce hwanted hvalue hc.caller).result fun _ => .inl
  | isA => exact testCoercion_keeps he hc
  | collect reads =>
    refine .bind (collect_keeps he hc (Nat.le_of_eq (Nat.zero_add _))) fun values hvalues => ?_
    exact answer (.list hvalues)

end Calls

end Evaluation

end CommandScript
