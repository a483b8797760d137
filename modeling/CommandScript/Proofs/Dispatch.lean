import CommandScript.Evaluation
import CommandScript.Proofs.Primitive

/-!
# What calls and commands give

Whatever a command reaches, the last thing that happens to its answer is that it is coerced to what
the caller wants, in the caller's scope.  So the result of a call has every property that coercing
answers gives, and nothing else about the caller's wish matters on the way.  This holds for
handlers, closures, coercions, attributes of lists and records, and plain values, from frames,
behind targets and on targets alone.
-/

namespace CommandScript

open Eval

/-- What coercing answers to a caller's wish gives. -/
def Evaluator.Answers (e : Evaluator) (d : Discipline) (caller : Scope) (wanted : Coercion)
    (result : Value → Prop) : Prop :=
  ∀ answer, d.IsAnswer answer → d.Keeps result (e.coerce wanted answer caller)

namespace Evaluation

variable {e : Evaluator} {d : Discipline} {caller owner scope : Scope} {command : Command}
  {wanted : Coercion} {Q : Value → Prop}

/-! ## Calls -/

/-- By induction on the parameters, each is defined in the frame of the body. -/
theorem defineParameters_keeps {body : Environment} (hbody : d.RunsIn (.frame body))
    {parameters : List Parameter} {values : List Value}
    (hvalues : ∀ value ∈ values, value.Obeys d.toPolicy) :
    d.Keeps (fun _ => True) (defineParameters body parameters values) := by
  induction parameters generalizing values with
  | nil => exact .pure trivial
  | cons parameter parameters ih =>
    cases values with
    | nil => exact .pure trivial
    | cons value values =>
      obtain ⟨hvalue, hothers⟩ := List.forall_mem_cons.1 hvalues
      refine .bind (.change (fun _ _ hs hdefine => d.define hs hbody.home hvalue hdefine)
        fun _ _ _ => d.plain ∘ Environment.assign_plain) fun _ _ => ?_
      exact ih hothers

/-- A call gets a frame of its own, and code may run there. -/
theorem child_keeps (howner : owner.Obeys d.toPolicy) :
    d.Keeps (fun body => d.RunsIn (.frame body)) (Eval.make owner.child) :=
  .make fun _ hs => ⟨d.newFrame hs, .frame (.child howner), d.child hs⟩

/-- A handler's answer is coerced for the caller, and all that happens before stays within the
discipline. -/
theorem callHandler_keeps {handler : Handler} (he : e.Respects d) (hc : d.RunsIn caller)
    (howner : owner.Obeys d.toPolicy) (hcommand : (Value.command command).Obeys d.toPolicy)
    (hhandler : handler.Obeys d.toPolicy) (hanswers : e.Answers d caller wanted Q) :
    d.Keeps Q (callHandler e command caller owner wanted handler) := by
  cases hhandler with
  | native hparameters hreturns haction =>
    refine .bind (bindArguments_keeps he hc hparameters hcommand) fun values hvalues => ?_
    refine .bind (child_keeps howner) fun body hbody => ?_
    refine .bind (defineParameters_keeps hbody hvalues.obeys) fun _ _ => ?_
    refine .bind ((he.coerce hreturns haction hbody).causing fun _ _ => d.caused rfl)
      fun value hvalue => ?_
    exact hanswers value (.inl hvalue)
  | primitive hparameters hprimitive =>
    refine .bind (bindArguments_keeps he hc hparameters hcommand) fun values hvalues => ?_
    have hreads := d.declares hprimitive
    rw [hvalues.length_eq] at hreads
    refine .bind ((perform_keeps he ⟨hc, hvalues.obeys, hreads⟩).causing fun _ _ => d.caused rfl)
      fun value hvalue => ?_
    exact hanswers value hvalue

theorem interface_obeys {p : Policy} {callee : Coercion} (h : callee.Obeys p) :
    ∀ q ∈ callee.interface.parameters, q.coercion.Obeys p := by
  have htype : Coercion.typeParameter.coercion.Obeys p :=
    .default (.coercion (.simple rfl)) (.simple rfl)
  intro q hq
  cases callee with
  | default fallback inner =>
    simp only [Coercion.interface, List.mem_cons, List.not_mem_nil, or_false] at hq
    rcases hq with rfl | rfl
    · exact .simple rfl
    · exact htype
  | list _ | record _ | optional _ | lazy _ =>
    simp only [Coercion.interface, List.mem_cons, List.not_mem_nil, or_false] at hq
    subst hq
    exact htype
  | _ =>
    simp only [Coercion.interface, List.mem_cons, List.not_mem_nil, or_false] at hq
    subst hq
    exact h

/-- The argument for the coercion to build on is a coercion. -/
theorem exists_coercion {value : Value} (h : d.Sound Coercion.typeParameter.coercion value) :
    ∃ given, value = .coercion given ∧ given.Obeys d.toPolicy := by
  obtain ⟨hobeys, hfallback | ⟨given, hgiven⟩⟩ := h
  · exact ⟨.anything, hfallback, .simple rfl⟩
  · subst hgiven
    exact ⟨given, rfl, Value.obeys_coercion.1 hobeys⟩

/-- A coercion makes something of the values of its parameters. -/
theorem applyCoercion_answers {callee : Coercion} {values : List Value}
    (h : Supplied d callee.interface.parameters values) :
    ∃ answer, applyCoercion callee values = Pure.pure answer ∧ answer.Obeys d.toPolicy := by
  cases callee with
  | list _ | record _ | optional _ | lazy _ =>
    cases h with
    | cons htype hrest =>
      cases hrest
      obtain ⟨given, rfl, hgiven⟩ := exists_coercion htype
      exact ⟨_, rfl, by simpa using hgiven⟩
  | default _ _ =>
    cases h with
    | cons hfallback hrest =>
      cases hrest with
      | cons htype hrest =>
        cases hrest
        obtain ⟨given, rfl, hgiven⟩ := exists_coercion htype
        exact ⟨_, rfl, .coercion (.default hfallback.obeys hgiven)⟩
  | _ =>
    cases h with
    | cons hvalue hrest =>
      cases hrest
      exact ⟨_, rfl, hvalue.obeys⟩

theorem callCoercion_keeps {callee : Coercion} (he : e.Respects d) (hc : d.RunsIn caller)
    (hcommand : (Value.command command).Obeys d.toPolicy) (hcallee : callee.Obeys d.toPolicy)
    (hanswers : e.Answers d caller wanted Q) :
    d.Keeps Q (callCoercion e command caller wanted callee) := by
  refine .bind (bindArguments_keeps he hc (interface_obeys hcallee) hcommand) fun values hv => ?_
  obtain ⟨answer, hanswer, hobeys⟩ := applyCoercion_answers hv
  rw [hanswer]
  exact .bind (.pure hobeys) fun value hvalue => hanswers value (.inl hvalue)

/-- Whatever was found under the name is called, or is the answer itself. -/
theorem callFound_keeps {callee : Value} (he : e.Respects d) (hc : d.RunsIn caller)
    (howner : owner.Obeys d.toPolicy) (hcommand : (Value.command command).Obeys d.toPolicy)
    (hcallee : callee.Obeys d.toPolicy) (hanswers : e.Answers d caller wanted Q) :
    d.Keeps Q (callFound e command caller owner wanted callee) := by
  unfold callFound
  split
  next handler =>
    cases hcallee with
    | handler h => exact callHandler_keeps he hc howner hcommand h hanswers
  next handler scope =>
    cases hcallee with
    | closure h hscope => exact callHandler_keeps he hc hscope hcommand h hanswers
  next given =>
    split
    next => exact hanswers _ (.inl hcallee)
    next => exact callCoercion_keeps he hc hcommand (Value.obeys_coercion.1 hcallee) hanswers
  next =>
    split
    next => exact hanswers _ (.inl hcallee)
    next => exact Discipline.fails rfl

/-! ## Commands -/

/-- A name that is not there is a plain error. -/
theorem handleByName_keeps (he : e.Respects d) (hc : d.RunsIn caller)
    (hscope : scope.Obeys d.toPolicy) (hcommand : (Value.command command).Obeys d.toPolicy)
    (hanswers : e.Answers d caller wanted Q) :
    d.Keeps Q (handleByName e command caller scope wanted) := by
  refine .bind (P := Found d.toPolicy) (.lookup (fun _ _ hs hl =>
    Scope.lookup_found (d.slots hs) _ hscope hl) fun _ _ _ => d.plain ∘ Scope.lookup_plain)
    fun found hfound => ?_
  cases found with
  | some entry =>
    obtain ⟨value, owner⟩ := entry
    obtain ⟨hvalue, howner⟩ := hfound value owner rfl
    exact callFound_keeps he hc howner hcommand hvalue hanswers
  | none => exact Discipline.fails rfl

/-- An index is evaluated where the command was written. -/
theorem indexOf_keeps {argument : Argument} (he : e.Respects d) (hc : d.RunsIn caller)
    (hargument : argument.value.Obeys d.toPolicy) :
    d.Keeps (fun _ => True) (indexOf e caller argument) := by
  refine .bind (he.coerceSimple rfl hargument hc) fun value _ => ?_
  split
  next =>
    split
    next => exact .pure trivial
    next => exact Discipline.fails rfl
  next => exact Discipline.fails rfl

theorem needsOneArgument_keeps {α : Type} {P : α → Prop} :
    d.Keeps P (needsOneArgument command) :=
  .bind Discipline.read_keeps fun _ _ => Discipline.fails rfl

/-- A list is asked for items by their indexes or for an attribute, and has what obeys. -/
theorem handleList_keeps {items : List Value} (he : e.Respects d) (hc : d.RunsIn caller)
    (hitems : (Value.list items).Obeys d.toPolicy)
    (hcommand : (Value.command command).Obeys d.toPolicy)
    (hanswers : e.Answers d caller wanted Q) :
    d.Keeps Q (handleList e command caller wanted items) := by
  have harguments := Value.obeys_command.1 hcommand
  have hmembers := Value.obeys_list.1 hitems
  unfold handleList
  split
  next =>
    split
    next argument hone =>
      refine .bind (indexOf_keeps he hc (harguments argument (by simp [hone]))) fun index _ => ?_
      refine .bind (.ofExcept (fun value hv => hmembers value (listItem_mem hv))
        fun _ => d.plain ∘ listItem_plain) fun value hvalue => ?_
      exact hanswers value (.inl hvalue)
    next => exact needsOneArgument_keeps
  next =>
    split
    next first last _ htwo =>
      refine .bind (indexOf_keeps he hc (harguments first (by simp [htwo]))) fun start _ => ?_
      refine .bind (indexOf_keeps he hc (harguments last (by simp [htwo]))) fun stop _ => ?_
      refine .bind (.ofExcept (fun found hv item hmem =>
        hmembers item (listRange_subset hv item hmem)) fun _ => d.plain ∘ listRange_plain)
          fun found hfound => ?_
      exact hanswers (.list found) (.inl (.list hfound))
    next => exact handleByName_keeps he hc (.receiver (.list hitems)) hcommand hanswers

theorem fieldOf_keeps {record : Record} (hrecord : (Value.record record).Obeys d.toPolicy)
    (keyValue : Value) : d.Keeps (·.Obeys d.toPolicy) (fieldOf record keyValue) := by
  unfold fieldOf
  split
  next => exact Discipline.fails rfl
  next key _ =>
    split
    next value hvalue => exact .pure (Record.get?_obeys hrecord hvalue)
    next => exact Discipline.fails rfl

/-- A record is asked for a key or for an attribute. -/
theorem handleRecord_keeps {record : Record} (he : e.Respects d) (hc : d.RunsIn caller)
    (hrecord : (Value.record record).Obeys d.toPolicy)
    (hcommand : (Value.command command).Obeys d.toPolicy)
    (hanswers : e.Answers d caller wanted Q) :
    d.Keeps Q (handleRecord e command caller wanted record) := by
  have harguments := Value.obeys_command.1 hcommand
  unfold handleRecord
  split
  next =>
    split
    next argument hone =>
      refine .bind (he.coerceSimple rfl (harguments argument (by simp [hone])) hc)
        fun keyValue _ => ?_
      refine .bind (fieldOf_keeps hrecord keyValue) fun value hvalue => ?_
      exact hanswers value (.inl hvalue)
    next => exact needsOneArgument_keeps
  next => exact handleByName_keeps he hc (.receiver (.record hrecord)) hcommand hanswers

theorem handleTarget_keeps {target : Target} (he : e.Respects d) (hc : d.RunsIn caller)
    (htarget : target.Obeys d.toPolicy) (hcommand : (Value.command command).Obeys d.toPolicy)
    (hanswers : e.Answers d caller wanted Q) :
    d.Keeps Q (handleTarget e command caller wanted target) := by
  cases htarget with
  | list hitems => exact handleList_keeps he hc hitems hcommand hanswers
  | record hrecord => exact handleRecord_keeps he hc hrecord hcommand hanswers
  | frame henvironment => exact handleByName_keeps he hc (.frame henvironment) hcommand hanswers

/-- What a command gives has every property that coercing answers to the caller's wish gives. -/
theorem handle_keeps (he : e.Respects d) (hc : d.RunsIn caller)
    (hcommand : (Value.command command).Obeys d.toPolicy)
    (hanswers : e.Answers d caller wanted Q) :
    ∀ {scope : Scope}, scope.Obeys d.toPolicy → d.Keeps Q (handle e command caller wanted scope)
  | .frame _, hscope => handleByName_keeps he hc hscope hcommand hanswers
  | .tell _ _, .tell htarget hparent =>
    .recover (handleTarget_keeps he hc htarget hcommand hanswers)
      (handle_keeps he hc hcommand hanswers hparent) fun _ _ h => h
  | .receiver _, .receiver htarget => handleTarget_keeps he hc htarget hcommand hanswers

end Evaluation

end CommandScript
