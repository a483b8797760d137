import CommandScript.Proofs.Discipline

/-!
# What conversions give

One statement for each conversion: the form of the value it gives, and that its errors last.  The
items of a collection are coerced by the evaluator, so what they are is said in terms of what the
evaluator gives for values that obey the policy.

A conversion only fails with an error that lasts, since an absent item becomes a failure of the
collection it is in.
-/

namespace CommandScript

namespace Evaluation

open Eval

variable {e : Evaluator} {d : Discipline} {scope : Scope} {P : Value → Prop}

/-! ## Collections -/

/-- An item that is absent is a failure of the collection, which lasts. -/
theorem coerceItem_ensures {wanted : Coercion} {item : Value}
    (h : d.Keeps P (e.coerce wanted item scope)) :
    (coerceItem e scope wanted item).Ensures d.store P d.Lasts :=
  h.mapError fun _ => d.permanent item wanted

/-- The items of a list are coerced one after another, each as an item. -/
theorem coerceItems_ensures {wanted : Coercion} {items : List Value}
    (h : ∀ item ∈ items, d.Keeps P (e.coerce wanted item scope)) :
    (coerceItems e scope wanted items).Ensures d.store (fun found => ∀ item ∈ found, P item)
      d.Lasts :=
  Ensures.forEach fun item hitem => coerceItem_ensures (h item hitem)

/-- A record is made of fields with keys that are all different, or not at all. -/
theorem recordOf_ensures {entries : List (Key × Value)} (h : ∀ entry ∈ entries, P entry.2) :
    (recordOf entries).Ensures d.store (Record.Holds P) d.Lasts := by
  unfold recordOf Record.ofFields
  cases hr : Record.repeatedKey? [] entries with
  | some key => exact .failWith (d.lasts_of_plain (.of rfl))
  | none => exact .pure ⟨(Record.uniqueKeys_of_repeatedKey? hr).1, h⟩

/-- What can't be a key is refused plainly. -/
theorem asKey_ensures (value : Value) :
    (asKey value).Ensures d.store (fun _ => True) d.Lasts := by
  unfold asKey
  cases value.toKey? with
  | some key => exact .pure trivial
  | none => exact .failWith (d.lasts_of_plain (.of rfl))

/-- A record whose keys are computed has keys that are all different in the end. -/
theorem resolve_ensures {wanted : Coercion} {record : Record} (he : e.Respects d)
    (hs : d.RunsIn scope) (hrecord : (Value.record record).Obeys d.toPolicy)
    (h : ∀ value, value.Obeys d.toPolicy → d.Keeps P (e.coerce wanted value scope)) :
    (resolve e scope wanted record).Ensures d.store (Record.Holds P) d.Lasts := by
  cases record with
  | fields entries =>
    refine .bind (P := fun found => ∀ entry ∈ found, P entry.2) (.forEach fun entry hentry => ?_)
      fun found hfound => recordOf_ensures hfound
    refine .bind (coerceItem_ensures (h entry.2 ?_)) fun value hvalue => .pure hvalue
    exact Value.obeys_fields.1 hrecord entry hentry
  | computed pairs =>
    refine .bind (P := fun found => ∀ entry ∈ found, P entry.2) (.forEach fun pair hpair => ?_)
      fun found hfound => recordOf_ensures hfound
    obtain ⟨hkey, hvalue⟩ := Value.obeys_computed.1 hrecord pair hpair
    refine .bind (coerceItem_ensures (he.coerceSimple rfl hkey hs)) fun keyValue _ => ?_
    refine .bind (asKey_ensures keyValue) fun key _ => ?_
    exact .bind (coerceItem_ensures (h pair.2 hvalue)) fun value hv => .pure hv

/-! ## Atoms -/

section Atoms

variable {kept : Store → Prop}

/-- A value that does not fit is refused with a plain error, so anything is true of the result. -/
theorem refuse_ensures {Q : Value → Prop} {value : Value} {wanted : Coercion} :
    (refuse value wanted).Ensures kept Q EvalError.Plain :=
  .failWith (.of rfl)

/-- What is accepted as a boolean is one. -/
theorem asBoolean_ensures (value : Value) :
    (asBoolean value).Ensures kept (fun r => ∃ flag, r = .boolean flag) EvalError.Plain := by
  cases value with
  | boolean flag => exact .pure ⟨flag, rfl⟩
  | text content => exact .pure ⟨_, rfl⟩
  | list items => exact .pure ⟨_, rfl⟩
  | _ => exact refuse_ensures

/-- What is accepted as a text becomes one. -/
theorem asText_ensures (value : Value) :
    (asText value).Ensures kept (fun r => ∃ content, r = .text content) EvalError.Plain := by
  cases value with
  | text content => exact .pure ⟨content, rfl⟩
  | boolean flag => exact .pure ⟨_, rfl⟩
  | tag name => exact .pure ⟨_, rfl⟩
  | _ => exact refuse_ensures

/-- A text with a numeric reading gives what is made of the number. -/
theorem checkScalar_ensures {α : Type} {wanted : Coercion} {content : TextValue}
    {use : α → Value} {given : Except ScalarError α} {Q : Value → Prop}
    (h : ∀ number, given = .ok number → Q (use number)) :
    (checkScalar wanted content use given).Ensures kept Q EvalError.Plain := by
  unfold checkScalar
  split
  next number => exact .pure (h number rfl)
  next => exact refuse_ensures
  next => exact .failWith (.of rfl)

/-- What is accepted as a number is a text that reads as one. -/
theorem asNumber_ensures (wanted : Coercion) (value : Value) :
    (asNumber wanted value).Ensures kept
      (fun r => ∃ content number, r = .text content ∧ content.scalar.toFloat = .ok number)
      EvalError.Plain := by
  cases value with
  | text content => exact checkScalar_ensures fun number h => ⟨content, number, rfl, h⟩
  | _ => exact refuse_ensures

/-- What is accepted as an integer becomes a text with an integer reading. -/
theorem asInteger_ensures (value : Value) :
    (asInteger value).Ensures kept
      (fun r => ∃ content number radix, r = .text content ∧ content.scalar = .integer number radix)
      EvalError.Plain := by
  cases value with
  | text content =>
    refine checkScalar_ensures fun number _ => ?_
    split
    next h =>
      obtain ⟨number, radix, hscalar⟩ := Scalar.eq_integer_of_isInteger h
      exact ⟨content, number, radix, rfl, hscalar⟩
    next => exact ⟨.ofScalar (.ofInt64 number), number, 10, rfl, rfl⟩
  | _ => exact refuse_ensures

theorem asTag_ensures (value : Value) :
    (asTag value).Ensures kept (fun r => ∃ name, r = .tag name) EvalError.Plain := by
  cases value with
  | tag name => exact .pure ⟨name, rfl⟩
  | text content =>
    simp only [asTag]
    split
    next => exact refuse_ensures
    next => exact .pure ⟨_, rfl⟩
  | _ => exact refuse_ensures

/-- What is accepted as a key is a text or a tag. -/
theorem asRecordKey_ensures (value : Value) :
    (asRecordKey value).Ensures kept
      (fun r => (∃ content, r = .text content) ∨ ∃ name, r = .tag name) EvalError.Plain := by
  cases value with
  | text content => exact .pure (.inl ⟨content, rfl⟩)
  | tag name => exact .pure (.inr ⟨name, rfl⟩)
  | _ => exact refuse_ensures

theorem asCoercion_ensures (value : Value) :
    (asCoercion value).Ensures kept (fun r => r = value ∧ ∃ given, r = .coercion given)
      EvalError.Plain := by
  cases value with
  | coercion given => exact .pure ⟨rfl, given, rfl⟩
  | _ => exact refuse_ensures

/-- What can be called is handed on as it is. -/
theorem asCallable_ensures (value : Value) :
    (asCallable value).Ensures kept (fun r => r = value ∧ Coercion.Shape .handler r)
      EvalError.Plain := by
  cases value with
  | handler h => exact .pure ⟨rfl, .inl ⟨h, rfl⟩⟩
  | closure h scope => exact .pure ⟨rfl, .inr (.inl ⟨h, scope, rfl⟩)⟩
  | coercion given => exact .pure ⟨rfl, .inr (.inr ⟨given, rfl⟩)⟩
  | _ => exact refuse_ensures

end Atoms

/-! ## Conversions of collections -/

/-- What is accepted as a list is one, and the evaluator has coerced all its items. -/
theorem asList_ensures {item : Coercion} {value : Value} (he : e.Respects d)
    (hs : d.RunsIn scope) (hv : value.Obeys d.toPolicy)
    (h : ∀ v, v.Obeys d.toPolicy → d.Keeps P (e.coerce item v scope)) :
    (asList e scope item value).Ensures d.store
      (fun r => ∃ items, r = .list items ∧ ∀ v ∈ items, P v) d.Lasts := by
  unfold asList
  split
  next items =>
    refine .bind (coerceItems_ensures fun v hmem => h v (Value.obeys_list.1 hv v hmem))
      fun found hfound => .pure ⟨found, rfl, hfound⟩
  next record =>
    have hanything : ∀ v, v.Obeys d.toPolicy →
        d.Keeps (·.Obeys d.toPolicy) (e.coerce .anything v scope) :=
      fun v hobeys => he.coerceSimple rfl hobeys hs
    have hresolved := resolve_ensures he hs hv hanything
    refine .bind hresolved fun resolved hr => ?_
    refine .bind (coerceItems_ensures fun v hmem => h v ?_) fun found hfound =>
      .pure ⟨found, rfl, hfound⟩
    obtain ⟨entry, hentry, rfl⟩ := List.mem_map.1 hmem
    cases resolved with
    | fields entries => exact .pair (Value.obeys_ofKey _) (hr.2 entry hentry)
    | computed pairs => exact hr.elim
  next =>
    refine .bind (coerceItem_ensures (h value hv)) fun v hvalue => ?_
    exact .pure ⟨[v], rfl, by simpa using hvalue⟩

/-- What is accepted as a record is one, and the evaluator has coerced all its values. -/
theorem asRecord_ensures {field : Coercion} {value : Value} (he : e.Respects d)
    (hs : d.RunsIn scope) (hv : value.Obeys d.toPolicy)
    (h : ∀ v, v.Obeys d.toPolicy → d.Keeps P (e.coerce field v scope)) :
    (asRecord e scope field value).Ensures d.store
      (fun r => ∃ record, r = .record record ∧ record.Holds P) d.Lasts := by
  unfold asRecord
  split
  next record =>
    exact .bind (resolve_ensures he hs hv h) fun found hfound => .pure ⟨found, rfl, hfound⟩
  next => exact .pure ⟨.empty, rfl, .nil, List.forall_mem_nil _⟩
  next => exact .failWith (d.lasts_of_plain (.of rfl))

/-- A collection is rebuilt from its coerced parts, and any other value is itself.  The value of a
pair is no item of a collection, so its error is handed on. -/
theorem asAnything_ensures {wanted : Coercion} {value : Value} {Q : Value → Prop}
    (he : e.Respects d) (hs : d.RunsIn scope) (hv : value.Obeys d.toPolicy)
    (h : ∀ v, v.Obeys d.toPolicy → d.Keeps P (e.coerce wanted v scope))
    (hlist : ∀ items, (∀ v ∈ items, P v) → Q (.list items))
    (hrecord : ∀ record, record.Holds P → Q (.record record))
    (hpair : ∀ key old new, value = .pair key old → P new → Q (.pair key new))
    (hother : value.isCollection = false → Q value) :
    d.Keeps Q (asAnything e scope wanted value) := by
  cases value with
  | list items =>
    have hitems := coerceItems_ensures fun v hmem => h v (Value.obeys_list.1 hv v hmem)
    refine .bind (hitems.mono (fun _ hp => hp) fun _ hlasts => hlasts.error) fun found hfound => ?_
    exact .pure (hlist found hfound)
  | record record =>
    have hresolved := resolve_ensures he hs hv h
    refine .bind (hresolved.mono (fun _ hp => hp) fun _ hlasts => hlasts.error) fun found hfound => ?_
    exact .pure (hrecord found hfound)
  | pair key old =>
    refine .bind (h old (Value.obeys_pair.1 hv).2) fun new hnew => ?_
    exact .pure (hpair key old new rfl hnew)
  | _ => exact .pure (hother rfl)

/-- What a value is as a target of commands: nothing, a list as it is, a record with keys, or a
reference. -/
theorem asTarget_ensures {value : Value} (he : e.Respects d) (hs : d.RunsIn scope)
    (hv : value.Obeys d.toPolicy) :
    (asTarget e scope value).Ensures d.store
      (fun r => r.Obeys d.toPolicy ∧
        (r = .nothing ∨ (∃ items, r = .list items) ∨ (∃ entries, r = .record (.fields entries)) ∨
          ∃ number target, r = .reference number target)) d.Lasts := by
  cases value with
  | nothing => exact .pure ⟨.nothing, .inl rfl⟩
  | didNothing => exact .pure ⟨.nothing, .inl rfl⟩
  | list items => exact .pure ⟨hv, .inr (.inl ⟨items, rfl⟩)⟩
  | record record =>
    cases record with
    | fields entries => exact .pure ⟨hv, .inr (.inr (.inl ⟨entries, rfl⟩))⟩
    | computed pairs =>
      refine .bind (resolve_ensures he hs hv fun v hobeys => he.coerceSimple rfl hobeys hs)
        fun found hfound => ?_
      cases found with
      | fields entries => exact .pure ⟨.fields hfound.2, .inr (.inr (.inl ⟨entries, rfl⟩))⟩
      | computed pairs => exact hfound.elim
  | reference number target => exact .pure ⟨hv, .inr (.inr (.inr ⟨number, target, rfl⟩))⟩
  | _ => exact .failWith (d.lasts_of_plain (.of rfl))

end Evaluation

end CommandScript
