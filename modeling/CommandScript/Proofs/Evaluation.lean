import CommandScript.Proofs.Dispatch

/-!
# Evaluation within a discipline

The rules for expressions, and for coercing, over an evaluator that respects a discipline.  A rule
that runs an expression ends in coercing an answer, like a call.  By induction on the fuel, every
evaluator respects every discipline.
-/

namespace CommandScript

open Eval

namespace Evaluation

variable {e : Evaluator} {d : Discipline} {scope : Scope} {wanted : Coercion} {value : Value}
  {Q : Value → Prop}

/-! ## Running expressions -/

/-- By recursion on the statements, of which only the last answers to the wish. -/
theorem runStatements_keeps (he : e.Respects d) (hs : d.RunsIn scope)
    (hanswers : e.Answers d scope wanted Q) :
    ∀ {items : List Value}, (∀ item ∈ items, item.Obeys d.toPolicy) →
      d.Keeps Q (runStatements e scope wanted items)
  | [], _ => hanswers .nothing (.inl .nothing)
  | [last], h => .bind (he.run (h last (by simp)) hs) fun value hvalue => hanswers value hvalue
  | item :: next :: rest, h => by
    obtain ⟨hitem, hrest⟩ := List.forall_mem_cons.1 h
    refine .bind (he.coerceSimple rfl hitem hs) fun _ _ => ?_
    exact runStatements_keeps he hs hanswers hrest

/-- Code is run, and what is no code is left to what comes otherwise. -/
theorem runOr_keeps {otherwise : Eval Value} (he : e.Respects d) (hs : d.RunsIn scope)
    (hv : value.Obeys d.toPolicy) (hanswers : e.Answers d scope wanted Q)
    (hotherwise : value.isExpression = false → d.Keeps Q otherwise) :
    d.Keeps Q (runOr e scope wanted value otherwise) := by
  cases value with
  | identifier name =>
    refine .bind (.lookup (fun _ _ hstore hget => Scope.get_obeys (d.slots hstore) hs.obeys hget)
      fun _ _ _ hget => d.plain (Scope.get_plain hget)) fun found hfound => ?_
    exact hanswers found (.inl hfound)
  | command command => exact handle_keeps he hs hv hanswers hs.obeys
  | block items => exact runStatements_keeps he hs hanswers (Value.obeys_block.1 hv)
  | thunk number body captured inner =>
    cases hv with
    | thunk hbody hcaptured hhome hinner =>
      refine .bind (he.coerce hinner hbody ⟨hcaptured, hhome⟩) fun answer hanswer => ?_
      exact hanswers answer (.inl hanswer)
  | _ => exact hotherwise rfl

/-- What is neither code nor absent is converted. -/
theorem runOrConvert_keeps {convert : Value → Eval Value} (he : e.Respects d)
    (hs : d.RunsIn scope) (hv : value.Obeys d.toPolicy) (hanswers : e.Answers d scope wanted Q)
    (hconvert : value.isExpression = false → value.isNothing = false → d.Keeps Q (convert value)) :
    d.Keeps Q (runOrConvert e scope wanted value convert) := by
  refine runOr_keeps he hs hv hanswers fun hplain => ?_
  split
  next => exact .failWith d.absent
  next hthere => exact hconvert hplain (by simpa using hthere)

theorem coerceAnything_keeps (he : e.Respects d) (hs : d.RunsIn scope)
    (hv : value.Obeys d.toPolicy) (hanswers : e.Answers d scope wanted Q)
    (hconvert : value.isExpression = false → value.isNothing = false →
      d.Keeps Q (asAnything e scope wanted value)) (hnothing : Q .nothing) :
    d.Keeps Q (coerceAnything e wanted value scope) := by
  refine .recover (.bind (runOrConvert_keeps he hs hv hanswers hconvert) fun answer hanswer => ?_)
    (.done hnothing) fun _ _ h => h
  cases answer with
  | didNothing => exact .pure hnothing
  | _ => exact .pure hanswer

/-! ## Conversions are sound -/

theorem sound_list {item : Coercion} {items : List Value} (h : ∀ v ∈ items, d.Sound item v) :
    d.Sound (.list item) (.list items) :=
  ⟨.list fun v hmem => (h v hmem).obeys, items, rfl, fun v hmem => (h v hmem).shape⟩

theorem sound_record {field : Coercion} {record : Record} (h : record.Holds (d.Sound field)) :
    d.Sound (.record field) (.record record) := by
  cases record with
  | fields entries =>
    obtain ⟨hunique, hentries⟩ := h
    refine ⟨.fields fun entry hentry => (hentries entry hentry).obeys, ?_⟩
    exact ⟨.fields entries, rfl, hunique, fun entry hentry => (hentries entry hentry).shape⟩
  | computed pairs => exact h.elim

/-- `anything` and `value` promise the same of every value. -/
theorem asAnything_keeps (he : e.Respects d) (hs : d.RunsIn scope)
    (hw : wanted.Obeys d.toPolicy) (hv : value.Obeys d.toPolicy)
    (hshape : ∀ v, wanted.Shape v ↔ v.Evaluated) (hexpression : value.isExpression = false)
    (hthere : value.isNothing = false) :
    d.Keeps (d.Sound wanted) (asAnything e scope wanted value) := by
  have hevaluated : ∀ {v}, d.Sound wanted v → v.Evaluated := fun h => (hshape _).1 h.shape
  refine asAnything_ensures he hs hv (fun v hobeys => he.sound hw hobeys hs)
    (fun items hitems => ?_) (fun record hrecord => ?_) (fun key old new hpair hnew => ?_)
    fun hplain => ?_
  · have hinner : (Value.list items).Evaluated := .list fun v hmem => hevaluated (hitems v hmem)
    exact ⟨.list fun v hmem => (hitems v hmem).obeys, (hshape _).2 hinner⟩
  · cases record with
    | fields entries =>
      have hinner : (Value.record (.fields entries)).Evaluated :=
        .record fun entry hentry => hevaluated (hrecord.2 entry hentry)
      exact ⟨.fields fun entry hentry => (hrecord.2 entry hentry).obeys, (hshape _).2 hinner⟩
    | computed pairs => exact hrecord.elim
  · subst hpair
    exact ⟨.pair (Value.obeys_pair.1 hv).1 hnew.obeys, (hshape _).2 (.pair (hevaluated hnew))⟩
  · exact ⟨hv, (hshape _).2 (Value.evaluated_of_plain hexpression hthere hplain)⟩

/-! ## Evaluators respect disciplines -/

/-- Running without a wish may give back the answer of an idle control structure. -/
theorem runWith_keeps (he : e.Respects d) (hs : d.RunsIn scope) (hv : value.Obeys d.toPolicy) :
    d.Keeps d.IsAnswer (runWith e value scope) := by
  refine runOr_keeps he hs hv (fun answer hanswer => ?_) fun _ => .done (.inl hv)
  exact he.expression.result fun found hfound => hfound ▸ hanswer

/-- A coercion that looks at `didNothing` either refuses it or gives nothing. -/
theorem coerceWith_didNothing (he : e.Respects d) (hl : wanted.looksAt = true)
    (hs : d.RunsIn scope) : d.Keeps (d.Sound wanted) (coerceWith e wanted .didNothing scope) := by
  have hrefused {kind : Coercion} {result : Value → Prop} :
      d.Keeps result (Eval.failWith (.nullCoercion kind)) := .failWith d.absent
  cases wanted with
  | anything | value =>
    -- The refusal is recovered from at once.
    show d.Keeps _ (Eval.done Value.nothing)
    exact .done ⟨.nothing, .nothing⟩
  | noResult => exact .bind (he.collapse rfl hs) fun _ _ => .pure ⟨.nothing, rfl⟩
  | reference => exact .pure ⟨.nothing, .inl rfl⟩
  | expression | lazy _ | optional _ | default _ _ => cases hl
  | _ => exact hrefused

/-- One case for each coercion: what it converts to has its shape. -/
theorem coerceWith_sound (he : e.Respects d) (hs : d.RunsIn scope)
    (hw : wanted.Obeys d.toPolicy) (hv : value.Obeys d.toPolicy) :
    d.Keeps (d.Sound wanted) (coerceWith e wanted value scope) := by
  -- What an expression answers is coerced by the same coercion.
  have hrun {convert : Value → Eval Value} (hl : wanted.looksAt = true)
      (hconvert : d.Keeps (d.Sound wanted) (convert value)) :
      d.Keeps (d.Sound wanted) (runOrConvert e scope wanted value convert) :=
    runOrConvert_keeps he hs hv (fun _ hanswer => he.answer hl hw hanswer hs) fun _ _ => hconvert
  cases wanted with
  | anything | value =>
    refine coerceAnything_keeps he hs hv (fun _ hanswer => he.answer rfl hw hanswer hs)
      (asAnything_keeps he hs hw hv fun _ => Iff.rfl) ⟨.nothing, .nothing⟩
  | expression => exact .pure ⟨hv, trivial⟩
  | boolean =>
    refine hrun rfl ((asBoolean_ensures value).mono ?_ fun _ => d.plain)
    rintro _ ⟨flag, rfl⟩
    exact ⟨.boolean, flag, rfl⟩
  | text =>
    refine hrun rfl ((asText_ensures value).mono ?_ fun _ => d.plain)
    rintro _ ⟨content, rfl⟩
    exact ⟨.text, content, rfl⟩
  | number | real =>
    refine hrun rfl ((asNumber_ensures _ value).mono ?_ fun _ => d.plain)
    rintro _ ⟨content, number, rfl, hnumber⟩
    exact ⟨.text, content, number, rfl, hnumber⟩
  | integer =>
    refine hrun rfl ((asInteger_ensures value).mono ?_ fun _ => d.plain)
    rintro _ ⟨content, number, radix, rfl, hinteger⟩
    exact ⟨.text, content, number, radix, rfl, hinteger⟩
  | tag =>
    refine hrun rfl ((asTag_ensures value).mono ?_ fun _ => d.plain)
    rintro _ ⟨name, rfl⟩
    exact ⟨.tag, name, rfl⟩
  | recordKey =>
    refine hrun rfl ((asRecordKey_ensures value).mono ?_ fun _ => d.plain)
    rintro _ (⟨content, rfl⟩ | ⟨name, rfl⟩)
    · exact ⟨.text, .inl ⟨content, rfl⟩⟩
    · exact ⟨.tag, .inr ⟨name, rfl⟩⟩
  | noResult => exact .bind (he.coerceSimple rfl hv hs) fun _ _ => .pure ⟨.nothing, rfl⟩
  | coercion =>
    refine hrun rfl ((asCoercion_ensures value).mono ?_ fun _ => d.plain)
    rintro _ ⟨rfl, hcoercion⟩
    exact ⟨hv, hcoercion⟩
  | handler =>
    refine hrun rfl ((asCallable_ensures value).mono ?_ fun _ => d.plain)
    rintro _ ⟨rfl, hcallable⟩
    exact ⟨hv, hcallable⟩
  | reference =>
    refine runOr_keeps he hs hv (fun _ hanswer => he.answer rfl hw hanswer hs) fun _ => ?_
    exact (asTarget_ensures he hs hv).mono (fun _ h => ⟨h.1, h.2⟩) fun _ h => h.error
  | list item =>
    have hitem := Coercion.obeys_list.1 hw
    have hitems := asList_ensures he hs hv fun v hobeys => he.sound hitem hobeys hs
    refine hrun rfl (hitems.mono ?_ fun _ h => h.error)
    rintro _ ⟨items, rfl, hall⟩
    exact sound_list hall
  | record field =>
    have hfield := Coercion.obeys_record.1 hw
    have hfields := asRecord_ensures he hs hv fun v hobeys => he.sound hfield hobeys hs
    refine hrun rfl (hfields.mono ?_ fun _ h => h.error)
    rintro _ ⟨record, rfl, hall⟩
    exact sound_record hall
  | optional inner =>
    have hinner := Coercion.obeys_optional.1 hw
    refine .recover ((he.sound hinner hv hs).result fun _ h => ⟨h.obeys, .inr h.shape⟩) ?_
      fun _ _ h => h
    exact .done ⟨.nothing, .inl rfl⟩
  | default fallback inner =>
    obtain ⟨hfallback, hinner⟩ := Coercion.obeys_default.1 hw
    refine .recover ((he.sound hinner hv hs).result fun _ h => ⟨h.obeys, .inr h.shape⟩) ?_
      fun _ _ h => h
    exact .done ⟨hfallback, .inl rfl⟩
  | lazy inner =>
    have hinner := Coercion.obeys_lazy.1 hw
    refine .bind Discipline.newId_keeps fun number _ => .pure ⟨?_, number, value, scope, inner, rfl⟩
    exact .thunk hv hs.obeys hs.home hinner

/-- With any amount of fuel, evaluating stays within every discipline. -/
theorem evaluator_respects (d : Discipline) (fuel : Nat) : (evaluator fuel).Respects d := by
  induction fuel with
  | zero =>
    refine ⟨fun _ _ _ => ?_, fun _ _ => ?_, ?_, fun _ _ => ?_⟩
    all_goals exact .exhausted
  | succ fuel ih =>
    refine ⟨fun hw hv hs => coerceWith_sound ih hs hw hv,
      fun hl hs => coerceWith_didNothing ih hl hs, .pure rfl,
      fun hv hs => runWith_keeps ih hs hv⟩

end Evaluation

end CommandScript
