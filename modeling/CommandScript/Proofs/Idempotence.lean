import CommandScript.Proofs.Absence
import CommandScript.Proofs.DataLiterals
import CommandScript.Proofs.LexicalScope

/-!
# Coercing twice

What coercing gave is coerced to itself, in every scope and without any effect.  It does not matter
what code the first coercion ran.  So an argument that was coerced when it was matched can be coerced
again where it is used.

Two things would break this.  A thunk holds the scope it was made in, so coercing it lazily again
makes another one.  And a value that stands in for an absent one is not coerced the first time, so
it must be a value that the coercion accepts.

Coercions that are built on nothing accept every value of their shape.  For the others the shape is
not enough: the record that `anything` gives has unique keys, which its shape does not say.  So the
first coercion is followed once more, and each of its results is shown to be accepted.
-/

namespace CommandScript

open Evaluation

namespace Coercion

/-- Coercing the value gives it back, in every scope, and leaves every store as it is. -/
def Accepts (c : Coercion) (value : Value) : Prop :=
  ∀ scope store, Settles scope store c value value

/-- No thunk is made at any depth, and each value that may stand in is accepted where it does. -/
structure Repeats (c : Coercion) : Prop where
  /-- No part makes a thunk. -/
  eager : c.IsEager
  /-- A default is a value that needs no coercing. -/
  fallbacks : ∀ fallback inner, .default fallback inner ∈ c.parts → inner.Accepts fallback

theorem Repeats.of_subset {c inner : Coercion} (h : c.Repeats)
    (hsub : ∀ part ∈ inner.parts, part ∈ c.parts) : inner.Repeats :=
  ⟨fun part hpart => h.eager part (hsub part hpart),
    fun fallback given hpart => h.fallbacks fallback given (hsub _ hpart)⟩

/-- Whether a coercion looks at no value inside another and is built on no other coercion. -/
def isAtomic : Coercion → Bool
  | .anything | .value | .list _ | .record _ | .optional _ | .lazy _ | .default .. => false
  | _ => true

end Coercion

/-! ## Values that settle -/

/-- Unique keys that no earlier key equals are not repeated. -/
theorem Record.repeatedKey?_of_uniqueKeys {entries : List (Key × Value)}
    (hunique : Record.UniqueKeys entries) :
    ∀ {earlier : List Key}, (∀ key ∈ earlier, ∀ entry ∈ entries, (entry.1 == key) = false) →
      Record.repeatedKey? earlier entries = none := by
  induction entries with
  | nil => exact fun _ => rfl
  | cons entry rest ih =>
    intro earlier hnew
    obtain ⟨hfirst, hrest⟩ := List.pairwise_cons.1 hunique
    have hfresh : earlier.contains entry.1 = false := by
      simpa [List.contains_eq_any_beq] using fun key hkey => hnew key hkey entry (by simp)
    unfold Record.repeatedKey?
    rw [if_neg (by simp only [hfresh, Bool.false_eq_true, not_false_eq_true])]
    exact ih hrest <| List.forall_mem_cons.2
      ⟨hfirst, fun key hkey later hlater => hnew key hkey later (List.mem_cons_of_mem _ hlater)⟩

namespace Evaluation

variable {scope : Scope} {store : Store} {wanted item field inner : Coercion} {value : Value}

/-- One level of coercing settles what it gives back with enough fuel. -/
theorem settles_of_coerceWith {code : Value}
    (h : ∃ enough, ∀ fuel, enough ≤ fuel →
      coerceWith (evaluator fuel) wanted code scope store = .done value store) :
    Settles scope store wanted code value := by
  obtain ⟨enough, hsettles⟩ := h
  refine ⟨enough + 1, fun fuel hfuel => ?_⟩
  obtain ⟨fuel, rfl⟩ := Nat.exists_eq_succ_of_ne_zero (Nat.ne_zero_of_lt hfuel)
  exact hsettles fuel (Nat.le_of_succ_le_succ hfuel)

/-- A record whose fields are accepted is resolved to itself. -/
theorem resolve_settles (scope : Scope) (store : Store) {record : Record}
    (h : record.Holds wanted.Accepts) :
    ∃ enough, ∀ fuel, enough ≤ fuel →
      resolve (evaluator fuel) scope wanted record store = .done record store := by
  cases record with
  | computed pairs => exact h.elim
  | fields entries =>
    obtain ⟨hunique, hentries⟩ := h
    have hfield : ∀ entry ∈ entries, ∃ enough, ∀ fuel, enough ≤ fuel →
        coerceField (evaluator fuel) scope wanted entry store = .done entry store := by
      intro entry hentry
      obtain ⟨enough, hvalue⟩ := coerceItem_settles (hentries entry hentry scope store)
      exact ⟨enough, fun fuel hfuel => Eval.bind_done (hvalue fuel hfuel)⟩
    obtain ⟨enough, hfields⟩ := forEach_settles (List.forall₂_same.2 hfield)
    refine ⟨enough, fun fuel hfuel => (Eval.bind_done (hfields fuel hfuel)).trans ?_⟩
    have hkeys : Record.repeatedKey? [] entries = none :=
      Record.repeatedKey?_of_uniqueKeys hunique fun _ hkey => absurd hkey List.not_mem_nil
    simp only [recordOf, Record.ofFields, hkeys]
    rfl

end Evaluation

/-! ## Accepted values -/

namespace Coercion

variable {c item field inner : Coercion} {value : Value}

/-- A value is accepted that one level of coercing gives back. -/
theorem accepts_of_succ
    (h : ∀ fuel scope store, coerce (fuel + 1) c value scope store = .done value store) :
    c.Accepts value :=
  fun scope store => settles_of_succ fun fuel => h fuel scope store

/-- A coercion that is built on nothing accepts what it promises. -/
theorem accepts_of_shape (hatomic : c.isAtomic = true) (h : c.Shape value) : c.Accepts value := by
  cases c with
  | expression => exact accepts_of_succ fun _ _ _ => rfl
  | boolean =>
    obtain ⟨flag, rfl⟩ := h
    exact accepts_of_succ fun _ _ _ => rfl
  | text =>
    obtain ⟨content, rfl⟩ := h
    exact accepts_of_succ fun _ _ _ => rfl
  | number | real =>
    obtain ⟨content, number, rfl, hnumber⟩ := h
    refine accepts_of_succ fun fuel scope store => ?_
    change checkScalar _ content _ content.scalar.toFloat store = _
    rw [hnumber]
    rfl
  | integer =>
    obtain ⟨content, number, radix, rfl, hscalar⟩ := h
    refine accepts_of_succ fun fuel scope store => ?_
    change checkScalar .integer content _ content.scalar.toInt64 store = _
    rw [hscalar]
    rfl
  | tag =>
    obtain ⟨name, rfl⟩ := h
    exact accepts_of_succ fun _ _ _ => rfl
  | recordKey =>
    obtain ⟨content, rfl⟩ | ⟨name, rfl⟩ := h
    · exact accepts_of_succ fun _ _ _ => rfl
    · exact accepts_of_succ fun _ _ _ => rfl
  | noResult =>
    have hnothing : Coercion.anything.Accepts .nothing := accepts_of_succ fun _ _ _ => rfl
    subst h
    intro scope store
    obtain ⟨enough, hsettles⟩ := hnothing scope store
    exact settles_of_coerceWith
      ⟨enough, fun fuel hfuel => Eval.bind_done (hsettles fuel hfuel)⟩
  | coercion =>
    obtain ⟨given, rfl⟩ := h
    exact accepts_of_succ fun _ _ _ => rfl
  | handler =>
    obtain ⟨handler, rfl⟩ | ⟨handler, captured, rfl⟩ | ⟨given, rfl⟩ := h
    · exact accepts_of_succ fun _ _ _ => rfl
    · exact accepts_of_succ fun _ _ _ => rfl
    · exact accepts_of_succ fun _ _ _ => rfl
  | reference =>
    obtain rfl | ⟨items, rfl⟩ | ⟨entries, rfl⟩ | ⟨number, target, rfl⟩ := h
    · exact accepts_of_succ fun _ _ _ => rfl
    · exact accepts_of_succ fun _ _ _ => rfl
    · exact accepts_of_succ fun _ _ _ => rfl
    · exact accepts_of_succ fun _ _ _ => rfl
  | anything | value | list _ | record _ | optional _ | lazy _ | default _ _ => cases hatomic

/-- Lists and records are accepted if their items and fields are. -/
theorem accepts_list {items : List Value} (h : ∀ v ∈ items, item.Accepts v) :
    (Coercion.list item).Accepts (.list items) :=
  fun scope store => settles_listOf (List.forall₂_same.2 fun v hv => h v hv scope store)

theorem accepts_record {record : Record} (h : record.Holds field.Accepts) :
    (Coercion.record field).Accepts (.record record) := by
  intro scope store
  obtain ⟨enough, hfields⟩ := resolve_settles scope store h
  exact settles_of_coerceWith ⟨enough, fun fuel hfuel => Eval.bind_done (hfields fuel hfuel)⟩

/-- A coercion that recovers accepts what the coercion it is built on accepts. -/
theorem Accepts.recovering {fallback : Value} (h : inner.Accepts value)
    (hc : ∀ fuel scope store, coerce (fuel + 1) c value scope store =
      Eval.recover EvalError.isAbsence (coerce fuel inner value scope) (Eval.done fallback) store) :
    c.Accepts value := by
  intro scope store
  obtain ⟨enough, hsettles⟩ := h scope store
  refine ⟨enough + 1, fun fuel hfuel => ?_⟩
  obtain ⟨fuel, rfl⟩ := Nat.exists_eq_succ_of_ne_zero (Nat.ne_zero_of_lt hfuel)
  rw [hc]
  exact recover_done (hsettles fuel (Nat.le_of_succ_le_succ hfuel))

/-- What is accepted is accepted where it may also be absent. -/
theorem Accepts.optional (h : inner.Accepts value) : (Coercion.optional inner).Accepts value :=
  h.recovering fun _ _ _ => rfl

theorem Accepts.default (h : inner.Accepts value) (fallback : Value) :
    (Coercion.default fallback inner).Accepts value :=
  h.recovering fun _ _ _ => rfl

/-! ### Anything -/

namespace IsGeneral

/-- What a value is converted to is what it is coerced to. -/
theorem accepts (hc : c.IsGeneral) (hexpression : value.isExpression = false)
    (hthere : value.isNothing = false)
    (h : ∀ scope store, ∃ enough, ∀ fuel, enough ≤ fuel →
      asAnything (evaluator fuel) scope c value store = .done value store) : c.Accepts value := by
  have hcollapse : collapse value = value := by
    cases value with
    | didNothing => cases hthere
    | _ => rfl
  intro scope store
  obtain ⟨enough, hconverts⟩ := h scope store
  have hrecovers : ∀ fuel, enough ≤ fuel →
      coerceAnything (evaluator fuel) c value scope store = .done value store := by
    intro fuel hfuel
    refine recover_done ?_
    rw [runOrConvert_of_plain hexpression hthere]
    refine (Eval.bind_done (hconverts fuel hfuel)).trans ?_
    rw [hcollapse]
    rfl
  cases hc with
  | anything => exact settles_of_coerceWith ⟨enough, hrecovers⟩
  | value => exact settles_of_coerceWith ⟨enough, hrecovers⟩

/-- Wherever anything is wanted nothing is accepted too. -/
theorem accepts_nothing (hc : c.IsGeneral) : c.Accepts .nothing := by
  cases hc with
  | anything => exact accepts_of_succ fun _ _ _ => rfl
  | value => exact accepts_of_succ fun _ _ _ => rfl

theorem accepts_list (hc : c.IsGeneral) {items : List Value} (h : ∀ v ∈ items, c.Accepts v) :
    c.Accepts (.list items) :=
  fun scope store => settles_list hc (List.forall₂_same.2 fun v hv => h v hv scope store)

theorem accepts_record (hc : c.IsGeneral) {record : Record} (h : record.Holds c.Accepts) :
    c.Accepts (.record record) := by
  refine hc.accepts rfl rfl fun scope store => ?_
  obtain ⟨enough, hfields⟩ := resolve_settles scope store h
  exact ⟨enough, fun fuel hfuel => Eval.bind_done (hfields fuel hfuel)⟩

theorem accepts_pair (hc : c.IsGeneral) {key : Value} (h : c.Accepts value) :
    c.Accepts (.pair key value) := by
  refine hc.accepts rfl rfl fun scope store => ?_
  obtain ⟨enough, hsettles⟩ := h scope store
  exact ⟨enough, fun fuel hfuel => Eval.bind_done (hsettles fuel hfuel)⟩

theorem accepts_plain (hc : c.IsGeneral) (hexpression : value.isExpression = false)
    (hthere : value.isNothing = false) (hplain : value.isCollection = false) :
    c.Accepts value := by
  refine hc.accepts hexpression hthere fun scope store => ⟨0, fun fuel _ => ?_⟩
  cases value with
  | list _ | record _ | pair _ _ => cases hplain
  | _ => rfl

end IsGeneral

end Coercion

/-! ## Results are accepted -/

namespace Evaluation

variable {wanted : Coercion} {value : Value} {scope : Scope}

/-- Either a coercion never says that there is no value, or `optional` leaves nothing as it is. -/
theorem failsLasting_or_optional_accepts (inner : Coercion) (heager : inner.IsEager) :
    (∀ fuel value scope, FailsLasting (coerce fuel inner value scope)) ∨
      (Coercion.optional inner).Accepts .nothing := by
  have hrefuses (hrefused : ∀ fuel scope store, coerce (fuel + 1) inner .nothing scope store =
      .failed (.of (.nullCoercion inner)) store) : (Coercion.optional inner).Accepts .nothing := by
    intro scope store
    refine ⟨2, fun fuel hfuel => ?_⟩
    obtain ⟨fuel, rfl⟩ : ∃ smaller, fuel = smaller + 2 := ⟨fuel - 2, by omega⟩
    change Eval.recover EvalError.isAbsence (coerce (fuel + 1) inner .nothing scope)
      (Eval.done .nothing) store = _
    simp only [Eval.recover, hrefused]
    rfl
  have hrecovers (h : ∀ fuel value scope, FailsLasting (coerce (fuel + 1) inner value scope)) :
      ∀ fuel value scope, FailsLasting (coerce fuel inner value scope) := by
    intro fuel value scope
    cases fuel with
    | zero => exact .exhausted
    | succ fuel => exact h fuel value scope
  cases inner with
  | anything => exact .inl coerce_anything_failsLasting
  | value | optional _ | default _ _ =>
    exact .inl (hrecovers fun _ _ _ => recover_failsLasting)
  | expression => exact .inl (hrecovers fun _ _ _ => .pure trivial)
  | noResult =>
    exact .inl (hrecovers fun fuel value scope =>
      .bind (coerce_anything_failsLasting fuel value scope) fun _ _ => .pure trivial)
  | reference =>
    exact .inr (Coercion.Accepts.optional (Coercion.accepts_of_shape rfl (.inl rfl)))
  | lazy _ => cases heager _ (Coercion.mem_parts_self _)
  | _ => exact .inr (hrefuses fun _ _ _ => rfl)

/-- Whatever comes of evaluation is accepted, if it is at the next level.  Only code is not, and
none comes out. -/
theorem coerceAnything_accepts {e : Evaluator} (he : e.Respects .free) (hc : wanted.IsGeneral)
    (h : ∀ v, Discipline.free.Keeps wanted.Accepts (e.coerce wanted v scope)) :
    Discipline.free.Keeps wanted.Accepts (coerceAnything e wanted value scope) := by
  have hs := Discipline.runsIn_free scope
  have hv := value.obeys_free
  refine coerceAnything_keeps he hs hv (fun answer _ => h answer) (fun hexpression hthere => ?_)
    hc.accepts_nothing
  refine asAnything_ensures he hs hv (fun v _ => h v)
    (fun items hitems => hc.accepts_list hitems) (fun record hrecord => hc.accepts_record hrecord)
    (fun key old new _ hnew => hc.accepts_pair hnew) (hc.accepts_plain hexpression hthere)

/-- `optional` accepts nothing wherever nothing stood in for an absent value. -/
theorem recover_nothing_accepts {fuel : Nat} {inner : Coercion} (heager : inner.IsEager)
    (h : Discipline.free.Keeps inner.Accepts (coerce fuel inner value scope)) :
    Discipline.free.Keeps (Coercion.optional inner).Accepts
      (Eval.recover EvalError.isAbsence (coerce fuel inner value scope) (Eval.done .nothing)) := by
  have hfound := h.result fun _ haccepts => haccepts.optional
  rcases failsLasting_or_optional_accepts inner heager with hlasting | hnothing
  · intro store _
    rw [(hlasting fuel value scope).recover_eq trivial]
    exact hfound store trivial
  · exact .recover hfound (.done hnothing) fun _ _ _ => trivial

/-- What coercing gives is accepted by the coercion. -/
theorem coerce_ensures_accepts (fuel : Nat) (hw : wanted.Repeats) :
    Discipline.free.Keeps wanted.Accepts (coerce fuel wanted value scope) := by
  -- The answer of an expression and the parts of a collection are coerced with less fuel.
  induction fuel generalizing wanted value scope with
  | zero => exact .exhausted
  | succ fuel ih =>
    have he := evaluator_respects .free fuel
    have hs := Discipline.runsIn_free scope
    have hv := value.obeys_free
    cases wanted with
    | anything => exact coerceAnything_accepts he .anything fun _ => ih hw
    | value => exact coerceAnything_accepts he .value fun _ => ih hw
    | list item =>
      have hitem : item.Repeats := hw.of_subset fun part hpart => by simp [Coercion.parts, hpart]
      have hitems := asList_ensures he hs hv fun v _ => @ih item v scope hitem
      refine runOrConvert_keeps he hs hv (fun _ _ => ih hw) fun _ _ => ?_
      refine hitems.mono ?_ fun _ _ => trivial
      rintro _ ⟨items, rfl, hall⟩
      exact Coercion.accepts_list hall
    | record field =>
      have hfield : field.Repeats := hw.of_subset fun part hpart => by simp [Coercion.parts, hpart]
      have hfields := asRecord_ensures he hs hv fun v _ => @ih field v scope hfield
      refine runOrConvert_keeps he hs hv (fun _ _ => ih hw) fun _ _ => ?_
      refine hfields.mono ?_ fun _ _ => trivial
      rintro _ ⟨record, rfl, hall⟩
      exact Coercion.accepts_record hall
    | optional inner =>
      have hinner : inner.Repeats := hw.of_subset fun part hpart => by simp [Coercion.parts, hpart]
      exact recover_nothing_accepts hinner.eager (ih hinner)
    | default fallback inner =>
      have hinner : inner.Repeats := hw.of_subset fun part hpart => by simp [Coercion.parts, hpart]
      have hfallback := hw.fallbacks fallback inner (Coercion.mem_parts_self _)
      exact .recover ((ih hinner).result fun _ haccepts => haccepts.default fallback)
        (.done (hfallback.default fallback)) fun _ _ _ => trivial
    | lazy inner => cases hw.eager _ (Coercion.mem_parts_self _)
    | _ =>
      refine (coerce_ensures_shape (fuel + 1) _ value scope).result fun _ hshape => ?_
      exact Coercion.accepts_of_shape rfl hshape

/-- A result is coerced to itself from then on, in every scope and in every store, and so in the
store that was reached.  Nothing is stored or printed by that. -/
theorem coerce_idempotent {fuel : Nat} {wanted : Coercion} {value result : Value} {scope : Scope}
    {store after : Store} (heager : wanted.IsEager)
    (hdefaults : ∀ fallback inner, .default fallback inner ∈ wanted.parts →
      inner.Accepts fallback)
    (h : coerce fuel wanted value scope store = .done result after) : wanted.Accepts result :=
  ((coerce_ensures_accepts fuel ⟨heager, hdefaults⟩).of_done trivial h).2

/-- A block answers a list with code in it, as a list of flags where a missing one is false. -/
theorem coerce_idempotent_flags :
    (Coercion.list (.default (.boolean false) .boolean)).IsEager ∧
    (∀ fallback inner,
      .default fallback inner ∈ (Coercion.list (.default (.boolean false) .boolean)).parts →
      inner.Accepts fallback) ∧
    ∃ result after,
      coerce 6 (.list (.default (.boolean false) .boolean))
        (.block [.boolean true, .list [.block [.ofString "yes"], .block []]])
        (.frame (.root 0)) .silent = .done result after ∧
      (Coercion.list (.default (.boolean false) .boolean)).Accepts result := by
  have heager : (Coercion.list (.default (.boolean false) .boolean)).IsEager := by
    simp [Coercion.IsEager, Coercion.parts, Coercion.isLazy]
  have hdefaults : ∀ fallback inner,
      .default fallback inner ∈ (Coercion.list (.default (.boolean false) .boolean)).parts →
      inner.Accepts fallback := by
    intro fallback inner hpart
    obtain ⟨rfl, rfl⟩ : fallback = .boolean false ∧ inner = .boolean := by
      simpa [Coercion.parts] using hpart
    exact Coercion.accepts_of_shape rfl ⟨false, rfl⟩
  refine ⟨heager, hdefaults, .list [.boolean true, .boolean false], .silent, ?run,
    coerce_idempotent heager hdefaults ?run⟩
  rfl

end Evaluation

end CommandScript
