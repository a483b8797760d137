import CommandScript.Proofs.Idempotence
import CommandScript.Proofs.InternalErrors
import CommandScript.Value.Equality

/-!
# There and back

A host value becomes a value, and the value a host value again.

From the host side nothing is lost.  A list is coerced as a whole before its items are, and a
parameter is a list itself, so each coercion must accept the value that its bridge makes.  An
optional host value may be missing.  The value for that is nothing, which must not be a value of the
bridge inside.

From the other side a value that its coercion leaves as it is becomes an equal value, with one
exception.  A number is a text, and a text reads as an integer in many spellings.  The integer has
no spelling, so it comes back as its decimal digits.
-/

namespace CommandScript

open Evaluation

theorem Eval.recover_caught {α : Type} {catches : EvalError → Bool} {action instead : Eval α}
    {store after : Store} {problem : EvalError} (h : action store = .failed problem after)
    (hcaught : catches problem = true) :
    Eval.recover catches action instead store = instead after := by
  simp only [Eval.recover, h, hcaught, if_true]

/-- Coercing nothing gives no value. -/
def Coercion.RejectsNothing (c : Coercion) : Prop :=
  ∀ fuel scope store value after, coerce fuel c .nothing scope store ≠ .done value after

namespace Bridge

/-! ## From host values -/

/-- The bridges whose host values all come back.  They are built from plain ones by lists, and by
options around a bridge that has no use for nothing. -/
inductive RoundTrips : Bridge → Prop where
  | bool : RoundTrips .bool
  | text : RoundTrips .text
  | integer : RoundTrips .integer
  | tag : RoundTrips .tag
  | coercion : RoundTrips .coercion
  | parameter : RoundTrips .parameter
  | list {item : Bridge} : item.RoundTrips → RoundTrips (.list item)
  | optional {inner : Bridge} : inner.RoundTrips → inner.wanted.RejectsNothing →
      RoundTrips (.optional inner)

/-- Every parameter inside has a label and a binding. -/
def Named : (b : Bridge) → b.Host → Prop
  | .parameter, host => host.label.text ≠ "" ∧ host.binding.text ≠ ""
  | .optional _, none => True
  | .optional inner, some host => inner.Named host
  | .list item, hosts => ∀ host ∈ hosts, item.Named host
  | _, _ => True

/-- Unboxing a value gives a host value, with enough fuel, and leaves the store as it is. -/
def Unboxes (b : Bridge) (scope : Scope) (store : Store) (value : Value) (host : b.Host) : Prop :=
  ∃ enough, ∀ fuel, enough ≤ fuel →
    b.unbox (evaluator fuel) scope value store = .done host store

variable {item inner : Bridge}

/-- Where nothing is rejected, the error says that there is no value. -/
theorem RoundTrips.coerce_nothing {b : Bridge} (hb : b.RoundTrips)
    (hrejects : b.wanted.RejectsNothing) (fuel : Nat) (scope : Scope) (store : Store) :
    coerce (fuel + 1) b.wanted .nothing scope store =
      .failed (.of (.nullCoercion b.wanted)) store := by
  induction hb generalizing fuel with
  | bool | text | integer | tag | coercion | list _ _ => rfl
  | parameter => exact absurd rfl (hrejects 1 scope store .nothing store)
  | @optional inner _ hinner ih =>
    -- An optional value may be nothing, which the error of the bridge inside makes good.
    exact absurd (Eval.recover_caught (ih hinner 0) rfl) (hrejects 2 scope store .nothing store)

/-- The coercion of a bridge accepts each value that the bridge makes. -/
theorem RoundTrips.accepts_box {b : Bridge} (hb : b.RoundTrips) :
    ∀ host : b.Host, b.wanted.Accepts (b.box host) := by
  induction hb with
  | bool => exact fun flag => Coercion.accepts_of_shape rfl ⟨flag, rfl⟩
  | text => exact fun content => Coercion.accepts_of_shape rfl ⟨.plain content, rfl⟩
  | integer =>
    exact fun number =>
      Coercion.accepts_of_shape rfl ⟨.ofScalar (.ofInt64 number), number, 10, rfl, rfl⟩
  | tag => exact fun name => Coercion.accepts_of_shape rfl ⟨name, rfl⟩
  | coercion => exact fun given => Coercion.accepts_of_shape rfl ⟨given, rfl⟩
  | parameter =>
    intro host
    refine Coercion.IsGeneral.value.accepts_list fun part hpart => ?_
    simp only [List.mem_cons, List.not_mem_nil, or_false] at hpart
    obtain rfl | rfl | rfl := hpart
    · exact Coercion.IsGeneral.value.accepts_plain rfl rfl rfl
    · exact Coercion.IsGeneral.value.accepts_plain rfl rfl rfl
    · exact Coercion.IsGeneral.value.accepts_plain rfl rfl rfl
  | list _ ih =>
    exact fun hosts => Coercion.accepts_list fun v hv => by
      obtain ⟨host, -, rfl⟩ := List.mem_map.1 hv
      exact ih host
  | @optional inner hinner hrejects ih =>
    intro host
    cases host with
    | some host => exact (ih host).optional
    | none =>
      intro scope store
      refine ⟨2, fun fuel hfuel => ?_⟩
      obtain ⟨fuel, rfl⟩ : ∃ smaller, fuel = smaller + 2 := ⟨fuel - 2, by omega⟩
      exact Eval.recover_caught (hinner.coerce_nothing hrejects fuel scope store) rfl

/-- Where nothing is rejected, there is no host value for it, and the error says so. -/
theorem RoundTrips.unbox_nothing {b : Bridge} (hb : b.RoundTrips)
    (hrejects : b.wanted.RejectsNothing) (fuel : Nat) (scope : Scope) (store : Store) :
    b.unbox (evaluator (fuel + 1)) scope .nothing store =
      .failed (.of (.nullCoercion b.wanted)) store := by
  cases hb with
  | bool | text | integer | tag | coercion | list _ => rfl
  | parameter => exact absurd rfl (hrejects 1 scope store .nothing store)
  | optional hinner hinside =>
    obtain ⟨enough, hsettles⟩ := (hinner.optional hinside).accepts_box none scope store
    exact absurd (hsettles enough le_rfl) (hrejects enough scope store .nothing store)

section Unboxes

variable {scope : Scope} {store : Store}

/-- A coerced value that stands for a host value becomes it. -/
theorem unboxes_of_accepts {b : Bridge} {value : Value} {host : b.Host}
    {next : Value → Eval b.Host} (haccepts : b.wanted.Accepts value)
    (hunbox : ∀ e, b.unbox e scope value = e.coerce b.wanted value scope >>= next)
    (hnext : next value = pure host) : b.Unboxes scope store value host := by
  obtain ⟨enough, hsettles⟩ := haccepts scope store
  refine ⟨enough, fun fuel hfuel => ?_⟩
  rw [hunbox]
  refine (Eval.bind_done (hsettles fuel hfuel)).trans ?_
  rw [hnext]
  rfl

theorem parameterName_text {name : Name} (h : name.text ≠ "") :
    parameterName (.ofString name.text) = pure name := by
  have hempty : (TextValue.plain name.text).isEmpty = false := by
    simpa [TextValue.isEmpty, TextValue.content, String.isEmpty_iff] using h
  have hname : Name.ofString (TextValue.plain name.text).content = name := Name.ext_text rfl
  simp only [parameterName, Value.ofString, hempty, hname, Bool.false_eq_true, if_false]

/-- A coercion comes back, also as part of a parameter. -/
theorem unboxes_coercion (host : Coercion) :
    Bridge.coercion.Unboxes scope store (.coercion host) host :=
  unboxes_of_accepts (RoundTrips.coercion.accepts_box host) (fun _ => rfl) rfl

/-- A parameter is read from the list of its label, its binding and its coercion. -/
theorem unboxes_parameter {host : Parameter} (hnamed : Bridge.parameter.Named host) :
    Bridge.parameter.Unboxes scope store (boxParameter host) host := by
  obtain ⟨label, binding, wanted⟩ := host
  obtain ⟨hlabel, hbinding⟩ := hnamed
  obtain ⟨enough, hsettles⟩ :=
    RoundTrips.parameter.accepts_box ⟨label, binding, wanted⟩ scope store
  obtain ⟨enough', hcoercion⟩ : Bridge.coercion.Unboxes scope store (.coercion wanted) wanted :=
    unboxes_coercion wanted
  refine ⟨enough + enough', fun fuel hfuel => ?_⟩
  refine (Eval.bind_done (hsettles fuel (by omega))).trans ?_
  simp only [box, boxParameter, parameterName_text hlabel, parameterName_text hbinding,
    Eval.pure_bind]
  have hgiven : unboxCoercion (evaluator fuel) scope (.coercion wanted) store =
      .done wanted store := hcoercion fuel (by omega)
  exact Eval.bind_done hgiven

/-- A list of host values is read item by item. -/
theorem Unboxes.list (hitem : item.RoundTrips) {hosts : List item.Host}
    (h : ∀ host ∈ hosts, item.Unboxes scope store (item.box host) host) :
    (Bridge.list item).Unboxes scope store ((Bridge.list item).box hosts) hosts := by
  obtain ⟨enough, hsettles⟩ := hitem.list.accepts_box hosts scope store
  let unboxItem (fuel : Nat) (v : Value) : Eval item.Host :=
    (item.unbox (evaluator fuel) scope v).mapError (.permanent v item.wanted)
  have hunbox : ∀ host ∈ hosts, ∃ enough, ∀ fuel, enough ≤ fuel →
      unboxItem fuel (item.box host) store = .done host store := by
    intro host hhost
    obtain ⟨enough, hunboxes⟩ := h host hhost
    exact ⟨enough, fun fuel hfuel => by simp only [unboxItem, Eval.mapError, hunboxes fuel hfuel]⟩
  obtain ⟨enough', hhosts⟩ := forEach_settles (forall₂_made hunbox)
  refine ⟨enough + enough', fun fuel hfuel => ?_⟩
  exact (Eval.bind_done (hsettles fuel (by omega))).trans (hhosts fuel (by omega))

/-- A host value that may be missing is read where nothing is rejected. -/
theorem Unboxes.optional (hinner : inner.RoundTrips) (hrejects : inner.wanted.RejectsNothing)
    {host : Option inner.Host}
    (h : ∀ given ∈ host, inner.Unboxes scope store (inner.box given) given) :
    (Bridge.optional inner).Unboxes scope store ((Bridge.optional inner).box host) host := by
  cases host with
  | some given =>
    obtain ⟨enough, hunboxes⟩ := h given rfl
    exact ⟨enough, fun fuel hfuel => recover_done (Eval.bind_done (hunboxes fuel hfuel))⟩
  | none =>
    refine ⟨1, fun fuel hfuel => ?_⟩
    obtain ⟨fuel, rfl⟩ := Nat.exists_eq_succ_of_ne_zero (Nat.ne_zero_of_lt hfuel)
    have hfails := hinner.unbox_nothing hrejects fuel scope store
    exact Eval.recover_caught (Eval.bind_failed hfails) rfl

end Unboxes

/-- A host value that became a value comes back from it, in every scope and with every store, and
the store stays as it is.  Parameters must have a label and a binding, at any depth. -/
theorem unbox_box {b : Bridge} (hb : b.RoundTrips) {host : b.Host} (hnamed : b.Named host)
    (scope : Scope) (store : Store) :
    ∃ enough, ∀ fuel, enough ≤ fuel →
      b.unbox (evaluator fuel) scope (b.box host) store = .done host store := by
  change b.Unboxes scope store (b.box host) host
  induction hb with
  | bool => exact unboxes_of_accepts (RoundTrips.bool.accepts_box host) (fun _ => rfl) rfl
  | text => exact unboxes_of_accepts (RoundTrips.text.accepts_box host) (fun _ => rfl) rfl
  | integer => exact unboxes_of_accepts (RoundTrips.integer.accepts_box host) (fun _ => rfl) rfl
  | tag => exact unboxes_of_accepts (RoundTrips.tag.accepts_box host) (fun _ => rfl) rfl
  | coercion => exact unboxes_coercion host
  | parameter => exact unboxes_parameter hnamed
  | list hitem ih => exact .list hitem fun given hgiven => ih (hnamed given hgiven)
  | optional hinner hrejects ih =>
    refine .optional hinner hrejects fun given hgiven => ih ?_
    cases hgiven
    exact hnamed

/-- Lists of texts that may be missing, and of parameters.  One parameter has a label of its own and
a coercion with a default. -/
theorem unbox_box_nested :
    let texts := Bridge.list (.optional .text)
    let parameters := Bridge.optional (.list .parameter)
    let described : Parameter := ⟨.ofString "to", .ofString "target",
      .default (.list [.boolean true]) (.list .anything)⟩
    texts.RoundTrips ∧ texts.Named [some "", none] ∧
    parameters.RoundTrips ∧ parameters.Named (some [described]) ∧
    (∃ enough, ∀ fuel, enough ≤ fuel →
      texts.unbox (evaluator fuel) (.frame (.root 0)) (texts.box [some "", none]) .silent =
        .done [some "", none] .silent) ∧
    ∃ enough, ∀ fuel, enough ≤ fuel →
      parameters.unbox (evaluator fuel) (.frame (.root 0)) (parameters.box (some [described]))
        .silent = .done (some [described]) .silent := by
  intro texts parameters described
  have hrejects {c : Coercion} (h : ∀ fuel scope store, coerce (fuel + 1) c .nothing scope store =
      .failed (.of (.nullCoercion c)) store) : c.RejectsNothing := by
    intro fuel scope store value after hdone
    cases fuel with
    | zero => cases hdone
    | succ fuel => cases (h fuel scope store).symm.trans hdone
  have htexts : texts.RoundTrips := .list (.optional .text (hrejects fun _ _ _ => rfl))
  have hparameters : parameters.RoundTrips :=
    .optional (.list .parameter) (hrejects fun _ _ _ => rfl)
  have hnoNames : texts.Named [some "", none] := by
    intro host hhost
    simp only [List.mem_cons, List.not_mem_nil, or_false] at hhost
    obtain rfl | rfl := hhost
    · trivial
    · trivial
  have hnamed : parameters.Named (some [described]) := by
    intro host hhost
    obtain rfl := List.mem_singleton.1 hhost
    exact ⟨by decide, by decide⟩
  exact ⟨htexts, hnoNames, hparameters, hnamed, unbox_box htexts hnoNames _ _,
    unbox_box hparameters hnamed _ _⟩

end Bridge

/-! ## From values -/

namespace Value

/-- A text that reads as an integer is the decimal spelling of it. -/
def IsDecimal : Value → Prop
  | .text t => ∀ number, t.scalar.toInt64 = .ok number → t.content = toString number.toInt
  | _ => True

theorem text_of_equals {t : TextValue} {value : Value} (h : (Value.text t).equals value = true) :
    ∃ other, value = .text other ∧ t.content = other.content := by
  cases value with
  | text other => exact ⟨other, rfl, beq_iff_eq.1 h⟩
  | _ => cases h

theorem ofInt64_equals_text (number : Int64) (t : TextValue) :
    (Value.ofInt64 number).equals (.text t) = true ↔ t.content = toString number.toInt := by
  have hliteral : (TextValue.ofScalar (.ofInt64 number)).content = toString number.toInt := by
    simp [TextValue.ofScalar, TextValue.content, Scalar.ofInt64, Scalar.literal]
  change ((TextValue.ofScalar (.ofInt64 number)).content == t.content) = true ↔ _
  rw [hliteral, beq_iff_eq, eq_comm]

end Value

namespace Evaluation

/-- A text coerced to an integer reads as one, and so does what is found. -/
theorem coerce_integer_text {fuel : Nat} {t : TextValue} {found : Value} {scope : Scope}
    {store after : Store} (h : coerce fuel .integer (.text t) scope store = .done found after) :
    ∃ number other, t.scalar.toInt64 = .ok number ∧ after = store ∧ found = .text other ∧
      other.scalar.toInt64 = .ok number := by
  cases fuel with
  | zero => cases h
  | succ fuel =>
    change checkScalar .integer t _ t.scalar.toInt64 store = _ at h
    cases hread : t.scalar.toInt64 with
    | error problem =>
      rw [hread] at h
      cases problem with
      | _ => cases h
    | ok number =>
      rw [hread] at h
      cases h
      refine ⟨number, if t.scalar.isInteger then t else .ofScalar (.ofInt64 number), rfl, rfl, ?_⟩
      split
      · exact ⟨rfl, hread⟩
      · exact ⟨rfl, rfl⟩

end Evaluation

namespace Bridge

/-- A value that its coercion leaves as it is has a host value.  The value of that is equal to it,
unless an integer was spelled in another way than by its decimal digits. -/
theorem box_unbox {b : Bridge} (hb : b ∈ [.bool, .text, .integer, .tag, .coercion]) {fuel : Nat}
    {value found : Value} {scope : Scope} {store after : Store}
    (hcoerced : coerce fuel b.wanted value scope store = .done found after)
    (hsame : found.equals value = true) :
    ∃ host, b.unbox (evaluator fuel) scope value store = .done host after ∧
      ((b.box host).equals value = true ↔ (b = .integer → value.IsDecimal)) := by
  obtain ⟨-, hshape⟩ := (coerce_ensures_shape fuel b.wanted value scope).of_done trivial hcoerced
  have hreads {next : Value → Eval b.Host} (host : b.Host)
      (hunbox : b.unbox (evaluator fuel) scope value = coerce fuel b.wanted value scope >>= next)
      (hnext : next found = pure host) :
      b.unbox (evaluator fuel) scope value store = .done host after := by
    rw [hunbox, Eval.bind_done hcoerced, hnext]
    rfl
  cases b with
  | bool =>
    obtain ⟨flag, rfl⟩ := hshape
    exact ⟨flag, hreads flag rfl rfl, iff_of_true hsame nofun⟩
  | text =>
    obtain ⟨t, rfl⟩ := hshape
    obtain ⟨other, rfl, hcontent⟩ := Value.text_of_equals hsame
    have hequal : (t.content == other.content) = true := beq_iff_eq.2 hcontent
    exact ⟨t.content, hreads t.content rfl rfl, iff_of_true hequal nofun⟩
  | tag =>
    obtain ⟨name, rfl⟩ := hshape
    exact ⟨name, hreads name rfl rfl, iff_of_true hsame nofun⟩
  | coercion =>
    obtain ⟨given, rfl⟩ := hshape
    exact ⟨given, hreads given rfl rfl, iff_of_true hsame nofun⟩
  | integer =>
    obtain ⟨_, -, -, rfl, -⟩ := hshape
    obtain ⟨t, rfl, -⟩ := Value.text_of_equals hsame
    obtain ⟨number, found, hread, rfl, hfound, hnumber⟩ := coerce_integer_text hcoerced
    cases hfound
    refine ⟨number, hreads number rfl (by simp only [hnumber]; rfl), ?_⟩
    refine (Value.ofInt64_equals_text number t).trans ⟨fun hdecimal _ other hother => ?_,
      fun hdecimal => hdecimal rfl number hread⟩
    cases hread.symm.trans hother
    exact hdecimal
  | _ => simp at hb

/-- A quoted text is a number too. -/
theorem box_unbox_quoted :
    coerce 1 .integer (.ofString "-31") (.frame (.root 0)) .silent =
        .done (.ofString "-31") .silent ∧
      (Value.ofString "-31").equals (.ofString "-31") = true ∧
      ∃ host, Bridge.integer.unbox (evaluator 1) (.frame (.root 0)) (.ofString "-31") .silent =
          .done host .silent ∧
        ((Bridge.integer.box host).equals (.ofString "-31") = true ↔
          (Bridge.integer = .integer → (Value.ofString "-31").IsDecimal)) := by
  have hcoerced : coerce 1 Bridge.integer.wanted (.ofString "-31") (.frame (.root 0)) .silent =
      .done (.ofString "-31") .silent := rfl
  exact ⟨hcoerced, rfl, box_unbox (by simp) hcoerced rfl⟩

/-- `0x1F` is an integer as it is, and comes back as `31`. -/
theorem box_unbox_hexadecimal :
    let value : Value := .text (.number "0x1F" (.integer 31 16))
    coerce 1 Bridge.integer.wanted value (.frame (.root 0)) .silent = .done value .silent ∧
      Bridge.integer.unbox (evaluator 1) (.frame (.root 0)) value .silent = .done 31 .silent ∧
      (Bridge.integer.box 31).equals value = false :=
  ⟨rfl, rfl, by decide⟩

end Bridge

end CommandScript
