import CommandScript.Coercion
import CommandScript.Value.Record

/-!
# The shapes of values

What a coercion promises of the values it gives, by recursion on the coercion.  A coercion of lists
promises its item's shape of every item, and so does a coercion of records of every field.
`optional` and `default` promise what they are built on, or the value that stands in.

`anything` promises that the value is *evaluated*: no code is left in it, neither at the top nor in
the items, fields and paired values inside, and every record has its keys.  The key of a pair is not
looked at.
-/

namespace CommandScript

/-! ## Evaluated values -/

/-- A value with no code left in it, and no answer of an idle control structure. -/
inductive Value.Evaluated : Value → Prop where
  | nothing : Evaluated .nothing
  | boolean {flag : Bool} : Evaluated (.boolean flag)
  | text {content : TextValue} : Evaluated (.text content)
  | tag {name : Name} : Evaluated (.tag name)
  | list {items : List Value} : (∀ item ∈ items, Evaluated item) → Evaluated (.list items)
  | record {entries : List (Key × Value)} : (∀ entry ∈ entries, Evaluated entry.2) →
      Evaluated (.record (.fields entries))
  | pair {key value : Value} : Evaluated value → Evaluated (.pair key value)
  | coercion {given : Coercion} : Evaluated (.coercion given)
  | handler {h : Handler} : Evaluated (.handler h)
  | closure {h : Handler} {scope : Scope} : Evaluated (.closure h scope)
  | reference {number : Nat} {target : Target} : Evaluated (.reference number target)

/-- Whether a value is made of other values. -/
def Value.isCollection : Value → Bool
  | .list _ | .record _ | .pair .. => true
  | _ => false

/-- What is neither code nor nothing nor made of other values is evaluated. -/
theorem Value.evaluated_of_plain {value : Value} (hexpression : value.isExpression = false)
    (hnothing : value.isNothing = false) (hcollection : value.isCollection = false) :
    value.Evaluated := by
  cases value with
  | boolean flag => exact .boolean
  | text content => exact .text
  | tag name => exact .tag
  | coercion given => exact .coercion
  | handler h => exact .handler
  | closure h scope => exact .closure
  | reference number target => exact .reference
  | nothing | didNothing => cases hnothing
  | list _ | record _ | pair _ _ => cases hcollection
  | identifier _ | command _ | block _ | thunk _ _ _ _ => cases hexpression

/-! ## Records with unique keys -/

namespace Record

/-- No two of the fields have equal keys. -/
def UniqueKeys (entries : List (Key × Value)) : Prop :=
  entries.Pairwise fun earlier later => (later.1 == earlier.1) = false

/-- A record with unique keys, all of whose values have a property. -/
def Holds (P : Value → Prop) : Record → Prop
  | .fields entries => UniqueKeys entries ∧ ∀ entry ∈ entries, P entry.2
  | .computed _ => False

/-- Where no key is repeated the keys are unique, and apart from the earlier ones. -/
theorem uniqueKeys_of_repeatedKey? {entries : List (Key × Value)} :
    ∀ {earlier : List Key}, repeatedKey? earlier entries = none →
      UniqueKeys entries ∧ ∀ key ∈ earlier, ∀ entry ∈ entries, (entry.1 == key) = false := by
  induction entries with
  | nil => exact fun _ => ⟨.nil, fun _ _ _ h => absurd h List.not_mem_nil⟩
  | cons entry rest ih =>
    obtain ⟨key, value⟩ := entry
    intro earlier h
    unfold repeatedKey? at h
    split at h
    next => cases h
    next hnew =>
      obtain ⟨hunique, hrest⟩ := ih h
      have hkey : ∀ old ∈ earlier, (key == old) = false := by
        simpa [List.contains_eq_any_beq] using hnew
      refine ⟨.cons (hrest key (List.mem_cons_self ..)) hunique, fun old hold => ?_⟩
      exact List.forall_mem_cons.2
        ⟨hkey old hold, fun later hl => hrest old (List.mem_cons_of_mem _ hold) later hl⟩

end Record

/-! ## Shapes -/

theorem Scalar.eq_integer_of_isInteger {scalar : Scalar} (h : scalar.isInteger = true) :
    ∃ number radix, scalar = .integer number radix := by
  cases scalar with
  | integer number radix => exact ⟨number, radix, rfl⟩
  | _ => cases h

/-- The value has the shape that the coercion promises. -/
def Coercion.Shape : Coercion → Value → Prop
  | .anything, v | .value, v => v.Evaluated
  | .expression, _ => True
  | .boolean, v => ∃ flag, v = .boolean flag
  | .text, v => ∃ content, v = .text content
  | .number, v | .real, v =>
    ∃ content number, v = .text content ∧ content.scalar.toFloat = .ok number
  | .integer, v =>
    ∃ content number radix, v = .text content ∧ content.scalar = .integer number radix
  | .tag, v => ∃ name, v = .tag name
  | .recordKey, v => (∃ content, v = .text content) ∨ ∃ name, v = .tag name
  | .noResult, v => v = .nothing
  | .coercion, v => ∃ given, v = .coercion given
  | .handler, v =>
    (∃ handler, v = .handler handler) ∨ (∃ handler scope, v = .closure handler scope) ∨
      ∃ given, v = .coercion given
  | .reference, v =>
    v = .nothing ∨ (∃ items, v = .list items) ∨ (∃ entries, v = .record (.fields entries)) ∨
      ∃ number target, v = .reference number target
  | .list item, v => ∃ items, v = .list items ∧ ∀ inner ∈ items, item.Shape inner
  | .record field, v => ∃ record, v = .record record ∧ record.Holds field.Shape
  | .optional inner, v => v = .nothing ∨ inner.Shape v
  | .lazy _, v => ∃ number body scope inner, v = .thunk number body scope inner
  | .default fallback inner, v => v = fallback ∨ inner.Shape v

end CommandScript
