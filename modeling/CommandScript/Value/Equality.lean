import CommandScript.Value.Record

/-!
# Equality of values

Values are equal when they have the same form and equal parts.  Names are compared by their keys
and texts by their characters.  The fields of two records may stand in different order.  Thunks,
handlers and references are equal only to themselves, and a handler with a scope is equal to the
same handler with any scope.
-/

namespace CommandScript

mutual

/-- Whether two values are equal. -/
def Value.equals : Value → Value → Bool
  | .nothing, .nothing => true
  | .didNothing, .didNothing => true
  | .boolean a, .boolean b => a == b
  | .text a, .text b => a == b
  | .tag a, .tag b => a == b
  | .list as, .list bs => itemsEqual as bs
  | .record a, .record b => a.equals b
  | .pair k v, .pair l w => k.equals l && v.equals w
  | .identifier a, .identifier b => a == b
  | .command a, .command b => a.equals b
  | .block as, .block bs => itemsEqual as bs
  | .thunk i _ _ _, .thunk j _ _ _ => i == j
  | .coercion a, .coercion b => a.equals b
  | .handler a, .handler b => a.id == b.id
  | .closure a _, .closure b _ => a.id == b.id
  | .reference i _, .reference j _ => i == j
  | _, _ => false
termination_by structural a => a

/-- Whether two lists have equal items. -/
def itemsEqual : List Value → List Value → Bool
  | [], [] => true
  | a :: as, b :: bs => a.equals b && itemsEqual as bs
  | _, _ => false
termination_by structural as => as

/-- Whether two records are equal. -/
def Record.equals : Record → Record → Bool
  | .fields as, .fields bs => as.length == bs.length && fieldsFound bs as
  | .computed as, .computed bs => pairsEqual as bs
  | _, _ => false
termination_by structural a => a

/-- Whether every field has an equal one among others. -/
def fieldsFound (others : List (Key × Value)) : List (Key × Value) → Bool
  | [] => true
  | (key, value) :: rest =>
    (match others.lookup key with
      | some other => value.equals other
      | none => false) && fieldsFound others rest
termination_by structural entries => entries

/-- Whether two lists of pairs are equal. -/
def pairsEqual : List (Value × Value) → List (Value × Value) → Bool
  | [], [] => true
  | (k, v) :: as, (l, w) :: bs => k.equals l && v.equals w && pairsEqual as bs
  | _, _ => false
termination_by structural as => as

/-- Whether two commands are equal, the operators they were written with included. -/
def Command.equals : Command → Command → Bool
  | ⟨m, as, u⟩, ⟨n, bs, v⟩ => m == n && argumentsEqual as bs && u == v
termination_by structural a => a

/-- Whether two lists of arguments are equal. -/
def argumentsEqual : List Argument → List Argument → Bool
  | [], [] => true
  | ⟨l, v⟩ :: as, ⟨m, w⟩ :: bs => l == m && v.equals w && argumentsEqual as bs
  | _, _ => false
termination_by structural as => as

/-- Whether two coercions are equal. -/
def Coercion.equals : Coercion → Coercion → Bool
  | .anything, .anything => true
  | .value, .value => true
  | .expression, .expression => true
  | .boolean, .boolean => true
  | .text, .text => true
  | .number, .number => true
  | .integer, .integer => true
  | .real, .real => true
  | .tag, .tag => true
  | .recordKey, .recordKey => true
  | .noResult, .noResult => true
  | .coercion, .coercion => true
  | .handler, .handler => true
  | .reference, .reference => true
  | .list a, .list b => a.equals b
  | .record a, .record b => a.equals b
  | .optional a, .optional b => a.equals b
  | .lazy a, .lazy b => a.equals b
  | .default u a, .default v b => u.equals v && a.equals b
  | _, _ => false
termination_by structural a => a

end

instance : BEq Value := ⟨Value.equals⟩
instance : BEq Coercion := ⟨Coercion.equals⟩

end CommandScript
