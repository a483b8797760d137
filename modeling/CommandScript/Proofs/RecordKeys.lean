import CommandScript.Value.KeyIndex
import CommandScript.Proofs.Equality
import CommandScript.Proofs.Idempotence
import CommandScript.Proofs.Routing

/-!
# The keys of records

The fields of a record stand in a list, and an index tells where the field with each key stands.
The two are copies of one mapping: a key leads the index to a place just if the field there has an
equal key.  This holds of the fields that were entered so far, and entering one more keeps it,
unless the index has an equal key already.  So the index is complete just if no two keys are equal,
and then looking a key up in it is looking through the fields.

When a record is resolved, its keys are evaluated and its values coerced, one after another.  Each
may run code, which leaves a store to the next.  Keys may become equal on the way, so they are
compared once more at the end.
-/

namespace CommandScript

/-! ## Equality and hashes of keys -/

instance : EquivBEq Key where
  rfl := (Key.beq_iff _ _).2 rfl
  symm h := (Key.beq_iff _ _).2 ((Key.beq_iff _ _).1 h).symm
  trans h h' := (Key.beq_iff _ _).2 (((Key.beq_iff _ _).1 h).trans ((Key.beq_iff _ _).1 h'))

instance : LawfulHashable Key where
  hash_eq k l h := by
    cases k with
    | text t =>
      cases l with
      | text u =>
        have hcontent := (TextValue.beq_iff t u).1 h
        exact congrArg (fun content => mixHash 0 (hash content)) hcontent
      | tag name => cases h
    | tag name =>
      cases l with
      | text u => cases h
      | tag other =>
        have hkey := (Name.beq_iff name other).1 h
        exact congrArg (fun key => mixHash 1 (hash key)) hkey

variable {index : KeyIndex} {entries front rest : List (Key × Value)} {key : Key} {value : Value}

/-! ## Indexes -/

/-- The last of some things is behind the others. -/
theorem getElem?_concat_eq_some {α : Type} {front : List α} {last found : α} {place : Nat} :
    (front ++ [last])[place]? = some found ↔
      front[place]? = some found ∨ place = front.length ∧ last = found := by
  rw [List.getElem?_append]
  split
  next hless => simp [Nat.ne_of_lt hless]
  next hmore =>
    rw [List.getElem?_eq_none (Nat.le_of_not_lt hmore), List.getElem?_singleton]
    grind

namespace KeyIndex

/-- A key leads the index to a place just if the field there has an equal key. -/
def Indexes (index : KeyIndex) (entries : List (Key × Value)) : Prop :=
  ∀ (key : Key) (place : Nat), index[key]? = some place ↔
    ∃ entry, entries[place]? = some entry ∧ key.identity = entry.1.identity

/-- The empty index has no keys. -/
theorem indexes_nil : Indexes ∅ [] := by
  intro key place
  rw [Std.HashMap.getElem?_empty]
  exact ⟨nofun, fun ⟨_, h, _⟩ => by cases h⟩

/-- A key is missing from the index if no entry has a key that is identical to it. -/
theorem Indexes.getElem?_eq_none_iff (h : Indexes index entries) :
    index[key]? = none ↔ ∀ entry ∈ entries, key.identity ≠ entry.1.identity := by
  rw [Option.eq_none_iff_forall_ne_some]
  constructor
  · intro hnone entry hentry hkey
    obtain ⟨place, hplace⟩ := List.mem_iff_getElem?.1 hentry
    exact hnone place ((h key place).2 ⟨entry, hplace, hkey⟩)
  · intro hother place hplace
    obtain ⟨entry, hentry, hkey⟩ := (h key place).1 hplace
    exact hother entry (List.mem_of_getElem? hentry) hkey

/-- Fields with equal keys stand at one place. -/
theorem Indexes.uniqueKeys (h : Indexes index entries) : Record.UniqueKeys entries := by
  rw [Record.UniqueKeys, List.pairwise_iff_getElem]
  intro i j hi hj hless
  rw [← Bool.not_eq_true, Key.beq_iff]
  intro hkey
  have hfirst := (h entries[j].1 i).2 ⟨_, List.getElem?_eq_getElem hi, hkey⟩
  have hlast := (h entries[j].1 j).2 ⟨_, List.getElem?_eq_getElem hj, rfl⟩
  exact Nat.ne_of_lt hless (Option.some.inj (hfirst.symm.trans hlast))

/-- An entry with a new key is indexed under the next place. -/
theorem Indexes.insert (h : Indexes index front) (hnew : index[key]? = none) :
    Indexes (index.insert key front.length) (front ++ [(key, value)]) := by
  intro other place
  have hfound : (∃ entry, (front ++ [(key, value)])[place]? = some entry ∧
      other.identity = entry.1.identity) ↔
      index[other]? = some place ∨ place = front.length ∧ other.identity = key.identity := by
    rw [h]
    simp only [getElem?_concat_eq_some, or_and_right, exists_or, and_assoc, exists_and_left,
      exists_eq_left']
  rw [hfound, Std.HashMap.getElem?_insert]
  split
  next hkey =>
    have hother : index[other]? = none := (Std.HashMap.getElem?_congr hkey).symm.trans hnew
    rw [hother, Option.some.injEq, (Key.beq_iff _ _).1 hkey]
    simp [eq_comm]
  next hkey =>
    have hother : other.identity ≠ key.identity := fun heq => hkey ((Key.beq_iff _ _).2 heq.symm)
    simp [hother]

end KeyIndex

/-- A key that an earlier field has too, and before it no key is repeated. -/
def Record.FirstRepeated (entries : List (Key × Value)) (key : Key) : Prop :=
  ∃ front value back, entries = front ++ (key, value) :: back ∧ UniqueKeys front ∧
    ∃ entry ∈ front, key.identity = entry.1.identity

namespace KeyIndex

/-- An entry is refused if the index has its key already. -/
theorem extend_cons (index : KeyIndex) (place : Nat) (key : Key) (value : Value)
    (rest : List (Key × Value)) :
    extend index place ((key, value) :: rest) =
      if index.contains key then .error key
      else extend (index.insert key place) (place + 1) rest := by
  rw [extend, ← Std.HashMap.containsThenInsert_fst (v := place),
    ← Std.HashMap.containsThenInsert_snd]

/-- More fields are entered until a key is repeated. -/
theorem extend_indexes (h : Indexes index front) :
    (∃ final, extend index front.length rest = .ok final ∧ Indexes final (front ++ rest)) ∨
      ∃ key, extend index front.length rest = .error key ∧
        Record.FirstRepeated (front ++ rest) key := by
  -- The invariant is that the index is complete for the fields already entered, and each step moves
  -- one more field to these.
  induction rest generalizing index front with
  | nil => exact .inl ⟨index, rfl, by rwa [List.append_nil]⟩
  | cons entry rest ih =>
    obtain ⟨key, value⟩ := entry
    rw [extend_cons, Std.HashMap.contains_eq_isSome_getElem?]
    cases hkey : index[key]? with
    | some place =>
      obtain ⟨entry, hentry, hequal⟩ := (h key place).1 hkey
      exact .inr ⟨key, rfl, front, value, rest, rfl, h.uniqueKeys, entry,
        List.mem_of_getElem? hentry, hequal⟩
    | none =>
      have hmore : Indexes (index.insert key front.length) (front ++ [(key, value)]) :=
        h.insert hkey
      have hrest := ih hmore
      rwa [List.length_append, List.length_singleton, List.append_assoc] at hrest

/-- The index of some fields is complete, or it is known which key is repeated. -/
theorem ofFields_indexes (entries : List (Key × Value)) :
    (∃ index, ofFields entries = .ok index ∧ Indexes index entries) ∨
      ∃ key, ofFields entries = .error key ∧ Record.FirstRepeated entries key :=
  extend_indexes indexes_nil

/-- Whatever index is made has all the entries, each under its place. -/
theorem indexes_of_ofFields (h : ofFields entries = .ok index) : Indexes index entries := by
  rcases ofFields_indexes entries with ⟨complete, hindex, hindexes⟩ | ⟨key, hindex, -⟩
  · rw [h] at hindex
    cases hindex
    exact hindexes
  · rw [h] at hindex
    cases hindex

/-- Looking a key up in an index is looking through the fields. -/
theorem Indexes.find? (h : Indexes index entries) (key : Key) :
    index.find? entries key = entries.lookup key := by
  unfold KeyIndex.find?
  cases hplace : index[key]? with
  | some place =>
    obtain ⟨entry, hentry, hkey⟩ := (h key place).1 hplace
    rw [Record.lookup_of_mem h.uniqueKeys (List.mem_of_getElem? hentry) hkey]
    simp only [Option.bind_eq_bind, Option.bind_some, hentry, Option.pure_def]
  | none =>
    cases hlookup : entries.lookup key with
    | none => rfl
    | some value =>
      obtain ⟨front, entry, back, rfl, hkey, -⟩ := Record.exists_of_lookup hlookup
      exact absurd hkey (h.getElem?_eq_none_iff.1 hplace entry (by simp))

end KeyIndex

/-! ## Records with given fields -/

namespace Record

/-- A key is repeated in the front, or in the rest after the keys of the front. -/
theorem repeatedKey?_append (earlier : List Key) (front rest : List (Key × Value)) :
    repeatedKey? earlier (front ++ rest) =
      (repeatedKey? earlier front).or (repeatedKey? ((front.map Prod.fst).reverse ++ earlier) rest)
    := by
  induction front generalizing earlier with
  | nil => rfl
  | cons entry front ih =>
    obtain ⟨key, value⟩ := entry
    rw [List.cons_append, repeatedKey?, repeatedKey?]
    split
    next => rfl
    next => rw [ih, List.map_cons, List.reverse_cons, List.append_assoc, List.singleton_append]

/-- Of unique keys none is repeated. -/
theorem repeatedKey?_eq_none (hunique : UniqueKeys entries) : repeatedKey? [] entries = none :=
  repeatedKey?_of_uniqueKeys hunique fun _ h => absurd h List.not_mem_nil

/-- The first key that comes again is the one that is found. -/
theorem FirstRepeated.repeatedKey? (h : FirstRepeated entries key) :
    Record.repeatedKey? [] entries = some key := by
  obtain ⟨front, value, back, rfl, hunique, entry, hentry, hkey⟩ := h
  have hknown : ((front.map Prod.fst).reverse ++ []).contains key = true := by
    rw [List.append_nil, List.contains_reverse, List.contains_eq_any_beq, List.any_eq_true]
    exact ⟨entry.1, List.mem_map_of_mem hentry, (Key.beq_iff _ _).2 hkey⟩
  rw [repeatedKey?_append, repeatedKey?_eq_none hunique, Option.none_or, Record.repeatedKey?,
    if_pos hknown]

/-- Entries with unique keys make the record of just these entries. -/
theorem ofFields_eq_ok (hunique : UniqueKeys entries) :
    ofFields entries = .ok (.fields entries) := by
  rw [ofFields, repeatedKey?_eq_none hunique]

/-- Entries with a repeated key make none, and the error has the first of them. -/
theorem ofFields_eq_error (h : FirstRepeated entries key) : ofFields entries = .error key := by
  rw [ofFields, h.repeatedKey?]

end Record

/-! ## Resolved records -/

variable {α β γ : Type} {e : Evaluator} {scope : Scope} {wanted : Coercion} {record : Record}
  {store after : Store}

/-- One thing after another gives something, each in the store that the one before left. -/
inductive InTurn (gives : α → Store → β → Store → Prop) : List α → Store → List β → Store → Prop
    where
  | nil {store : Store} : InTurn gives [] store [] store
  | cons {a : α} {b : β} {as : List α} {bs : List β} {store between after : Store} :
      gives a store b between → InTurn gives as between bs after →
      InTurn gives (a :: as) store (b :: bs) after

/-- Each thing gives something at its own place. -/
theorem InTurn.forall₂ {gives : α → Store → β → Store → Prop} {as : List α} {bs : List β}
    (h : InTurn gives as store bs after) :
    List.Forall₂ (fun a b => ∃ before behind, gives a before b behind) as bs := by
  induction h with
  | nil => exact .nil
  | cons hgives _ ih => exact .cons ⟨_, _, hgives⟩ ih

/-- A sequence is done when both parts are, one after the other. -/
theorem Eval.bind_eq_done_iff {first : Eval α} {next : α → Eval β} {b : β} :
    (first >>= next) store = .done b after ↔
      ∃ a between, first store = .done a between ∧ next a between = .done b after := by
  constructor
  · intro h
    exact Outcome.andThen_eq_done h
  · rintro ⟨a, between, hfirst, hnext⟩
    exact (Eval.bind_done hfirst).trans hnext

/-- An action that is done for each item has given its results in turn. -/
theorem Eval.forEach_eq_done_iff {action : α → Eval β} {gives : γ → Store → β → Store → Prop}
    {f : α → γ} (hgives : ∀ a store b after,
      action a store = .done b after ↔ gives (f a) store b after) {as : List α} {bs : List β} :
    forEach action as store = .done bs after ↔ InTurn gives (as.map f) store bs after := by
  induction as generalizing bs store with
  | nil =>
    constructor
    · intro h
      cases h
      exact .nil
    · rintro ⟨⟩
      rfl
  | cons a as ih =>
    rw [forEach, bind_eq_done_iff, List.map_cons]
    constructor
    · rintro ⟨b, between, hfirst, h⟩
      obtain ⟨bs, last, hrest, hdone⟩ := bind_eq_done_iff.1 h
      cases hdone
      exact .cons ((hgives ..).1 hfirst) (ih.1 hrest)
    · rintro (_ | ⟨hfirst, hrest⟩)
      exact ⟨_, _, (hgives ..).2 hfirst, bind_eq_done_iff.2 ⟨_, _, ih.2 hrest, rfl⟩⟩

/-- Keys are told apart by the values they stand for. -/
theorem Value.ofKey_inj {k l : Key} : Value.ofKey k = .ofKey l ↔ k = l := by
  cases k <;> cases l <;> simp [ofKey]

namespace Evaluation

/-- The item is coerced; only the error of one that fails is told in another way. -/
theorem coerceItem_eq_done_iff {item value : Value} :
    coerceItem e scope wanted item store = .done value after ↔
      e.coerce wanted item scope store = .done value after := by
  unfold coerceItem Eval.mapError
  cases e.coerce wanted item scope store with
  | done result store => exact Iff.rfl
  | failed problem store => exact ⟨nofun, nofun⟩
  | outOfFuel => exact ⟨nofun, nofun⟩

/-- Texts, numbers among them, and tags are keys, and taking them as such changes nothing. -/
theorem asKey_eq_done_iff {value : Value} {key : Key} :
    asKey value store = .done key after ↔ value.toKey? = some key ∧ after = store := by
  unfold asKey
  cases value.toKey? with
  | none => exact ⟨nofun, nofun⟩
  | some found =>
    constructor
    · rintro ⟨⟩
      exact ⟨rfl, rfl⟩
    · rintro ⟨⟨⟩, rfl⟩
      rfl

/-- What stands for a key in a record gives the key: in a record with fields it is the key, and in a
computed record it is evaluated to the key. -/
def GivesKey (e : Evaluator) (scope : Scope) : Record → Value → Store → Key → Store → Prop
  | .fields _, given, store, key, after => given = .ofKey key ∧ after = store
  | .computed _, code, store, key, after =>
    ∃ answer, e.coerce .recordKey code scope store = .done answer after ∧ answer.toKey? = some key

/-- A key and a value of a record give a field: first the key is given, then the value is
coerced. -/
def GivesField (e : Evaluator) (scope : Scope) (wanted : Coercion) (record : Record)
    (pair : Value × Value) (store : Store) (field : Key × Value) (after : Store) : Prop :=
  ∃ between, GivesKey e scope record pair.1 store field.1 between ∧
    e.coerce wanted pair.2 scope between = .done field.2 after

/-- The keys and values of a record give fields, in order. -/
def GivesFields (e : Evaluator) (scope : Scope) (wanted : Coercion) (record : Record) :
    Store → List (Key × Value) → Store → Prop :=
  InTurn (GivesField e scope wanted record) record.pairs

/-- In a record of fields only the value is evaluated. -/
theorem coerceField_eq_done_iff (entries : List (Key × Value)) (entry : Key × Value)
    (store : Store) (field : Key × Value) (after : Store) :
    coerceField e scope wanted entry store = .done field after ↔
      GivesField e scope wanted (.fields entries) (.ofKey entry.1, entry.2) store field after := by
  unfold coerceField GivesField GivesKey
  simp only [Eval.bind_eq_done_iff, coerceItem_eq_done_iff, Value.ofKey_inj]
  constructor
  · rintro ⟨value, between, hvalue, hfield⟩
    cases hfield
    exact ⟨store, ⟨rfl, rfl⟩, hvalue⟩
  · rintro ⟨between, ⟨hkey, rfl⟩, hvalue⟩
    exact ⟨field.2, after, hvalue, by rw [hkey]; rfl⟩

/-- In a computed record the key is evaluated before the value. -/
theorem computeField_eq_done_iff (pairs : List (Value × Value)) (pair : Value × Value)
    (store : Store) (field : Key × Value) (after : Store) :
    computeField e scope wanted pair store = .done field after ↔
      GivesField e scope wanted (.computed pairs) pair store field after := by
  unfold computeField GivesField GivesKey
  simp only [Eval.bind_eq_done_iff, coerceItem_eq_done_iff, asKey_eq_done_iff]
  constructor
  · rintro ⟨answer, between, hanswer, key, _, ⟨hkey, rfl⟩, value, last, hvalue, hfield⟩
    cases hfield
    exact ⟨_, ⟨answer, hanswer, hkey⟩, hvalue⟩
  · rintro ⟨between, ⟨answer, hanswer, hkey⟩, hvalue⟩
    exact ⟨answer, between, hanswer, field.1, between, ⟨hkey, rfl⟩, field.2, after, hvalue, rfl⟩

/-- Unique keys make a record without an effect. -/
theorem recordOf_of_uniqueKeys (hunique : Record.UniqueKeys entries) :
    recordOf entries store = .done (.fields entries) store := by
  rw [recordOf, Record.ofFields_eq_ok hunique]
  rfl

/-- A key that comes again is an error that names it, also without an effect. -/
theorem recordOf_of_firstRepeated (h : Record.FirstRepeated entries key) :
    recordOf entries store =
      .failed (.of (.constraint (.ofKey key) .repeatedKey)) store := by
  rw [recordOf, Record.ofFields_eq_error h]
  rfl

/-- The fields of a resolved record, before their keys are compared. -/
def resolvedFields (e : Evaluator) (scope : Scope) (wanted : Coercion) :
    Record → Eval (List (Key × Value))
  | .fields entries => Eval.forEach (coerceField e scope wanted) entries
  | .computed pairs => Eval.forEach (computeField e scope wanted) pairs

/-- Both kinds of records are resolved field after field and put together at the end. -/
theorem resolve_eq (record : Record) :
    resolve e scope wanted record = resolvedFields e scope wanted record >>= recordOf := by
  cases record <;> rfl

/-- The fields are resolved in the order they are written in. -/
theorem resolvedFields_eq_done_iff :
    resolvedFields e scope wanted record store = .done entries after ↔
      GivesFields e scope wanted record store entries after := by
  cases record with
  | fields original => exact Eval.forEach_eq_done_iff (coerceField_eq_done_iff original)
  | computed pairs =>
    refine (Eval.forEach_eq_done_iff (f := id) (computeField_eq_done_iff pairs)).trans ?_
    rw [List.map_id]
    rfl

theorem resolve_eq_recordOf (h : GivesFields e scope wanted record store entries after) :
    resolve e scope wanted record store = recordOf entries after := by
  rw [resolve_eq]
  exact Eval.bind_done (resolvedFields_eq_done_iff.2 h)

end Evaluation

/-! ## All records -/

namespace Record

open Evaluation

/-- No two keys are equal, or there is a first one that is repeated. -/
theorem uniqueKeys_or_repeated (entries : List (Key × Value)) :
    UniqueKeys entries ∨ ∃ key, FirstRepeated entries key := by
  rcases KeyIndex.ofFields_indexes entries with ⟨index, -, h⟩ | ⟨key, -, h⟩
  · exact .inl h.uniqueKeys
  · exact .inr ⟨key, h⟩

/-- Keys are not both unique and repeated. -/
theorem FirstRepeated.not_uniqueKeys (h : FirstRepeated entries key) : ¬UniqueKeys entries := by
  intro hunique
  have hnone := repeatedKey?_eq_none hunique
  rw [h.repeatedKey?] at hnone
  cases hnone

/-- A record is made if and only if the keys are unique. -/
theorem ofFields_eq_ok_iff (record : Record) :
    ofFields entries = .ok record ↔ UniqueKeys entries ∧ record = .fields entries := by
  constructor
  · intro h
    rcases uniqueKeys_or_repeated entries with hunique | ⟨key, hrepeated⟩
    · rw [ofFields_eq_ok hunique] at h
      cases h
      exact ⟨hunique, rfl⟩
    · rw [ofFields_eq_error hrepeated] at h
      cases h
  · rintro ⟨hunique, rfl⟩
    exact ofFields_eq_ok hunique

/-- It is refused with a key if and only if this is the first that comes again. -/
theorem ofFields_eq_error_iff : ofFields entries = .error key ↔ FirstRepeated entries key := by
  constructor
  · intro h
    rcases uniqueKeys_or_repeated entries with hunique | ⟨other, hrepeated⟩
    · rw [ofFields_eq_ok hunique] at h
      cases h
    · rw [ofFields_eq_error hrepeated] at h
      cases h
      exact hrepeated
  · exact ofFields_eq_error

/-- An index is made for the same entries as a record. -/
theorem index_iff :
    (∃ index, KeyIndex.ofFields entries = .ok index) ↔ UniqueKeys entries := by
  rcases KeyIndex.ofFields_indexes entries with ⟨index, hindex, h⟩ | ⟨key, hindex, h⟩
  · exact iff_of_true ⟨index, hindex⟩ h.uniqueKeys
  · refine iff_of_false ?_ h.not_uniqueKeys
    rintro ⟨index, hother⟩
    rw [hindex] at hother
    cases hother

theorem index_error_iff :
    KeyIndex.ofFields entries = .error key ↔ ofFields entries = .error key := by
  rcases KeyIndex.ofFields_indexes entries with ⟨index, hindex, h⟩ | ⟨other, hindex, h⟩
  · rw [hindex, ofFields_eq_ok h.uniqueKeys]
    exact ⟨nofun, nofun⟩
  · rw [hindex, ofFields_eq_error h, Except.error.injEq, Except.error.injEq]

/-- What becomes of fields that are to make a record. -/
structure Makes (entries : List (Key × Value)) : Prop where
  /-- They make one just if no two keys are equal. -/
  ok_iff (record : Record) :
    ofFields entries = .ok record ↔ UniqueKeys entries ∧ record = .fields entries
  /-- It is told which key is repeated first. -/
  error_iff (key : Key) : ofFields entries = .error key ↔ FirstRepeated entries key
  /-- They have an index just if they make a record. -/
  index_iff : (∃ index, KeyIndex.ofFields entries = .ok index) ↔ UniqueKeys entries
  /-- It is the same key that is in the way. -/
  index_error_iff (key : Key) :
    KeyIndex.ofFields entries = .error key ↔ ofFields entries = .error key
  /-- The index leads each key to the place of the only field with an equal key. -/
  indexes {index : KeyIndex} : KeyIndex.ofFields entries = .ok index → index.Indexes entries
  /-- The record finds what is found through the index. -/
  find? {index : KeyIndex} : KeyIndex.ofFields entries = .ok index →
    ∀ key, index.find? entries key = (Record.fields entries).get? key
  /-- The record finds the value of a field with an equal key, -/
  get?_eq_some_iff (key : Key) (value : Value) : UniqueKeys entries →
    ((Record.fields entries).get? key = some value ↔
      ∃ entry ∈ entries, key.identity = entry.1.identity ∧ entry.2 = value)
  /-- and nothing if there is none. -/
  get?_eq_none_iff (key : Key) : (Record.fields entries).get? key = none ↔
    ∀ entry ∈ entries, key.identity ≠ entry.1.identity

/-- A field is got by any key that is identical to its own. -/
theorem get?_eq_some_iff (hunique : UniqueKeys entries) (key : Key) (value : Value) :
    (Record.fields entries).get? key = some value ↔
      ∃ entry ∈ entries, key.identity = entry.1.identity ∧ entry.2 = value := by
  constructor
  · intro h
    obtain ⟨front, entry, back, rfl, hfound⟩ := exists_of_lookup h
    exact ⟨entry, by simp, hfound⟩
  · rintro ⟨entry, hentry, hkey, rfl⟩
    exact lookup_of_mem hunique hentry hkey

theorem get?_eq_none_iff (key : Key) : (Record.fields entries).get? key = none ↔
    ∀ entry ∈ entries, key.identity ≠ entry.1.identity := by
  refine List.lookup_eq_none_iff.trans (forall₂_congr fun entry _ => ?_)
  rw [bne, Bool.not_eq_true', ← Bool.not_eq_true, Key.beq_iff]

/-- Making a record is decided by its keys alone. -/
theorem makes (entries : List (Key × Value)) : Makes entries where
  ok_iff := ofFields_eq_ok_iff
  error_iff _ := ofFields_eq_error_iff
  index_iff := index_iff
  index_error_iff _ := index_error_iff
  indexes := KeyIndex.indexes_of_ofFields
  find? h key := (KeyIndex.indexes_of_ofFields h).find? key
  get?_eq_some_iff key value hunique := get?_eq_some_iff hunique key value
  get?_eq_none_iff key := get?_eq_none_iff key

/-- What becomes of a record that is resolved. -/
structure Resolving (e : Evaluator) (scope : Scope) (wanted : Coercion) (record : Record)
    (store : Store) : Prop where
  /-- Its keys and values give fields, in order, and these make the resolved record. -/
  done_iff (resolved : Record) (after : Store) :
    resolve e scope wanted record store = .done resolved after ↔
      ∃ entries, GivesFields e scope wanted record store entries after ∧
        UniqueKeys entries ∧ resolved = .fields entries
  /-- There is a field for each key and value, at the same place. -/
  places {entries : List (Key × Value)} {after : Store} :
    GivesFields e scope wanted record store entries after →
      entries.length = record.size ∧ ∀ (place : Nat) (pair : Value × Value),
        record.pairs[place]? = some pair → ∃ field, entries[place]? = some field ∧
          ∃ before behind, GivesField e scope wanted record pair before field behind
  /-- It fails if one of the keys has become equal to an earlier one. -/
  repeated {entries : List (Key × Value)} {after : Store} {key : Key} :
    GivesFields e scope wanted record store entries after → FirstRepeated entries key →
      resolve e scope wanted record store =
        .failed (.of (.constraint (.ofKey key) .repeatedKey)) after

/-- So is resolving one, by the keys that its fields give. -/
theorem resolving (e : Evaluator) (scope : Scope) (wanted : Coercion) (record : Record)
    (store : Store) : Resolving e scope wanted record store where
  done_iff resolved after := by
    constructor
    · intro h
      rw [resolve_eq, Eval.bind_eq_done_iff] at h
      obtain ⟨entries, between, hentries, hrecord⟩ := h
      refine ⟨entries, ?_⟩
      rcases uniqueKeys_or_repeated entries with hunique | ⟨key, hrepeated⟩
      · rw [recordOf_of_uniqueKeys hunique] at hrecord
        cases hrecord
        exact ⟨resolvedFields_eq_done_iff.1 hentries, hunique, rfl⟩
      · rw [recordOf_of_firstRepeated hrepeated] at hrecord
        cases hrecord
    · rintro ⟨entries, hentries, hunique, rfl⟩
      rw [resolve_eq_recordOf hentries, recordOf_of_uniqueKeys hunique]
  places {entries after} h := by
    have hpairs := h.forall₂
    refine ⟨hpairs.length_eq.symm.trans ?_, fun place pair hpair => ?_⟩
    · cases record with
      | fields original => exact List.length_map _
      | computed pairs => rfl
    · obtain ⟨hlength, hgives⟩ := List.forall₂_iff_get.1 hpairs
      obtain ⟨hless, rfl⟩ := List.getElem?_eq_some_iff.1 hpair
      exact ⟨_, List.getElem?_eq_getElem (hlength ▸ hless), hgives place hless _⟩
  repeated hentries hrepeated := by
    rw [resolve_eq_recordOf hentries, recordOf_of_firstRepeated hrepeated]

/-- Fields make a record just if no two of their keys are equal: no two texts with the same
characters and no two tags that differ in case at most.  The index of the record leads each key to
the only field with an equal key, and its value is found.  A resolved record is made of such fields
again, one for each key and value of the original, in the same order. -/
theorem keys_stay_unique :
    (∀ k l : Key, (k == l) = true ↔ k.identity = l.identity) ∧
    (∀ entries, Makes entries) ∧
    ∀ e scope wanted record store, Resolving e scope wanted record store :=
  ⟨Key.beq_iff, makes, resolving⟩

/-- Two keys are tags that differ in case, and one of them is known only once a block was run.
Where the other is a text, the record is resolved. -/
theorem keys_stay_unique_evaluated :
    let code : Value := .block [.tag (.ofString "A")]
    let scope : Scope := .frame (.root 0)
    resolve (evaluator 4) scope .boolean
        (.computed [(code, .boolean true), (.tag (.ofString "a"), .boolean false)]) .silent =
      .failed (.of (.constraint (.tag (.ofString "a")) .repeatedKey)) .silent ∧
    ∃ entries, resolve (evaluator 4) scope .boolean
        (.computed [(code, .boolean true), (.ofString "a", .boolean false)]) .silent =
      .done (.fields entries) .silent ∧ entries.length = 2 ∧
      (Record.fields entries).get? (.tag (.ofString "a")) = some (.boolean true) := by
  intro code scope
  obtain ⟨-, hmakes, hresolving⟩ := keys_stay_unique
  have hlower : Text.lowercase "a" = "a" := rfl
  have hcapital : Text.lowercase "A" = "a" := rfl
  have hsame : (Key.tag (.ofString "a")).identity = (Key.tag (.ofString "A")).identity :=
    congrArg Sum.inr (hlower.trans hcapital.symm)
  have hgives : ∀ pair field, GivesField (evaluator 4) scope .boolean (.computed []) pair .silent
      field .silent → GivesFields (evaluator 4) scope .boolean
        (.computed [(code, .boolean true), pair]) .silent
        [(.tag (.ofString "A"), .boolean true), field] .silent :=
    fun _ _ h => .cons ⟨.silent, ⟨.tag (.ofString "A"), rfl, rfl⟩, rfl⟩ (.cons h .nil)
  constructor
  · have htag := hgives (.tag (.ofString "a"), .boolean false)
      (.tag (.ofString "a"), .boolean false) ⟨.silent, ⟨_, rfl, rfl⟩, rfl⟩
    exact (hresolving ..).repeated htag
      ⟨[(.tag (.ofString "A"), .boolean true)], .boolean false, [], rfl,
        List.pairwise_singleton .., _, List.mem_singleton_self _, hsame⟩
  · have htext := hgives (.ofString "a", .boolean false) (.text (.plain "a"), .boolean false)
      ⟨.silent, ⟨_, rfl, rfl⟩, rfl⟩
    have hunique : UniqueKeys [(.tag (.ofString "A"), .boolean true),
        (.text (.plain "a"), .boolean false)] :=
      uniqueKeys_cons.2 ⟨List.forall_mem_singleton.2 nofun, List.pairwise_singleton ..⟩
    exact ⟨_, ((hresolving ..).done_iff ..).2 ⟨_, htext, hunique, rfl⟩, rfl,
      ((hmakes _).get?_eq_some_iff _ _ hunique).2 ⟨_, List.mem_cons_self, hsame, rfl⟩⟩

end Record

end CommandScript
