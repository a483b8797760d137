import CommandScript.Bridge.Host
import CommandScript.Scope

/-!
# Policies

A policy says what may occur in the values of a run: whether the answer of an idle control structure
may, in which scopes a thunk may wait, and which primitive handlers there may be.  A value *obeys* a
policy when everything in it does, at any depth, code and captured scopes included.  So a value that
obeys a policy still does when it is taken apart, stored, looked up or called.

A scope obeys a policy when the targets in it do.  Its frames are numbers, and what is in their
slots is asked of the store.

The free policy allows everything, and every value obeys it.
-/

namespace CommandScript

/-- What may occur in the values of a run. -/
structure Policy where
  /-- Whether the answer of an idle control structure may occur. -/
  sentinel : Prop
  /-- The scopes that code may run in. -/
  home : Scope → Prop
  /-- The primitive handlers that may occur, by their signatures and what they do. -/
  primitive : Interface → Primitive → Prop

/-! ## Obeying a policy -/

mutual

/-- A value in which nothing breaks a policy. -/
inductive Value.Obeys (p : Policy) : Value → Prop where
  | nothing : Value.Obeys p .nothing
  | didNothing : p.sentinel → Value.Obeys p .didNothing
  | boolean {flag : Bool} : Value.Obeys p (.boolean flag)
  | text {content : TextValue} : Value.Obeys p (.text content)
  | tag {name : Name} : Value.Obeys p (.tag name)
  | list {items : List Value} : (∀ item ∈ items, Value.Obeys p item) → Value.Obeys p (.list items)
  | fields {entries : List (Key × Value)} : (∀ entry ∈ entries, Value.Obeys p entry.2) →
      Value.Obeys p (.record (.fields entries))
  | computed {pairs : List (Value × Value)} : (∀ pair ∈ pairs, Value.Obeys p pair.1) →
      (∀ pair ∈ pairs, Value.Obeys p pair.2) → Value.Obeys p (.record (.computed pairs))
  | pair {key value : Value} : Value.Obeys p key → Value.Obeys p value →
      Value.Obeys p (.pair key value)
  | identifier {name : Name} : Value.Obeys p (.identifier name)
  | command {c : Command} : (∀ argument ∈ c.arguments, Value.Obeys p argument.value) →
      Value.Obeys p (.command c)
  | block {items : List Value} : (∀ item ∈ items, Value.Obeys p item) → Value.Obeys p (.block items)
  | thunk {number : Nat} {body : Value} {scope : Scope} {wanted : Coercion} : Value.Obeys p body →
      Scope.Obeys p scope → p.home scope → Coercion.Obeys p wanted →
      Value.Obeys p (.thunk number body scope wanted)
  | coercion {given : Coercion} : Coercion.Obeys p given → Value.Obeys p (.coercion given)
  | handler {h : Handler} : Handler.Obeys p h → Value.Obeys p (.handler h)
  | closure {h : Handler} {scope : Scope} : Handler.Obeys p h → Scope.Obeys p scope →
      Value.Obeys p (.closure h scope)
  | reference {number : Nat} {target : Target} : Target.Obeys p target →
      Value.Obeys p (.reference number target)

/-- A coercion in which nothing breaks a policy. -/
inductive Coercion.Obeys (p : Policy) : Coercion → Prop where
  | simple {c : Coercion} : c.buildsCoercion = false → Coercion.Obeys p c
  | list {c : Coercion} : Coercion.Obeys p c → Coercion.Obeys p (.list c)
  | record {c : Coercion} : Coercion.Obeys p c → Coercion.Obeys p (.record c)
  | optional {c : Coercion} : Coercion.Obeys p c → Coercion.Obeys p (.optional c)
  | lazy {c : Coercion} : Coercion.Obeys p c → Coercion.Obeys p (.lazy c)
  | default {fallback : Value} {c : Coercion} : Value.Obeys p fallback → Coercion.Obeys p c →
      Coercion.Obeys p (.default fallback c)

/-- A handler in which nothing breaks a policy. -/
inductive Handler.Obeys (p : Policy) : Handler → Prop where
  | native {number : Nat} {interface : Interface} {action : Value} {isEvent : Bool} :
      (∀ q ∈ interface.parameters, Coercion.Obeys p q.coercion) →
      Coercion.Obeys p interface.returns → Value.Obeys p action →
      Handler.Obeys p (.native number interface action isEvent)
  | primitive {number : Nat} {interface : Interface} {body : Primitive} :
      (∀ q ∈ interface.parameters, Coercion.Obeys p q.coercion) → p.primitive interface body →
      Handler.Obeys p (.primitive number interface body)

/-- A frame with nothing behind it that breaks a policy. -/
inductive Environment.Obeys (p : Policy) : Environment → Prop where
  | root {number : Nat} : Environment.Obeys p (.root number)
  | child {number : Nat} {parent : Scope} : Scope.Obeys p parent →
      Environment.Obeys p (.child number parent)

/-- A scope in which nothing breaks a policy. -/
inductive Scope.Obeys (p : Policy) : Scope → Prop where
  | frame {environment : Environment} : Environment.Obeys p environment →
      Scope.Obeys p (.frame environment)
  | tell {target : Target} {parent : Scope} : Target.Obeys p target → Scope.Obeys p parent →
      Scope.Obeys p (.tell target parent)
  | receiver {target : Target} : Target.Obeys p target → Scope.Obeys p (.receiver target)

/-- A target in which nothing breaks a policy. -/
inductive Target.Obeys (p : Policy) : Target → Prop where
  | list {items : List Value} : Value.Obeys p (.list items) → Target.Obeys p (.list items)
  | record {record : Record} : Value.Obeys p (.record record) → Target.Obeys p (.record record)
  | frame {environment : Environment} : Environment.Obeys p environment →
      Target.Obeys p (.frame environment)

end

/-- A store whose slots hold only values that obey a policy. -/
def Store.Obeys (p : Policy) (store : Store) : Prop :=
  ∀ number, ∀ slot ∈ store.frame number, slot.value.Obeys p

/-! ## Taking values apart -/

section Inversion

variable {p : Policy}

/-- A list obeys if all its items do. -/
@[simp] theorem Value.obeys_list {items : List Value} :
    (Value.list items).Obeys p ↔ ∀ item ∈ items, item.Obeys p :=
  ⟨fun | .list h => h, .list⟩

/-- A record with known keys obeys if all its values do. -/
@[simp] theorem Value.obeys_fields {entries : List (Key × Value)} :
    (Value.record (.fields entries)).Obeys p ↔ ∀ entry ∈ entries, entry.2.Obeys p :=
  ⟨fun | .fields h => h, .fields⟩

/-- A record with keys that are yet to be computed obeys if these do too. -/
@[simp] theorem Value.obeys_computed {pairs : List (Value × Value)} :
    (Value.record (.computed pairs)).Obeys p ↔
      ∀ pair ∈ pairs, pair.1.Obeys p ∧ pair.2.Obeys p :=
  ⟨fun | .computed hkeys hvalues => fun pair hp => ⟨hkeys pair hp, hvalues pair hp⟩,
    fun h => .computed (fun pair hp => (h pair hp).1) fun pair hp => (h pair hp).2⟩

@[simp] theorem Value.obeys_pair {key value : Value} :
    (Value.pair key value).Obeys p ↔ key.Obeys p ∧ value.Obeys p :=
  ⟨fun | .pair hkey hvalue => ⟨hkey, hvalue⟩, fun h => .pair h.1 h.2⟩

/-- A command obeys if the values of its arguments do. -/
@[simp] theorem Value.obeys_command {command : Command} :
    (Value.command command).Obeys p ↔ ∀ argument ∈ command.arguments, argument.value.Obeys p :=
  ⟨fun | .command h => h, .command⟩

/-- A block obeys if all its statements do. -/
@[simp] theorem Value.obeys_block {items : List Value} :
    (Value.block items).Obeys p ↔ ∀ item ∈ items, item.Obeys p :=
  ⟨fun | .block h => h, .block⟩

@[simp] theorem Value.obeys_coercion {given : Coercion} :
    (Value.coercion given).Obeys p ↔ given.Obeys p :=
  ⟨fun | .coercion h => h, .coercion⟩

/-- A key is a text or a tag, of which no policy asks anything. -/
@[simp] theorem Value.obeys_ofKey (key : Key) : (Value.ofKey key).Obeys p := by
  cases key with
  | text content => exact .text
  | tag name => exact .tag

theorem Value.obeys_ofCount (count : Nat) : (Value.ofCount count).Obeys p := .text

@[simp] theorem Coercion.obeys_list {item : Coercion} :
    (Coercion.list item).Obeys p ↔ item.Obeys p :=
  ⟨fun | .list h => h, .list⟩

@[simp] theorem Coercion.obeys_record {field : Coercion} :
    (Coercion.record field).Obeys p ↔ field.Obeys p :=
  ⟨fun | .record h => h, .record⟩

@[simp] theorem Coercion.obeys_optional {inner : Coercion} :
    (Coercion.optional inner).Obeys p ↔ inner.Obeys p :=
  ⟨fun | .optional h => h, .optional⟩

@[simp] theorem Coercion.obeys_lazy {inner : Coercion} :
    (Coercion.lazy inner).Obeys p ↔ inner.Obeys p :=
  ⟨fun | .lazy h => h, .lazy⟩

/-- A coercion with a default value obeys if that value does too. -/
@[simp] theorem Coercion.obeys_default {fallback : Value} {inner : Coercion} :
    (Coercion.default fallback inner).Obeys p ↔ fallback.Obeys p ∧ inner.Obeys p :=
  ⟨fun | .default hfallback hinner => ⟨hfallback, hinner⟩, fun h => .default h.1 h.2⟩

/-- The fields of a record with keys, whatever form the record has. -/
theorem Record.entries_obey {record : Record} (h : (Value.record record).Obeys p) :
    ∀ entry ∈ record.entries, entry.2.Obeys p := by
  cases record with
  | fields entries => exact Value.obeys_fields.1 h
  | computed pairs => exact List.forall_mem_nil _

end Inversion

/-! ## The free policy -/

/-- The policy that allows everything. -/
def Policy.free : Policy := ⟨True, fun _ => True, fun _ _ => True⟩

-- One case for each form of value.  The lists inside are walked by theorems of their own, so that
-- the recursion stays structural.
mutual

/-- By recursion on the value, together with all that values are made of. -/
theorem Value.obeys_free : ∀ value : Value, value.Obeys .free
  | .nothing => .nothing
  | .didNothing => .didNothing trivial
  | .boolean _ => .boolean
  | .text _ => .text
  | .tag _ => .tag
  | .list items => .list (items_obey_free items)
  | .record (.fields entries) => .fields (entries_obey_free entries)
  | .record (.computed pairs) => .computed (keys_obey_free pairs) (values_obey_free pairs)
  | .pair key value => .pair key.obeys_free value.obeys_free
  | .identifier _ => .identifier
  | .command ⟨_, arguments, _⟩ => .command (arguments_obey_free arguments)
  | .block items => .block (items_obey_free items)
  | .thunk _ body scope wanted =>
    .thunk body.obeys_free scope.obeys_free trivial wanted.obeys_free
  | .coercion given => .coercion given.obeys_free
  | .handler h => .handler h.obeys_free
  | .closure h scope => .closure h.obeys_free scope.obeys_free
  | .reference _ target => .reference target.obeys_free
termination_by structural value => value

theorem items_obey_free : ∀ items : List Value, ∀ item ∈ items, item.Obeys .free
  | [] => List.forall_mem_nil _
  | value :: values => List.forall_mem_cons.2 ⟨value.obeys_free, items_obey_free values⟩
termination_by structural items => items

theorem entries_obey_free :
    ∀ entries : List (Key × Value), ∀ entry ∈ entries, entry.2.Obeys .free
  | [] => List.forall_mem_nil _
  | (_, value) :: entries =>
    List.forall_mem_cons.2 ⟨value.obeys_free, entries_obey_free entries⟩
termination_by structural entries => entries

theorem keys_obey_free :
    ∀ pairs : List (Value × Value), ∀ pair ∈ pairs, pair.1.Obeys .free
  | [] => List.forall_mem_nil _
  | (key, _) :: pairs => List.forall_mem_cons.2 ⟨key.obeys_free, keys_obey_free pairs⟩
termination_by structural pairs => pairs

theorem values_obey_free :
    ∀ pairs : List (Value × Value), ∀ pair ∈ pairs, pair.2.Obeys .free
  | [] => List.forall_mem_nil _
  | (_, value) :: pairs => List.forall_mem_cons.2 ⟨value.obeys_free, values_obey_free pairs⟩
termination_by structural pairs => pairs

theorem arguments_obey_free :
    ∀ arguments : List Argument, ∀ argument ∈ arguments, argument.value.Obeys .free
  | [] => List.forall_mem_nil _
  | ⟨_, value⟩ :: arguments =>
    List.forall_mem_cons.2 ⟨value.obeys_free, arguments_obey_free arguments⟩
termination_by structural arguments => arguments

theorem parameters_obey_free :
    ∀ parameters : List Parameter, ∀ q ∈ parameters, q.coercion.Obeys .free
  | [] => List.forall_mem_nil _
  | ⟨_, _, wanted⟩ :: parameters =>
    List.forall_mem_cons.2 ⟨wanted.obeys_free, parameters_obey_free parameters⟩
termination_by structural parameters => parameters

/-- No coercion breaks the free policy. -/
theorem Coercion.obeys_free : ∀ given : Coercion, given.Obeys .free
  | .list item => .list item.obeys_free
  | .record field => .record field.obeys_free
  | .optional inner => .optional inner.obeys_free
  | .lazy inner => .lazy inner.obeys_free
  | .default fallback inner => .default fallback.obeys_free inner.obeys_free
  | .anything | .value | .expression | .boolean | .text | .number | .integer | .real | .tag
  | .recordKey | .noResult | .coercion | .handler | .reference => .simple rfl
termination_by structural given => given

/-- No handler breaks it. -/
theorem Handler.obeys_free : ∀ h : Handler, h.Obeys .free
  | .native _ ⟨_, parameters, returns⟩ action _ =>
    .native (parameters_obey_free parameters) returns.obeys_free action.obeys_free
  | .primitive _ ⟨_, parameters, _⟩ _ => .primitive (parameters_obey_free parameters) trivial
termination_by structural h => h

/-- No chain of frames does. -/
theorem Environment.obeys_free : ∀ environment : Environment, environment.Obeys .free
  | .root _ => .root
  | .child _ parent => .child parent.obeys_free
termination_by structural environment => environment

/-- No scope does. -/
theorem Scope.obeys_free : ∀ scope : Scope, scope.Obeys .free
  | .frame environment => .frame environment.obeys_free
  | .tell target parent => .tell target.obeys_free parent.obeys_free
  | .receiver target => .receiver target.obeys_free
termination_by structural scope => scope

/-- No target does. -/
theorem Target.obeys_free : ∀ target : Target, target.Obeys .free
  | .list items => .list (.list (items_obey_free items))
  | .record (.fields entries) => .record (.fields (entries_obey_free entries))
  | .record (.computed pairs) =>
    .record (.computed (keys_obey_free pairs) (values_obey_free pairs))
  | .frame environment => .frame environment.obeys_free
termination_by structural target => target

end

/-- No store does. -/
theorem Store.obeys_free (store : Store) : store.Obeys .free :=
  fun _ slot _ => slot.value.obeys_free

/-! ## Looking up -/

section Lookup

variable {p : Policy}

/-- Something found under a name, with the scope that owns it. -/
def Found (p : Policy) (found : Option (Value × Scope)) : Prop :=
  ∀ value owner, found = some (value, owner) → value.Obeys p ∧ owner.Obeys p

/-- Nothing was found, so nothing is asked. -/
theorem Found.none : Found p none := fun _ _ h => nomatch h

/-- What was found obeys, and so does the scope it was found in. -/
theorem Found.some {value : Value} {owner : Scope} (hvalue : value.Obeys p)
    (howner : owner.Obeys p) : Found p (some (value, owner)) := by
  intro other scope h
  cases h
  exact ⟨hvalue, howner⟩

/-- The item at an index is one of the items. -/
theorem listItem_mem {items : List Value} {index : Int64} {item : Value}
    (h : listItem items index = .ok item) : item ∈ items := by
  unfold listItem Sequence.item at h
  split at h
  next found hfound =>
    obtain ⟨offset, -, hget⟩ := Option.bind_eq_some_iff.1 hfound
    cases h
    exact List.mem_of_getElem? hget
  next => cases h

/-- The items of a range are items of the list. -/
theorem listRange_subset {items found : List Value} {first last : Int64}
    (h : listRange items first last = .ok found) : ∀ item ∈ found, item ∈ items := by
  unfold listRange Sequence.range at h
  split at h
  next => cases h
  next start _ =>
    split at h
    next => cases h
    next stop _ =>
      cases h
      exact fun item hitem => List.mem_of_mem_drop (List.mem_of_mem_take hitem)

/-- An attribute of a list is a count, an item, or a list of items. -/
theorem listAttribute_holds {P : Value → Prop} {items : List Value} {name : Name} {value : Value}
    (hcount : ∀ count, P (.ofCount count))
    (hlist : ∀ found, (∀ item ∈ found, P item) → P (.list found)) (hitems : ∀ item ∈ items, P item)
    (h : listAttribute items name = .ok value) : P value := by
  unfold listAttribute at h
  split at h
  next => cases h; exact hcount _
  next =>
  split at h
  next => exact hitems _ (listItem_mem h)
  next =>
  split at h
  next => exact hitems _ (listItem_mem h)
  next =>
  split at h
  next => cases h; exact hlist _ fun item hitem => hitems item (List.mem_of_mem_drop hitem)
  next =>
  split at h
  next => cases h; exact hlist _ hitems
  next => cases h

/-- The value of a key is one of the values. -/
theorem Record.mem_entries_of_get? {record : Record} {key : Key} {value : Value}
    (h : record.get? key = some value) : ∃ entry ∈ record.entries, entry.2 = value := by
  rw [Record.get?, List.lookup_eq_findSome?] at h
  obtain ⟨entry, hentry, hvalue⟩ := List.exists_of_findSome?_eq_some h
  split at hvalue
  next => cases hvalue; exact ⟨entry, hentry, rfl⟩
  next => cases hvalue

/-- So is the value of a field. -/
theorem Record.mem_entries_of_field? {record : Record} {name : Name} {value : Value}
    (h : record.field? name = some value) : ∃ entry ∈ record.entries, entry.2 = value := by
  unfold Record.field? at h
  split at h
  next found hfound => cases h; exact Record.mem_entries_of_get? hfound
  next => exact Record.mem_entries_of_get? h

/-- An attribute of a record is a field, a count, or a list of keys or of fields. -/
theorem recordAttribute_holds {P : Value → Prop} {record : Record} {name : Name} {value : Value}
    (hcount : ∀ count, P (.ofCount count)) (hkey : ∀ key, P (.ofKey key))
    (hlist : ∀ found, (∀ item ∈ found, P item) → P (.list found))
    (hentries : ∀ entry ∈ record.entries, P entry.2) (h : recordAttribute record name = .ok value) :
    P value := by
  unfold recordAttribute at h
  split at h
  next found hfound =>
    cases h
    obtain ⟨entry, hentry, rfl⟩ := Record.mem_entries_of_field? hfound
    exact hentries entry hentry
  next =>
  split at h
  next => cases h; exact hcount _
  next =>
  split at h
  next =>
    cases h
    refine hlist _ fun item hitem => ?_
    obtain ⟨entry, -, rfl⟩ := List.mem_map.1 hitem
    exact hkey entry.1
  next =>
  split at h
  next =>
    cases h
    refine hlist _ fun item hitem => ?_
    obtain ⟨entry, hentry, rfl⟩ := List.mem_map.1 hitem
    exact hentries entry hentry
  next => cases h

/-- What a list has under a name obeys if its items do. -/
theorem listAttribute_obeys {items : List Value} {name : Name} {value : Value}
    (hitems : ∀ item ∈ items, item.Obeys p) (h : listAttribute items name = .ok value) :
    value.Obeys p :=
  listAttribute_holds Value.obeys_ofCount (fun _ hfound => .list hfound) hitems h

theorem Record.get?_obeys {record : Record} {key : Key} {value : Value}
    (hrecord : (Value.record record).Obeys p) (h : record.get? key = some value) :
    value.Obeys p := by
  obtain ⟨entry, hentry, rfl⟩ := Record.mem_entries_of_get? h
  exact Record.entries_obey hrecord entry hentry

/-- What a record has under a name obeys if its values do. -/
theorem recordAttribute_obeys {record : Record} {name : Name} {value : Value}
    (hrecord : (Value.record record).Obeys p) (h : recordAttribute record name = .ok value) :
    value.Obeys p :=
  recordAttribute_holds Value.obeys_ofCount Value.obeys_ofKey (fun _ hfound => .list hfound)
    (Record.entries_obey hrecord) h

/-- A handler that was found is joined to the scope that owns it, and still obeys. -/
theorem bindOwner_obeys {name : Name} {found : Option (Value × Scope)} {value : Value}
    (hfound : Found p found) (h : bindOwner name found = .ok value) : value.Obeys p := by
  unfold bindOwner at h
  split at h
  next handler owner =>
    cases h
    obtain ⟨hvalue, howner⟩ := hfound _ _ rfl
    cases hvalue with
    | handler hh => exact .closure hh howner
  next => cases h; exact (hfound _ _ rfl).1
  next => cases h

/-- An attribute that is there is what the target gave. -/
theorem orAbsent_eq_some {name : Name} {given : Except EvalError Value} {value : Value}
    (h : orAbsent name given = .ok (some value)) : given = .ok value := by
  unfold orAbsent at h
  split at h
  next => cases h; rfl
  next => split at h <;> cases h

/-- What is stored in a frame obeys. -/
theorem Store.slot?_obeys {store : Store} {number : Nat} {name : Name} {slot : Slot}
    (hs : store.Obeys p) (h : (store.frame number).slot? name = some slot) :
    slot.value.Obeys p :=
  hs number slot (List.mem_of_find?_eq_some h)

-- A scope is looked through from the front, and a target may be a frame that is looked through in
-- turn, so the three are proved together along the definition.
mutual

/-- By recursion on the chain of frames, which is searched from the inside. -/
theorem Environment.lookup_found {store : Store} (hs : store.Obeys p) (name : Name) :
    ∀ {environment : Environment}, environment.Obeys p →
      ∀ {found}, environment.lookup store name = .ok found → Found p found
  | .root number, _, found, h => by
    simp only [Environment.lookup] at h
    cases h
    cases hslot : (store.frame number).slot? name with
    | none => exact .none
    | some slot => exact .some (Store.slot?_obeys hs hslot) (.frame .root)
  | .child number parent, .child hparent, found, h => by
    simp only [Environment.lookup] at h
    split at h
    next slot hslot => cases h; exact .some (Store.slot?_obeys hs hslot) (.frame (.child hparent))
    next => exact Scope.lookup_found hs name hparent h
termination_by structural environment => environment

/-- In a scope with a target, the target is searched first. -/
theorem Scope.lookup_found {store : Store} (hs : store.Obeys p) (name : Name) :
    ∀ {scope : Scope}, scope.Obeys p →
      ∀ {found}, scope.lookup store name = .ok found → Found p found
  | .frame environment, .frame henvironment, found, h => by
    simp only [Scope.lookup] at h
    exact Environment.lookup_found hs name henvironment h
  | .tell target parent, .tell htarget hparent, found, h => by
    simp only [Scope.lookup] at h
    split at h
    next value hvalue =>
      cases h
      exact .some (Target.get_obeys hs name htarget (orAbsent_eq_some hvalue)) (.receiver htarget)
    next => exact Scope.lookup_found hs name hparent h
    next => cases h
  | .receiver target, .receiver htarget, found, h => by
    simp only [Scope.lookup] at h
    split at h
    next value hvalue =>
      cases h
      cases value with
      | none => exact .none
      | some value =>
        exact .some (Target.get_obeys hs name htarget (orAbsent_eq_some hvalue))
          (.receiver htarget)
    next => cases h
termination_by structural scope => scope

/-- What a target has under a name obeys, whatever kind of target it is. -/
theorem Target.get_obeys {store : Store} (hs : store.Obeys p) (name : Name) :
    ∀ {target : Target}, target.Obeys p →
      ∀ {value}, target.get store name = .ok value → value.Obeys p
  | .list items, .list hitems, value, h => listAttribute_obeys (Value.obeys_list.1 hitems) h
  | .record record, .record hrecord, value, h => recordAttribute_obeys hrecord h
  | .frame environment, .frame henvironment, value, h => by
    simp only [Target.get] at h
    split at h
    next found hfound =>
      exact bindOwner_obeys (Environment.lookup_found hs name henvironment hfound) h
    next => cases h
termination_by structural target => target

end

theorem Scope.get_obeys {store : Store} {name : Name} {scope : Scope} {value : Value}
    (hs : store.Obeys p) (hscope : scope.Obeys p) (h : scope.get store name = .ok value) :
    value.Obeys p := by
  unfold Scope.get at h
  split at h
  next found hfound => exact bindOwner_obeys (Scope.lookup_found hs name hscope hfound) h
  next => cases h

end Lookup

end CommandScript
