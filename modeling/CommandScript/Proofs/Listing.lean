import Mathlib.Data.List.Basic
import CommandScript.Proofs.RegistryTables

/-!
# The list of all operators

An operator stands in its table once for each of its spellings, and a table can be gone through in
any order of its entries.  The list of all operators depends on none of this.  Each operator is kept
in one place that all its spellings lead to, so it is listed once, when its place is first met.
Then the operators are sorted: by falling precedence, and then by name.

Two operators can agree in both only if they are in different tables, since a table has a name once.
The sort leaves the two in the order in which they were met, and the table of those that start an
expression is gone through first.  So the list is strictly ordered (`Registry.Precedes`), and that
leaves only one order for the operators that were registered.
-/

namespace CommandScript.Registry

variable {registry after : Registry} {op : Operator} {kept ops : List Operator}

/-! ## The operators that were registered -/

/-- Those of some operators that are registered when all are tried in order. -/
def accepted (registry : Registry) : List Operator → List Operator
  | [] => []
  | op :: ops =>
    match registry.add op with
    | .ok after => op :: after.accepted ops
    | .error _ => registry.accepted ops

/-- Whether an operator belongs into the table of those that start an expression, or into the
other. -/
def belongs (leading : Bool) (op : Operator) : Bool := op.fixity.isLeading == leading

theorem belongs_iff {leading : Bool} :
    belongs leading op = true ↔ op.fixity.isLeading = leading := beq_iff_eq

/-- The entries of an operator in a table, under the key of each spelling. -/
def entriesOf (leading : Bool) (op : Operator) : OperatorTable :=
  if belongs leading op then op.spellings.map fun text => (Text.lowercase text, op) else []

/-- A registry in which some operators were registered, in order. -/
structure Keeps (registry : Registry) (kept : List Operator) : Prop where
  /-- The tables have their entries, operator by operator. -/
  table : ∀ fixity, registry.table fixity = kept.flatMap (entriesOf fixity.isLeading)
  /-- No operator has two spellings with one key. -/
  distinct : ∀ op ∈ kept, (op.spellings.map Text.lowercase).Nodup
  /-- No two operators of a table have one name. -/
  names : kept.Pairwise fun a b => a.fixity.isLeading = b.fixity.isLeading → a.name ≠ b.name

/-- The empty registry keeps no operators. -/
theorem keeps_empty : empty.Keeps [] := by
  refine ⟨fun fixity => ?_, nofun, .nil⟩
  cases hleading : fixity.isLeading <;> simp [Registry.table, hleading, empty]

/-- A registered operator comes after all others. -/
theorem Keeps.add (hkeeps : registry.Keeps kept) (h : registry.add op = .ok after) :
    after.Keeps (kept ++ [op]) := by
  obtain ⟨spellings, hread, -, htable, -⟩ := add_ok h
  have hadmits := admits_iff_add.2 ⟨after, h⟩
  refine ⟨fun fixity => ?table, ?distinct, ?names⟩
  case table =>
    have hentries : spellings.map (fun spelling => (spelling.key, op)) =
        op.spellings.map fun text => (Text.lowercase text, op) := by
      have hkeys := congrArg (List.map fun key => (key, op)) (readSpellings_keys hread)
      rwa [List.map_map, List.map_map] at hkeys
    rw [htable, hkeeps.table, hentries, List.flatMap_append, List.flatMap_singleton]
    simp only [entriesOf, belongs_iff, eq_comm (a := fixity.isLeading)]
  case distinct =>
    rw [List.forall_mem_append, List.forall_mem_singleton]
    exact ⟨hkeeps.distinct, hadmits.distinct⟩
  case names =>
    rw [List.pairwise_append]
    refine ⟨hkeeps.names, List.pairwise_singleton .., fun other hother last hlast => ?_⟩
    rw [List.mem_singleton.1 hlast]
    intro hleading hname
    -- the name of the other operator would still be free
    have hfree := hadmits.free op.name List.mem_cons_self
    rw [hkeeps.table, List.lookup_eq_none_iff] at hfree
    have hentry : (Text.lowercase op.name, other) ∈
        kept.flatMap (entriesOf op.fixity.isLeading) := by
      refine List.mem_flatMap.2 ⟨other, hother, ?_⟩
      rw [entriesOf, if_pos (belongs_iff.2 hleading), ← hname]
      exact List.mem_map_of_mem List.mem_cons_self
    simpa using hfree _ hentry

/-- Operators that are accepted are kept behind those that are kept already. -/
theorem Keeps.registerAll (hkeeps : registry.Keeps kept) (ops : List Operator) :
    (registry.registerAll ops).Keeps (kept ++ registry.accepted ops) := by
  induction ops generalizing registry kept with
  | nil => simpa [Registry.registerAll, accepted]
  | cons op ops ih =>
    rw [registerAll_cons, register_eq, accepted]
    cases hadd : registry.add op with
    | ok after =>
      have hall := ih (hkeeps.add hadd)
      rwa [List.append_assoc] at hall
    | error problem => exact ih hkeeps

/-- A registry that started empty has what was accepted. -/
theorem keeps_registerAll (ops : List Operator) :
    (empty.registerAll ops).Keeps (empty.accepted ops) :=
  keeps_empty.registerAll ops

/-! ## Operators under their own names -/

theorem tableOperators_entriesOf (h : (op.spellings.map Text.lowercase).Nodup) (leading : Bool) :
    tableOperators (entriesOf leading op) = if belongs leading op then [op] else [] := by
  rw [Operator.spellings, List.map_cons, List.nodup_cons] at h
  have haliases :
      tableOperators (op.aliases.map fun text => (Text.lowercase text, op)) = [] := by
    rw [tableOperators, List.filterMap_eq_nil_iff]
    intro entry hentry
    obtain ⟨text, htext, rfl⟩ := List.mem_map.1 hentry
    refine if_neg fun hkey => h.1 ?_
    rw [← beq_iff_eq.1 hkey]
    exact List.mem_map_of_mem htext
  rw [entriesOf]
  split
  next =>
    unfold tableOperators at haliases ⊢
    simp only [Operator.spellings, List.map_cons, List.filterMap_cons, beq_self_eq_true, if_true,
      haliases]
  next => rfl

/-- A table has each of its operators under its own name. -/
theorem Keeps.tableOperators_table (hkeeps : registry.Keeps kept) (fixity : Fixity) :
    tableOperators (registry.table fixity) = kept.filter (belongs fixity.isLeading) := by
  rw [hkeeps.table]
  have hdistinct := hkeeps.distinct
  clear hkeeps
  induction kept with
  | nil => rfl
  | cons op ops ih =>
    obtain ⟨hop, hops⟩ := List.forall_mem_cons.1 hdistinct
    have hfirst := tableOperators_entriesOf hop fixity.isLeading
    have hothers := ih hops
    unfold tableOperators at hfirst hothers ⊢
    rw [List.flatMap_cons, List.filterMap_append, hfirst, hothers, List.filter_cons]
    split <;> rfl

theorem Keeps.operators_eq (hkeeps : registry.Keeps kept) :
    registry.operators =
      (kept.filter (belongs true) ++ kept.filter (belongs false)).mergeSort listedBefore := by
  have hstarting := hkeeps.tableOperators_table .before
  have hcontinuing := hkeeps.tableOperators_table .between
  exact congrArg₂ (fun first second => (first ++ second).mergeSort listedBefore) hstarting
    hcontinuing

/-! ## The order of the list -/

/-- Whether one operator stands in front of another in the list: it binds tighter, or as tightly
and has the smaller name, or the same name and starts an expression while the other does not. -/
def Precedes (a b : Operator) : Prop :=
  b.precedence < a.precedence ∨
    a.precedence = b.precedence ∧
      (a.name < b.name ∨
        a.name = b.name ∧ a.fixity.isLeading = true ∧ b.fixity.isLeading = false)

theorem Precedes.asymm {a b : Operator} (h : Precedes a b) : ¬ Precedes b a := by
  intro hback
  obtain htighter | ⟨hprecedence, hnames⟩ := h
  · rcases hback with hback | ⟨hback, -⟩ <;> omega
  obtain htighter | ⟨-, hnamesBack⟩ := hback
  · omega
  rcases hnames with hless | ⟨hname, hleading, -⟩
  · rcases hnamesBack with hback | ⟨hback, -⟩
    · exact String.lt_asymm hless hback
    · exact String.ne_of_lt hless hback.symm
  · rcases hnamesBack with hback | ⟨-, -, hcontinuing⟩
    · exact String.ne_of_lt hback hname.symm
    · rw [hleading] at hcontinuing
      cases hcontinuing

/-- Operators have only one strict order. -/
theorem eq_of_precedes {first second : List Operator} (h : first.Perm second)
    (hfirst : first.Pairwise Precedes) (hsecond : second.Pairwise Precedes) : first = second :=
  h.eq_of_pairwise (fun _ _ _ _ hab hba => absurd hba hab.asymm) hfirst hsecond

/-- Looser operators are listed later, and those of the same precedence by name. -/
theorem listedBefore_iff {a b : Operator} :
    listedBefore a b = true ↔
      b.precedence < a.precedence ∨ a.precedence = b.precedence ∧ a.name ≤ b.name := by
  simp [listedBefore]

theorem listedBefore_trans (a b c : Operator) (hab : listedBefore a b = true)
    (hbc : listedBefore b c = true) : listedBefore a c = true := by
  rw [listedBefore_iff] at *
  rcases hab with hab | ⟨hab, hname⟩
  · omega
  · rcases hbc with hbc | ⟨hbc, hother⟩
    · omega
    · exact .inr ⟨hab.trans hbc, String.le_trans hname hother⟩

theorem listedBefore_total (a b : Operator) : (listedBefore a b || listedBefore b a) = true := by
  rw [Bool.or_eq_true, listedBefore_iff, listedBefore_iff]
  rcases Int.lt_trichotomy a.precedence b.precedence with hless | heq | hgreater
  · exact .inr (.inl hless)
  · exact (String.le_total a.name b.name).imp (fun hname => .inr ⟨heq, hname⟩)
      fun hname => .inr ⟨heq.symm, hname⟩
  · exact .inl (.inl hgreater)

/-- Whether two operators agree in precedence and name. -/
def ties (a b : Operator) : Bool := a.precedence == b.precedence && a.name == b.name

theorem ties_iff {a b : Operator} :
    ties a b = true ↔ a.precedence = b.precedence ∧ a.name = b.name := by
  simp [ties]

/-- The sort leaves operators that tie in the order in which it found them. -/
theorem filter_ties_mergeSort (a : Operator) (ops : List Operator) :
    (ops.mergeSort listedBefore).filter (ties a) = ops.filter (ties a) := by
  have hties : (ops.filter (ties a)).Pairwise fun b c => listedBefore b c = true := by
    refine List.pairwise_of_forall_mem_list fun b hb c hc => listedBefore_iff.2 (.inr ?_)
    obtain ⟨hprecedence, hname⟩ := ties_iff.1 (List.mem_filter.1 hb).2
    obtain ⟨hother, hsame⟩ := ties_iff.1 (List.mem_filter.1 hc).2
    have hequal : b.name = c.name := hname.symm.trans hsame
    exact ⟨hprecedence.symm.trans hother, hequal ▸ String.le_refl b.name⟩
  have hsublist : (ops.filter (ties a)).Sublist
      ((ops.mergeSort listedBefore).filter (ties a)) := by
    have hsorted := (List.sublist_mergeSort listedBefore_trans listedBefore_total hties
      List.filter_sublist).filter (ties a)
    simpa only [List.filter_filter, Bool.and_self] using hsorted
  refine (hsublist.eq_of_length ?_).symm
  exact ((List.mergeSort_perm ops listedBefore).filter (ties a)).length_eq.symm

/-- Whether two operators can be met one after the other: with one name they are in different
tables, and the first is in the table that is gone through first. -/
def MetBefore (a b : Operator) : Prop :=
  a.name = b.name → a.fixity.isLeading = true ∧ b.fixity.isLeading = false

/-- The sort makes a strict order of the one in which operators are met. -/
theorem pairwise_precedes (h : ops.Pairwise MetBefore) :
    (ops.mergeSort listedBefore).Pairwise Precedes := by
  rw [List.pairwise_iff_forall_sublist] at h ⊢
  intro a b hab
  have hbefore : listedBefore a b = true :=
    List.pairwise_iff_forall_sublist.1
      (List.pairwise_mergeSort listedBefore_trans listedBefore_total ops) hab
  rcases listedBefore_iff.1 hbefore with hprecedence | ⟨hprecedence, hname⟩
  · exact .inl hprecedence
  · refine .inr ⟨hprecedence, ?_⟩
    by_cases hless : a.name < b.name
    · exact .inl hless
    · have hsame := String.le_antisymm hname (String.not_lt.1 hless)
      have hfound : [a, b].Sublist ops := by
        have hties := hab.filter (ties a)
        rw [filter_ties_mergeSort, List.filter_cons_of_pos (ties_iff.2 ⟨rfl, rfl⟩),
          List.filter_cons_of_pos (ties_iff.2 ⟨hprecedence, hsame⟩), List.filter_nil] at hties
        exact hties.trans List.filter_sublist
      exact .inr ⟨hsame, h hfound hsame⟩

/-! ## Tables that share their operators -/

/-- The entries of an operator in a table, with the place where it is kept.  All its spellings lead
to the one place. -/
def placesOf (leading : Bool) (op : Operator) (place : Nat) : List (String × Nat) :=
  if belongs leading op then op.spellings.map fun text => (Text.lowercase text, place) else []

/-- A table of operators with places instead of operators. -/
def placeTable (leading : Bool) (kept : List Operator) : List (String × Nat) :=
  kept.zipIdx.flatMap fun (op, place) => placesOf leading op place

theorem mem_placeTable {leading : Bool} {key : String} {place : Nat} :
    (key, place) ∈ placeTable leading kept ↔
      ∃ op, kept[place]? = some op ∧ op.fixity.isLeading = leading ∧
        ∃ text ∈ op.spellings, Text.lowercase text = key := by
  simp only [placeTable, List.mem_flatMap, Prod.exists, List.mem_zipIdx_iff_getElem?]
  constructor
  · rintro ⟨op, other, hop, hentry⟩
    rw [placesOf] at hentry
    split at hentry
    next hbelongs =>
      obtain ⟨text, htext, heq⟩ := List.mem_map.1 hentry
      cases heq
      exact ⟨op, hop, belongs_iff.1 hbelongs, text, htext, rfl⟩
    next => cases hentry
  · rintro ⟨op, hop, hleading, text, htext, rfl⟩
    refine ⟨op, place, hop, ?_⟩
    rw [placesOf, if_pos (belongs_iff.2 hleading)]
    exact List.mem_map_of_mem htext

/-- Whoever looks up the places finds the operators of the table. -/
theorem Keeps.placeTable_eq (hkeeps : registry.Keeps kept) (fixity : Fixity) :
    (placeTable fixity.isLeading kept).map (fun entry => (entry.1, kept[entry.2]?)) =
      (registry.table fixity).map fun entry => (entry.1, some entry.2) := by
  rw [hkeeps.table, placeTable, List.map_flatMap, List.map_flatMap]
  conv_rhs => rw [← List.zipIdx_map_fst 0 kept, List.flatMap_map]
  refine List.flatMap_congr fun ⟨op, place⟩ hentry => ?_
  have hplace : kept[place]? = some op := List.mem_zipIdx_iff_getElem?.1 hentry
  simp only [placesOf, entriesOf]
  split
  next => simp [hplace]
  next => rfl

/-! ## Going through the tables -/

/-- Some places, and those of others that were not seen before, each once. -/
def gather (seen : List Nat) : List Nat → List Nat
  | [] => seen
  | place :: places =>
    if place ∈ seen then gather seen places else gather (seen ++ [place]) places

theorem mem_gather {place : Nat} {seen places : List Nat} :
    place ∈ gather seen places ↔ place ∈ seen ∨ place ∈ places := by
  induction places generalizing seen with
  | nil => simp [gather]
  | cons first places ih =>
    rw [gather]
    split
    next hseen =>
      rw [ih, List.mem_cons]
      constructor
      · exact .imp_right .inr
      · rintro (h | rfl | h)
        exacts [.inl h, .inl hseen, .inr h]
    next => rw [ih, List.mem_append, List.mem_singleton, List.mem_cons, or_assoc]

theorem nodup_gather {seen : List Nat} (h : seen.Nodup) (places : List Nat) :
    (gather seen places).Nodup := by
  induction places generalizing seen with
  | nil => exact h
  | cons first places ih =>
    rw [gather]
    split
    next => exact ih h
    next hnew =>
      refine ih (List.nodup_append.2 ⟨h, List.pairwise_singleton .., fun a ha b hb => ?_⟩)
      rintro rfl
      exact hnew (List.mem_singleton.1 hb ▸ ha)

theorem gather_sublist (seen places : List Nat) :
    (gather seen places).Sublist (seen ++ places) := by
  induction places generalizing seen with
  | nil => simp [gather]
  | cons first places ih =>
    rw [gather]
    split
    next => exact (ih seen).trans ((List.sublist_cons_self ..).append_left seen)
    next => simpa using ih (seen ++ [first])

/-- The places that are met in going through two tables, one after the other. -/
def met (starting continuing : List (String × Nat)) : List Nat :=
  gather [] ((starting ++ continuing).map Prod.snd)

theorem nodup_met (starting continuing : List (String × Nat)) : (met starting continuing).Nodup :=
  nodup_gather .nil _

/-- The list made by going through the two tables: each operator that is met, once, and then
sorted. -/
def listing (kept : List Operator) (starting continuing : List (String × Nat)) : List Operator :=
  ((met starting continuing).filterMap (kept[·]?)).mergeSort listedBefore

/-- Two orders in which the entries of the tables can be gone through. -/
structure Orders (kept : List Operator) (starting continuing : List (String × Nat)) : Prop where
  /-- An order of the operators that start an expression. -/
  leading : starting.Perm (placeTable true kept)
  /-- An order of the operators that continue an expression. -/
  others : continuing.Perm (placeTable false kept)

variable {starting continuing : List (String × Nat)}

/-- Every place is met. -/
theorem Orders.met_perm (h : Orders kept starting continuing) :
    (met starting continuing).Perm (List.range kept.length) := by
  rw [List.perm_ext_iff_of_nodup (nodup_met starting continuing) List.nodup_range]
  intro place
  simp only [met, mem_gather, List.not_mem_nil, false_or, List.mem_map, List.mem_append,
    Prod.exists, exists_eq_right, h.leading.mem_iff, h.others.mem_iff, mem_placeTable,
    List.mem_range]
  constructor
  · rintro ⟨key, ⟨op, hop, -⟩ | ⟨op, hop, -⟩⟩
    all_goals exact (List.getElem?_eq_some_iff.1 hop).1
  · intro hplace
    obtain ⟨op, hop⟩ : ∃ op, kept[place]? = some op := ⟨_, List.getElem?_eq_getElem hplace⟩
    refine ⟨Text.lowercase op.name, ?_⟩
    cases hleading : op.fixity.isLeading with
    | true => exact .inl ⟨op, hop, hleading, op.name, List.mem_cons_self, rfl⟩
    | false => exact .inr ⟨op, hop, hleading, op.name, List.mem_cons_self, rfl⟩

theorem filterMap_range_getElem? (kept : List Operator) :
    (List.range kept.length).filterMap (kept[·]?) = kept := by
  have hplaces : kept.zipIdx.map Prod.snd = List.range kept.length := by
    rw [List.zipIdx_map_snd, List.range_eq_range']
  rw [← hplaces, List.filterMap_map]
  conv_rhs => rw [← List.zipIdx_map_fst 0 kept, ← List.filterMap_eq_map]
  exact List.filterMap_congr fun entry hentry => List.mem_zipIdx_iff_getElem?.1 hentry

/-- Every operator is listed once. -/
theorem Orders.listing_perm (h : Orders kept starting continuing) :
    (listing kept starting continuing).Perm kept := by
  have hmet := h.met_perm.filterMap (kept[·]?)
  rw [filterMap_range_getElem?] at hmet
  exact (List.mergeSort_perm ..).trans hmet

/-- The operators that start an expression are met first. -/
theorem Orders.leading_first (h : Orders kept starting continuing) :
    (met starting continuing).Pairwise fun first second =>
      ∀ a, kept[first]? = some a → ∀ b, kept[second]? = some b →
        b.fixity.isLeading = true → a.fixity.isLeading = true := by
  have hall {leading : Bool} {entries : List (String × Nat)}
      (hentries : entries.Perm (placeTable leading kept)) :
      ∀ place ∈ entries.map Prod.snd, ∀ op, kept[place]? = some op →
        op.fixity.isLeading = leading := by
    rintro place hplace op hop
    obtain ⟨⟨key, _⟩, hentry, rfl⟩ := List.mem_map.1 hplace
    obtain ⟨other, hother, hleading, -⟩ := mem_placeTable.1 (hentries.mem_iff.1 hentry)
    cases hop.symm.trans hother
    exact hleading
  refine List.Pairwise.sublist (gather_sublist [] _) ?_
  rw [List.nil_append, List.map_append, List.pairwise_append]
  refine ⟨?_, ?_, ?_⟩
  · exact List.pairwise_of_forall_mem_list fun first hfirst second hsecond a ha b hb hleading =>
      hall h.leading first hfirst a ha
  · refine List.pairwise_of_forall_mem_list fun first hfirst second hsecond a ha b hb hleading => ?_
    rw [hall h.others second hsecond b hb] at hleading
    cases hleading
  · exact fun first hfirst second hsecond a ha b hb hleading => hall h.leading first hfirst a ha

/-- Two operators of a table with one name are the same. -/
theorem Keeps.place_eq (hkeeps : registry.Keeps kept) {first second : Nat} {a b : Operator}
    (ha : kept[first]? = some a) (hb : kept[second]? = some b)
    (hleading : a.fixity.isLeading = b.fixity.isLeading) (hname : a.name = b.name) :
    first = second := by
  have hnames := List.pairwise_iff_getElem.1 hkeeps.names
  obtain ⟨hfirst, rfl⟩ := List.getElem?_eq_some_iff.1 ha
  obtain ⟨hsecond, rfl⟩ := List.getElem?_eq_some_iff.1 hb
  rcases Nat.lt_trichotomy first second with hless | heq | hgreater
  · exact absurd hname (hnames first second hfirst hsecond hless hleading)
  · exact heq
  · exact absurd hname.symm (hnames second first hsecond hfirst hgreater hleading.symm)

/-- The list is in order, whichever way the tables are gone through. -/
theorem Keeps.listing_precedes (hkeeps : registry.Keeps kept)
    (horders : Orders kept starting continuing) :
    (listing kept starting continuing).Pairwise Precedes := by
  refine pairwise_precedes (List.pairwise_filterMap.2 ?_)
  refine List.Pairwise.imp₂ ?_ (nodup_met starting continuing) horders.leading_first
  intro first second hne hleads a ha b hb hname
  -- with one name they are in different tables, and the first is not behind the second
  have htables : a.fixity.isLeading ≠ b.fixity.isLeading :=
    fun hleading => hne (hkeeps.place_eq ha hb hleading hname)
  have hfirst := hleads a ha b hb
  cases hb' : b.fixity.isLeading with
  | true =>
    rw [hfirst hb', hb'] at htables
    exact absurd rfl htables
  | false =>
    rw [hb', ne_eq, Bool.not_eq_false] at htables
    exact ⟨htables, rfl⟩

/-- So is the list of all operators of the registry. -/
theorem Keeps.operators_precedes (hkeeps : registry.Keeps kept) :
    registry.operators.Pairwise Precedes := by
  have htable (leading : Bool) : (kept.filter (belongs leading)).Pairwise MetBefore := by
    refine (hkeeps.names.filter _).imp_of_mem fun ha hb hnames hname => absurd hname (hnames ?_)
    rw [belongs_iff.1 (List.mem_filter.1 ha).2, belongs_iff.1 (List.mem_filter.1 hb).2]
  rw [hkeeps.operators_eq]
  refine pairwise_precedes (List.pairwise_append.2
    ⟨htable true, htable false, fun a ha b hb _ => ⟨?_, ?_⟩⟩)
  · exact belongs_iff.1 (List.mem_filter.1 ha).2
  · exact belongs_iff.1 (List.mem_filter.1 hb).2

/-- Every operator is in it once. -/
theorem Keeps.operators_perm (hkeeps : registry.Keeps kept) : registry.operators.Perm kept := by
  rw [hkeeps.operators_eq]
  refine (List.mergeSort_perm ..).trans ?_
  have hcontinuing : belongs false = fun op => !belongs true op := by
    funext op
    simp [belongs]
  rw [hcontinuing]
  exact List.filter_append_perm (belongs true) kept

/-- Whatever operators are tried on a registry that starts empty, and in whatever orders its two
tables are gone through, the list of its operators is the same: each operator that was registered,
once, by falling precedence, then by name, and of two alike in both the one that starts an
expression before the one that does not.  The tables gone through lead from the key of each spelling
to the place of its operator, where the registry has the operator. -/
theorem operators_any_order (ops : List Operator) :
    let registry := empty.registerAll ops
    let kept := empty.accepted ops
    (∀ fixity,
      (placeTable fixity.isLeading kept).map (fun entry => (entry.1, kept[entry.2]?)) =
        (registry.table fixity).map fun entry => (entry.1, some entry.2)) ∧
      (∀ starting continuing, Orders kept starting continuing →
        listing kept starting continuing = registry.operators) ∧
      registry.operators.Perm kept ∧ registry.operators.Pairwise Precedes := by
  intro registry kept
  have hkeeps : registry.Keeps kept := keeps_registerAll ops
  refine ⟨hkeeps.placeTable_eq, fun starting continuing horders => ?_, hkeeps.operators_perm,
    hkeeps.operators_precedes⟩
  have hperm : (listing kept starting continuing).Perm registry.operators :=
    horders.listing_perm.trans hkeeps.operators_perm.symm
  exact eq_of_precedes hperm (hkeeps.listing_precedes horders) hkeeps.operators_precedes

/-- Two operators with one name and precedence, another one whose spellings lie between theirs, and
one that is rejected. -/
theorem operators_any_order_shared_name :
    let minus : Operator := ⟨"-", 470, .between, ["minus"], some "subtract"⟩
    let divide : Operator := ⟨"//", 480, .betweenRight, ["div"], none⟩
    let negate : Operator := ⟨"-", 470, .before, ["neg"], none⟩
    let ops := [minus, divide, negate, ⟨"DIV", 1, .after, [], none⟩]
    let starting := [("neg", 2), ("-", 2)]
    let continuing := [("div", 1), ("-", 0), ("//", 1), ("minus", 0)]
    empty.accepted ops = [minus, divide, negate] ∧
      Orders [minus, divide, negate] starting continuing ∧
      listing [minus, divide, negate] starting continuing = (empty.registerAll ops).operators ∧
      (empty.registerAll ops).operators = [divide, negate, minus] := by
  intro minus divide negate ops starting continuing
  have haccepted : empty.accepted ops = [minus, divide, negate] := by decide +kernel
  have horders : Orders [minus, divide, negate] starting continuing :=
    ⟨by decide +kernel, by decide +kernel⟩
  obtain ⟨-, hlisting, hperm, hprecedes⟩ := operators_any_order ops
  rw [haccepted] at hlisting hperm
  refine ⟨haccepted, horders, hlisting _ _ horders, ?_⟩
  refine eq_of_precedes (hperm.trans (by decide +kernel)) hprecedes ?_
  simp [Precedes, minus, divide, negate, Operator.fixity, OperatorForm.fixity, Fixity.isLeading]

end CommandScript.Registry
