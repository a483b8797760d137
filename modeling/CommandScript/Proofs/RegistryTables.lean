import CommandScript.Proofs.Lexemes
import CommandScript.Proofs.Registration

/-!
# The tables and the tree of a registry

A registry keeps its spellings twice: in the tables, where operators are found by key, and, those
made of symbols, in the tree, where the longest one at the start of a text is found.  The two never
drift apart, whichever operators were tried and in whatever order.

Operators are registered in place here, one spelling after the other, each over whatever stood under
its key.  Nothing is undone when a spelling cannot be entered, so an operator is rejected whole only
because all its spellings are checked before the first is entered (`register_eq`).  The checks ask
for what `Registry.Admits` says, and no more.

Two facts about small letters decide which keys the tree has.  Symbols are their own key, and the
key of a word is no run of symbols, since it starts with a letter again (`startsName_lowercase`).
-/

namespace CommandScript

/-! ## The key of a word -/

namespace Text

/-- The counterparts of the code points of a run, as a run of their own. -/
def CaseRun.image (run : CaseRun) : CaseRun :=
  ⟨run.target, run.target + (run.last - run.first), run.step, 0⟩

theorem CaseRun.image_counterpart? {run : CaseRun} {code target : Nat}
    (h : run.counterpart? code = some target) :
    run.image.counterpart? target = some (target - run.target) := by
  unfold CaseRun.counterpart? at h
  split at h
  next hcode =>
    simp only [Bool.and_eq_true, decide_eq_true_eq, beq_iff_eq] at hcode
    cases h
    unfold CaseRun.counterpart? CaseRun.image
    rw [if_pos]
    · simp
    · simp only [Bool.and_eq_true, decide_eq_true_eq, beq_iff_eq, Nat.add_sub_cancel_left]
      omega
  next => cases h

/-- The small letters of the runs are letters, those of ASCII included. -/
theorem lowerRuns_image :
    ∀ run ∈ lowerRuns, run.image.isWithin ((0x61, 0x7A) :: alphabeticRanges) = true := by
  decide +kernel

/-- The table of letters holds characters above ASCII only. -/
theorem alphabeticRanges_valid : ∀ range ∈ alphabeticRanges,
    128 ≤ range.1 ∧ (range.2 < 0xD800 ∨ 0xDFFF < range.1 ∧ range.2 < 0x110000) := by
  decide +kernel

theorem isAlphabetic_ofNat {code : Nat}
    (h : Ranges.contains ((0x61, 0x7A) :: alphabeticRanges) code = true) :
    isAlphabetic (Char.ofNat code) = true := by
  simp only [Ranges.contains, List.any_cons, Bool.or_eq_true] at h
  cases h with
  | inl hascii =>
    simp only [Bool.and_eq_true, decide_eq_true_eq] at hascii
    have hletters : ∀ code < 0x7B, 0x61 ≤ code → isAlphabetic (Char.ofNat code) = true := by
      decide +kernel
    exact hletters code (by omega) hascii.1
  | inr htable =>
    obtain ⟨range, hmem, hrange⟩ := List.any_eq_true.1 htable
    have hvalid := alphabeticRanges_valid range hmem
    simp only [Bool.and_eq_true, decide_eq_true_eq] at hrange
    have hchar : code.isValidChar := by
      simp only [Nat.isValidChar]
      omega
    have hcode : (Char.ofNat code).toNat = code := by
      rw [Char.ofNat, dif_pos hchar]
      rfl
    rw [isAlphabetic, hcode, if_neg (by omega)]
    exact htable

/-- Whatever starts a name starts one in small letters too. -/
theorem lowerChar_startsName {c : Char} (h : Character.startsName c = true) :
    ∃ d ds, lowerChar c = d :: ds ∧ Character.startsName d = true := by
  have halphabetic {d : Char} (hd : isAlphabetic d = true) : Character.startsName d = true := by
    rw [Character.startsName, hd, Bool.true_or]
  unfold lowerChar
  split
  next hascii =>
    have hletters : ∀ code < 128, Character.startsName (Char.ofNat code) = true →
        Character.startsName (Char.ofNat code).toLower = true := by decide +kernel
    have hlower := hletters c.toNat hascii
    rw [Char.ofNat_toNat] at hlower
    exact ⟨_, _, rfl, hlower h⟩
  next =>
    unfold counterparts
    cases hexpansion : lowerExpansions.lookup c.toNat with
    | some codes =>
      have hcodes : codes = [0x69, 0x307] := by
        simp only [lowerExpansions, List.lookup_cons] at hexpansion
        split at hexpansion
        next => exact (Option.some.inj hexpansion).symm
        next => cases hexpansion
      rw [hcodes]
      exact ⟨_, _, rfl, by decide +kernel⟩
    | none =>
      cases hrun : lowerRuns.findSome? fun run => run.counterpart? c.toNat with
      | none => exact ⟨_, _, rfl, h⟩
      | some target =>
        obtain ⟨run, hmem, htarget⟩ := List.exists_of_findSome?_eq_some hrun
        have hletter := CaseRun.isWithin_contains (lowerRuns_image run hmem)
          (CaseRun.image_counterpart? htarget)
        exact ⟨_, _, rfl, halphabetic (isAlphabetic_ofNat hletter)⟩

/-- The key of a word starts like a word. -/
theorem startsName_lowercase {text : String} (h : Character.needsNoQuotes text.toList = true) :
    ∃ d ds, (lowercase text).toList = d :: ds ∧ Character.startsName d = true := by
  rw [lowercase, String.toList_ofList]
  cases hchars : text.toList with
  | nil =>
    rw [hchars] at h
    cases h
  | cons c cs =>
    rw [hchars, Character.needsNoQuotes, Bool.and_eq_true] at h
    rw [lowerFrom]
    by_cases hsigma : c = 'Σ'
    · simp only [if_pos hsigma]
      split
      next => exact ⟨_, _, rfl, by decide +kernel⟩
      next => exact ⟨_, _, rfl, by decide +kernel⟩
    · obtain ⟨d, ds, hlower, hd⟩ := lowerChar_startsName h.1
      simp only [if_neg hsigma, hlower]
      exact ⟨d, _, rfl, hd⟩

end Text

/-- What starts a name is no symbol. -/
theorem Character.isSymbol_of_startsName {c : Char} (h : startsName c = true) :
    isSymbol c = false := by
  simp only [startsName, Bool.or_eq_true] at h
  cases h with
  | inl hletter => simp [isSymbol, Text.isAlphanumeric, hletter]
  | inr hunderscore => simp [isSymbol, hunderscore]

/-- The key of a word is no run of symbols. -/
theorem Text.lowercase_word {text : String} (h : Character.needsNoQuotes text.toList = true) :
    Character.isSymbolRun (lowercase text).toList = false := by
  obtain ⟨d, ds, hkey, hd⟩ := startsName_lowercase h
  rw [hkey]
  simp [Character.isSymbolRun, Character.isSymbol_of_startsName hd]

/-! ## The longest symbol -/

namespace SymbolSet

theorem has_of_longest? {text : List Char} {tree : SymbolSet} {count : Nat}
    (h : longest? text tree = some count) : has (text.take count) tree = true := by
  induction text generalizing tree count with
  | nil => cases h
  | cons c text ih =>
    rw [longest?] at h
    cases hnext : tree.children.lookup c with
    | none =>
      rw [hnext] at h
      cases h
    | some next =>
      simp only [hnext] at h
      cases hmore : longest? text next with
      | some more =>
        rw [hmore] at h
        cases h
        exact has_cons_iff.2 ⟨next, hnext, ih hmore⟩
      | none =>
        simp only [hmore, Option.ite_none_right_eq_some] at h
        obtain ⟨hends, hone⟩ := h
        cases hone
        exact has_cons_iff.2 ⟨next, hnext, hends⟩

/-- The tree contains what was inserted, except for the empty symbol. -/
theorem contains_iff {symbols : List Char} {tree : SymbolSet} :
    contains symbols tree = true ↔ symbols ≠ [] ∧ has symbols tree = true := by
  rw [contains, longestBytes?, beq_iff_eq]
  constructor
  · intro h
    obtain ⟨count, hcount, hbytes⟩ := Option.map_eq_some_iff.1 h
    obtain ⟨hpositive, hle⟩ := longest?_le hcount
    have hall : symbols.drop count = [] := by
      by_contra hrest
      have hsplit := congrArg byteLength (List.take_append_drop count symbols)
      have := byteLength_pos hrest
      simp only [byteLength_append] at hsplit
      omega
    have hhas := has_of_longest? hcount
    rw [List.take_of_length_le (List.drop_eq_nil_iff.1 hall)] at hhas
    refine ⟨?_, hhas⟩
    rintro rfl
    exact absurd hpositive (Nat.not_lt.2 hle)
  · rintro ⟨hsymbols, hhas⟩
    rw [longest?_of_has hsymbols hhas, Option.map_some, List.take_length]

end SymbolSet

/-! ## Registering in place -/

namespace Registry

/-- What an operator needs to be registered: all its spellings are spellings, they are different
ones, and none is taken. -/
structure Admits (registry : Registry) (op : Operator) : Prop where
  /-- Every spelling is a word or a run of symbols. -/
  valid : ∀ text ∈ op.spellings, (Spelling.ofString? text).isSome = true
  /-- No two have one key. -/
  distinct : (op.spellings.map Text.lowercase).Nodup
  /-- None is in the table already. -/
  free : ∀ text ∈ op.spellings,
    (registry.table op.fixity).lookup (Text.lowercase text) = none

theorem readSpellings_keys {texts : List String} {spellings : List Spelling}
    (h : readSpellings texts = .ok spellings) :
    spellings.map Spelling.key = texts.map Text.lowercase := by
  replace h := readSpellings_ok_iff.1 h
  induction texts generalizing spellings with
  | nil =>
    cases spellings with
    | nil => rfl
    | cons first rest => cases h
  | cons text texts ih =>
    cases spellings with
    | nil => cases h
    | cons first rest =>
      simp only [List.map_cons, List.cons.injEq] at h
      rw [List.map_cons, List.map_cons, Spelling.key_eq h.1, ih h.2]

theorem exists_readSpellings {texts : List String}
    (h : ∀ text ∈ texts, (Spelling.ofString? text).isSome = true) :
    ∃ spellings, readSpellings texts = .ok spellings := by
  simp only [readSpellings_ok_iff]
  induction texts with
  | nil => exact ⟨[], rfl⟩
  | cons text texts ih =>
    obtain ⟨htext, htexts⟩ := List.forall_mem_cons.1 h
    obtain ⟨first, hfirst⟩ := Option.isSome_iff_exists.1 htext
    obtain ⟨rest, hrest⟩ := ih htexts
    exact ⟨first :: rest, by rw [List.map_cons, List.map_cons, hfirst, hrest]⟩

/-- The checks ask for what admits an operator. -/
theorem admits_iff {registry : Registry} {op : Operator} :
    registry.Admits op ↔ ∃ spellings, readSpellings op.spellings = .ok spellings ∧
      firstTaken? (registry.table op.fixity) [] spellings = none := by
  constructor
  · intro h
    obtain ⟨spellings, hread⟩ := exists_readSpellings h.valid
    refine ⟨spellings, hread, firstTaken?_eq_none_iff.2 ⟨?_, fun spelling hmem => ?_⟩⟩
    · rw [readSpellings_keys hread]
      exact h.distinct
    · obtain ⟨text, htext, hspelling⟩ := text_of_readSpellings hread hmem
      rw [Spelling.key_eq hspelling]
      exact ⟨List.not_mem_nil, h.free text htext⟩
  · rintro ⟨spellings, hread, hfree⟩
    obtain ⟨hdistinct, hfree⟩ := firstTaken?_eq_none_iff.1 hfree
    rw [readSpellings_keys hread] at hdistinct
    refine ⟨fun text htext => ?_, hdistinct, fun text htext => ?_⟩
    · obtain ⟨spelling, -, hspelling⟩ := spelling_of_readSpellings hread htext
      rw [hspelling, Option.isSome_some]
    · obtain ⟨spelling, hmem, hspelling⟩ := spelling_of_readSpellings hread htext
      rw [← Spelling.key_eq hspelling]
      exact (hfree spelling hmem).2

/-- A table with an operator under a key, in place of the one that stood there. -/
def putEntry (key : String) (op : Operator) : OperatorTable → OperatorTable
  | [] => [(key, op)]
  | (other, known) :: rest =>
    if other = key then (key, op) :: rest else (other, known) :: putEntry key op rest

theorem putEntry_of_free {key : String} {table : OperatorTable} (h : table.lookup key = none)
    (op : Operator) : putEntry key op table = table ++ [(key, op)] := by
  induction table with
  | nil => rfl
  | cons entry rest ih =>
    obtain ⟨other, known⟩ := entry
    simp only [List.lookup_cons] at h
    split at h
    next => cases h
    next hne =>
      rw [putEntry, if_neg (Ne.symm (beq_eq_false_iff_ne.1 hne)), ih h, List.cons_append]

/-- A registry with one spelling of an operator entered, over whatever stood under its key. -/
def enter (op : Operator) (registry : Registry) (spelling : Spelling) : Registry :=
  let symbols := addSymbols registry.symbols [spelling]
  if op.fixity.isLeading then
    ⟨putEntry spelling.key op registry.starting, registry.continuing, symbols⟩
  else
    ⟨registry.starting, putEntry spelling.key op registry.continuing, symbols⟩

/-- Registering an operator in place: how that went, and what the registry is afterwards. -/
def register (registry : Registry) (op : Operator) : Except RegistrationError Unit × Registry :=
  match readSpellings op.spellings with
  | .error problem => (.error problem, registry)
  | .ok spellings =>
    match firstTaken? (registry.table op.fixity) [] spellings with
    | some taken => (.error (.duplicate taken.name.text op.fixity.tableLabel), registry)
    | none => (.ok (), spellings.foldl (enter op) registry)

theorem addSymbols_cons (set : SymbolSet) (spelling : Spelling) (rest : List Spelling) :
    addSymbols (addSymbols set [spelling]) rest = addSymbols set (spelling :: rest) := by
  cases spelling with
  | word name => rfl
  | symbols name => rfl

/-- A registry with some spellings of an operator entered after all others. -/
def withEntries (op : Operator) (registry : Registry) (spellings : List Spelling) : Registry :=
  let entries := spellings.map fun spelling => (spelling.key, op)
  let symbols := addSymbols registry.symbols spellings
  if op.fixity.isLeading then ⟨registry.starting ++ entries, registry.continuing, symbols⟩
  else ⟨registry.starting, registry.continuing ++ entries, symbols⟩

theorem withEntries_nil (op : Operator) (registry : Registry) :
    registry.withEntries op [] = registry := by
  simp [withEntries, addSymbols]

theorem withEntries_cons (op : Operator) (registry : Registry) (first : Spelling)
    (rest : List Spelling) :
    (registry.withEntries op [first]).withEntries op rest =
      registry.withEntries op (first :: rest) := by
  unfold withEntries
  cases op.fixity.isLeading with
  | true => simp [addSymbols_cons]
  | false => simp [addSymbols_cons]

theorem table_withEntries (op : Operator) (registry : Registry) (spellings : List Spelling) :
    (registry.withEntries op spellings).table op.fixity =
      registry.table op.fixity ++ spellings.map fun spelling => (spelling.key, op) := by
  unfold withEntries table
  cases op.fixity.isLeading with
  | true => rfl
  | false => rfl

/-- A free key is entered after all others. -/
theorem enter_of_free {registry : Registry} {op : Operator} {spelling : Spelling}
    (h : (registry.table op.fixity).lookup spelling.key = none) :
    registry.enter op spelling = registry.withEntries op [spelling] := by
  unfold enter withEntries
  unfold table at h
  cases hleading : op.fixity.isLeading with
  | true =>
    rw [hleading, if_pos rfl] at h
    simp [putEntry_of_free h]
  | false =>
    rw [hleading, if_neg Bool.false_ne_true] at h
    simp [putEntry_of_free h]

/-- Free keys, each entered on its own, are entered after all others. -/
theorem foldl_enter {registry : Registry} {op : Operator} {spellings : List Spelling}
    (h : firstTaken? (registry.table op.fixity) [] spellings = none) :
    spellings.foldl (enter op) registry = registry.withEntries op spellings := by
  induction spellings generalizing registry with
  | nil => exact (withEntries_nil op registry).symm
  | cons first rest ih =>
    obtain ⟨hdistinct, hfree⟩ := firstTaken?_eq_none_iff.1 h
    rw [List.map_cons, List.nodup_cons] at hdistinct
    obtain ⟨hfirst, hrest⟩ := List.forall_mem_cons.1 hfree
    -- the keys that follow differ from the first, so they are still free
    have hstill :
        firstTaken? ((registry.withEntries op [first]).table op.fixity) [] rest = none := by
      rw [table_withEntries, firstTaken?_eq_none_iff]
      refine ⟨hdistinct.2, fun spelling hmem => ⟨List.not_mem_nil, ?_⟩⟩
      have hne : spelling.key ≠ first.key := by
        intro heq
        exact hdistinct.1 (heq ▸ List.mem_map_of_mem hmem)
      rw [List.lookup_append, (hrest spelling hmem).2]
      simp [List.lookup_cons, beq_eq_false_iff_ne.2 hne]
    rw [List.foldl_cons, enter_of_free hfirst.2, ih hstill, withEntries_cons]

/-- Registering in place does what registering does, and nothing when that is an error. -/
theorem register_eq (registry : Registry) (op : Operator) :
    registry.register op =
      match registry.add op with
      | .ok after => (.ok (), after)
      | .error problem => (.error problem, registry) := by
  unfold register Registry.add
  cases readSpellings op.spellings with
  | error problem => rfl
  | ok spellings =>
    cases htaken : firstTaken? (registry.table op.fixity) [] spellings with
    | some taken => simp [bind, Except.bind, htaken, throw, throwThe, MonadExceptOf.throw]
    | none =>
      simp only [bind, Except.bind, htaken, foldl_enter htaken, withEntries]
      cases op.fixity.isLeading with
      | true => rfl
      | false => rfl

/-- An operator is registered just when it is admitted. -/
theorem admits_iff_add {registry : Registry} {op : Operator} :
    registry.Admits op ↔ ∃ after, registry.add op = .ok after := by
  constructor
  · intro h
    obtain ⟨spellings, hread, hfree⟩ := admits_iff.1 h
    have hregister := register_eq registry op
    simp only [register, hread, hfree] at hregister
    cases hadd : registry.add op with
    | ok after => exact ⟨after, rfl⟩
    | error problem =>
      rw [hadd] at hregister
      cases congrArg Prod.fst hregister
  · rintro ⟨after, hadd⟩
    obtain ⟨spellings, hread, hfree, -⟩ := add_ok hadd
    exact admits_iff.2 ⟨spellings, hread, hfree⟩

/-! ## A registry under use -/

/-- What becomes of a registry when operators are registered in place, in order, whether or not
each of them is rejected. -/
def registerAll (registry : Registry) (ops : List Operator) : Registry :=
  ops.foldl (fun registry op => (registry.register op).2) registry

theorem registerAll_cons (registry : Registry) (op : Operator) (ops : List Operator) :
    registry.registerAll (op :: ops) = (registry.register op).2.registerAll ops := rfl

theorem registerAll_append (registry : Registry) (ops others : List Operator) :
    registry.registerAll (ops ++ others) = (registry.registerAll ops).registerAll others :=
  List.foldl_append

/-- A registry that holds nothing but spellings of some operators, those in symbols in the tree. -/
structure HoldsOnly (registry : Registry) (ops : List Operator) : Prop where
  /-- An operator of a table is one of them and stands under a spelling of its own. -/
  table : ∀ fixity, ∀ entry ∈ registry.table fixity,
    entry.2 ∈ ops ∧ entry.2.fixity.isLeading = fixity.isLeading ∧
      ∃ text ∈ entry.2.spellings, Text.lowercase text = entry.1
  /-- A symbol of the tree is a spelling of one of them. -/
  tree : ∀ symbols, registry.symbols.has symbols = true →
    Character.isSymbolRun symbols = true ∧ ∃ op ∈ ops, String.ofList symbols ∈ op.spellings

theorem holdsOnly_empty : empty.HoldsOnly [] := by
  constructor
  · intro fixity entry h
    cases hleading : fixity.isLeading <;> simp [Registry.table, hleading, empty] at h
  · intro symbols h
    rw [show empty.symbols = .empty from rfl, SymbolSet.has_empty] at h
    cases h

/-- One more operator brings its own spellings and no others. -/
theorem HoldsOnly.add {registry after : Registry} {ops : List Operator} {op : Operator}
    (hregistry : registry.HoldsOnly ops) (h : registry.add op = .ok after) :
    after.HoldsOnly (ops ++ [op]) := by
  obtain ⟨spellings, hread, -, htable, hsymbols⟩ := add_ok h
  constructor
  · intro fixity entry hentry
    rw [htable, List.mem_append] at hentry
    rcases hentry with hold | hnew
    · obtain ⟨hmem, hspelled⟩ := hregistry.table fixity entry hold
      exact ⟨List.mem_append_left _ hmem, hspelled⟩
    · split at hnew
      next hleading =>
        obtain ⟨spelling, hspelling, rfl⟩ := List.mem_map.1 hnew
        obtain ⟨text, htext, hread⟩ := text_of_readSpellings hread hspelling
        exact ⟨List.mem_append_right _ (List.mem_singleton_self op), hleading.symm, text, htext,
          (Spelling.key_eq hread).symm⟩
      next => cases hnew
  · intro symbols hhas
    rw [hsymbols, has_addSymbols_iff] at hhas
    rcases hhas with hold | ⟨name, hname, rfl⟩
    · obtain ⟨hrun, other, hother, htext⟩ := hregistry.tree symbols hold
      exact ⟨hrun, other, List.mem_append_left _ hother, htext⟩
    · obtain ⟨text, htext, hspelling⟩ := text_of_readSpellings hread hname
      rcases Spelling.ofString?_cases hspelling with ⟨-, hword⟩ | ⟨hrun, -, hkey⟩
      · cases hword
      · rw [show name.key = text from hkey, String.ofList_toList]
        exact ⟨hrun, op, List.mem_append_right _ (List.mem_singleton_self op), htext⟩

/-- A registry made from nothing holds nothing else than the operators it was made of. -/
theorem holdsOnly_of_addAll {registry : Registry} {ops : List Operator}
    (h : empty.addAll ops = .ok registry) : registry.HoldsOnly ops :=
  addAll_keeps HoldsOnly.add holdsOnly_empty h

/-- A registry that was used is one in which some of the operators were registered. -/
theorem registerAll_registers {registry : Registry} {before : List Operator}
    (hregistry : registry.Registers before) (honly : registry.HoldsOnly before)
    (ops : List Operator) :
    ∃ accepted, (∀ op ∈ accepted, op ∈ ops) ∧
      (registry.registerAll ops).Registers (before ++ accepted) ∧
      (registry.registerAll ops).HoldsOnly (before ++ accepted) := by
  induction ops generalizing registry before with
  | nil => exact ⟨[], List.forall_mem_nil _, by simpa [registerAll], by simpa [registerAll]⟩
  | cons op ops ih =>
    rw [registerAll_cons, register_eq]
    cases hadd : registry.add op with
    | ok after =>
      obtain ⟨accepted, hmem, hall, hallOnly⟩ := ih (hregistry.add hadd) (honly.add hadd)
      rw [List.append_assoc] at hall hallOnly
      refine ⟨op :: accepted, ?_, hall, hallOnly⟩
      exact List.forall_mem_cons.2 ⟨List.mem_cons_self, fun other hother =>
        List.mem_cons_of_mem _ (hmem other hother)⟩
    | error problem =>
      obtain ⟨accepted, hmem, hall⟩ := ih hregistry honly
      exact ⟨accepted, fun other hother => List.mem_cons_of_mem _ (hmem other hother), hall⟩

/-- Whether some characters are a spelling made of symbols that one of the tables has. -/
def HoldsSymbols (registry : Registry) (symbols : List Char) : Prop :=
  Character.isSymbolRun symbols = true ∧ ∃ op,
    registry.starting? (String.ofList symbols) = some op ∨
      registry.continuing? (String.ofList symbols) = some op

/-- The tree and the tables have the same symbols. -/
theorem has_iff_holdsSymbols {registry : Registry} {ops : List Operator}
    (hregistry : registry.Registers ops) (honly : registry.HoldsOnly ops) {symbols : List Char} :
    registry.symbols.has symbols = true ↔ registry.HoldsSymbols symbols := by
  constructor
  · intro hhas
    obtain ⟨hrun, op, hop, htext⟩ := honly.tree symbols hhas
    have hlookup := hregistry.table op hop _ htext
    rw [Text.lowercase_symbols (by rwa [String.toList_ofList])] at hlookup
    refine ⟨hrun, op, ?_⟩
    unfold Registry.table at hlookup
    split at hlookup
    next => exact .inl hlookup
    next => exact .inr hlookup
  · rintro ⟨hrun, op, hknown⟩
    have hentry : ∃ fixity, (registry.table fixity).lookup (String.ofList symbols) = some op :=
      hknown.elim (fun hstarting => ⟨.before, hstarting⟩) fun hcontinuing => ⟨.between, hcontinuing⟩
    obtain ⟨fixity, hlookup⟩ := hentry
    obtain ⟨hop, -, text, htext, hkey⟩ := honly.table _ _ (mem_of_lookup hlookup)
    rcases hregistry.spelled op hop text htext with hword | ⟨hsymbols, hhas⟩
    · have hnone := Text.lowercase_word hword
      rw [hkey, String.toList_ofList, hrun] at hnone
      cases hnone
    · rw [Text.lowercase_symbols hsymbols] at hkey
      rwa [hkey, String.toList_ofList] at hhas

/-- Finding symbols at the start of a text: the longest ones a table has, with what the tables have
for them, and none only if the text starts with none. -/
def FindsLongest (registry : Registry) (text : List Char) : Prop :=
  match registry.findSymbols? text with
  | none => ∀ symbols, registry.HoldsSymbols symbols → ¬ symbols <+: text
  | some (found, count) =>
    registry.HoldsSymbols (text.take count) ∧
      (∀ symbols, registry.HoldsSymbols symbols → symbols <+: text →
        byteLength symbols ≤ byteLength (text.take count)) ∧
      registry.symbols.longestBytes? text = some (byteLength (text.take count)) ∧
      found.text = String.ofList (text.take count) ∧
      found.starting? = registry.starting? (String.ofList (text.take count)) ∧
      found.continuing? = registry.continuing? (String.ofList (text.take count))

theorem findsLongest {registry : Registry}
    (h : ∀ symbols, registry.symbols.has symbols = true ↔ registry.HoldsSymbols symbols)
    (text : List Char) : registry.FindsLongest text := by
  have hnonempty {symbols : List Char} (hholds : registry.HoldsSymbols symbols) :
      symbols ≠ [] := by
    rintro rfl
    cases hholds.1
  have hfound {symbols : List Char} (hholds : registry.HoldsSymbols symbols)
      (hstarts : symbols <+: text) : ∃ count,
        SymbolSet.longest? text registry.symbols = some count ∧ symbols.length ≤ count := by
    obtain ⟨rest, rfl⟩ := hstarts
    exact SymbolSet.le_longest?_of_has (hnonempty hholds) ((h symbols).2 hholds) rest
  unfold FindsLongest
  cases hlongest : SymbolSet.longest? text registry.symbols with
  | none =>
    simp only [findSymbols?, hlongest]
    intro symbols hholds hstarts
    obtain ⟨count, hcount, -⟩ := hfound hholds hstarts
    rw [hlongest] at hcount
    cases hcount
  | some count =>
    have hholds := (h _).1 (SymbolSet.has_of_longest? hlongest)
    have hlower :
        Text.lowercase (String.ofList (text.take count)) = String.ofList (text.take count) :=
      Text.lowercase_symbols (by rw [String.toList_ofList]; exact hholds.1)
    have hfind : registry.find? (String.ofList (text.take count)) =
        some ⟨String.ofList (text.take count), registry.starting? (String.ofList (text.take count)),
          registry.continuing? (String.ofList (text.take count))⟩ := by
      have hknown := hholds.2
      simp only [find?, hlower]
      split
      next hstarting hcontinuing => simp [hstarting, hcontinuing] at hknown
      next => rfl
    simp only [findSymbols?, hlongest, Option.bind_eq_bind, Option.bind_some, hfind]
    refine ⟨hholds, ?_, by rw [SymbolSet.longestBytes?, hlongest, Option.map_some], rfl, rfl, rfl⟩
    intro symbols hother hstarts
    obtain ⟨other, hcount, hle⟩ := hfound hother hstarts
    cases hlongest.symm.trans hcount
    exact byteLength_le_of_prefix (List.prefix_take_iff.2 ⟨hstarts, hle⟩)

/-- Whatever operators were tried on a registry that started empty: one more is registered just when
it is admitted, and then stays under all its spellings for good, and is otherwise rejected with
nothing changed; the tables hold nothing else; and the tree has just the symbols of the tables, so
the longest of them is found at the start of every text. -/
theorem registerAll_agrees (ops : List Operator) :
    (∀ op,
      match (empty.registerAll ops).add op with
      | .ok after =>
        (empty.registerAll ops).Admits op ∧ (empty.registerAll ops).register op = (.ok (), after) ∧
          ∀ later, ∀ text ∈ op.spellings,
            ((empty.registerAll (ops ++ op :: later)).table op.fixity).lookup
              (Text.lowercase text) = some op
      | .error problem =>
        ¬ (empty.registerAll ops).Admits op ∧
          (empty.registerAll ops).register op = (.error problem, empty.registerAll ops)) ∧
      (∀ fixity, ∀ entry ∈ (empty.registerAll ops).table fixity,
        entry.2 ∈ ops ∧ entry.2.fixity.isLeading = fixity.isLeading ∧
          ∃ text ∈ entry.2.spellings, Text.lowercase text = entry.1) ∧
      (∀ symbols, (empty.registerAll ops).symbols.contains symbols = true ↔
        (empty.registerAll ops).HoldsSymbols symbols) ∧
      ∀ text, (empty.registerAll ops).FindsLongest text := by
  obtain ⟨accepted, hmem, hregistry, honly⟩ :=
    registerAll_registers registers_empty holdsOnly_empty ops
  rw [List.nil_append] at hregistry honly
  have hsymbols (symbols : List Char) :
      (empty.registerAll ops).symbols.has symbols = true ↔
        (empty.registerAll ops).HoldsSymbols symbols :=
    has_iff_holdsSymbols hregistry honly
  refine ⟨fun op => ?accepts, ?only, fun symbols => ?tree, findsLongest hsymbols⟩
  case accepts =>
    have hregister := register_eq (empty.registerAll ops) op
    cases hadd : (empty.registerAll ops).add op with
    | ok after =>
      rw [hadd] at hregister
      refine ⟨admits_iff_add.2 ⟨after, hadd⟩, hregister, fun later text htext => ?_⟩
      obtain ⟨others, -, hlater, -⟩ :=
        registerAll_registers (hregistry.add hadd) (honly.add hadd) later
      rw [registerAll_append, registerAll_cons, hregister]
      exact hlater.table op (by simp) text htext
    | error problem =>
      rw [hadd] at hregister
      refine ⟨fun hadmits => ?_, hregister⟩
      obtain ⟨after, hafter⟩ := admits_iff_add.1 hadmits
      rw [hadd] at hafter
      cases hafter
  case only =>
    intro fixity entry hentry
    obtain ⟨haccepted, hspelled⟩ := honly.table fixity entry hentry
    exact ⟨hmem entry.2 haccepted, hspelled⟩
  case tree =>
    rw [SymbolSet.contains_iff, hsymbols]
    refine ⟨And.right, fun hholds => ⟨?_, hholds⟩⟩
    rintro rfl
    cases hholds.1

end Registry

end CommandScript
