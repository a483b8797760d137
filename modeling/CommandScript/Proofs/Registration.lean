import CommandScript.Proofs.Lexing

/-!
# Registered operators

What a registry holds that was made by registering operators one after the other.  Every spelling of
every operator leads to that operator, and those made of symbols are found in a text up to their
end.

Operators are found by their keys, which are small letters, but symbols are cut off the text as it
is written.  The two agree because symbols have no capital form: every character with a small letter
of its own is a letter.
-/

namespace CommandScript

/-! ## Symbols have no case -/

namespace Text

/-- Every code point of a run lies in some ranges: all of them in one range, or one by one. -/
def CaseRun.isWithin (run : CaseRun) (ranges : Ranges) : Bool :=
  (ranges.any fun range => range.1.ble run.first && run.last.ble range.2) ||
    (List.range (run.last + 1 - run.first)).all fun distance =>
      distance % run.step != 0 || ranges.contains (run.first + distance)

theorem CaseRun.isWithin_contains {run : CaseRun} {ranges : Ranges} {code target : Nat}
    (h : run.isWithin ranges = true) (hrun : run.counterpart? code = some target) :
    ranges.contains code = true := by
  unfold CaseRun.counterpart? at hrun
  split at hrun
  next hcode =>
    simp only [Bool.and_eq_true, decide_eq_true_eq, beq_iff_eq] at hcode
    obtain ⟨⟨hfirst, hlast⟩, hstep⟩ := hcode
    rw [CaseRun.isWithin, Bool.or_eq_true] at h
    rcases h with hone | hall
    · obtain ⟨range, hmem, hrange⟩ := List.any_eq_true.1 hone
      simp only [Bool.and_eq_true, Nat.ble_eq] at hrange
      refine List.any_eq_true.2 ⟨range, hmem, ?_⟩
      simp only [Bool.and_eq_true, decide_eq_true_eq]
      omega
    · have hdistance := List.all_eq_true.1 hall (code - run.first) (List.mem_range.2 (by omega))
      rw [hstep, Nat.add_sub_cancel' hfirst] at hdistance
      simpa using hdistance
  next => cases hrun

/-- The characters above ASCII with a small letter of their own are letters. -/
theorem lowerRuns_alphabetic : ∀ run ∈ lowerRuns, run.isWithin alphabeticRanges = true := by
  decide +kernel

/-- What is no letter is its own small letter. -/
theorem lowerChar_of_not_alphabetic {c : Char} (h : isAlphabetic c = false) :
    lowerChar c = [c] := by
  unfold isAlphabetic at h
  unfold lowerChar
  split at h
  next hascii =>
    rw [if_pos hascii]
    unfold Char.toLower
    rw [dif_neg]
    rintro ⟨hlow, hhigh⟩
    unfold Char.isAlpha at h
    have hupper : c.isUpper = true := decide_eq_true ⟨hlow, hhigh⟩
    rw [hupper] at h
    cases h
  next hascii =>
    rw [if_neg hascii, counterparts]
    have hexpansion : lowerExpansions.lookup c.toNat = none := by
      have hne : c.toNat ≠ 0x130 := by
        intro heq
        rw [heq] at h
        exact absurd h (by decide +kernel)
      simp [lowerExpansions, List.lookup_cons, beq_eq_false_iff_ne.2 hne]
    have hrun : (lowerRuns.findSome? fun run => run.counterpart? c.toNat) = none := by
      rw [List.findSome?_eq_none_iff]
      intro run hmem
      cases hfound : run.counterpart? c.toNat with
      | none => rfl
      | some target =>
        rw [CaseRun.isWithin_contains (lowerRuns_alphabetic run hmem) hfound] at h
        cases h
    rw [hexpansion, hrun]

end Text

/-- A symbol is no letter. -/
theorem Character.isAlphabetic_of_isSymbol {c : Char} (h : Character.isSymbol c = true) :
    Text.isAlphabetic c = false := by
  cases hletter : Text.isAlphabetic c with
  | false => rfl
  | true => simp [Character.isSymbol, Text.isAlphanumeric, hletter] at h

theorem Text.lowerFrom_symbols {cs : List Char} (h : ∀ c ∈ cs, Character.isSymbol c = true)
    (before : List Char) : Text.lowerFrom before cs = cs := by
  induction cs generalizing before with
  | nil => rfl
  | cons c cs ih =>
    obtain ⟨hc, hcs⟩ := List.forall_mem_cons.1 h
    have hletter := Character.isAlphabetic_of_isSymbol hc
    have hsigma : c ≠ 'Σ' := by
      rintro rfl
      exact absurd hletter (by decide +kernel)
    rw [Text.lowerFrom, if_neg hsigma, Text.lowerChar_of_not_alphabetic hletter, ih hcs]
    rfl

/-- Symbols in small letters are the same symbols. -/
theorem Text.lowercase_symbols {text : String} (h : Character.isSymbolRun text.toList = true) :
    Text.lowercase text = text := by
  rw [Character.isSymbolRun, Bool.and_eq_true, List.all_eq_true] at h
  rw [Text.lowercase, Text.lowerFrom_symbols h.2, String.ofList_toList]

/-! ## Sets of symbols -/

namespace SymbolSet

/-- Whether a text ends at a symbol of the set. -/
def has : List Char → SymbolSet → Bool
  | [], tree => tree.ends
  | c :: cs, tree =>
    match tree.children.lookup c with
    | none => false
    | some next => has cs next

theorem has_cons_iff {c : Char} {cs : List Char} {tree : SymbolSet} :
    has (c :: cs) tree = true ↔
      ∃ next, tree.children.lookup c = some next ∧ has cs next = true := by
  rw [has]
  cases tree.children.lookup c with
  | none => simp
  | some next => simp

theorem lookup_modifyChild_self (c : Char) (change : SymbolSet → SymbolSet)
    (children : List (Char × SymbolSet)) :
    (modifyChild c change children).lookup c =
      some (change ((children.lookup c).getD empty)) := by
  induction children with
  | nil => simp [modifyChild]
  | cons child rest ih =>
    obtain ⟨d, tree⟩ := child
    by_cases hd : d = c
    · simp [modifyChild, hd]
    · have hne : (c == d) = false := beq_eq_false_iff_ne.2 (Ne.symm hd)
      simp [modifyChild, hd, List.lookup_cons, hne, ih]

theorem lookup_modifyChild_of_ne {c d : Char} (h : d ≠ c) (change : SymbolSet → SymbolSet)
    (children : List (Char × SymbolSet)) :
    (modifyChild c change children).lookup d = children.lookup d := by
  induction children with
  | nil => simp [modifyChild, List.lookup_cons, beq_eq_false_iff_ne.2 h]
  | cons child rest ih =>
    obtain ⟨e, tree⟩ := child
    by_cases he : e = c
    · subst he
      simp [modifyChild, List.lookup_cons, beq_eq_false_iff_ne.2 h]
    · simp [modifyChild, he, List.lookup_cons, ih]

theorem has_empty (cs : List Char) : has cs empty = false := by
  cases cs with
  | nil => rfl
  | cons c cs => rfl

/-- An insertion adds its symbol and no other. -/
theorem has_insert_iff {cs ds : List Char} {tree : SymbolSet} :
    has cs (insert ds tree) = true ↔ cs = ds ∨ has cs tree = true := by
  induction ds generalizing cs tree with
  | nil =>
    cases cs with
    | nil => exact ⟨fun _ => .inl rfl, fun _ => rfl⟩
    | cons c cs => exact ⟨.inr, fun h => h.resolve_left (List.cons_ne_nil c cs)⟩
  | cons d ds ih =>
    cases cs with
    | nil => exact ⟨.inr, fun h => h.resolve_left (List.cons_ne_nil d ds).symm⟩
    | cons c cs =>
      rw [has_cons_iff, has_cons_iff]
      change (∃ next, (modifyChild d (insert ds) tree.children).lookup c = some next ∧ _) ↔ _
      by_cases hc : c = d
      · subst hc
        simp only [lookup_modifyChild_self, Option.some.injEq, exists_eq_left', ih,
          List.cons.injEq, true_and]
        cases tree.children.lookup c with
        | none => simp [has_empty]
        | some next => simp
      · simp only [lookup_modifyChild_of_ne hc, List.cons.injEq, hc, false_and, false_or]

/-- A symbol of the set is found in every text that starts with it, unless a longer one is. -/
theorem le_longest?_of_has {symbols : List Char} {tree : SymbolSet} (hsymbols : symbols ≠ [])
    (h : has symbols tree = true) (rest : List Char) :
    ∃ count, longest? (symbols ++ rest) tree = some count ∧ symbols.length ≤ count := by
  induction symbols generalizing tree with
  | nil => exact absurd rfl hsymbols
  | cons c symbols ih =>
    obtain ⟨next, hnext, hhas⟩ := has_cons_iff.1 h
    rw [List.cons_append, longest?, hnext]
    cases symbols with
    | nil =>
      have hends : next.ends = true := hhas
      cases hmore : longest? rest next with
      | none => simp [hmore, hends]
      | some more => simp [hmore]
    | cons d symbols =>
      obtain ⟨more, hmore, hle⟩ := ih (List.cons_ne_nil d symbols) hhas
      refine ⟨more + 1, ?_, Nat.succ_le_succ hle⟩
      simp only [hmore]

/-- A symbol of the set is found in a text up to its end. -/
theorem longest?_of_has {cs : List Char} {tree : SymbolSet} (hcs : cs ≠ [])
    (h : has cs tree = true) : longest? cs tree = some cs.length := by
  obtain ⟨count, hfound, hle⟩ := le_longest?_of_has hcs h []
  rw [List.append_nil] at hfound
  rw [hfound, Nat.le_antisymm (longest?_le hfound).2 hle]

section MadeOf

variable {test : Char → Bool}

theorem childrenMadeOf_modifyChild {c : Char} {change : SymbolSet → SymbolSet}
    {children : List (Char × SymbolSet)} (hc : test c = true)
    (hchange : ∀ tree : SymbolSet, tree.madeOf test = true → (change tree).madeOf test = true)
    (h : childrenMadeOf test children = true) :
    childrenMadeOf test (modifyChild c change children) = true := by
  induction children with
  | nil =>
    have hempty : (change empty).madeOf test = true := hchange empty rfl
    simp [modifyChild, childrenMadeOf, hc, hempty]
  | cons child rest ih =>
    obtain ⟨d, tree⟩ := child
    simp only [childrenMadeOf, Bool.and_eq_true] at h
    obtain ⟨⟨hd, htree⟩, hrest⟩ := h
    by_cases heq : d = c
    · simp [modifyChild, heq, childrenMadeOf, hc, hchange tree htree, hrest]
    · simp [modifyChild, heq, childrenMadeOf, hd, htree, ih hrest]

theorem madeOf_insert {cs : List Char} {tree : SymbolSet} (hcs : ∀ c ∈ cs, test c = true)
    (h : tree.madeOf test = true) : (insert cs tree).madeOf test = true := by
  induction cs generalizing tree with
  | nil =>
    cases tree
    exact h
  | cons c cs ih =>
    obtain ⟨hc, hcs⟩ := List.forall_mem_cons.1 hcs
    obtain ⟨ends, children⟩ := tree
    exact childrenMadeOf_modifyChild hc (fun _ htree => ih hcs htree) h

end MadeOf

end SymbolSet

/-! ## Spellings -/

/-- A text that is a spelling is a word or a run of symbols, and symbols are their own key. -/
theorem Spelling.ofString?_cases {text : String} {spelling : Spelling}
    (h : Spelling.ofString? text = some spelling) :
    (Character.needsNoQuotes text.toList = true ∧ spelling = .word (.ofString text)) ∨
      (Character.isSymbolRun text.toList = true ∧ spelling = .symbols (.ofString text) ∧
        spelling.key = text) := by
  unfold Spelling.ofString? at h
  split at h
  next hword =>
    cases h
    exact .inl ⟨hword, rfl⟩
  next =>
    split at h
    next hsymbols =>
      cases h
      exact .inr ⟨hsymbols, rfl, Text.lowercase_symbols hsymbols⟩
    next => cases h

theorem Spelling.key_eq {text : String} {spelling : Spelling}
    (h : Spelling.ofString? text = some spelling) : spelling.key = Text.lowercase text := by
  rcases Spelling.ofString?_cases h with ⟨-, rfl⟩ | ⟨-, rfl, -⟩
  all_goals rfl

/-! ## Tables -/

theorem mem_of_lookup {table : OperatorTable} {key : String} {op : Operator}
    (h : table.lookup key = some op) : (key, op) ∈ table := by
  induction table with
  | nil => cases h
  | cons entry table ih =>
    obtain ⟨name, other⟩ := entry
    rw [List.lookup_cons] at h
    split at h
    next hkey =>
      cases h
      rw [beq_iff_eq.1 hkey]
      exact List.mem_cons_self ..
    next => exact List.mem_cons_of_mem _ (ih h)

namespace Registry

/-- The texts are read when all of them are spellings. -/
theorem readSpellings_ok_iff {texts : List String} {spellings : List Spelling} :
    readSpellings texts = .ok spellings ↔ texts.map Spelling.ofString? = spellings.map some := by
  induction texts generalizing spellings with
  | nil => cases spellings <;> simp [readSpellings]
  | cons text texts ih =>
    unfold readSpellings
    cases htext : Spelling.ofString? text with
    | none => cases spellings <;> simp [htext]
    | some spelling =>
      cases spellings with
      | nil => cases hothers : readSpellings texts <;> simp [Except.map]
      | cons first rest =>
        simp only [List.map_cons, htext, List.cons.injEq, Option.some.injEq, ← ih]
        cases readSpellings texts <;> simp [Except.map]

theorem spelling_of_readSpellings {texts : List String} {spellings : List Spelling}
    (h : readSpellings texts = .ok spellings) {text : String} (htext : text ∈ texts) :
    ∃ spelling ∈ spellings, Spelling.ofString? text = some spelling := by
  have hmem := List.mem_map_of_mem (f := Spelling.ofString?) htext
  rw [readSpellings_ok_iff.1 h] at hmem
  obtain ⟨spelling, hmem, heq⟩ := List.mem_map.1 hmem
  exact ⟨spelling, hmem, heq.symm⟩

theorem text_of_readSpellings {texts : List String} {spellings : List Spelling}
    (h : readSpellings texts = .ok spellings) {spelling : Spelling} (hmem : spelling ∈ spellings) :
    ∃ text ∈ texts, Spelling.ofString? text = some spelling := by
  have hmem := List.mem_map_of_mem (f := some) hmem
  rw [← readSpellings_ok_iff.1 h] at hmem
  exact List.mem_map.1 hmem

/-- No spelling is taken when all have keys of their own, new to the table. -/
theorem firstTaken?_eq_none_iff {table : OperatorTable} {earlier : List String}
    {spellings : List Spelling} :
    firstTaken? table earlier spellings = none ↔ (spellings.map Spelling.key).Nodup ∧
      ∀ spelling ∈ spellings, spelling.key ∉ earlier ∧ table.lookup spelling.key = none := by
  induction spellings generalizing earlier with
  | nil => simp [firstTaken?]
  | cons first rest ih =>
    rw [firstTaken?, List.map_cons, List.nodup_cons, List.forall_mem_cons]
    split
    next htaken =>
      simp only [Bool.or_eq_true, List.contains_iff_mem] at htaken
      constructor
      · exact nofun
      · rintro ⟨-, ⟨hearlier, hlookup⟩, -⟩
        rw [hlookup] at htaken
        exact absurd (htaken.resolve_right Bool.false_ne_true) hearlier
    next hfree =>
      simp only [Bool.or_eq_true, List.contains_iff_mem, not_or, Bool.not_eq_true,
        Option.isSome_eq_false_iff, Option.isNone_iff_eq_none] at hfree
      rw [ih]
      simp only [List.mem_cons, not_or]
      constructor
      · rintro ⟨hnodup, hrest⟩
        refine ⟨⟨?_, hnodup⟩, hfree, fun spelling hmem =>
          ⟨(hrest spelling hmem).1.2, (hrest spelling hmem).2⟩⟩
        intro hfirst
        obtain ⟨spelling, hmem, hkey⟩ := List.mem_map.1 hfirst
        exact (hrest spelling hmem).1.1 hkey
      · rintro ⟨⟨hfirst, hnodup⟩, -, hrest⟩
        refine ⟨hnodup, fun spelling hmem =>
          ⟨⟨?_, (hrest spelling hmem).1⟩, (hrest spelling hmem).2⟩⟩
        intro hkey
        exact hfirst (hkey ▸ List.mem_map_of_mem hmem)

/-- Entries that all lead to one operator. -/
theorem lookup_entries {spellings : List Spelling} {spelling : Spelling} (op : Operator)
    (hmem : spelling ∈ spellings) :
    (spellings.map fun spelling => (spelling.key, op)).lookup spelling.key = some op := by
  induction spellings with
  | nil => cases hmem
  | cons first rest ih =>
    rw [List.map_cons, List.lookup_cons]
    cases hkey : spelling.key == first.key with
    | true => rfl
    | false =>
      rcases List.mem_cons.1 hmem with rfl | hrest
      · simp at hkey
      · exact ih hrest

/-- The symbols of a set are those it had and those that were added. -/
theorem has_addSymbols_iff {cs : List Char} {spellings : List Spelling} {set : SymbolSet} :
    (addSymbols set spellings).has cs = true ↔
      set.has cs = true ∨ ∃ name, .symbols name ∈ spellings ∧ cs = name.key.toList := by
  induction spellings generalizing set with
  | nil => simp [addSymbols]
  | cons spelling rest ih =>
    cases spelling with
    | word name => simp [addSymbols, ih]
    | symbols name =>
      rw [addSymbols, ih, SymbolSet.has_insert_iff]
      simp only [List.mem_cons, Spelling.symbols.injEq, or_and_right, exists_or, exists_eq_left]
      rw [or_assoc, or_left_comm]

theorem madeOf_addSymbols {test : Char → Bool} {spellings : List Spelling} {set : SymbolSet}
    (h : ∀ name, .symbols name ∈ spellings → ∀ c ∈ name.key.toList, test c = true)
    (hset : set.madeOf test = true) : (addSymbols set spellings).madeOf test = true := by
  induction spellings generalizing set with
  | nil => exact hset
  | cons spelling rest ih =>
    have hrest : ∀ name, .symbols name ∈ rest → ∀ c ∈ name.key.toList, test c = true :=
      fun name hname => h name (List.mem_cons_of_mem _ hname)
    cases spelling with
    | word name => exact ih hrest hset
    | symbols name =>
      exact ih hrest (SymbolSet.madeOf_insert (h name (List.mem_cons_self ..)) hset)

/-! ## Registering -/

/-- What is added for an operator, when it is added. -/
theorem add_ok {registry after : Registry} {op : Operator} (h : registry.add op = .ok after) :
    ∃ spellings, readSpellings op.spellings = .ok spellings ∧
      firstTaken? (registry.table op.fixity) [] spellings = none ∧
      (∀ fixity, after.table fixity = registry.table fixity ++
        if fixity.isLeading = op.fixity.isLeading then
          spellings.map fun spelling => (spelling.key, op)
        else []) ∧
      after.symbols = addSymbols registry.symbols spellings := by
  unfold Registry.add at h
  cases hread : readSpellings op.spellings with
  | error problem =>
    rw [hread] at h
    cases h
  | ok spellings =>
    rw [hread] at h
    cases htaken : firstTaken? (registry.table op.fixity) [] spellings with
    | some taken =>
      simp only [bind, Except.bind, htaken] at h
      cases h
    | none =>
      simp only [bind, Except.bind, htaken] at h
      refine ⟨spellings, rfl, htaken, ?_⟩
      cases hleading : op.fixity.isLeading with
      | true =>
        rw [hleading, if_pos rfl] at h
        cases h
        refine ⟨fun fixity => ?_, rfl⟩
        cases hfixity : fixity.isLeading <;> simp [Registry.table, hfixity]
      | false =>
        rw [hleading, if_neg (by decide)] at h
        cases h
        refine ⟨fun fixity => ?_, rfl⟩
        cases hfixity : fixity.isLeading <;> simp [Registry.table, hfixity]

/-- A registry in which some operators were registered. -/
structure Registers (registry : Registry) (ops : List Operator) : Prop where
  /-- The symbols are regular. -/
  regular : registry.Regular
  /-- Every spelling leads to its operator. -/
  table : ∀ op ∈ ops, ∀ text ∈ op.spellings,
    (registry.table op.fixity).lookup (Text.lowercase text) = some op
  /-- A spelling is a word, or symbols that are found in a text. -/
  spelled : ∀ op ∈ ops, ∀ text ∈ op.spellings,
    Character.needsNoQuotes text.toList = true ∨
      Character.isSymbolRun text.toList = true ∧ registry.symbols.has text.toList = true

theorem registers_empty : empty.Registers [] := ⟨rfl, nofun, nofun⟩

/-- One more operator is found, and those before it are still found. -/
theorem Registers.add {registry after : Registry} {ops : List Operator} {op : Operator}
    (hregistry : registry.Registers ops) (h : registry.add op = .ok after) :
    after.Registers (ops ++ [op]) := by
  obtain ⟨spellings, hread, htaken, htable, hsymbols⟩ := add_ok h
  refine ⟨?regular, ?table, ?spelled⟩
  case regular =>
    rw [Regular, hsymbols]
    refine madeOf_addSymbols (fun name hname => ?_) hregistry.regular
    obtain ⟨text, -, htext⟩ := text_of_readSpellings hread hname
    rcases Spelling.ofString?_cases htext with ⟨-, hword⟩ | ⟨hrun, -, hkey⟩
    · cases hword
    · rw [show name.key = text from hkey]
      rw [Character.isSymbolRun, Bool.and_eq_true, List.all_eq_true] at hrun
      exact hrun.2
  case table =>
    simp only [List.forall_mem_append, List.forall_mem_singleton]
    refine ⟨fun other hother text htext => ?_, fun text htext => ?_⟩
    · rw [htable, List.lookup_append, hregistry.table other hother text htext, Option.some_or]
    · obtain ⟨spelling, hmem, htext⟩ := spelling_of_readSpellings hread htext
      rw [← Spelling.key_eq htext, htable, List.lookup_append,
        ((firstTaken?_eq_none_iff.1 htaken).2 spelling hmem).2, if_pos rfl, lookup_entries op hmem,
        Option.none_or]
  case spelled =>
    rw [hsymbols]
    simp only [List.forall_mem_append, List.forall_mem_singleton]
    refine ⟨fun other hother text htext => ?_, fun text htext => ?_⟩
    · exact (hregistry.spelled other hother text htext).imp id fun ⟨hrun, hhas⟩ =>
        ⟨hrun, has_addSymbols_iff.2 (.inl hhas)⟩
    · obtain ⟨spelling, hmem, htext⟩ := spelling_of_readSpellings hread htext
      rcases Spelling.ofString?_cases htext with ⟨hword, -⟩ | ⟨hrun, rfl, hkey⟩
      · exact .inl hword
      · have hkey : (Name.ofString text).key = text := hkey
        exact .inr ⟨hrun, has_addSymbols_iff.2 (.inr ⟨_, hmem, congrArg String.toList hkey.symm⟩)⟩

/-- What each operator that is added keeps true of the registry, with that operator added to those
before it, holds when all of them are added. -/
theorem addAll_keeps {P : Registry → List Operator → Prop}
    (hadd : ∀ {registry after ops op}, P registry ops → registry.add op = .ok after →
      P after (ops ++ [op]))
    {registry after : Registry} {ops others : List Operator} (hregistry : P registry ops)
    (h : registry.addAll others = .ok after) : P after (ops ++ others) := by
  induction others generalizing registry ops with
  | nil =>
    cases h
    rwa [List.append_nil]
  | cons op others ih =>
    unfold Registry.addAll at h
    cases hnext : registry.add op with
    | error problem =>
      rw [hnext] at h
      cases h
    | ok next =>
      rw [hnext] at h
      have hothers := ih (hadd hregistry hnext) h
      rwa [List.append_assoc] at hothers

/-- All operators of a registry made from nothing are registered. -/
theorem registers_of_addAll {registry : Registry} {ops : List Operator}
    (h : empty.addAll ops = .ok registry) : registry.Registers ops :=
  addAll_keeps Registers.add registers_empty h

section Found

variable {registry : Registry} {ops : List Operator} {op : Operator} {text : String}

/-- An operator that starts an expression is found among those that do. -/
theorem Registers.starting? (h : registry.Registers ops) (hop : op ∈ ops)
    (hleading : op.fixity.isLeading = true) (htext : text ∈ op.spellings) :
    registry.starting? (Text.lowercase text) = some op := by
  have hlookup := h.table op hop text htext
  rwa [Registry.table, if_pos hleading] at hlookup

/-- An operator that continues one is found among the others. -/
theorem Registers.continuing? (h : registry.Registers ops) (hop : op ∈ ops)
    (hleading : op.fixity.isLeading = false) (htext : text ∈ op.spellings) :
    registry.continuing? (Text.lowercase text) = some op := by
  have hlookup := h.table op hop text htext
  rwa [Registry.table, if_neg (by simp [hleading])] at hlookup

end Found

end Registry

end CommandScript
