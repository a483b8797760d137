import CommandScript.Proofs.RegistryTables

/-!
# The longest symbol at the start of a text

A set of symbols is made from nothing by inserting one symbol after the other.  What it holds is
what was inserted, and neither the order of the insertions nor a repeated one makes a difference.

A search walks down the tree as far as the text allows and keeps the place behind the last symbol it
passed.  The walk can run past that place and still find nothing more, and then it falls back to it.
So it answers with the longest of the inserted symbols that the text starts with, counted in bytes.
-/

namespace CommandScript.SymbolSet

variable {symbols : List (List Char)} {symbol text : List Char} {tree : SymbolSet} {count : Nat}

/-! ## Insertions -/

/-- The set of some symbols, inserted one after the other. -/
def ofSymbols (symbols : List (List Char)) : SymbolSet :=
  symbols.foldl (fun tree symbol => insert symbol tree) empty

theorem has_foldl_insert_iff :
    has symbol (symbols.foldl (fun tree symbol => insert symbol tree) tree) = true ↔
      symbol ∈ symbols ∨ has symbol tree = true := by
  induction symbols generalizing tree with
  | nil => simp
  | cons first others ih =>
    rw [List.foldl_cons, ih, has_insert_iff, List.mem_cons, or_left_comm, or_assoc]

/-- A set holds the symbols that were inserted. -/
theorem has_ofSymbols_iff : has symbol (ofSymbols symbols) = true ↔ symbol ∈ symbols := by
  rw [ofSymbols, has_foldl_insert_iff, has_empty]
  simp

/-! ## The walk -/

/-- A walk down the tree of symbols from an offset in bytes, and the place behind the last symbol
that it passed. -/
def walk (tree : SymbolSet) (offset : Nat) (last? : Option Nat) : List Char → Option Nat
  | [] => last?
  | c :: cs =>
    match tree.children.lookup c with
    | none => last?
    | some next =>
      let stop := offset + c.utf8Size
      walk next stop (if next.ends then some stop else last?) cs

/-- One step down the tree. -/
theorem longestBytes?_cons (c : Char) (cs : List Char) (tree : SymbolSet) :
    longestBytes? (c :: cs) tree =
      (tree.children.lookup c).bind fun next =>
        ((longestBytes? cs next).map (c.utf8Size + ·)).or
          (if next.ends then some c.utf8Size else none) := by
  simp only [longestBytes?, longest?]
  cases tree.children.lookup c with
  | none => rfl
  | some next =>
    simp only [Option.bind_some]
    cases longest? cs next with
    | some more => rfl
    | none => cases next.ends <;> rfl

/-- A walk finds the longest symbol below it, and falls back to what it came with. -/
theorem walk_eq (tree : SymbolSet) (offset : Nat) (last? : Option Nat) (text : List Char) :
    walk tree offset last? text = ((longestBytes? text tree).map (offset + ·)).or last? := by
  induction text generalizing tree offset last? with
  | nil => rfl
  | cons c cs ih =>
    rw [walk, longestBytes?_cons]
    cases tree.children.lookup c with
    | none => rfl
    | some next =>
      simp only [Option.bind_some, ih]
      cases longestBytes? cs next with
      | some more => simp [Nat.add_assoc]
      | none => cases next.ends <;> rfl

/-! ## The longest of the inserted symbols -/

/-- Whether a symbol can be found at the start of a text. -/
def startsText (text symbol : List Char) : Bool := !symbol.isEmpty && symbol.isPrefixOf text

theorem startsText_iff : startsText text symbol = true ↔ symbol ≠ [] ∧ symbol <+: text := by
  simp [startsText, List.isPrefixOf_iff_prefix]

/-- How many bytes the longest of some symbols has that can be found at the start of a text. -/
def longestOf? (symbols : List (List Char)) (text : List Char) : Option Nat :=
  ((symbols.filter (startsText text)).map byteLength).max?

/-- What is found is a symbol of the set. -/
theorem exists_of_longestBytes? (h : longestBytes? text tree = some count) :
    ∃ symbol, has symbol tree = true ∧ startsText text symbol = true ∧
      byteLength symbol = count := by
  obtain ⟨characters, hlongest, hcount⟩ := Option.map_eq_some_iff.1 h
  have hnonempty : text.take characters ≠ [] := by
    have hle := longest?_le hlongest
    refine List.ne_nil_of_length_pos ?_
    rw [List.length_take]
    omega
  exact ⟨text.take characters, has_of_longest? hlongest,
    startsText_iff.2 ⟨hnonempty, List.take_prefix ..⟩, hcount⟩

/-- A symbol of the set that starts a text is found, unless a longer one is. -/
theorem le_longestBytes?_of_has (hhas : has symbol tree = true)
    (hstarts : startsText text symbol = true) :
    ∃ count, longestBytes? text tree = some count ∧ byteLength symbol ≤ count := by
  obtain ⟨hsymbol, hfront⟩ := startsText_iff.1 hstarts
  obtain ⟨characters, hlongest, hle⟩ : ∃ characters, longest? text tree = some characters ∧
      symbol.length ≤ characters := by
    obtain ⟨rest, rfl⟩ := hfront
    exact le_longest?_of_has hsymbol hhas rest
  refine ⟨byteLength (text.take characters), ?_, ?_⟩
  · rw [longestBytes?, hlongest, Option.map_some]
  · exact byteLength_le_of_prefix (List.prefix_take_iff.2 ⟨hfront, hle⟩)

/-- What is found is a symbol of the set, and no longer one starts the text. -/
theorem longestBytes?_eq_some_iff :
    longestBytes? text tree = some count ↔
      (∃ symbol, has symbol tree = true ∧ startsText text symbol = true ∧
        byteLength symbol = count) ∧
      ∀ symbol, has symbol tree = true → startsText text symbol = true →
        byteLength symbol ≤ count := by
  constructor
  · intro h
    refine ⟨exists_of_longestBytes? h, fun symbol hhas hstarts => ?_⟩
    obtain ⟨found, hfound, hle⟩ := le_longestBytes?_of_has hhas hstarts
    rw [h] at hfound
    cases hfound
    exact hle
  · rintro ⟨⟨symbol, hhas, hstarts, rfl⟩, hmost⟩
    obtain ⟨found, hfound, hle⟩ := le_longestBytes?_of_has hhas hstarts
    obtain ⟨other, hother, hstartsOther, rfl⟩ := exists_of_longestBytes? hfound
    rw [hfound, Nat.le_antisymm (hmost other hother hstartsOther) hle]

/-- The tree answers for the symbols that were inserted. -/
theorem longestBytes?_ofSymbols (symbols : List (List Char)) (text : List Char) :
    longestBytes? text (ofSymbols symbols) = longestOf? symbols text := by
  refine Option.ext fun count => ?_
  simp only [longestBytes?_eq_some_iff, has_ofSymbols_iff, longestOf?, List.max?_eq_some_iff,
    List.mem_map, List.mem_filter, forall_exists_index, and_imp, and_assoc]
  simp only [forall_comm (α := Nat), forall_apply_eq_imp_iff₂]

/-- Sets are alike when the same symbols were inserted. -/
theorem longestBytes?_congr {others : List (List Char)}
    (h : ∀ symbol, symbol ∈ others ↔ symbol ∈ symbols) (text : List Char) :
    longestBytes? text (ofSymbols others) = longestBytes? text (ofSymbols symbols) := by
  refine Option.ext fun count => ?_
  simp only [longestBytes?_eq_some_iff, has_ofSymbols_iff, h]

/-- A set made by inserting some symbols in order: the number of bytes found at the start of a text
is that of the longest non-empty symbol among them that the text starts with, and nothing is found
if there is none; the walk down the tree finds the same; a set made from the same symbols in another
order, some of them more than once, finds the same; and a text that is not empty is one of the
symbols just when it was inserted. -/
theorem longest_of_inserted (symbols : List (List Char)) :
    (∀ text, longestBytes? text (ofSymbols symbols) = longestOf? symbols text) ∧
      (∀ text, walk (ofSymbols symbols) 0 none text = longestBytes? text (ofSymbols symbols)) ∧
      (∀ others : List (List Char), (∀ symbol, symbol ∈ others ↔ symbol ∈ symbols) →
        ∀ text, longestBytes? text (ofSymbols others) = longestBytes? text (ofSymbols symbols)) ∧
      ∀ symbol, symbol ≠ [] → (contains symbol (ofSymbols symbols) = true ↔ symbol ∈ symbols) := by
  refine ⟨longestBytes?_ofSymbols symbols, fun text => ?_,
    fun others hothers => longestBytes?_congr hothers, fun symbol hsymbol => ?_⟩
  · rw [walk_eq]
    simp
  · rw [contains_iff, has_ofSymbols_iff]
    exact and_iff_right hsymbol

/-- A walk that runs past the last symbol of three bytes, with the insertions turned around and one
of them repeated. -/
theorem longest_of_inserted_falls_back :
    let symbols := ["<".toList, "≤".toList, "≤≤=".toList]
    let others := ["≤≤=".toList, "≤".toList, "<".toList, "≤".toList]
    (∀ symbol, symbol ∈ others ↔ symbol ∈ symbols) ∧
      longestBytes? "≤≤x".toList (ofSymbols others) =
        longestBytes? "≤≤x".toList (ofSymbols symbols) ∧
      longestBytes? "≤≤x".toList (ofSymbols symbols) = some 3 ∧
      "≤≤".toList ≠ [] ∧ contains "≤≤".toList (ofSymbols symbols) = false := by
  intro symbols others
  have hsubset : others ⊆ symbols := by decide
  have hsuperset : symbols ⊆ others := by decide
  have hothers : ∀ symbol, symbol ∈ others ↔ symbol ∈ symbols :=
    fun symbol => ⟨fun h => hsubset h, fun h => hsuperset h⟩
  have hnonempty : "≤≤".toList ≠ [] := by decide
  obtain ⟨hlongest, -, horder, hcontains⟩ := longest_of_inserted symbols
  refine ⟨hothers, horder others hothers _, ?_, hnonempty, ?_⟩
  · rw [hlongest]
    decide
  · rw [Bool.eq_false_iff, ne_eq, hcontains _ hnonempty]
    decide

end CommandScript.SymbolSet
