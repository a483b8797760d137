import CommandScript.Operator
import CommandScript.Operator.SymbolSet

/-!
# The registry of operators

The registry finds operators by their spelling, ignoring case.  It has two tables, one of operators
that start an expression and one of operators that continue one, so the same spelling can be in
both.  Within a table a spelling belongs to one operator.  The spellings made of symbols are also
kept in a tree, where the longest one at the start of a text is found.

An operator is registered under all its spellings or not at all.
-/

namespace CommandScript

/-- Why an operator was not registered. -/
inductive RegistrationError where
  /-- A spelling is taken in the table with the given name. -/
  | duplicate (name : String) (table : String)
  /-- A spelling is neither a word nor a run of symbols. -/
  | invalidName (name : String)
deriving DecidableEq, Repr

/-- The wording of an error. -/
def RegistrationError.message : RegistrationError → String
  | .duplicate name table => "“" ++ name ++ "” is already defined as a " ++ table ++ " operator"
  | .invalidName name => "“" ++ name ++ "” is neither a word nor a run of symbol characters"

/-- Everything the registry knows about one spelling. -/
structure KnownSpelling where
  /-- The spelling as written. -/
  text : String
  /-- The operator that starts an expression. -/
  starting? : Option Operator
  /-- The operator that continues an expression. -/
  continuing? : Option Operator
deriving DecidableEq, Repr

/-- Operators by the keys of their spellings. -/
abbrev OperatorTable := List (String × Operator)

/-- The operators in use. -/
structure Registry where
  /-- The operators that start an expression. -/
  starting : OperatorTable
  /-- The operators that continue an expression. -/
  continuing : OperatorTable
  /-- The spellings made of symbols. -/
  symbols : SymbolSet

namespace Registry

/-- The registry without operators. -/
def empty : Registry := ⟨[], [], .empty⟩

/-- The table for operators of a fixity. -/
def table (registry : Registry) (fixity : Fixity) : OperatorTable :=
  if fixity.isLeading then registry.starting else registry.continuing

/-- The spellings of an operator, all of them valid. -/
def readSpellings : List String → Except RegistrationError (List Spelling)
  | [] => .ok []
  | text :: texts =>
    match Spelling.ofString? text with
    | none => .error (.invalidName text)
    | some spelling => (readSpellings texts).map (spelling :: ·)

/-- The first spelling that is taken, by the table or by an earlier spelling. -/
def firstTaken? (table : OperatorTable) : (earlier : List String) → List Spelling → Option Spelling
  | _, [] => none
  | earlier, spelling :: rest =>
    if earlier.contains spelling.key || (table.lookup spelling.key).isSome then some spelling
    else firstTaken? table (spelling.key :: earlier) rest

/-- A set of symbols with those of some spellings added. -/
def addSymbols (set : SymbolSet) : List Spelling → SymbolSet
  | [] => set
  | .word _ :: rest => addSymbols set rest
  | .symbols name :: rest => addSymbols (.insert name.key.toList set) rest

/-- The registry with one more operator. -/
def add (registry : Registry) (op : Operator) : Except RegistrationError Registry := do
  let spellings ← readSpellings op.spellings
  match firstTaken? (registry.table op.fixity) [] spellings with
  | some taken => throw (.duplicate taken.name.text op.fixity.tableLabel)
  | none =>
    let entries := spellings.map fun spelling => (spelling.key, op)
    let symbols := addSymbols registry.symbols spellings
    if op.fixity.isLeading then
      return ⟨registry.starting ++ entries, registry.continuing, symbols⟩
    else
      return ⟨registry.starting, registry.continuing ++ entries, symbols⟩

/-- The registry with more operators, in order. -/
def addAll (registry : Registry) : List Operator → Except RegistrationError Registry
  | [] => .ok registry
  | op :: ops =>
    match registry.add op with
    | .error problem => .error problem
    | .ok registry => addAll registry ops

/-- The operator that starts an expression and has a spelling with the given key. -/
def starting? (registry : Registry) (key : String) : Option Operator :=
  registry.starting.lookup key

/-- The operator that continues an expression and has a spelling with the given key. -/
def continuing? (registry : Registry) (key : String) : Option Operator :=
  registry.continuing.lookup key

/-- What is known about a spelling, ignoring case. -/
def find? (registry : Registry) (text : String) : Option KnownSpelling :=
  let key := Text.lowercase text
  match registry.starting? key, registry.continuing? key with
  | none, none => none
  | starting?, continuing? => some ⟨text, starting?, continuing?⟩

/-- The longest spelling made of symbols at the start of a text, and how many characters it has. -/
def findSymbols? (registry : Registry) (text : List Char) : Option (KnownSpelling × Nat) := do
  let count ← SymbolSet.longest? text registry.symbols
  let found ← registry.find? (String.ofList (text.take count))
  return (found, count)

/-- The number of spellings in both tables. -/
def size (registry : Registry) : Nat := registry.starting.length + registry.continuing.length

/-- Whether there is no operator. -/
def isEmpty (registry : Registry) : Bool :=
  registry.starting.isEmpty && registry.continuing.isEmpty

/-- The operators of a table, each once: the entry under its own name stands for it. -/
def tableOperators (table : OperatorTable) : List Operator :=
  table.filterMap fun (key, op) => if key == Text.lowercase op.name then some op else none

/-- Whether one operator is listed before another, or beside it: by falling precedence, then by
name. -/
def listedBefore (a b : Operator) : Bool :=
  b.precedence < a.precedence || (a.precedence == b.precedence && decide (a.name ≤ b.name))

/-- All operators, each once, by falling precedence and then by name.  Of two alike the one that
starts an expression comes first. -/
def operators (registry : Registry) : List Operator :=
  (tableOperators registry.starting ++ tableOperators registry.continuing).mergeSort listedBefore

end Registry

end CommandScript
