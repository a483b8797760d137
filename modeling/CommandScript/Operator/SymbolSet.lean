import CommandScript.Source.Bytes

/-!
# Sets of symbols

A set of symbols is kept as a tree, one character per step down.  It answers which is the longest of
them that a text starts with.  The empty symbol can be inserted and is never found.
-/

namespace CommandScript

/-- A set of symbols. -/
inductive SymbolSet where
  /-- Whether a symbol ends here, and the trees behind each next character. -/
  | node (ends : Bool) (children : List (Char × SymbolSet))

namespace SymbolSet

/-- The set without symbols. -/
def empty : SymbolSet := .node false []

/-- Whether a symbol ends at the root. -/
def ends : SymbolSet → Bool
  | .node ends _ => ends

/-- The trees behind each next character. -/
def children : SymbolSet → List (Char × SymbolSet)
  | .node _ children => children

/-- The tree behind one character changed, starting from the empty tree if there is none. -/
def modifyChild (c : Char) (change : SymbolSet → SymbolSet) :
    List (Char × SymbolSet) → List (Char × SymbolSet)
  | [] => [(c, change empty)]
  | (d, tree) :: rest =>
    if d = c then (d, change tree) :: rest else (d, tree) :: modifyChild c change rest

/-- The set with one more symbol. -/
def insert : List Char → SymbolSet → SymbolSet
  | [], tree => .node true tree.children
  | c :: cs, tree => .node tree.ends (modifyChild c (insert cs) tree.children)

/-- How many characters the longest symbol at the start of a text has. -/
def longest? : List Char → SymbolSet → Option Nat
  | [], _ => none
  | c :: cs, tree =>
    match tree.children.lookup c with
    | none => none
    | some next =>
      match longest? cs next with
      | some count => some (count + 1)
      | none => if next.ends then some 1 else none

/-- How many bytes the longest symbol at the start of a text has. -/
def longestBytes? (text : List Char) (tree : SymbolSet) : Option Nat :=
  (longest? text tree).map fun count => byteLength (text.take count)

/-- Whether a text is one of the symbols. -/
def contains (text : List Char) (tree : SymbolSet) : Bool :=
  longestBytes? text tree == some (byteLength text)

end SymbolSet

end CommandScript
