import CommandScript.Name
import CommandScript.Source.Character

/-!
# Operators

An operator is written as a word or as a run of symbols, and stands for a command that names its
handler.  Its fixity says where it stands: alone, before its operand, between two operands, or after
its operand.  Its form says how the code around it is read, and determines the fixity.
-/

namespace CommandScript

/-- Where an operator stands. -/
inductive Fixity where
  /-- Alone, without an operand. -/
  | atom
  /-- Before its operand. -/
  | before
  /-- Between its two operands. -/
  | between
  /-- After its operand. -/
  | after
deriving DecidableEq, Repr

/-- Whether operators of this fixity start an expression.  All others continue one. -/
def Fixity.isLeading : Fixity → Bool
  | .atom | .before => true
  | .between | .after => false

/-- The name of a fixity. -/
def Fixity.name : Fixity → String
  | .atom => "atom"
  | .before => "prefix"
  | .between => "infix"
  | .after => "postfix"

/-- The name of the table that holds operators of this fixity. -/
def Fixity.tableLabel (fixity : Fixity) : String :=
  if fixity.isLeading then "prefix" else "infix"

/-- How the code around an operator is read. -/
inductive OperatorForm where
  /-- The operator alone. -/
  | atom
  /-- The operator and an operand. -/
  | before
  /-- Two operands around the operator, grouping to the left. -/
  | between
  /-- Two operands around the operator, grouping to the right. -/
  | betweenRight
  /-- An operand and the operator. -/
  | after
  /-- The operator, an operand and a block. -/
  | keywordBlock
  /-- The operator and the definition of a handler. -/
  | commandHandler
  /-- The operator and the definition of a handler that ignores arguments it has no place for. -/
  | eventHandler
deriving DecidableEq, Repr

/-- Where an operator of this form stands. -/
def OperatorForm.fixity : OperatorForm → Fixity
  | .atom => .atom
  | .before | .keywordBlock | .commandHandler | .eventHandler => .before
  | .between | .betweenRight => .between
  | .after => .after

/-- An operator. -/
structure Operator where
  /-- The spelling it is printed with. -/
  name : String
  /-- How tightly it binds. -/
  precedence : Int
  /-- How the code around it is read. -/
  form : OperatorForm
  /-- Other spellings. -/
  aliases : List String
  /-- The handler its command names, if not the operator's own name. -/
  handler? : Option String
deriving DecidableEq, Repr

namespace Operator

/-- Where the operator stands. -/
def fixity (op : Operator) : Fixity := op.form.fixity

/-- The handler its command names. -/
def handler (op : Operator) : String := op.handler?.getD op.name

/-- All its spellings, the name first. -/
def spellings (op : Operator) : List String := op.name :: op.aliases

end Operator

/-- A text an operator can be written with. -/
inductive Spelling where
  /-- A whole word. -/
  | word (name : Name)
  /-- A run of symbols. -/
  | symbols (name : Name)

namespace Spelling

/-- The spelling a text is, if it is a word or a run of symbols. -/
def ofString? (text : String) : Option Spelling :=
  if Character.needsNoQuotes text.toList then some (.word (.ofString text))
  else if Character.isSymbolRun text.toList then some (.symbols (.ofString text))
  else none

/-- The name that is spelled. -/
def name : Spelling → Name
  | .word name | .symbols name => name

/-- The key the spelling is found by. -/
def key (spelling : Spelling) : String := spelling.name.key

/-- Whether the spelling is a word. -/
def isWord : Spelling → Bool
  | .word _ => true
  | .symbols _ => false

end Spelling

/-! ## Precedences -/

/-- The smallest precedence. -/
def leastPrecedence : Int := -0x80000000

/-- The largest precedence. -/
def greatestPrecedence : Int := 0x7FFFFFFF

/-- The next looser precedence, if there is one. -/
def looser (precedence : Int) : Int := max (precedence - 1) leastPrecedence

/-- The next tighter precedence, if there is one. -/
def tighter (precedence : Int) : Int := min (precedence + 1) greatestPrecedence

end CommandScript
