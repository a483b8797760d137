import CommandScript.Name
import CommandScript.Primitive
import CommandScript.Scalar.Numeral

/-!
# Values

Code and data are the same thing here.  A value is one of these.

* an atom: nothing, a truth value, a text, a tag
* a collection: a list, a record, a pair
* an expression, which runs when it is evaluated: an identifier, a command, a block, a thunk
* something to call: a handler, a handler with the scope it was found in, a coercion
* a reference to a target of commands

A number is a text with a numeric reading.  A record has unique keys, or is computed and gets its
keys when it is evaluated.  `didNothing` is what a control structure answers when it took no
action.

A coercion describes what a value is wanted as.  A handler has an interface: its name, its
parameters with a coercion each, and the coercion of its result.

A scope is where names are looked up.  It is a frame of slots with its parent scope, a target in
front of a scope, or a target alone.  The slots themselves are not part of a scope: a frame is
known by a number, and a store holds its slots.  So a scope is finite, and looking up a name
follows its structure.

Thunks, handlers and references carry a number too, which tells two of them apart.
-/

namespace CommandScript

/-! ## Parts -/

/-- A text.  A number keeps the reading of its literal. -/
inductive TextValue where
  /-- A text that was quoted. -/
  | plain (content : String)
  /-- A number, as written and as read. -/
  | number (literal : String) (scalar : Scalar)

namespace TextValue

/-- The characters of a text. -/
def content : TextValue → String
  | .plain content => content
  | .number literal _ => literal

/-- The numeric reading of a text. -/
def scalar : TextValue → Scalar
  | .plain content => .parse content
  | .number _ scalar => scalar

/-- Whether the text was written as a number. -/
def isNumber : TextValue → Bool
  | .plain _ => false
  | .number .. => true

/-- Whether the text has no characters. -/
def isEmpty (text : TextValue) : Bool := text.content.isEmpty

/-- The number with a given reading. -/
def ofScalar (scalar : Scalar) : TextValue := .number scalar.literal scalar

/-- Texts are equal when their characters are, however they are read. -/
instance : BEq TextValue where
  beq a b := a.content == b.content

end TextValue

/-- A key of a record. -/
inductive Key where
  /-- A text, compared exactly. -/
  | text (content : TextValue)
  /-- A tag, compared by its key. -/
  | tag (name : Name)

namespace Key

/-- A text never equals a tag. -/
instance : BEq Key where
  beq
    | .text a, .text b => a == b
    | .tag a, .tag b => a == b
    | _, _ => false

/-- The key as written, without quotes or `#`. -/
def content : Key → String
  | .text t => t.content
  | .tag name => name.text

end Key

/-- Where an operator was written. -/
inductive Layout where
  /-- Alone. -/
  | atom
  /-- Before its operand. -/
  | before
  /-- Between its operands. -/
  | between
  /-- After its operand. -/
  | after
  /-- Before an operand and a block. -/
  | keyword
deriving DecidableEq, Repr

/-- The operator a command was written with. -/
structure OperatorUse where
  /-- The operator's name. -/
  operator : String
  /-- How tightly it binds. -/
  precedence : Int
  /-- Where it was written. -/
  layout : Layout
deriving DecidableEq, Repr

/-! ## Values and what they are made of -/

mutual

/-- A value. -/
inductive Value where
  /-- No value. -/
  | nothing
  /-- The answer of a control structure that took no action. -/
  | didNothing
  /-- A truth value. -/
  | boolean (flag : Bool)
  /-- A text or number. -/
  | text (content : TextValue)
  /-- A tag. -/
  | tag (name : Name)
  /-- A list. -/
  | list (items : List Value)
  /-- A record. -/
  | record (record : Record)
  /-- A key and a value that belong together. -/
  | pair (key value : Value)
  /-- A name to look up. -/
  | identifier (name : Name)
  /-- A command to handle. -/
  | command (command : Command)
  /-- Expressions to run one after the other. -/
  | block (items : List Value)
  /-- A value to evaluate later, in the scope it was written in. -/
  | thunk (id : Nat) (body : Value) (scope : Scope) (coercion : Coercion)
  /-- A coercion. -/
  | coercion (coercion : Coercion)
  /-- A handler. -/
  | handler (handler : Handler)
  /-- A handler and the scope it was found in. -/
  | closure (handler : Handler) (scope : Scope)
  /-- A target of commands. -/
  | reference (id : Nat) (target : Target)

/-- A record. -/
inductive Record where
  /-- Fields, in the order they were given. -/
  | fields (entries : List (Key × Value))
  /-- Keys and values that are still to be evaluated. -/
  | computed (pairs : List (Value × Value))

/-- A command. -/
structure Command where
  /-- The name of its handler. -/
  name : Name
  /-- Its arguments. -/
  arguments : List Argument
  /-- The operator it was written with. -/
  writtenAs : Option OperatorUse

/-- An argument of a command. -/
structure Argument where
  /-- Its label. -/
  label : Option Name
  /-- Its expression. -/
  value : Value

/-- What a value is wanted as. -/
inductive Coercion where
  /-- Any value, and nothing too. -/
  | anything
  /-- The same as `anything`, under another name. -/
  | value
  /-- The expression itself. -/
  | expression
  /-- A truth value. -/
  | boolean
  /-- A text. -/
  | text
  /-- A number. -/
  | number
  /-- A whole number. -/
  | integer
  /-- A number that is used as a double. -/
  | real
  /-- A tag. -/
  | tag
  /-- A text or a tag. -/
  | recordKey
  /-- Nothing, after evaluation. -/
  | noResult
  /-- A coercion. -/
  | coercion
  /-- Something to call. -/
  | handler
  /-- A target of commands, or nothing. -/
  | reference
  /-- A list of items. -/
  | list (item : Coercion)
  /-- A record of fields. -/
  | record (field : Coercion)
  /-- Nothing where there is no value. -/
  | optional (inner : Coercion)
  /-- A thunk. -/
  | lazy (inner : Coercion)
  /-- Another value where there is none. -/
  | default (fallback : Value) (inner : Coercion)

/-- A parameter of a handler. -/
structure Parameter where
  /-- The label its argument may have. -/
  label : Name
  /-- The name its argument has inside the handler. -/
  binding : Name
  /-- What its argument is wanted as. -/
  coercion : Coercion

/-- The signature of a handler. -/
structure Interface where
  /-- The handler's name. -/
  name : Name
  /-- Its parameters. -/
  parameters : List Parameter
  /-- What its result is wanted as. -/
  returns : Coercion

/-- A handler. -/
inductive Handler where
  /-- A handler written in the language.  An event handler ignores arguments it has no place for. -/
  | native (id : Nat) (interface : Interface) (action : Value) (isEvent : Bool)
  /-- A primitive handler. -/
  | primitive (id : Nat) (interface : Interface) (body : Primitive)

/-- A frame of slots and what lies behind it. -/
inductive Environment where
  /-- A frame with nothing behind it. -/
  | root (id : Nat)
  /-- A frame in front of a scope. -/
  | child (id : Nat) (parent : Scope)

/-- Where names are looked up and commands are handled. -/
inductive Scope where
  /-- A frame. -/
  | frame (environment : Environment)
  /-- A target in front of a scope. -/
  | tell (target : Target) (parent : Scope)
  /-- A target alone. -/
  | receiver (target : Target)

/-- What answers names and commands. -/
inductive Target where
  /-- A list. -/
  | list (items : List Value)
  /-- A record. -/
  | record (record : Record)
  /-- A frame. -/
  | frame (environment : Environment)

end

instance : Inhabited Value := ⟨.nothing⟩
instance : Inhabited Coercion := ⟨.anything⟩

/-! ## Making values -/

namespace Value

/-- The text with given characters. -/
def ofString (content : String) : Value := .text (.plain content)

/-- The number with a given reading. -/
def ofScalar (scalar : Scalar) : Value := .text (.ofScalar scalar)

/-- A 64-bit integer. -/
def ofInt64 (value : Int64) : Value := .ofScalar (.ofInt64 value)

/-- A count.  One beyond 64 bits is cut down to the largest integer. -/
def ofCount (count : Nat) : Value := .ofInt64 (Int64.ofInt (min count 0x7FFFFFFFFFFFFFFF))

/-- A key as a value. -/
def ofKey : Key → Value
  | .text t => .text t
  | .tag name => .tag name

/-- The key a value is, if it is a text or a tag. -/
def toKey? : Value → Option Key
  | .text t => some (.text t)
  | .tag name => some (.tag name)
  | _ => none

end Value

/-- The argument a value is in a call: a pair keyed by an identifier is a labelled argument. -/
def Argument.ofValue : Value → Argument
  | .pair (.identifier label) value => ⟨some label, value⟩
  | value => ⟨none, value⟩

/-- A command with the arguments that some values are. -/
def Command.ofValues (name : Name) (values : List Value) : Command :=
  ⟨name, values.map .ofValue, none⟩

/-- A command written with an operator. -/
def Command.ofOperands (name : Name) (operands : List Value) (use : OperatorUse) : Command :=
  ⟨name, operands.map (⟨none, ·⟩), some use⟩

/-- A parameter with the same label and binding. -/
def Parameter.ofName (name : Name) (wanted : Coercion) : Parameter := ⟨name, name, wanted⟩

/-! ## Telling values apart -/

namespace Value

/-- Whether there is no value. -/
def isNothing : Value → Bool
  | .nothing | .didNothing => true
  | _ => false

/-- Whether evaluating the value runs code. -/
def isExpression : Value → Bool
  | .identifier _ | .command _ | .block _ | .thunk .. => true
  | _ => false

/-- Whether the value can be called with arguments. -/
def isCallable : Value → Bool
  | .handler _ | .closure .. | .coercion _ => true
  | _ => false

/-- A noun for the value. -/
def noun : Value → String
  | .nothing => "nothing"
  | .didNothing => "did_nothing"
  | .boolean _ => "boolean"
  | .text t => if t.isNumber then "number" else "text"
  | .tag _ => "tag"
  | .list _ => "list"
  | .record _ => "record"
  | .pair .. => "pair"
  | .identifier _ | .command _ => "expression"
  | .block _ => "block"
  | .thunk .. => "thunk"
  | .coercion _ => "coercion"
  | .handler _ | .closure .. => "handler"
  | .reference .. => "reference"

/-- The coercion that the value satisfies as it is. -/
def ownCoercion : Value → Coercion
  | .nothing | .didNothing | .pair .. => .anything
  | .boolean _ => .boolean
  | .text t => if t.scalar.isNumeric then .number else .text
  | .tag _ => .tag
  | .list _ => .list .anything
  | .record _ => .record .anything
  | .identifier _ | .command _ | .block _ => .expression
  | .thunk _ _ _ inner => .lazy inner
  | .coercion _ => .coercion
  | .handler _ | .closure .. => .handler
  | .reference .. => .reference

/-- The target a collection or reference is. -/
def toTarget? : Value → Option Target
  | .list items => some (.list items)
  | .record r => some (.record r)
  | .reference _ target => some target
  | _ => none

end Value

namespace Handler

/-- The handler's signature. -/
def interface : Handler → Interface
  | .native _ interface _ _ | .primitive _ interface _ => interface

/-- Whether the handler ignores arguments it has no place for. -/
def isEvent : Handler → Bool
  | .native _ _ _ isEvent => isEvent
  | .primitive .. => false

/-- The number that tells the handler apart. -/
def id : Handler → Nat
  | .native id .. | .primitive id .. => id

end Handler

/-! ## Scopes -/

mutual

/-- How many frames lie behind a frame. -/
def Environment.depth : Environment → Nat
  | .root _ => 0
  | .child _ parent => parent.depth + 1
termination_by structural environment => environment

/-- The depth of the frame a scope builds on. -/
def Scope.depth : Scope → Nat
  | .frame environment => environment.depth
  | .tell _ parent => parent.depth
  | .receiver _ => 0
termination_by structural scope => scope

end

/-- The number of a frame. -/
def Environment.id : Environment → Nat
  | .root id | .child id _ => id

end CommandScript
