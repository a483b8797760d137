import CommandScript.Coercion

/-!
# Host values

The type on the host side of each bridge, the coercion that a value goes through on its way there,
and the value that a host value becomes.
-/

namespace CommandScript

/-- A target of commands and the number that tells it apart. -/
structure Reference where
  /-- The number. -/
  id : Nat
  /-- The target. -/
  target : Target

namespace Bridge

/-- The type on the host side. -/
@[reducible] def Host : Bridge → Type
  | .bool => Bool
  | .text => String
  | .scalar => Scalar
  | .integer => Int64
  | .real => Float
  | .tag => Name
  | .value => Value
  | .expression => Value
  | .coercion => Coercion
  | .reference => Reference
  | .parameter => Parameter
  | .optional inner => Option inner.Host
  | .list item => List item.Host

/-- The coercion of the bridge. -/
def wanted : Bridge → Coercion
  | .bool => .boolean
  | .text => .text
  | .scalar => .number
  | .integer => .integer
  | .real => .real
  | .tag => .tag
  | .value => .value
  | .expression => .expression
  | .coercion => .coercion
  | .reference => .reference
  | .parameter => .value
  | .optional inner => .optional inner.wanted
  | .list item => .list item.wanted

/-- The value of a parameter: its label, its binding and its coercion. -/
def boxParameter (parameter : Parameter) : Value :=
  .list [.ofString parameter.label.text, .ofString parameter.binding.text,
    .coercion parameter.coercion]

/-- The value a host value becomes. -/
def box : (b : Bridge) → b.Host → Value
  | .bool, flag => .boolean flag
  | .text, content => .ofString content
  | .scalar, number => .ofScalar number
  | .integer, number => .ofInt64 number
  | .real, number => .ofScalar (.ofFloat number)
  | .tag, name => .tag name
  | .value, host => host
  | .expression, host => host
  | .coercion, host => .coercion host
  | .reference, host => .reference host.id host.target
  | .parameter, host => boxParameter host
  | .optional _, none => .nothing
  | .optional inner, some host => inner.box host
  | .list item, hosts => .list (hosts.map item.box)

end Bridge

end CommandScript
