import CommandScript.Operator.Registry

/-!
# The operators of the library

Each operator stands for a command that names its handler, so `1 + 2` is `add(1, 2)`, and
`if x { … }` is `if(x, { … })`.  From tight to loose they are `^`, the signs, multiplication and
division, addition and subtraction, `&`, the comparisons, `as`, `NOT`, `AND`, `XOR`, `OR`, the
keywords, and `else`.
-/

namespace CommandScript.Library

/-- Arithmetic, and the joining of texts. -/
def arithmeticOperators : List Operator :=
  [⟨"^", 500, .betweenRight, ["exp"], some "exponent"⟩,
   ⟨"+", 490, .before, [], some "positive"⟩,
   ⟨"-", 490, .before, [], some "negative"⟩,
   ⟨"×", 480, .between, ["*"], some "multiply"⟩,
   ⟨"÷", 480, .between, ["/"], some "divide"⟩,
   ⟨"div", 480, .between, ["//"], some "int_divide"⟩,
   ⟨"mod", 480, .between, ["%"], some "modulus"⟩,
   ⟨"+", 470, .between, [], some "add"⟩,
   ⟨"-", 470, .between, [], some "subtract"⟩,
   ⟨"&", 450, .between, [], some "join"⟩]

/-- Comparisons of numbers and of texts, and coercion. -/
def comparisonOperators : List Operator :=
  [⟨"<", 400, .between, [], some "is_less"⟩,
   ⟨"≤", 400, .between, ["<="], some "is_less_or_equal"⟩,
   ⟨"=", 400, .between, ["=="], some "is_equal"⟩,
   ⟨"≠", 400, .between, ["!="], some "is_not_equal"⟩,
   ⟨">", 400, .between, [], some "is_greater"⟩,
   ⟨"≥", 400, .between, [">="], some "is_greater_or_equal"⟩,
   ⟨"lt", 400, .between, [], none⟩,
   ⟨"le", 400, .between, [], none⟩,
   ⟨"eq", 400, .between, [], none⟩,
   ⟨"ne", 400, .between, [], none⟩,
   ⟨"gt", 400, .between, [], none⟩,
   ⟨"ge", 400, .between, [], none⟩,
   ⟨"is_a", 400, .between, [], none⟩,
   ⟨"as", 350, .between, [], some "coerce"⟩]

/-- Logic. -/
def logicOperators : List Operator :=
  [⟨"NOT", 100, .before, [], none⟩,
   ⟨"AND", 98, .between, [], none⟩,
   ⟨"XOR", 96, .between, [], none⟩,
   ⟨"OR", 94, .between, [], none⟩]

/-- Keywords with a block, and the definition of handlers. -/
def controlOperators : List Operator :=
  [⟨"if", 60, .keywordBlock, [], none⟩,
   ⟨"while", 60, .keywordBlock, [], none⟩,
   ⟨"repeat", 60, .keywordBlock, [], none⟩,
   ⟨"tell", 60, .keywordBlock, [], none⟩,
   ⟨"to", 60, .commandHandler, [], some "define_handler"⟩,
   ⟨"when", 60, .eventHandler, [], some "define_handler"⟩,
   ⟨"else", 50, .betweenRight, [], none⟩]

/-- Constants. -/
def atomOperators : List Operator :=
  [⟨"nothing", 0, .atom, [], none⟩,
   ⟨"true", 0, .atom, [], none⟩,
   ⟨"false", 0, .atom, [], none⟩,
   ⟨"π", 0, .atom, ["pi"], none⟩]

/-- Every operator of the library. -/
def operators : List Operator :=
  arithmeticOperators ++ comparisonOperators ++ logicOperators ++ controlOperators ++ atomOperators

/-- A registry with the library's operators only. -/
def registry : Except RegistrationError Registry := Registry.empty.addAll operators

end CommandScript.Library
