import CommandScript.Value

/-!
# The handlers of the library

Every primitive handler with its signature.  The parameters coerce the arguments before the handler
sees them.  A parameter for code, such as the action of `if`, takes the expression itself.

The comparisons written with letters compare texts, and those written in words compare numbers.
-/

namespace CommandScript.Library

/-- A primitive handler and its signature. -/
structure Definition where
  /-- The signature. -/
  interface : Interface
  /-- What the handler does. -/
  body : Primitive

/-- A primitive handler with given parameters. -/
def define (name : String) (parameters : List Parameter) (returns : Coercion) (body : Primitive) :
    Definition :=
  ⟨⟨.ofString name, parameters, returns⟩, body⟩

/-! ## Parameters -/

/-- A parameter. -/
def parameter (name : String) (wanted : Coercion) : Parameter := .ofName (.ofString name) wanted

/-- The two operands of an operator. -/
def operands (wanted : Coercion) : List Parameter :=
  [parameter "left" wanted, parameter "right" wanted]

/-- The action of a control structure. -/
def action : Parameter := parameter "action" .expression

/-- A truth value that may be left out. -/
def flag (name : String) (fallback : Bool) : Parameter :=
  parameter name (.default (.boolean fallback) .boolean)

/-! ## Numbers, texts and truth values -/

/-- An operation on two numbers. -/
def numberHandler (name : String) (operation : NumberOperation) : Definition :=
  define name (operands .number) .number (.number operation)

/-- A comparison of two numbers. -/
def numberTest (name : String) (test : Comparison) : Definition :=
  define name (operands .number) .boolean (.testNumbers test)

/-- A comparison of two texts. -/
def textTest (name : String) (test : Comparison) : Definition :=
  define name (operands .text) .boolean (.testTexts test)

/-- A connective of two truth values. -/
def logicHandler (name : String) (connective : Connective) : Definition :=
  define name (operands .boolean) .boolean (.logic connective)

/-- Arithmetic. -/
def arithmeticHandlers : List Definition :=
  [numberHandler "exponent" .exponent,
   numberHandler "multiply" .multiply,
   numberHandler "divide" .divide,
   numberHandler "int_divide" .intDivide,
   numberHandler "modulus" .modulus,
   numberHandler "add" .add,
   numberHandler "subtract" .subtract,
   define "positive" [parameter "right" .number] .number .positive,
   define "negative" [parameter "right" .number] .number .negative]

/-- Comparisons of numbers and of texts. -/
def comparisonHandlers : List Definition :=
  [numberTest "is_less" .less,
   numberTest "is_less_or_equal" .lessOrEqual,
   numberTest "is_equal" .equal,
   numberTest "is_not_equal" .notEqual,
   numberTest "is_greater" .greater,
   numberTest "is_greater_or_equal" .greaterOrEqual,
   textTest "lt" .less,
   textTest "le" .lessOrEqual,
   textTest "eq" .equal,
   textTest "ne" .notEqual,
   textTest "gt" .greater,
   textTest "ge" .greaterOrEqual]

/-- Logic. -/
def logicHandlers : List Definition :=
  [define "NOT" [parameter "right" .boolean] .boolean .not,
   logicHandler "AND" .and,
   logicHandler "OR" .or,
   logicHandler "XOR" .xor]

/-- Texts, counting and printing. -/
def textHandlers : List Definition :=
  [define "uppercase" [parameter "text" .text] .text .uppercase,
   define "lowercase" [parameter "text" .text] .text .lowercase,
   define "join" (operands .text) .text .join,
   define "count" [parameter "value" .value] .integer .count,
   define "show" [parameter "value" .anything] .noResult .show,
   define "format_code" [parameter "value" .anything] .text .formatCode]

/-! ## Control and state -/

/-- Control structures. -/
def controlHandlers : List Definition :=
  [define "if" [parameter "condition" .boolean, action] .anything .ifThen,
   define "else" [action, parameter "alternative_action" .expression] .anything .orElse,
   define "repeat" [parameter "count" .integer, action] .anything .repeatTimes,
   define "while" [parameter "condition" .expression, action] .anything .whileDo,
   define "tell" [parameter "target" .reference, action] .anything .tell]

/-- Storing, defining and coercing. -/
def stateHandlers : List Definition :=
  [define "store" [parameter "name" .text, parameter "value" .value, flag "read_only" true]
     .value .store,
   define "define_handler"
     [parameter "name" .text, parameter "parameters" (.list .value),
      parameter "return_type" (.default (.coercion .anything) .coercion), action,
      flag "is_event_handler" false]
     .handler .defineHandler,
   define "coerce" [parameter "value" .expression, parameter "coercion" .coercion]
     .anything .coerce,
   define "is_a" [parameter "value" .expression, parameter "coercion" .coercion]
     .boolean .isA]

/-- Every handler of the library. -/
def handlers : List Definition :=
  arithmeticHandlers ++ comparisonHandlers ++ logicHandlers ++ textHandlers ++ controlHandlers ++
    stateHandlers

end CommandScript.Library
