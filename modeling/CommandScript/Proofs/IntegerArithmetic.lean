import CommandScript.Proofs.DataLiterals

/-!
# Integer arithmetic

Sums, differences and products of integers come out as they do on paper, as long as every result on
the way has 64 bits.

An expression is told without the program: as a tree of sums of products of factors, with the text
it is written as and its value as an integer.  The text is read as the code of the tree, since the
operators are grouped by their precedences as the tree is.  Each operator stands for a command, and
the command goes to a handler of the library, which computes with the numbers that its operands come
to.  So each operation of the tree is one step of both, of reading and of running, and the rest is an
induction over the tree.
-/

namespace CommandScript

/-! ## Expressions over integers -/

/-- Where an expression may stand. -/
inductive ArithmeticLevel where
  | sum
  | product
  | factor

/-- An expression over integers.  Products bind more tightly than sums and differences, all three
group to the left, and a sum in parentheses is a factor. -/
inductive Arithmetic : ArithmeticLevel → Type where
  /-- A literal without a sign. -/
  | literal (number : Nat) (hlimit : number ≤ 9223372036854775807) : Arithmetic .factor
  /-- A sum in parentheses. -/
  | group (inner : Arithmetic .sum) : Arithmetic .factor
  /-- A factor alone. -/
  | factor (only : Arithmetic .factor) : Arithmetic .product
  /-- A product and a factor. -/
  | times (left : Arithmetic .product) (right : Arithmetic .factor) : Arithmetic .product
  /-- A product alone. -/
  | product (only : Arithmetic .product) : Arithmetic .sum
  /-- A sum and what is added. -/
  | plus (left : Arithmetic .sum) (right : Arithmetic .product) : Arithmetic .sum
  /-- A sum and what is subtracted. -/
  | minus (left : Arithmetic .sum) (right : Arithmetic .product) : Arithmetic .sum

namespace Arithmetic

variable {level : ArithmeticLevel}

/-- The source text, with single spaces between the tokens. -/
def source : {level : ArithmeticLevel} → Arithmetic level → String
  | _, .literal number _ => toString number
  | _, .group inner => "( " ++ inner.source ++ " )"
  | _, .factor only => only.source
  | _, .times left right => left.source ++ " × " ++ right.source
  | _, .product only => only.source
  | _, .plus left right => left.source ++ " + " ++ right.source
  | _, .minus left right => left.source ++ " - " ++ right.source

/-- The integer that an expression stands for. -/
def value : {level : ArithmeticLevel} → Arithmetic level → Int
  | _, .literal number _ => number
  | _, .group inner => inner.value
  | _, .factor only => only.value
  | _, .times left right => left.value * right.value
  | _, .product only => only.value
  | _, .plus left right => left.value + right.value
  | _, .minus left right => left.value - right.value

/-- Every result on the way to the value has 64 bits, and so has the value. -/
def Exact : {level : ArithmeticLevel} → Arithmetic level → Prop
  | _, .literal .. => True
  | _, .group inner => inner.Exact
  | _, .factor only => only.Exact
  | _, .times left right => left.Exact ∧ right.Exact ∧ Is64Bit (left.value * right.value)
  | _, .product only => only.Exact
  | _, .plus left right => left.Exact ∧ right.Exact ∧ Is64Bit (left.value + right.value)
  | _, .minus left right => left.Exact ∧ right.Exact ∧ Is64Bit (left.value - right.value)

/-- The value of an expression is among the results that are in range. -/
theorem Exact.is64Bit {e : Arithmetic level} (h : e.Exact) : Is64Bit e.value := by
  induction e with
  | literal number hlimit =>
    simp only [Is64Bit, value]
    omega
  | group inner ih => exact ih h
  | factor only ih => exact ih h
  | product only ih => exact ih h
  | times left right => exact h.2.2
  | plus left right => exact h.2.2
  | minus left right => exact h.2.2

end Arithmetic

/-! ## Operations -/

/-- An operation of integer arithmetic. -/
inductive ArithmeticSign where
  | plus
  | minus
  | times

namespace ArithmeticSign

/-- The operator of the library. -/
def operator : ArithmeticSign → Operator
  | .plus => ⟨"+", 470, .between, [], some "add"⟩
  | .minus => ⟨"-", 470, .between, [], some "subtract"⟩
  | .times => ⟨"×", 480, .between, ["*"], some "multiply"⟩

/-- What the handler of the operator computes. -/
def operation : ArithmeticSign → NumberOperation
  | .plus => .add
  | .minus => .subtract
  | .times => .multiply

/-- The operation on integers. -/
def compute : ArithmeticSign → Int → Int → Int
  | .plus => (· + ·)
  | .minus => (· - ·)
  | .times => (· * ·)

/-- The code of an operation. -/
def code (sign : ArithmeticSign) (left right : Value) : Value :=
  Parser.commandWith sign.operator .between [left, right]

/-- Each sign is an operator of the library. -/
theorem continuing?_operator {registry : Registry} (h : Library.registry = .ok registry)
    (sign : ArithmeticSign) :
    registry.continuing? sign.operator.name = some sign.operator := by
  have hkey : Text.lowercase sign.operator.name = sign.operator.name := by
    cases sign <;> decide +kernel
  have hop : sign.operator ∈ Library.operators := by
    cases sign <;> simp [Library.operators, Library.arithmeticOperators, operator]
  have hleading : sign.operator.fixity.isLeading = false := by
    cases sign <;> rfl
  have hfound := (Registry.registers_of_addAll h).continuing? hop hleading
    (List.mem_cons_self (a := sign.operator.name))
  rwa [hkey] at hfound

theorem mem_handlers (sign : ArithmeticSign) :
    Library.numberHandler sign.operator.handler sign.operation ∈ Library.handlers := by
  cases sign <;> simp [Library.handlers, Library.arithmeticHandlers, operator, operation,
    Operator.handler]

/-- The operation gives the exact result, if that has 64 bits. -/
theorem apply_operation (sign : ArithmeticSign) {m n : Int} (hm : Is64Bit m) (hn : Is64Bit n)
    (h : Is64Bit (sign.compute m n)) :
    sign.operation.apply (.ofInt64 (Int64.ofInt m)) (.ofInt64 (Int64.ofInt n)) =
      .ok (.ofInt64 (Int64.ofInt (sign.compute m n))) := by
  have hfits : int64OfInt? (sign.compute m n) = some (Int64.ofInt (sign.compute m n)) :=
    int64OfInt?_of_is64Bit h
  cases sign with
  | _ =>
    simp only [compute] at hfits
    simp only [operation, NumberOperation.apply, Scalar.add, Scalar.sub, Scalar.mul, Scalar.binary,
      Scalar.ofInt64, hm.toInt_ofInt, hn.toInt_ofInt, hfits, compute]

end ArithmeticSign

/-! ## Reading expressions -/

namespace Parser

open Lexer

variable {registry : Registry} {text leftText rightText : String} {left right value : Value}

/-- The operations of an expression bind at least as tightly as a precedence, and it takes nothing
that binds no more tightly. -/
structure Edge.Tight (edge : Edge) (precedence : Int) : Prop where
  /-- What can be cut off binds as tightly. -/
  reach : ∀ reach ∈ edge.reach, precedence ≤ reach
  /-- What binds no more tightly stays outside. -/
  leaves : edge.Leaves precedence

/-- What binds tightly fits under anything looser. -/
theorem Edge.Tight.fits {edge : Edge} {precedence least : Int} (h : edge.Tight precedence)
    (hless : least < precedence) : edge.Fits least := by
  refine ⟨fun reach hreach => ?_, h.leaves.mono (Int.le_of_lt hless)⟩
  have := h.reach reach hreach
  omega

theorem Edge.Tight.mono {edge : Edge} {precedence other : Int} (h : edge.Tight precedence)
    (hle : other ≤ precedence) : edge.Tight other :=
  ⟨fun reach hreach => Int.le_trans hle (h.reach reach hreach), h.leaves.mono hle⟩

theorem Edge.closed_tight (precedence : Int) : Edge.closed.Tight precedence := ⟨nofun, nofun⟩

/-- The text spells an expression, whose operations bind at least as tightly as a precedence. -/
def SpellsTightly (registry : Registry) (text : String) (value : Value) (precedence : Int) : Prop :=
  ∃ edge : Edge, edge.Tight precedence ∧ Lexes registry text.toList (Spells (.value value edge))

theorem SpellsTightly.mono {precedence other : Int} (h : SpellsTightly registry text value precedence)
    (hle : other ≤ precedence) : SpellsTightly registry text value other := by
  obtain ⟨edge, htight, hlexes⟩ := h
  exact ⟨edge, htight.mono hle, hlexes⟩

/-- The left operand binds at least as tightly as the operator, and the right one more tightly. -/
theorem spellsTightly_operation (h : Library.registry = .ok registry) (sign : ArithmeticSign)
    {between : String} (hbetween : between = " " ++ sign.operator.name ++ " ") {tighter : Int}
    (htighter : sign.operator.precedence < tighter)
    (hleft : SpellsTightly registry leftText left sign.operator.precedence)
    (hright : SpellsTightly registry rightText right tighter) :
    SpellsTightly registry (leftText ++ between ++ rightText) (sign.code left right)
      sign.operator.precedence := by
  have hprints := prints_library h
  have hop := sign.continuing?_operator h
  have hlevel : rightLevel sign.operator = sign.operator.precedence := by cases sign <;> rfl
  have hcolon : colonPrecedence < sign.operator.precedence := by cases sign <;> decide
  obtain ⟨leftEdge, hleftTight, hleftLexes⟩ := hleft
  obtain ⟨rightEdge, hrightTight, hrightLexes⟩ := hright
  have htight : Edge.Tight ⟨some sign.operator.precedence, some (rightLevel sign.operator)⟩
      sign.operator.precedence := by
    rw [hlevel]
    constructor
    · rintro reach ⟨⟩
      exact Int.le_refl _
    · rintro slack ⟨⟩
      exact Int.le_refl _
  have htext : (leftText ++ between ++ rightText).toList =
      leftText.toList ++ ' ' :: (sign.operator.name.toList ++ ' ' :: rightText.toList) := by
    simp [hbetween]
  refine ⟨_, htight, ?_⟩
  rw [htext]
  refine (Lexes.between hprints.regular (hprints.token_continuing hop) hleftLexes
    hrightLexes).mono ?_
  rintro _ ⟨front, token, back, rfl, hfront, ⟨found, hkind, hfound⟩, hback⟩
  refine .between hkind hfound (by cases sign <;> rfl) (htight.fits hcolon) hleftTight.reach
    hleftTight.leaves ?_ hfront hback
  rw [hlevel]
  exact hrightTight.fits htighter

/-- Parentheses with a blank on the inner side of each. -/
theorem lexes_group {cs : List Char} {P : List Token → Prop} (h : Lexes registry cs P) :
    Lexes registry ('(' :: ' ' :: (cs ++ [' ', ')'])) fun tokens => ∃ first inner last,
      tokens = first :: (inner ++ [last]) ∧ first.kind = .groupOpen ∧ last.kind = .groupClose ∧
        P inner := by
  refine ⟨⟨'(', _, rfl, rfl⟩, fun offset rest _ => ?_⟩
  obtain ⟨first, hfirst, -, hopens⟩ := covers_punctuation registry brackets_group.opens offset
    false ([' '] ++ (cs ++ ([' '] ++ [')'])) ++ rest)
  have hhead : ∀ c ∈ (cs ++ ([' '] ++ [')']) ++ rest).head?, Text.isInlineBlank c = false := by
    rw [List.append_assoc]
    exact h.head _
  obtain ⟨blank, hblank, hspace⟩ :=
    covers_space registry hhead (offset + byteLength ['(']) false
  obtain ⟨inner, middle, hinner, hP⟩ := h.inside
    (offset + byteLength ['('] + byteLength [' ']) ([' '] ++ [')'] ++ rest) (ends_cons (by decide))
  have hparenthesis : ∀ c ∈ ([')'] ++ rest).head?, Text.isInlineBlank c = false := by
    rintro _ ⟨⟩
    rfl
  obtain ⟨blank', hblank', hspace'⟩ := covers_space registry hparenthesis
    (offset + byteLength ['('] + byteLength [' '] + byteLength cs) middle
  obtain ⟨last, hlast, -, hcloses⟩ := covers_punctuation registry brackets_group.closes
    (offset + byteLength ['('] + byteLength [' '] + byteLength cs + byteLength [' ']) middle rest
  have hcovers := hopens.append (hspace.append (hinner.append (hspace'.append hcloses)))
  refine ⟨_, _, hcovers, first, meaningful inner, last, ?_, hfirst, hlast, hP⟩
  simp only [meaningful_append, meaningful_cons (hfirst ▸ isTrivia_punctuation brackets_group.opens),
    meaningful_cons (hlast ▸ isTrivia_punctuation brackets_group.closes), meaningful_nil,
    meaningful_cons_trivia (show blank.kind.isTrivia = true by rw [hblank]; rfl),
    meaningful_cons_trivia (show blank'.kind.isTrivia = true by rw [hblank']; rfl),
    List.nil_append, List.cons_append]

end Parser

namespace Arithmetic

open CommandScript.Parser Lexer

variable {registry : Registry} {level : ArithmeticLevel}

/-- The code that an expression is read as. -/
def code : {level : ArithmeticLevel} → Arithmetic level → Value
  | _, .literal number _ => .ofInt64 (Int64.ofNat number)
  | _, .group inner => inner.code
  | _, .factor only => only.code
  | _, .times left right => ArithmeticSign.times.code left.code right.code
  | _, .product only => only.code
  | _, .plus left right => ArithmeticSign.plus.code left.code right.code
  | _, .minus left right => ArithmeticSign.minus.code left.code right.code

end Arithmetic

/-- How tightly the operations outside of parentheses bind at least. -/
def ArithmeticLevel.precedence : ArithmeticLevel → Int
  | .sum => 470
  | .product => 480
  | .factor => 490

namespace Arithmetic

variable {registry : Registry} {level : ArithmeticLevel}

/-- The source text of an expression spells its code. -/
theorem spellsTightly (h : Library.registry = .ok registry) (e : Arithmetic level) :
    Parser.SpellsTightly registry e.source e.code level.precedence := by
  induction e with
  | literal number hlimit =>
    have hnumber : toString number = toString (Int64.ofNat number).toInt := by
      rw [Int64.toInt_ofNat_of_lt (by omega)]
      rfl
    refine ⟨.closed, Parser.Edge.closed_tight _, ?_⟩
    rw [source, code, hnumber]
    refine (Parser.lexes_token (Parser.prints_library h).regular
      (Lexer.isToken_number (Numeral.scan?_int64 _))).mono ?_
    rintro _ ⟨token, rfl, hkind⟩
    exact .number hkind
  | group inner ih =>
    obtain ⟨edge, -, hinner⟩ := ih
    refine ⟨.closed, Parser.Edge.closed_tight _, ?_⟩
    have htext : (Arithmetic.group inner).source.toList =
        '(' :: ' ' :: (inner.source.toList ++ [' ', ')']) := by
      simp [source]
    rw [htext]
    refine (Parser.lexes_group hinner).mono ?_
    rintro _ ⟨first, tokens, last, rfl, hfirst, hlast, htokens⟩
    exact .group hfirst hlast htokens
  | factor only ih => exact ih.mono (by decide)
  | product only ih => exact ih.mono (by decide)
  | times left right ihLeft ihRight =>
    exact Parser.spellsTightly_operation h .times (by decide) (by decide) ihLeft ihRight
  | plus left right ihLeft ihRight =>
    exact Parser.spellsTightly_operation h .plus (by decide) (by decide) ihLeft ihRight
  | minus left right ihLeft ihRight =>
    exact Parser.spellsTightly_operation h .minus (by decide) (by decide) ihLeft ihRight

end Arithmetic

/-! ## Running expressions -/

namespace Evaluation

variable {scope owner : Scope} {environment : Environment} {store : Store} {wanted : Coercion}
  {code value : Value}

theorem RunsTo.settles_number {number : Int64}
    (h : RunsTo scope store code (.ofInt64 number)) :
    Settles scope store .number code (.ofInt64 number) := by
  obtain ⟨enough, hruns⟩ := h
  refine ⟨enough + 2, fun fuel hfuel => ?_⟩
  obtain ⟨fuel, rfl⟩ : ∃ smaller, fuel = smaller + 2 := ⟨fuel - 2, by omega⟩
  exact hruns (fuel + 1) (by omega) .number _

end Evaluation

open Evaluation

variable {start : Store} {interpreter : Interpreter}

/-- An operation on code for two integers runs to the exact result, if that has 64 bits. -/
theorem runsTo_operation
    (hload : Interpreter.withLibrary start.newRoot.1 start.newRoot.2 = .ok interpreter)
    (sign : ArithmeticSign) {left right : Value} {m n : Int} (hm : Is64Bit m) (hn : Is64Bit n)
    (hleft : Settles (.frame interpreter.globals) interpreter.store .number left
      (.ofInt64 (Int64.ofInt m)))
    (hright : Settles (.frame interpreter.globals) interpreter.store .number right
      (.ofInt64 (Int64.ofInt n)))
    (hfits : Is64Bit (sign.compute m n)) :
    RunsTo (.frame interpreter.globals) interpreter.store (sign.code left right)
      (.ofInt64 (Int64.ofInt (sign.compute m n))) := by
  obtain ⟨number, hlookup⟩ := Interpreter.lookup_handler hload sign.mem_handlers
  let supplies : List Supply :=
    [⟨Library.parameter "left" .number, left, .ofInt64 (Int64.ofInt m)⟩,
      ⟨Library.parameter "right" .number, right, .ofInt64 (Int64.ofInt n)⟩]
  have hparameters : Library.operands .number = supplies.map Supply.parameter := rfl
  have hsettles : ∀ supply ∈ supplies, Settles (.frame interpreter.globals) interpreter.store
      supply.parameter.coercion supply.code supply.value :=
    List.forall_mem_cons.2 ⟨hleft, List.forall_mem_singleton.2 hright⟩
  refine run_primitive hlookup hparameters rfl hsettles ⟨1, fun fuel hfuel => ?_⟩
  obtain ⟨fuel, rfl⟩ := Nat.exists_eq_succ_of_ne_zero (Nat.ne_zero_of_lt hfuel)
  -- Both operands are numbers already, and the handler takes them as they are.
  change answerScalar _ (sign.operation.apply (.ofInt64 (Int64.ofInt m))
    (.ofInt64 (Int64.ofInt n))) interpreter.store = _
  rw [sign.apply_operation hm hn hfits]
  rfl

namespace Arithmetic

variable {level : ArithmeticLevel}

/-- The code of an expression gives its value, also where a number is wanted. -/
structure Computes (interpreter : Interpreter) (code : Value) (n : Int) : Prop where
  /-- Where anything is wanted. -/
  anything : Settles (.frame interpreter.globals) interpreter.store .anything code
    (.ofInt64 (Int64.ofInt n))
  /-- Where a number is wanted. -/
  number : Settles (.frame interpreter.globals) interpreter.store .number code
    (.ofInt64 (Int64.ofInt n))

/-- An operation on two expressions computes the result, if this is in range. -/
theorem computes_operation
    (hload : Interpreter.withLibrary start.newRoot.1 start.newRoot.2 = .ok interpreter)
    (sign : ArithmeticSign) {left right : Value} {m n : Int} (hm : Is64Bit m) (hn : Is64Bit n)
    (hleft : Computes interpreter left m) (hright : Computes interpreter right n)
    (hfits : Is64Bit (sign.compute m n)) :
    Computes interpreter (sign.code left right) (sign.compute m n) := by
  have hruns := runsTo_operation hload sign hm hn hleft.number hright.number hfits
  exact ⟨hruns.settles .anything (settles_of_succ fun _ => rfl) rfl, hruns.settles_number⟩

/-- The code of an expression gives the integer that the expression stands for. -/
theorem Exact.computes
    (hload : Interpreter.withLibrary start.newRoot.1 start.newRoot.2 = .ok interpreter)
    {e : Arithmetic level} (h : e.Exact) : Computes interpreter e.code e.value := by
  induction e with
  | literal number => exact ⟨settles_of_succ fun _ => rfl, settles_of_succ fun _ => rfl⟩
  | group inner ih => exact ih h
  | factor only ih => exact ih h
  | product only ih => exact ih h
  | times left right ihLeft ihRight =>
    obtain ⟨hleft, hright, hfits⟩ := h
    exact computes_operation hload .times hleft.is64Bit hright.is64Bit (ihLeft hleft)
      (ihRight hright) hfits
  | plus left right ihLeft ihRight =>
    obtain ⟨hleft, hright, hfits⟩ := h
    exact computes_operation hload .plus hleft.is64Bit hright.is64Bit (ihLeft hleft)
      (ihRight hright) hfits
  | minus left right ihLeft ihRight =>
    obtain ⟨hleft, hright, hfits⟩ := h
    exact computes_operation hload .minus hleft.is64Bit hright.is64Bit (ihLeft hleft)
      (ihRight hright) hfits

end Arithmetic

/-- An expression over integers whose results all have 64 bits, run in a new interpreter with the
library, gives the integer it stands for, and the interpreter is as it was. -/
theorem Interpreter.evaluate_arithmetic (start : Store) (interpreter : Interpreter)
    (hload : withLibrary start.newRoot.1 start.newRoot.2 = .ok interpreter)
    (e : Arithmetic .sum) (hexact : e.Exact) :
    ∃ number : Int64, number.toInt = e.value ∧ ∃ enough, ∀ fuel, enough ≤ fuel →
      interpreter.evaluate fuel e.source = .done (.ofInt64 number) interpreter := by
  refine ⟨Int64.ofInt e.value, hexact.is64Bit.toInt_ofInt, ?_⟩
  obtain ⟨edge, -, hlexes⟩ := e.spellsTightly (registry_withLibrary hload)
  have hread : readScript interpreter.registry e.source = .ok [e.code] := hlexes.readScript
  obtain ⟨enough, hsettles⟩ := (hexact.computes hload).anything
  refine ⟨enough + 2, fun fuel hfuel => ?_⟩
  obtain ⟨fuel, rfl⟩ : ∃ smaller, fuel = smaller + 2 := ⟨fuel - 2, by omega⟩
  have hdone := hsettles fuel (by omega)
  have hblock := (below_coerce_single fuel e.code).eq (by rw [hdone]; nofun)
  rw [evaluate, hread]
  simp only [runScript, hblock, hdone]

/-- A product of a sum in parentheses, and a difference. -/
def groupedArithmetic : Arithmetic .sum :=
  .minus
    (.product
      (.times
        (.factor (.group (.plus (.product (.factor (.literal 2 (by decide))))
          (.factor (.literal 3 (by decide))))))
        (.literal 4 (by decide))))
    (.factor (.literal 27 (by decide)))

theorem Interpreter.evaluate_arithmetic_grouped :
    ∃ interpreter, standard = .ok interpreter ∧ groupedArithmetic.Exact ∧
      groupedArithmetic.source = "( 2 + 3 ) × 4 - 27" ∧ ∃ enough, ∀ fuel, enough ≤ fuel →
        interpreter.evaluate fuel groupedArithmetic.source = .done (.ofInt64 (-7)) interpreter := by
  obtain ⟨interpreter, hstandard⟩ := exists_standard
  have hexact : groupedArithmetic.Exact := by
    simp [groupedArithmetic, Arithmetic.Exact, Arithmetic.value, Is64Bit]
  obtain ⟨number, hnumber, hevaluate⟩ :=
    evaluate_arithmetic Store.empty interpreter hstandard groupedArithmetic hexact
  obtain rfl : number = -7 := Int64.toInt_inj.1 hnumber
  exact ⟨interpreter, hstandard, hexact, by decide +kernel, hevaluate⟩

end CommandScript
