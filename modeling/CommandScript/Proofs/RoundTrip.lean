import CommandScript.Proofs.Printing
import CommandScript.Value.Equality

/-!
# Code that was read, printed and read again

Code that was read as an expression is printed so that reading it again gives the same code, with
its commands, their arguments and the operators they were written with.

This is so for plain code: literals, names and calls, lists and blocks, and operators alone, before
an operand, between two operands, or before an operand and a block.  There are two gaps.

* The left operand of an operator that groups to the right, when it is such an operation of the same
  precedence, is printed without parentheses.  So `(2 ^ 3) ^ 2` is printed as `2 ^ 3 ^ 2`.
* A sign before a number is printed right before its digits.  So `- 3` is printed as `-3`.
-/

namespace CommandScript

/-! ## Tests of all code inside a value -/

mutual

/-- Whether a test holds of a value and of all code inside it. -/
def Value.everywhere (test : Value → Bool) : Value → Bool
  | .list items => test (.list items) && itemsEverywhere test items
  | .block items => test (.block items) && itemsEverywhere test items
  | .command c => test (.command c) && c.everywhere test
  | other => test other
termination_by structural value => value

/-- Whether a test holds of values and of all code inside them. -/
def itemsEverywhere (test : Value → Bool) : List Value → Bool
  | [] => true
  | item :: items => item.everywhere test && itemsEverywhere test items
termination_by structural items => items

/-- Whether a test holds of all code inside a command. -/
def Command.everywhere (test : Value → Bool) : Command → Bool
  | ⟨_, arguments, _⟩ => argumentsEverywhere test arguments
termination_by structural command => command

/-- Whether a test holds of arguments and of all code inside them. -/
def argumentsEverywhere (test : Value → Bool) : List Argument → Bool
  | [] => true
  | ⟨_, value⟩ :: rest => value.everywhere test && argumentsEverywhere test rest
termination_by structural arguments => arguments

end

section Everywhere

variable {test : Value → Bool}

theorem itemsEverywhere_iff {items : List Value} :
    itemsEverywhere test items = true ↔ ∀ item ∈ items, item.everywhere test = true := by
  induction items with
  | nil => simp [itemsEverywhere]
  | cons item items ih => simp [itemsEverywhere, ih]

theorem argumentsEverywhere_iff {arguments : List Argument} :
    argumentsEverywhere test arguments = true ↔
      ∀ argument ∈ arguments, argument.value.everywhere test = true := by
  induction arguments with
  | nil => simp [argumentsEverywhere]
  | cons argument arguments ih =>
    obtain ⟨label, value⟩ := argument
    simp [argumentsEverywhere, ih]

/-- A test of all code inside a value is the test of the value and of each part. -/
theorem everywhere_list {items : List Value} :
    (Value.list items).everywhere test = true ↔
      test (.list items) = true ∧ ∀ item ∈ items, item.everywhere test = true := by
  rw [Value.everywhere, Bool.and_eq_true, itemsEverywhere_iff]

theorem everywhere_block {items : List Value} :
    (Value.block items).everywhere test = true ↔
      test (.block items) = true ∧ ∀ item ∈ items, item.everywhere test = true := by
  rw [Value.everywhere, Bool.and_eq_true, itemsEverywhere_iff]

theorem everywhere_command {command : Command} :
    (Value.command command).everywhere test = true ↔
      test (.command command) = true ∧
        ∀ argument ∈ command.arguments, argument.value.everywhere test = true := by
  obtain ⟨name, arguments, use⟩ := command
  rw [Value.everywhere, Bool.and_eq_true, Command.everywhere, argumentsEverywhere_iff]

/-- What holds everywhere in a value holds of it. -/
theorem Value.test_of_everywhere {value : Value} (h : value.everywhere test = true) :
    test value = true := by
  cases value with
  | list items => exact (everywhere_list.1 h).1
  | block items => exact (everywhere_block.1 h).1
  | command command => exact (everywhere_command.1 h).1
  | _ => exact h

end Everywhere

/-! ## Plain code -/

namespace Parser

/-- Whether a text is not the spelling of an operator. -/
def isFree (registry : Registry) (text : String) : Bool := (registry.find? text).isNone

/-- Whether a value is a literal, a name, a call, a list, a block or an operation.  Names, of labels
too, are not spelled like operators. -/
def isPlain (registry : Registry) : Value → Bool
  | .text _ | .tag _ | .list _ | .block _ => true
  | .identifier name => isFree registry name.text
  | .command ⟨name, arguments, none⟩ =>
    isFree registry name.text && arguments.all fun argument =>
      argument.label.all fun label => isFree registry label.text
  | .command ⟨_, _, some use⟩ => use.layout != .after
  | _ => false

/-- Whether the operands of a value are printed so that they are read as they were.  A sign is not
joined to a digit, and the left operand is not an operation that groups to the right and binds as
tightly. -/
def keepsOperands (registry : Registry) (frames : FrameDescription) : Value → Bool
  | .command ⟨_, [⟨_, operand⟩], some ⟨operator, precedence, .before⟩⟩ =>
    Display.isSpaced operator ||
      (operandText frames operand precedence).toList.head?.all fun c => !c.isDigit
  | .command ⟨_, [⟨_, left⟩, _], some ⟨_, precedence, .between⟩⟩ =>
    !groupsRight registry left precedence
  | _ => true

variable {registry : Registry} {frames : FrameDescription} {value : Value}

/-- Code that is plain and keeps its operands, all through. -/
structure Reprints (registry : Registry) (frames : FrameDescription) (value : Value) : Prop where
  /-- It is plain. -/
  plain : value.everywhere (isPlain registry) = true
  /-- It keeps its operands. -/
  keeps : value.everywhere (keepsOperands registry frames) = true

/-- A name that no operator is spelled like is free. -/
theorem freeName_of_isFree {text : String} (hname : IsName text) (h : isFree registry text = true) :
    FreeName registry text := ⟨hname, Option.isNone_iff_eq_none.1 h⟩

/-- Plain code is no pair, so it is an argument without a label. -/
theorem Reprints.ofValue (h : Reprints registry frames value) :
    Argument.ofValue value = ⟨none, value⟩ := by
  have hplain := Value.test_of_everywhere h.plain
  cases value with
  | pair key value => cases hplain
  | _ => rfl

/-- The parts of code that is printed as it reads are printed so as well. -/
theorem Reprints.items {items : List Value} (h : Reprints registry frames (.list items)) :
    ∀ item ∈ items, Reprints registry frames item := fun item hitem =>
  ⟨(everywhere_list.1 h.plain).2 item hitem, (everywhere_list.1 h.keeps).2 item hitem⟩

theorem Reprints.statements {items : List Value} (h : Reprints registry frames (.block items)) :
    ∀ item ∈ items, Reprints registry frames item := fun item hitem =>
  ⟨(everywhere_block.1 h.plain).2 item hitem, (everywhere_block.1 h.keeps).2 item hitem⟩

theorem Reprints.arguments {command : Command} (h : Reprints registry frames (.command command)) :
    ∀ argument ∈ command.arguments, Reprints registry frames argument.value :=
  fun argument hargument => ⟨(everywhere_command.1 h.plain).2 argument hargument,
    (everywhere_command.1 h.keeps).2 argument hargument⟩

theorem Reprints.operands {op : Operator} {layout : Layout} {operands : List Value}
    (h : Reprints registry frames (commandWith op layout operands)) :
    ∀ operand ∈ operands, Reprints registry frames operand := fun operand hoperand =>
  h.arguments ⟨none, operand⟩ (List.mem_map.2 ⟨operand, hoperand, rfl⟩)

/-- An argument whose label is a name, and that is printable if it is plain and keeps its
operands. -/
structure PrintsArgument (registry : Registry) (frames : FrameDescription) (argument : Argument) :
    Prop where
  /-- The label is a name. -/
  label : ∀ label ∈ argument.label, IsName label.text
  /-- The value is printable. -/
  value : Reprints registry frames argument.value → Printable registry frames argument.value

/-- A value that is printable as an argument is printable. -/
theorem PrintsArgument.printable (h : PrintsArgument registry frames (.ofValue value))
    (hvalue : Reprints registry frames value) : Printable registry frames value := by
  have hargument := h.value
  rw [hvalue.ofValue] at hargument
  exact hargument hvalue

/-- An expression as an argument without a label. -/
theorem printsArgument_ofValue (hlabel : Argument.ofValue value = ⟨none, value⟩)
    (h : Reprints registry frames value → Printable registry frames value) :
    PrintsArgument registry frames (.ofValue value) := by
  rw [hlabel]
  exact ⟨nofun, h⟩

/-- What is not plain in itself is not code to print. -/
theorem printsArgument_of_not_plain (hlabel : Argument.ofValue value = ⟨none, value⟩)
    (h : isPlain registry value = false) : PrintsArgument registry frames (.ofValue value) := by
  refine printsArgument_ofValue hlabel fun hvalue => ?_
  have hplain := Value.test_of_everywhere hvalue.plain
  rw [h] at hplain
  cases hplain

/-- What was written is printable, if it is plain and keeps its operands. -/
theorem printsArgument_of_written (h : value.Written registry) :
    PrintsArgument registry frames (.ofValue value) := by
  induction h with
  | number hnumber => exact printsArgument_ofValue rfl fun _ => .number hnumber
  | text => exact printsArgument_ofValue rfl fun _ => .text
  | tag hname => exact printsArgument_ofValue rfl fun _ => .tag hname
  | identifier hname =>
    exact printsArgument_ofValue rfl fun hvalue =>
      .identifier (freeName_of_isFree hname (Value.test_of_everywhere hvalue.plain))
  | boolean | coercion | record => exact printsArgument_of_not_plain rfl rfl
  | list _ ih =>
    exact printsArgument_ofValue rfl fun hvalue =>
      .list fun item hitem => (ih item hitem).printable (hvalue.items item hitem)
  | block _ ih =>
    exact printsArgument_ofValue rfl fun hvalue =>
      .block fun item hitem => (ih item hitem).printable (hvalue.statements item hitem)
  | @pair key value hkey _ _ ih =>
    cases hkey with
    | identifier hname =>
      refine ⟨?_, ih.printable⟩
      rintro _ ⟨⟩
      exact hname
    | _ => exact printsArgument_of_not_plain rfl rfl
  | @call name values hname _ ih =>
    refine printsArgument_ofValue rfl fun hvalue => ?_
    have hplain := Value.test_of_everywhere hvalue.plain
    simp only [Command.ofValues, isPlain, Bool.and_eq_true, List.all_eq_true, Option.all_eq_true]
      at hplain
    refine .call (freeName_of_isFree hname hplain.1) ?_ ?_
    · intro argument hargument label hlabel
      have hfree := hplain.2 argument hargument label hlabel
      obtain ⟨value, hmem, rfl⟩ := List.mem_map.1 hargument
      exact freeName_of_isFree ((ih value hmem).label label hlabel) hfree
    · intro argument hargument
      have hreprints := hvalue.arguments argument hargument
      obtain ⟨value, hmem, rfl⟩ := List.mem_map.1 hargument
      exact (ih value hmem).value hreprints
  | @definition name first second third fourth isEvent =>
    refine printsArgument_ofValue rfl fun hvalue => ?_
    have hflag := hvalue.arguments ⟨none, .boolean isEvent⟩
      (by simp [Command.ofValues, Argument.ofValue])
    cases Value.test_of_everywhere hflag.plain
  | atom hop hform => exact printsArgument_ofValue rfl fun _ => .atom hop hform
  | @before _ op operand hop hform _ ih =>
    refine printsArgument_ofValue rfl fun hvalue => .before hop hform ?_ ?_
    · exact ih.printable (hvalue.operands operand (by simp))
    · have hkeeps := Value.test_of_everywhere hvalue.keeps
      simpa [keepsOperands, commandWith, Command.ofOperands, Option.all_eq_true] using hkeeps
  | @keyword _ op operand body hop hform _ _ ih ihBody =>
    refine printsArgument_ofValue rfl fun hvalue => .keyword hop hform ?_ fun item hitem => ?_
    · exact ih.printable (hvalue.operands operand (by simp))
    · have hbody := hvalue.operands (.block body) (by simp)
      exact (ihBody item hitem).printable (hbody.statements item hitem)
  | @between _ op left right hop hform _ _ ihLeft ihRight =>
    have hfixity : op.fixity = .between := by
      rcases hform with hform | hform <;> rw [Operator.fixity, hform] <;> rfl
    refine printsArgument_ofValue rfl fun hvalue => .between hop hfixity ?_ ?_ ?_
    · exact ihLeft.printable (hvalue.operands left (by simp))
    · exact ihRight.printable (hvalue.operands right (by simp))
    · have hkeeps := Value.test_of_everywhere hvalue.keeps
      simpa [keepsOperands, commandWith, Command.ofOperands] using hkeeps
  | after => exact printsArgument_of_not_plain rfl rfl

/-! ## Reading again -/

/-- An expression that was read is written. -/
theorem written_of_readExpression {source : String}
    (h : readExpression registry source = .ok value) :
    value.Written registry := by
  obtain ⟨after, hread⟩ := runOn_eq_ok_iff.1 h
  obtain ⟨found, middle, hfound, hrest⟩ := bind_eq_done hread
  obtain ⟨_, _, -, hrest⟩ := bind_eq_done hrest
  obtain ⟨_, _, -, hrest⟩ := bind_eq_done hrest
  cases hrest
  exact ((grammar_takes _).expression 0 _ _ _ (State.ofSource_faithful registry source) hfound).2

/-- Plain code that was read over the library's operators and keeps its operands, printed and read
again, is the same code. -/
theorem readExpression_reprinted (registry : Registry) (frames : FrameDescription) (source : String)
    (value : Value) (hregistry : Library.registry = .ok registry)
    (hread : readExpression registry source = .ok value)
    (hplain : value.everywhere (isPlain registry) = true)
    (hkeeps : value.everywhere (keepsOperands registry frames) = true) :
    readExpression registry (value.display frames) = .ok value := by
  have hvalue : Reprints registry frames value := ⟨hplain, hkeeps⟩
  have hprintable := (printsArgument_of_written (written_of_readExpression hread)).printable hvalue
  exact hprintable.readExpression_display (prints_library hregistry)

theorem readExpression_reprinted_nested :
    ∃ registry value, Library.registry = .ok registry ∧
      readExpression registry "if NOT a = -b × (c + 2) { f(x: [1, #t], “s”); 2 ^ 3 ^ 2 } else π" =
        .ok value ∧
      value.everywhere (isPlain registry) = true ∧
      value.everywhere (keepsOperands registry Store.empty.describe) = true ∧
      readExpression registry (value.display Store.empty.describe) = .ok value := by
  obtain ⟨registry, hregistry, htest⟩ := exists_ok (show Library.registry.toOption.any
    (fun registry => (readExpression registry
        "if NOT a = -b × (c + 2) { f(x: [1, #t], “s”); 2 ^ 3 ^ 2 } else π").toOption.any
      fun value => value.everywhere (isPlain registry) &&
        value.everywhere (keepsOperands registry Store.empty.describe)) = true by decide +kernel)
  obtain ⟨value, hread, hvalue⟩ := exists_ok htest
  obtain ⟨hplain, hkeeps⟩ := Bool.and_eq_true_iff.1 hvalue
  exact ⟨registry, value, hregistry, hread, hplain, hkeeps,
    readExpression_reprinted registry _ _ value hregistry hread hplain hkeeps⟩

/-- Plain code that is read as other code once it was printed. -/
def Misprinted (source : String) : Prop :=
  ∃ registry value other, Library.registry = .ok registry ∧
    readExpression registry source = .ok value ∧ value.everywhere (isPlain registry) = true ∧
    readExpression registry (value.display Store.empty.describe) = .ok other ∧
    other.equals value = false

theorem misprinted_of_test {source : String}
    (h : Library.registry.toOption.any (fun registry =>
      (readExpression registry source).toOption.any fun value =>
        value.everywhere (isPlain registry) &&
          (readExpression registry (value.display Store.empty.describe)).toOption.any
            fun other => !other.equals value) = true) : Misprinted source := by
  obtain ⟨registry, hregistry, htest⟩ := exists_ok h
  obtain ⟨value, hread, hvalue⟩ := exists_ok htest
  obtain ⟨hplain, hagain⟩ := Bool.and_eq_true_iff.1 hvalue
  obtain ⟨other, hother, hdiffers⟩ := exists_ok hagain
  exact ⟨registry, value, other, hregistry, hread, hplain, hother, by simpa using hdiffers⟩

/-- The left operand of an operator that groups to the right, and a sign before a digit. -/
theorem misprinted_power_and_sign : Misprinted "(2 ^ 3) ^ 2" ∧ Misprinted "- 3" :=
  ⟨misprinted_of_test (by decide +kernel), misprinted_of_test (by decide +kernel)⟩

end Parser

end CommandScript
