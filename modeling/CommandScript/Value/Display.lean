import CommandScript.Coercion
import CommandScript.Operator
import CommandScript.Value.Record

/-!
# Values as code

A value is shown as the code that stands for it, where there is such code, and as a note between
guillemets otherwise.

* A name that needs quotes stands in them.
* A text stands in quotes, with quotes and backslashes inside it after a backslash, and three
  control characters as letters.
* A command is shown with the operator it was written with.  An operand that binds more loosely than
  the operator stands in parentheses.

A reference to a frame is shown by the frame's description, which depends on the slots it has.  So
every function here takes a description of frames.
-/

namespace CommandScript

/-! ## Names and texts -/

namespace Display

/-- A name, in quotes if it needs them. -/
def name (text : String) : String :=
  if Character.needsNoQuotes text.toList then text else "'" ++ text ++ "'"

/-- A character inside a quoted text. -/
def textChar (c : Char) : List Char :=
  if c = '\\' || Character.isTextQuote c then ['\\', c]
  else if c = '\n' then ['\\', 'n']
  else if c = '\t' then ['\\', 't']
  else if c = '\r' then ['\\', 'r']
  else [c]

/-- A text in quotes. -/
def text (content : String) : String :=
  String.ofList ('“' :: content.toList.flatMap textChar ++ ['”'])

/-- A text or number. -/
def textValue : TextValue → String
  | .plain content => text content
  | .number literal _ => literal

/-- A tag. -/
def tag (tagName : Name) : String := "#" ++ name tagName.text

/-- A key of a record. -/
def key : Key → String
  | .text content => textValue content
  | .tag tagName => tag tagName

/-- A text in parentheses, if asked for. -/
def parenthesized (asked : Bool) (content : String) : String :=
  if asked then "(" ++ content ++ ")" else content

/-- Whether a value was written with an operator that binds more loosely than a precedence. -/
def bindsLooser (value : Value) (precedence : Int) : Bool :=
  match value with
  | .command ⟨_, _, some use⟩ => use.layout != .atom && use.precedence < precedence
  | _ => false

/-- Whether an operator is set apart from its operand by a blank. -/
def isSpaced (operator : String) : Bool := operator.toList.head?.any Text.isAlphabetic

/-- Whether a key of a computed record needs parentheses, since a bare name would be a tag. -/
def isBareName : Value → Bool
  | .identifier _ => true
  | _ => false

/-- The label of an argument. -/
def label : Option Name → String
  | some labelName => name labelName.text ++ ": "
  | none => ""

end Display

/-! ## Values -/

/-- A description of frames. -/
abbrev FrameDescription := Environment → String

mutual

/-- A value as code. -/
def Value.display (frames : FrameDescription) : Value → String
  | .nothing => "nothing"
  | .didNothing => "did_nothing"
  | .boolean flag => if flag then "true" else "false"
  | .text t => Display.textValue t
  | .tag name => Display.tag name
  | .list items => "[" ++ displayItems frames ", " items ++ "]"
  | .record r => r.display frames
  | .pair key value => key.display frames ++ ": " ++ value.display frames
  | .identifier name => Display.name name.text
  | .command c => c.display frames
  | .block items => "\x7b" ++ displayItems frames "; " items ++ "\x7d"
  | .thunk _ body _ _ => "«thunk " ++ body.display frames ++ "»"
  | .coercion c => c.display frames
  | .handler h => "«handler " ++ h.display frames ++ "»"
  | .closure h _ => "«handler " ++ h.display frames ++ "»"
  | .reference _ target => "«reference " ++ target.display frames ++ "»"
termination_by structural value => value

/-- Values with a separator between them. -/
def displayItems (frames : FrameDescription) (separator : String) : List Value → String
  | [] => ""
  | [value] => value.display frames
  | value :: values => value.display frames ++ separator ++ displayItems frames separator values
termination_by structural values => values

/-- A record as code. -/
def Record.display (frames : FrameDescription) : Record → String
  | .fields [] => "[:]"
  | .computed [] => "[:]"
  | .fields entries => "[" ++ displayEntries frames entries ++ "]"
  | .computed pairs => "[" ++ displayPairs frames pairs ++ "]"
termination_by structural record => record

/-- The fields of a record. -/
def displayEntries (frames : FrameDescription) : List (Key × Value) → String
  | [] => ""
  | [(key, value)] => Display.key key ++ ": " ++ value.display frames
  | (key, value) :: rest =>
    Display.key key ++ ": " ++ value.display frames ++ ", " ++ displayEntries frames rest
termination_by structural entries => entries

/-- The keys and values of a computed record. -/
def displayPairs (frames : FrameDescription) : List (Value × Value) → String
  | [] => ""
  | [(key, value)] =>
    Display.parenthesized (Display.isBareName key) (key.display frames) ++ ": " ++
      value.display frames
  | (key, value) :: rest =>
    Display.parenthesized (Display.isBareName key) (key.display frames) ++ ": " ++
      value.display frames ++ ", " ++ displayPairs frames rest
termination_by structural pairs => pairs

/-- A command as code. -/
def Command.display (frames : FrameDescription) : Command → String
  | ⟨name, arguments, none⟩ =>
    Display.name name.text ++ "(" ++ displayArguments frames arguments ++ ")"
  | ⟨name, arguments, some use⟩ =>
    let operand (value : Value) (precedence : Int) (shown : String) : String :=
      Display.parenthesized (Display.bindsLooser value precedence) shown
    match use.layout, arguments with
    | .atom, [] => use.operator
    | .before, [⟨_, value⟩] =>
      use.operator ++ (if Display.isSpaced use.operator then " " else "") ++
        operand value use.precedence (value.display frames)
    | .between, [⟨_, left⟩, ⟨_, right⟩] =>
      operand left use.precedence (left.display frames) ++ " " ++ use.operator ++ " " ++
        operand right (tighter use.precedence) (right.display frames)
    | .after, [⟨_, value⟩] =>
      operand value use.precedence (value.display frames) ++ " " ++ use.operator
    | .keyword, ⟨_, value⟩ :: rest =>
      use.operator ++ " " ++ operand value use.precedence (value.display frames) ++
        displayBehind frames rest
    | _, arguments => Display.name name.text ++ "(" ++ displayArguments frames arguments ++ ")"
termination_by structural command => command

/-- The arguments behind the first of a keyword, each after a blank. -/
def displayBehind (frames : FrameDescription) : List Argument → String
  | [] => ""
  | ⟨_, value⟩ :: rest => " " ++ value.display frames ++ displayBehind frames rest
termination_by structural arguments => arguments

/-- Arguments with their labels. -/
def displayArguments (frames : FrameDescription) : List Argument → String
  | [] => ""
  | [⟨label, value⟩] => Display.label label ++ value.display frames
  | ⟨label, value⟩ :: rest =>
    Display.label label ++ value.display frames ++ ", " ++ displayArguments frames rest
termination_by structural arguments => arguments

/-- A coercion as code. -/
def Coercion.display (frames : FrameDescription) : Coercion → String
  | .list inner => if inner.isAnything then "list" else "list(" ++ inner.display frames ++ ")"
  | .record inner => if inner.isAnything then "record" else "record(" ++ inner.display frames ++ ")"
  | .optional inner => "optional(" ++ inner.display frames ++ ")"
  | .lazy inner => "lazy(" ++ inner.display frames ++ ")"
  | .default fallback inner =>
    "default(" ++ fallback.display frames ++ ", " ++ inner.display frames ++ ")"
  | simple => simple.name
termination_by structural c => c

/-- A handler as its signature. -/
def Handler.display (frames : FrameDescription) : Handler → String
  | .native _ interface _ _ => interface.display frames
  | .primitive _ interface _ => interface.display frames
termination_by structural handler => handler

/-- A signature. -/
def Interface.display (frames : FrameDescription) : Interface → String
  | ⟨name, parameters, returns⟩ =>
    name.text ++ "(" ++ displayParameters frames parameters ++ ")" ++
      (if returns.isAnything then "" else " returning " ++ returns.display frames)
termination_by structural interface => interface

/-- Parameters with a comma between them. -/
def displayParameters (frames : FrameDescription) : List Parameter → String
  | [] => ""
  | [parameter] => parameter.display frames
  | parameter :: rest => parameter.display frames ++ ", " ++ displayParameters frames rest
termination_by structural parameters => parameters

/-- A parameter: its label if that differs, its binding, and its coercion unless it is `anything`.
-/
def Parameter.display (frames : FrameDescription) : Parameter → String
  | ⟨label, binding, wanted⟩ =>
    (if label == binding then "" else label.text ++ ": ") ++ binding.text ++
      (if wanted.isAnything then "" else " as " ++ wanted.display frames)
termination_by structural parameter => parameter

/-- A target of commands. -/
def Target.display (frames : FrameDescription) : Target → String
  | .list items => "List([" ++ displayItems frames ", " items ++ "])"
  | .record r => "Record(" ++ r.display frames ++ ")"
  | .frame environment => frames environment
termination_by structural target => target

end

end CommandScript
