import CommandScript.Interpreter

/-!
# The command line

The arguments say what to do.  Some commands need a file, which is read first.  Then everything is
known, and a report says what goes to the two outputs and how the program ends: with 0, or with 1
after a failure.

A script prints while it runs.  `eval` prints the result too, unless it is nothing.
-/

namespace CommandScript

namespace CommandLine

/-! ## Commands -/

/-- A command that works on a file. -/
inductive FileCommand where
  /-- Runs the file as a script. -/
  | run
  /-- Lists the tokens of the file. -/
  | lex
  /-- Lists the statements of the file. -/
  | parse
deriving DecidableEq, Repr

/-- What the arguments ask for. -/
inductive Invocation where
  /-- How to use the program. -/
  | help
  /-- Which version the program is. -/
  | version
  /-- Some code to evaluate. -/
  | eval (code : String)
  /-- Something to do with a file. -/
  | file (command : FileCommand) (path : String)
  /-- A command without the argument it needs. -/
  | incomplete (command argument : String)
  /-- A command that does not exist. -/
  | unknown (command : String)
deriving DecidableEq, Repr

/-- The last component of a path that is more than a dot.  Nothing if there is none or it leads
upwards. -/
def fileName? (path : String) : Option (List Char) :=
  let parts := (path.toList.splitOnP (· = '/')).filter fun part => part ≠ [] ∧ part ≠ ['.']
  match parts.getLast? with
  | some part => if part = ['.', '.'] then none else some part
  | none => none

/-- The extension of a file name: what follows its last dot, if something stands before that dot. -/
def extension? (name : List Char) : Option (List Char) :=
  let after := name.reverse.takeWhile (· ≠ '.')
  let before := name.reverse.dropWhile (· ≠ '.')
  if before.length ≤ 1 then none else some after.reverse

/-- Whether a path names a script. -/
def isScript (path : String) : Bool :=
  match (fileName? path).bind extension? with
  | some extension => Text.eqIgnoringAsciiCase (String.ofList extension) "sy"
  | none => false

namespace Invocation

/-- A command on a file that is named behind it. -/
def onFile (command : FileCommand) (name : String) : List String → Invocation
  | path :: _ => .file command path
  | [] => .incomplete name "file.sy"

/-- What the arguments of the program ask for. -/
def ofArguments : List String → Invocation
  | [] => .help
  | command :: rest =>
    match command with
    | "run" => onFile .run command rest
    | "lex" => onFile .lex command rest
    | "parse" => onFile .parse command rest
    | "eval" => if rest.isEmpty then .incomplete command "code" else .eval (" ".intercalate rest)
    | "help" | "--help" | "-h" => .help
    | "version" | "--version" | "-v" => .version
    | _ => if isScript command then .file .run command else .unknown command

/-- The file that has to be read. -/
def path? : Invocation → Option String
  | .file _ path => some path
  | _ => none

end Invocation

/-! ## Files -/

/-- What reading a file gave. -/
inductive FileContent where
  /-- Its text. -/
  | text (source : String)
  /-- There is no such file. -/
  | absent
  /-- The file may not be read. -/
  | denied
  /-- The bytes of the file are no text. -/
  | malformed
  /-- Something else went wrong. -/
  | failed (reason : String)
deriving DecidableEq, Repr

/-- The text that some bytes are. -/
def FileContent.ofBytes (bytes : ByteArray) : FileContent :=
  match String.fromUTF8? bytes with
  | some source => .text source
  | none => .malformed

/-- The text of a file, or why there is none. -/
def FileContent.read (path : String) : FileContent → Except String String
  | .text source => .ok source
  | .absent => .error ("cannot find file '" ++ path ++ "'")
  | .denied => .error ("permission denied reading '" ++ path ++ "'")
  | .malformed => .error ("'" ++ path ++ "' contains invalid UTF-8 data")
  | .failed reason => .error ("error reading '" ++ path ++ "': " ++ reason)

/-! ## Reports -/

/-- What the program writes and how it ends. -/
structure Report where
  /-- What goes to the standard output. -/
  output : String
  /-- What goes to the error output. -/
  errors : String
  /-- The exit status. -/
  status : Nat
deriving DecidableEq, Repr

namespace Report

/-- Lines, each with its end. -/
def lines (texts : List String) : String := String.join (texts.map (· ++ "\n"))

/-- The report of a success. -/
def success (output : String) : Report := ⟨output, "", 0⟩

/-- The report of a failure, after some output. -/
def failure (output : String) (problem : String) : Report := ⟨output, problem ++ "\n", 1⟩

end Report

/-- How to use the program. -/
def usage : String := Report.lines
  ["Sylvia interpreter",
   "",
   "Usage: sylvia <command> [options]",
   "",
   "Commands:",
   "  run <file.sy>     Run a Sylvia script",
   "  eval <code>       Evaluate code and print the result",
   "  lex <file.sy>     Tokenize and display tokens",
   "  parse <file.sy>   Parse and display statements",
   "  help              Show this help message",
   "  version           Show version information",
   "",
   "A path ending in .sy runs the file.",
   "",
   "Set SYLVIA_LOG (e.g. SYLVIA_LOG=debug) to trace evaluation on stderr."]

/-- The version of the program. -/
def version : String := "0.1.0-alpha.1"

/-- Blanks that fill a text up to a width. -/
def padding (width : Nat) (text : String) : String :=
  String.ofList (List.replicate (width - text.length) ' ')

/-- A number at the right end of a column. -/
def alignRight (width : Nat) (number : Nat) : String :=
  padding width (toString number) ++ toString number

/-- A number at the left end of a column. -/
def alignLeft (width : Nat) (number : Nat) : String :=
  toString number ++ padding width (toString number)

/-- A token with the bytes it covers. -/
def tokenLine (token : Token) : String :=
  "  " ++ alignRight 5 token.span.start ++ ".." ++ alignLeft 5 token.span.stop ++ " " ++
    token.kind.describe

/-- The tokens of a file. -/
def lexReport (interpreter : Interpreter) (path source : String) : Report :=
  let tokens := tokenize interpreter.registry source
  .success (Report.lines
    (("Tokens for '" ++ path ++ "' (" ++ toString tokens.length ++ " tokens):") ::
      tokens.map tokenLine))

/-- The statements of a file. -/
def parseReport (interpreter : Interpreter) (path source : String) : Report :=
  match readScript interpreter.registry source with
  | .error problem => .failure "" (interpreter.render source (.syntactic problem))
  | .ok statements =>
    .success (Report.lines
      (("Parsed '" ++ path ++ "' (" ++ toString statements.length ++ " statements):") ::
        statements.map fun item => "  " ++ item.display interpreter.store.describe))

/-- The result of some code, as a line. -/
def resultLine (interpreter : Interpreter) : Value → String
  | .nothing => ""
  | value => value.display interpreter.store.describe ++ "\n"

/-- A script run, its result shown or not.  Nothing if the fuel did not suffice. -/
def runReport (fuel : Nat) (interpreter : Interpreter) (showResult : Bool) (source : String) :
    Option Report :=
  match interpreter.evaluate fuel source with
  | .done result after =>
    some (.success (after.printed ++ if showResult then resultLine after result else ""))
  | .failed error after => some (.failure after.printed (after.render source error))
  | .outOfFuel => none

/-- A report that needs an interpreter. -/
def withInterpreter (report : Interpreter → Option Report) : Option Report :=
  match Interpreter.standard with
  | .ok interpreter => report interpreter
  | .error problem =>
    some (.failure "" ((ScriptError.library problem).message Store.empty.describe))

/-- A command on the text of a file. -/
def fileReport (fuel : Nat) (path source : String) : FileCommand → Option Report
  | .run => withInterpreter fun interpreter => runReport fuel interpreter false source
  | .lex => withInterpreter fun interpreter => some (lexReport interpreter path source)
  | .parse => withInterpreter fun interpreter => some (parseReport interpreter path source)

/-- What the program does, given what reading its file gave.  Nothing if the fuel did not suffice.
-/
def Invocation.report (fuel : Nat) (content : FileContent) : Invocation → Option Report
  | .help => some (.success usage)
  | .version => some (.success ("Sylvia " ++ CommandLine.version ++ "\n"))
  | .eval code => withInterpreter fun interpreter => runReport fuel interpreter true code
  | .file command path =>
    match content.read path with
    | .ok source => fileReport fuel path source command
    | .error problem => some (.failure "" problem)
  | .incomplete command argument =>
    some (.failure "" ("Usage: sylvia " ++ command ++ " <" ++ argument ++ ">"))
  | .unknown command => some ⟨usage, Report.lines ["Unknown command: " ++ command, ""], 1⟩

end CommandLine

end CommandScript
