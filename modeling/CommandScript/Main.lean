import CommandScript.CommandLine

/-!
# The program

Reads the file that the arguments name, if they name one, and writes the report.
-/

namespace CommandScript.CommandLine

/-- How far an evaluation may go. -/
def evaluationFuel : Nat := 0x4000000000000000

/-- What is in a file. -/
def readContent (path : String) : IO FileContent := do
  try
    return .ofBytes (← IO.FS.readBinFile path)
  catch
    | .noFileOrDirectory .. => return .absent
    | .permissionDenied .. => return .denied
    | problem => return .failed (toString problem)

/-- The program with given arguments. -/
def start (arguments : List String) : IO UInt32 := do
  let invocation := Invocation.ofArguments arguments
  let content ← match invocation.path? with
    | some path => readContent path
    | none => pure .absent
  match invocation.report evaluationFuel content with
  | some report =>
    IO.print report.output
    IO.eprint report.errors
    return report.status.toUInt32
  | none => return 1

end CommandScript.CommandLine

/-- Runs the program. -/
def main (arguments : List String) : IO UInt32 := CommandScript.CommandLine.start arguments
