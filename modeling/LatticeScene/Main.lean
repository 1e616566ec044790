import LatticeScene.CommandLine.Run

/-!
# The program

Reads the files that the command line names, runs the command and prints what it gives.
-/

namespace LatticeScene

open CommandLine

/-- The contents of a file, none if it cannot be read. -/
def readFile? (name : String) : IO (Option String) := do
  try return some (← IO.FS.readFile name)
  catch _ => return none

/-- The text of a cause for people. -/
def causeText : Cause → String
  | .because text => text
  | .unreadable => "the file cannot be read"
  | .malformed => "invalid JSON"

/-- Print how a run ended and give its exit code. -/
def report (outcome : Outcome) : IO UInt32 := do
  match outcome with
  | .success output => IO.print output
  | .failure causes => IO.eprintln ("Error: " ++ ": ".intercalate (causes.map causeText))
  | .misuse => IO.eprintln "error: the command line makes no sense, try '--help'"
  return outcome.exitCode.toUInt32

end LatticeScene

open LatticeScene CommandLine in
/-- Run the program with the arguments of the command line. -/
def main (arguments : List String) : IO UInt32 := do
  let invocation := Invocation.ofArguments arguments
  let contents ← invocation.files.mapM fun name => return (name, ← readFile? name)
  report (run (fun name => (contents.lookup name).join) invocation)
