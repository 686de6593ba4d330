import MessageGrammar.CommandLine.Report

/-!
# The program

Reads the arguments and the configuration file they name, and writes the report.
-/

open MessageGrammar.CommandLine

/-- The text of a file, if it can be read. -/
def readText? (path : String) : IO (Option String) := do
  try
    return some (← IO.FS.readFile path)
  catch _ =>
    return none

/-- Runs the program. -/
def main (arguments : List String) : IO UInt32 := do
  let request := Request.ofArguments arguments
  let content ← match Request.config? request with
    | some path => readText? path
    | none => pure none
  let report := Request.report content request
  IO.eprint report.errors
  IO.print report.output
  return report.code
