import Parcel.Command.Execute

/-!
# The command line

Reads the files that a command asks for and prints what it gives.
-/

namespace Parcel.Main

def readFile (path : String) : IO (Option String) := do
  try
    let text ← IO.FS.readFile path
    return some text
  catch _ =>
    return none

def reportLine (d : Diagnostic) : String :=
  s!"{d.failure.title}: {d.failure.message}"

/-- Prints the answer to a command line. -/
def answer (arguments : List String) : IO UInt32 := do
  let result ← Request.answer readFile arguments
  (← IO.getStdout).putStr result.output
  (← IO.getStdout).flush
  for d in result.reports do
    IO.eprintln (reportLine d)
  if let some complaint := result.complaint then
    IO.eprintln s!"Error: {complaint}"
  return result.exitCode.toUInt32

end Parcel.Main

/-- The entry point. -/
def main (arguments : List String) : IO UInt32 :=
  Parcel.Main.answer arguments
