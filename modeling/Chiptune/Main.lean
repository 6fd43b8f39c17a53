import Chiptune.CommandLine.Outcome

/-! # The program

The command line: everything is decided by `CommandLine.run`, whose outcome is printed and written
here. -/

namespace Chiptune
namespace CommandLine

/-- Write the lines of a trace to a file; the result is the exit code. -/
def writeTrace (path : String) (lines : List String) : IO UInt32 := do
  try
    IO.FS.writeFile path (endLines lines)
    return 0
  catch e =>
    for line in failureLines ("failed to create " ++ path) (toString e) do
      IO.eprintln line
    return 1

/-- Print and write an outcome; the result is the exit code. -/
def deliver (outcome : Outcome) : IO UInt32 := do
  for line in outcome.output do
    IO.println line
  for line in outcome.errors do
    IO.eprintln line
  match outcome.trace with
  | some (path, lines) => writeTrace path lines
  | none => return UInt32.ofNat outcome.code

end CommandLine
end Chiptune

/-- Run the program. -/
def main (args : List String) : IO UInt32 :=
  Chiptune.CommandLine.deliver (Chiptune.CommandLine.run args)
