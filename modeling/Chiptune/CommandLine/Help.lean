import Chiptune.CommandLine.Options

/-! # Command line help

The text that explains the options, and the line that names the program and its version.  The
explanations stand in a column of their own, behind the longest option. -/

namespace Chiptune
namespace CommandLine

/-- The name of the program. -/
def programName : String := "gbt-cli"

/-- The version of the program. -/
def programVersion : String := "0.1.0"

/-- The line about the version. -/
def versionLine : String :=
  programName ++ " " ++ programVersion

namespace Flag

/-- The name that stands for the value of an option. -/
def placeholder (f : Flag) : String :=
  if f.takesValue then " <" ++ f.name.toUpper ++ ">" else ""

/-- What an option does. -/
def explanation : Flag → String
  | frames => "Maximum frames to render"
  | order => "Order index to start from"
  | row => "Row to start from"
  | repeatPattern => "Loop the starting pattern instead of following the order list"
  | trace => "Write a register trace to this file"
  | preview => "Audition an instrument instead of playing the song"
  | note => "Note index for --preview (0 = C-2)"

/-- The value that an option has unless it is given, if it always has one. -/
def standard? : Flag → Option Nat
  | frames => some ({} : Options).frames
  | order => some ({} : Options).order
  | row => some ({} : Options).row
  | note => some ({} : Options).note
  | _ => none

/-- What an option does, and the value that it has unless it is given. -/
def description (f : Flag) : String :=
  match f.standard? with
  | some n => f.explanation ++ " [default: " ++ Numeral.decimal 1 n ++ "]"
  | none => f.explanation

end Flag

/-- The options, each with what it does, in the order in which they are explained. -/
def helpEntries : List (String × String) :=
  Flag.all.map (fun f => ("    --" ++ f.name ++ f.placeholder, f.description)) ++
    [("-h, --help", "Print help"), ("-V, --version", "Print version")]

/-- The width of the longest option. -/
def helpWidth : Nat :=
  helpEntries.foldl (fun width (option, _) => max width option.length) 0

/-- The line about an option. -/
def helpLine (option description : String) : String :=
  let gap := String.ofList (List.replicate (helpWidth - option.length) ' ')
  "  " ++ option ++ gap ++ "  " ++ description

/-- The lines that explain the options. -/
def helpLines : List String :=
  ["Render the demo song and report what the sound device saw",
   "",
   "Usage: " ++ programName ++ " [OPTIONS]",
   "",
   "Options:"] ++ helpEntries.map fun (option, description) => helpLine option description

end CommandLine
end Chiptune
