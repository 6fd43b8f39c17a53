import Chiptune.Text.Numeral

/-! # Command line options

The options of the program: where to start and how far to play, or which instrument to audition.
`Options.set?` says which texts are values of an option. -/

namespace Chiptune
namespace CommandLine

/-- The options by name. -/
inductive Flag where
  /-- The most frames to play. -/
  | frames
  /-- The entry of the order list to start from. -/
  | order
  /-- The row to start from. -/
  | row
  /-- Whether to repeat the first pattern. -/
  | repeatPattern
  /-- The file to which a trace is written. -/
  | trace
  /-- The instrument to audition instead of playing the song. -/
  | preview
  /-- The note to audition it on. -/
  | note
  deriving DecidableEq, Repr

namespace Flag

/-- All options. -/
def all : List Flag := [frames, order, row, repeatPattern, trace, preview, note]

/-- The name of an option, without its dashes. -/
def name : Flag → String
  | frames => "frames"
  | order => "order"
  | row => "row"
  | repeatPattern => "repeat-pattern"
  | trace => "trace"
  | preview => "preview"
  | note => "note"

/-- The option of a name. -/
def ofName? (name : String) : Option Flag :=
  all.find? fun f => f.name == name

/-- Whether an option has a value. -/
def takesValue : Flag → Bool
  | repeatPattern => false
  | _ => true

end Flag

/-- What the command line asks for. -/
structure Options where
  /-- The most frames to play. -/
  frames : Nat := 3600
  /-- The entry of the order list to start from. -/
  order : Nat := 0
  /-- The row to start from. -/
  row : Nat := 0
  /-- Whether to repeat the first pattern. -/
  repeatPattern : Bool := false
  /-- The file to which a trace is written. -/
  trace : Option String := none
  /-- The instrument to audition instead of playing the song. -/
  preview : Option Nat := none
  /-- The note to audition it on. -/
  note : Nat := 24
  deriving DecidableEq, Repr

/-! ### Numbers -/

/-- Read a number without a sign or with a plus, up to a limit. -/
def readUnsigned? (limit : Nat) (text : String) : Option Nat :=
  let digits := match text.toList with
    | '+' :: cs => cs
    | cs => cs
  (Numeral.readDecimal? digits).filter fun n => n ≤ limit

/-- Read a number with any sign that lies between zero and a limit. -/
def readSigned? (limit : Nat) (text : String) : Option Nat :=
  match text.toList with
  | '-' :: cs => (Numeral.readDecimal? cs).filter fun n => n = 0
  | _ => readUnsigned? limit text

namespace Options

/-- Set an option; a value that it cannot have is refused. -/
def set? (o : Options) (f : Flag) (value : String) : Option Options :=
  match f with
  | .frames => (readUnsigned? 0xFFFFFFFFFFFFFFFF value).map fun frames => { o with frames }
  | .order => (readUnsigned? 0xFFFFFFFFFFFFFFFF value).map fun order => { o with order }
  | .row => (readSigned? 0xFFFF value).map fun row => { o with row }
  | .repeatPattern => some { o with repeatPattern := true }
  | .trace => if value.isEmpty then none else some { o with trace := some value }
  | .preview => (readSigned? 0xFF value).map fun id => { o with preview := some id }
  | .note => (readSigned? 0xFF value).map fun note => { o with note }

end Options
end CommandLine
end Chiptune
