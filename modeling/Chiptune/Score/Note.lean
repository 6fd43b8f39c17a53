import Chiptune.Text.Numeral

/-! # Notes

A row names no note, a note of the scale by its index from C-2, or a cut.  Indices up to
`Note.last` can be played; the noise channel stops at `Note.noiseLast`. -/

namespace Chiptune

/-- What a row says about the note of its channel. -/
inductive Note where
  /-- The row leaves the sounding note alone. -/
  | none
  /-- A note of the scale, counted in semitones from C-2. -/
  | on (index : Nat)
  /-- The sounding note ends. -/
  | cut
  deriving DecidableEq, Repr

namespace Note

instance : Inhabited Note := ⟨.none⟩

/-- The highest playable note, B-8. -/
def last : Nat := 83

/-- The highest note of the noise channel, B-6. -/
def noiseLast : Nat := 59

/-- The index behind the last note, which asks for a cut. -/
def cutIndex : Nat := last + 1

/-- The octave of the note with index zero. -/
def lowestOctave : Nat := 2

/-- The names of the twelve semitones. -/
def semitoneNames : List String :=
  ["C-", "C#", "D-", "D#", "E-", "F-", "F#", "G-", "G#", "A-", "A#", "B-"]

/-- The octave of a note of the scale. -/
def octave? : Note → Option Nat
  | on n => some (n / 12 + lowestOctave)
  | _ => Option.none

/-- The semitone within its octave of a note of the scale. -/
def semitone? : Note → Option Nat
  | on n => some (n % 12)
  | _ => Option.none

/-- The index that requests a note: a cut has the reserved one, no note has none. -/
def index? : Note → Option Nat
  | none => Option.none
  | on n => some n
  | cut => some cutIndex

/-- The three-character text of a note; indices behind the last note read as question marks. -/
def text : Note → String
  | none => "---"
  | cut => "==="
  | on n =>
      if n ≤ last then
        semitoneNames.getD (n % 12) "" ++ Numeral.decimal 1 (n / 12 + lowestOctave)
      else "???"

/-! ### Notes by octave -/

/-- Which step of the index computation leaves the range of a byte. -/
inductive IndexOverflow where
  /-- The octave lies below the lowest one. -/
  | subtract
  /-- The octave is too high. -/
  | multiply
  /-- The semitone is too high for the octave. -/
  | add
  deriving DecidableEq, Repr

/-- The wording of an overflow. -/
def IndexOverflow.message : IndexOverflow → String
  | subtract => "attempt to subtract with overflow"
  | multiply => "attempt to multiply with overflow"
  | add => "attempt to add with overflow"

/-- The note of an octave and a semitone, provided each step of its index fits a byte. -/
def ofOctave (octave semitone : Nat) : Except IndexOverflow Note :=
  let base := (octave - lowestOctave) * 12
  if octave < lowestOctave then .error .subtract
  else if 256 ≤ base then .error .multiply
  else if 256 ≤ base + semitone then .error .add
  else .ok (.on (base + semitone))

end Note
end Chiptune
