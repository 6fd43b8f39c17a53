import Chiptune.Bank.Sequence
import Chiptune.Channel
import Chiptune.Text.Name

/-! # Instruments

An instrument has a program, which runs on the channel, and two sequences, which move its pitch.
Envelope, timbre and panning serve to audition it outside a song. -/

namespace Chiptune

/-- The most bytes that a program may have. -/
def Instrument.maxProgramLength : Nat := 256

/-- An instrument. -/
structure Instrument where
  /-- The name, within the size of a stored name. -/
  name : String
  /-- The channel that the instrument is meant for. -/
  channel : Channel
  /-- The envelope to audition it with, or the waveform on the wave channel. -/
  envelope : UInt8
  /-- The timbre to audition it with. -/
  timbre : UInt8
  /-- The outputs to audition it on: bit one is left, bit zero right. -/
  panning : UInt8
  /-- Offsets in semitones, one per frame. -/
  arpeggio : Sequence
  /-- Pitch offsets, one per frame, which add up. -/
  pitch : Sequence
  /-- The bytes of the program. -/
  program : List UInt8
  /-- The program is not too long. -/
  length_le : program.length ≤ Instrument.maxProgramLength := by decide
  deriving DecidableEq, Repr

namespace Instrument

/-- An instrument without a program and without sequences. -/
def new (name : String) (channel : Channel) : Instrument where
  name := Name.truncate name
  channel
  envelope := if channel = .ch3 then 0 else 0xF0
  timbre := 3
  panning := 3
  arpeggio := Sequence.empty
  pitch := Sequence.empty
  program := []

/-- Give the instrument another program. -/
def setProgram (i : Instrument) (program : List UInt8) : Except EditError Instrument :=
  if length_le : program.length ≤ maxProgramLength then .ok { i with program, length_le }
  else .error (.programTooLong program.length)

end Instrument
end Chiptune
