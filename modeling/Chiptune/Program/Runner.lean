import Chiptune.Bank.Instrument
import Chiptune.Device.Layout
import Chiptune.Pitch.Scale
import Chiptune.Program.Command

/-! # Program runners

A runner obeys one command of an instrument program per frame, for as long as a whole command is
left.  While it does so on a tone channel it sets the frequency of every frame, bent by the last
tunings that the program gave. -/

namespace Chiptune

/-- An instrument program on a channel, with the place that it has reached. -/
structure ProgramRunner where
  /-- The channel that the program rules. -/
  channel : Channel
  /-- The bytes of the program. -/
  program : List UInt8 := []
  /-- The number of bytes that were obeyed. -/
  position : Nat := 0
  /-- The last coarse tuning. -/
  coarse : Int8 := 0
  /-- The last fine tuning. -/
  fine : Int8 := 0
  /-- Whether the runner still obeys commands. -/
  isRunning : Bool := false
  deriving DecidableEq, Repr

namespace ProgramRunner

/-- The runner of a channel without a program. -/
def new (channel : Channel) : ProgramRunner :=
  { channel }

/-! ### Commands -/

/-- The command that is obeyed next, and its length. -/
def next? (r : ProgramRunner) : Option (Command × Nat) :=
  Command.decode (r.program.drop r.position)

/-- Run on if a whole command is left, and stop otherwise. -/
def settle (r : ProgramRunner) : ProgramRunner :=
  { r with isRunning := r.next?.isSome }

/-- Settling stays on the channel. -/
@[simp] theorem channel_settle (r : ProgramRunner) : r.settle.channel = r.channel := rfl

/-- Settling leaves the place in the program. -/
@[simp] theorem next?_settle (r : ProgramRunner) : r.settle.next? = r.next? := rfl

/-- A settled runner runs exactly if a whole command is left. -/
@[simp] theorem isRunning_settle (r : ProgramRunner) : r.settle.isRunning = r.next?.isSome := rfl

/-- Pass a command: the place moves behind it, and its tunings are kept. -/
def advance (r : ProgramRunner) (c : Command) (length : Nat) : ProgramRunner :=
  { r with
    position := r.position + length
    coarse := c.tune.getD r.coarse
    fine := c.fine.getD r.fine }

/-- A command stays on the channel. -/
@[simp] theorem channel_advance (r : ProgramRunner) (c : Command) (length : Nat) :
    (r.advance c length).channel = r.channel := rfl

/-- A command moves the place, and leaves the program. -/
@[simp] theorem program_advance (r : ProgramRunner) (c : Command) (length : Nat) :
    (r.advance c length).program = r.program := rfl

/-! ### Programs -/

/-- The runner of a channel at the start of a program; one that is too long counts as none. -/
def load (channel : Channel) (program : List UInt8) : ProgramRunner :=
  if program.length ≤ Instrument.maxProgramLength then settle { channel, program }
  else new channel

/-- Replace the program and start it. -/
def setProgram (r : ProgramRunner) (program : List UInt8) : ProgramRunner :=
  load r.channel program

/-- Drop the program. -/
def clear (r : ProgramRunner) : ProgramRunner :=
  new r.channel

/-- Start the program anew. -/
def reset (r : ProgramRunner) : ProgramRunner :=
  settle { channel := r.channel, program := r.program }

/-! ### Writes -/

/-- A frequency bent by the tunings. -/
def bend (r : ProgramRunner) (frequency : Nat) : Nat :=
  PitchKind.tone.clampFrequency (frequency + r.coarse.toInt + r.fine.toInt * 16)

/-- The writes that set the frequency, which the noise channel does not have. -/
def frequencyWrites (r : ProgramRunner) (frequency : Nat) : List DeviceWrite :=
  if r.channel.isNoise then [] else [.frequency r.channel (r.bend frequency)]

/-- The writes of a command up to its panning. -/
def settingWrites (channel : Channel) (waves : Table Waveform) (c : Command) : List DeviceWrite :=
  c.aux1.toList.flatMap channel.firstAuxWrites ++
    c.aux2.toList.flatMap (channel.envelopeWrites waves) ++
    c.settings.toList.flatMap channel.timbreWrites ++
    c.panning.toList.map fun p => .channelOutput channel (.ofByte p)

/-- The writes of a command, after which the runner stands already. -/
def commandWrites (r : ProgramRunner) (waves : Table Waveform) (c : Command) (frequency : Nat) :
    List DeviceWrite :=
  settingWrites r.channel waves c ++ r.frequencyWrites frequency ++
    if c.retrigger then [.restart r.channel] else []

/-- Obey one command, and stop when none is left; a runner that has stopped does nothing. -/
def step (r : ProgramRunner) (waves : Table Waveform) (frequency : Nat) :
    ProgramRunner × List DeviceWrite :=
  if r.isRunning then
    match r.next? with
    | some (c, length) =>
        let r := r.advance c length
        (r.settle, r.commandWrites waves c frequency)
    | none => ({ r with isRunning := false }, [])
  else (r, [])

end ProgramRunner
end Chiptune
