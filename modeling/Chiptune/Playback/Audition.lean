import Chiptune.Module
import Chiptune.Pitch.State
import Chiptune.Playback.NoteGate
import Chiptune.Program.Runner

/-! # Auditions

An audition plays single notes on one instrument outside a song.  The channel of the instrument is
switched on when a note starts and off in every frame without a note. -/

namespace Chiptune

/-- The pitch of an audition, by the way in which its channel is pitched. -/
inductive AuditionPitch where
  /-- The pitch of a tone channel. -/
  | tone (pitch : Pitch .tone)
  /-- The pitch of the noise channel. -/
  | noise (pitch : Pitch .noise)
  deriving DecidableEq, Repr

namespace AuditionPitch

/-- The pitch of a channel at the start. -/
def new (c : Channel) : AuditionPitch :=
  if c.isNoise then .noise Pitch.new else .tone Pitch.new

/-- Stage some changes. -/
def stage (changes : PitchParams) : AuditionPitch → AuditionPitch
  | tone p => tone (p.stage changes)
  | noise p => noise (p.stage changes)

/-- The frequency from which the program bends; the noise channel has none. -/
def frequency : AuditionPitch → Nat
  | tone p => p.frequency
  | noise _ => 0

/-- Advance by one frame, on which a note may start; the noise channel leaves out notes above its
range. -/
def play (started : Option Nat) : AuditionPitch → AuditionPitch
  | tone p => tone (p.play started)
  | noise p => noise (p.play (started.filter fun n => n ≤ Note.noiseLast))

end AuditionPitch

/-- The state of an audition. -/
structure Audition where
  /-- The channel of the instrument. -/
  channel : Channel := .ch1
  /-- When notes start and end. -/
  gate : NoteGate := {}
  /-- The pitch. -/
  pitch : AuditionPitch := .new .ch1
  /-- The program of the instrument. -/
  program : ProgramRunner := .new .ch1
  /-- The timbre of the instrument. -/
  timbre : UInt8 := 3
  /-- The outputs of the instrument. -/
  panning : Panning := Panning.both
  /-- Whether every note starts the channel anew. -/
  autoRetrigger : Bool := false
  /-- The noise polynomial that was written last. -/
  noiseWritten : Option UInt8 := none
  deriving DecidableEq, Repr

namespace Audition

/-- The audition without an instrument. -/
def new : Audition := {}

instance : Inhabited Audition := ⟨new⟩

/-! ### Instruments and notes -/

/-- Take up an instrument.  Its envelope and its timbre are written, and the channel is silent. -/
def ofInstrument (i : Instrument) (waves : Table Waveform) : Audition × List DeviceWrite :=
  let c := i.channel
  let sequences : PitchParams :=
    { pitchSequence := some i.pitch, arpeggioSequence := some i.arpeggio }
  ({ channel := c
     pitch := (AuditionPitch.new c).stage sequences
     program := ProgramRunner.load c i.program
     timbre := i.timbre
     panning := Panning.ofByte i.panning
     autoRetrigger := c.envelopeSlopes i.envelope },
   c.envelopeWrites waves i.envelope ++ c.timbreWrites i.timbre ++ [.channelOutput c Panning.off])

/-- Whether a note sounds. -/
def isPlaying (a : Audition) : Bool :=
  a.gate.isOpen

/-- Start a note on the next frame. -/
def playNote (a : Audition) (note : Nat) : Audition :=
  { a with gate := a.gate.requestNote note 0 }

/-- End the note on the next frame. -/
def stop (a : Audition) : Audition :=
  { a with gate := a.gate.requestCut 0 }

/-! ### Frames -/

/-- Write the pitch of the current frame: the frequency of a tone unless the program sets it, and
the noise polynomial when a note starts or when it has changed. -/
def writePitch (a : Audition) (started : Option Nat) : Audition × List DeviceWrite :=
  match a.pitch with
  | .tone p => (a, if a.program.isRunning then [] else [.frequency a.channel p.frequency])
  | .noise p =>
      let value := noiseRegisterOfPitch p.frequency ||| stepWidth a.timbre
      if started.isSome || a.noiseWritten != some value then
        ({ a with noiseWritten := some value }, [.register a.channel.layout.nrx3 value])
      else (a, [])

/-- The writes of a note that starts. -/
def startWrites (a : Audition) (started : Option Nat) : List DeviceWrite :=
  if started.isSome then
    (if a.autoRetrigger then [.restart a.channel] else []) ++
      [.channelOutput a.channel a.panning]
  else []

/-- One frame of a note, which may start on it. -/
def sound (a : Audition) (waves : Table Waveform) (started : Option Nat) :
    Audition × List DeviceWrite :=
  -- every note starts the program anew
  let program := if started.isSome then a.program.reset else a.program
  let a := { a with program, pitch := a.pitch.play started }
  let (a, pitchWrites) := a.writePitch started
  let (program, programWrites) := a.program.step waves a.pitch.frequency
  ({ a with program }, pitchWrites ++ a.startWrites started ++ programWrites)

/-- Advance by one frame. -/
def step (a : Audition) (waves : Table Waveform) : Audition × List DeviceWrite :=
  let (gate, started) := a.gate.step
  let a := { a with gate }
  if a.isPlaying then a.sound waves started else (a, [.channelOutput a.channel Panning.off])

end Audition
end Chiptune
