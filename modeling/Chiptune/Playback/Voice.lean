import Chiptune.Module
import Chiptune.Pitch.State
import Chiptune.Playback.NoteGate
import Chiptune.Playback.VoiceSettings
import Chiptune.Program.Runner

/-! # Voices

A voice is the playback state of one channel.  It reads the rows of its channel, of which effects on
position and speed do not concern it, and is updated once per frame.  Both yield writes. -/

namespace Chiptune

/-- The playback state of a channel. -/
structure Voice where
  /-- The settings of the channel. -/
  settings : VoiceSettings
  /-- When its notes start and end. -/
  gate : NoteGate := {}
  /-- The program of the instrument. -/
  program : ProgramRunner
  /-- The pitch, except on the noise channel. -/
  pitch : Option (Pitch .tone)
  /-- The instrument that the last row with one has selected. -/
  selected : Option Nat := none
  /-- The outputs on which the channel is to be heard now. -/
  output : Panning := Panning.off
  deriving DecidableEq, Repr

namespace Voice

/-- The voice of a channel at the start of a song. -/
def new (c : Channel) : Voice where
  settings := VoiceSettings.new c
  program := ProgramRunner.new c
  pitch := if c.isNoise then none else some Pitch.new

/-- Whether a note sounds. -/
def isPlaying (v : Voice) : Bool :=
  v.gate.isOpen

/-! ### Reading a row -/

/-- Obey an effect on the settings or the note of the channel. -/
def obeyTrack (v : Voice) (waves : Table Waveform) (c : Channel) (param : UInt8) :
    TrackEffect → Voice × List DeviceWrite
  | .setEnvelope =>
      ({ v with settings := v.settings.setEnvelope c param },
       c.envelopeWrites waves param ++ [.restart c])
  | .setTimbre =>
      let timbre := param &&& 3
      ({ v with settings := { v.settings with timbre } }, c.timbreWrites timbre)
  | .setPanning =>
      match Panning.ofParam? param with
      | some panning =>
          -- a silent channel takes up its panning when its next note starts
          ({ v with
             settings := { v.settings with panning }
             output := if v.isPlaying then panning else v.output }, [])
      | none => (v, [])
  | .setSweep => (v, if c = .ch1 then [.register Register.nr10 param] else [])
  | .delayedCut => ({ v with gate := v.gate.requestCut param.toNat }, [])
  -- the row takes its delay into account when it requests the note
  | .delayedNote => (v, [])
  | .lock => (v, [])

/-- Obey an effect; those on the pitch are staged. -/
def obey (v : Voice) (waves : Table Waveform) (c : Channel) (e : Effect) :
    Voice × List DeviceWrite :=
  match e.kind with
  | .pattern _ => (v, [])
  | .track t => v.obeyTrack waves c e.param t
  | .pitch _ => ({ v with pitch := v.pitch.map fun p => p.stageEffect e }, [])

/-- Obey some effects in order. -/
def obeyAll (waves : Table Waveform) (c : Channel) :
    List Effect → Voice → Voice × List DeviceWrite
  | [], v => (v, [])
  | e :: es, v =>
      let (v, ws) := v.obey waves c e
      let (v, ws') := obeyAll waves c es v
      (v, ws ++ ws')

/-- Take up the instrument of a row. -/
def select (v : Voice) (r : Row) : Voice :=
  { v with selected := r.instrument <|> v.selected }

/-- Request the note of a row. -/
def request (v : Voice) (r : Row) : Voice :=
  let delay := r.noteDelay.toNat
  match r.note with
  | .on n => if n ≤ Note.last then { v with gate := v.gate.requestNote n delay } else v
  | .cut => { v with gate := v.gate.requestCut delay }
  | .none => v

/-- Finish a row whose effects were obeyed.  Without a note that starts, changes to the pitch take
hold at once. -/
def finishRow (v : Voice) (r : Row) : Voice :=
  let v := (v.select r).request r
  if !r.startsNote && r.takesHoldAtOnce then { v with pitch := v.pitch.map Pitch.apply }
  else v

/-- Read a row: its effects are obeyed up to a halt, which leaves the rest of the row undone. -/
def readRow (v : Voice) (waves : Table Waveform) (c : Channel) (r : Row) :
    Voice × List DeviceWrite :=
  let (v, ws) := obeyAll waves c r.obeyed v
  (if r.halts then v else v.finishRow r, ws)

/-! ### Updating -/

/-- Bind the selected instrument: its program starts and its sequences are staged.  An instrument
that is missing leaves no program. -/
def bindInstrument (v : Voice) (instruments : Table Instrument) : Voice :=
  match v.selected with
  | some id =>
      match instruments.get? id with
      | some i =>
          let sequences : PitchParams :=
            { pitchSequence := some i.pitch, arpeggioSequence := some i.arpeggio }
          { v with
            program := v.program.setProgram i.program
            pitch := v.pitch.map fun p => p.stage sequences }
      | none => { v with program := v.program.clear }
  | none => v

/-- The frequency of the current frame, from which the program bends; the noise channel has none. -/
def frequency (v : Voice) : Nat :=
  match v.pitch with
  | some p => p.frequency
  | none => 0

/-- The writes of the pitch: a tone channel sets its frequency unless its program does, and the
noise channel sets the polynomial of a note that starts. -/
def pitchWrites (v : Voice) (c : Channel) (started : Option Nat) : List DeviceWrite :=
  match v.pitch with
  | some p => if v.program.isRunning then [] else [.frequency c p.frequency]
  | none =>
      match started.filter fun n => n ≤ Note.noiseLast with
      | some n => [.register c.layout.nrx3 (noiseRegister n ||| stepWidth v.settings.timbre)]
      | none => []

/-- The writes of a note that starts. -/
def startWrites (v : Voice) (c : Channel) (started : Option Nat) : List DeviceWrite :=
  if started.isSome && v.settings.autoRetrigger then [.restart c] else []

/-- One frame of a note, which may start on it. -/
def sound (v : Voice) (m : Module) (c : Channel) (started : Option Nat) :
    Voice × List DeviceWrite :=
  let v := if started.isSome then v.bindInstrument m.instruments else v
  let v : Voice := { v with pitch := v.pitch.map fun p => p.play started }
  let (program, programWrites) := v.program.step m.waveforms v.frequency
  let output := if started.isSome then v.settings.panning else v.output
  ({ v with program, output }, v.pitchWrites c started ++ v.startWrites c started ++ programWrites)

/-- Advance by one frame. -/
def update (v : Voice) (m : Module) (c : Channel) : Voice × List DeviceWrite :=
  let (gate, started) := v.gate.step
  let v := { v with gate }
  if v.isPlaying then v.sound m c started else ({ v with output := Panning.off }, [])

end Voice
end Chiptune
