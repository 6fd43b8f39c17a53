import Chiptune.Module

/-! # The demonstration module

A module of four orders that uses every channel, instruments and a spread of effects. -/

namespace Chiptune
namespace Module
namespace Demo

/-- A note by its octave and its semitone. -/
def note (octave semitone : Nat) : Note :=
  .on ((octave - Note.lowestOctave) * 12 + semitone)

/-- The semitone C. -/
def c : Nat := 0

/-- The semitone D flat. -/
def dFlat : Nat := 1

/-- The semitone D. -/
def d : Nat := 2

/-- The semitone F. -/
def f : Nat := 5

/-- The semitone G. -/
def g : Nat := 7

/-- The semitone B flat. -/
def bFlat : Nat := 10

/-! ### Notes by row -/

/-- The kicks that all patterns begin with. -/
def kickStart : List (Nat × Note) :=
  [(0x00, note 6 c), (0x04, note 6 c), (0x08, note 6 c), (0x0C, note 6 g), (0x14, note 6 g),
   (0x1C, note 6 g), (0x24, note 6 g), (0x2C, note 6 g)]

/-- The kicks of each track of the noise channel. -/
def kicks : List (List (Nat × Note)) :=
  [kickStart ++ [(0x34, note 6 g), (0x38, note 6 f), (0x3C, note 6 g)],
   kickStart ++ [(0x34, note 6 g), (0x38, note 6 c), (0x3C, note 6 f)],
   kickStart ++ [(0x34, note 6 f), (0x38, note 6 f), (0x3A, note 6 f), (0x3C, note 6 f),
     (0x3E, note 6 f)]]

/-- The bass line of the second pulse channel. -/
def bass : List (Nat × Note) :=
  [(0x0C, note 3 f), (0x10, note 3 g), (0x16, .cut), (0x18, note 3 bFlat), (0x1C, note 4 c),
   (0x22, .cut), (0x24, note 3 f), (0x28, note 3 g), (0x2E, .cut), (0x30, note 2 bFlat),
   (0x34, note 3 c), (0x38, note 2 f), (0x3C, note 2 g)]

/-- The run that the last order adds to the bass line. -/
def run : List (Nat × Note) :=
  [(0x18, note 4 c), (0x1A, note 4 d), (0x1C, note 4 c), (0x1E, note 3 bFlat), (0x20, note 3 g),
   (0x24, note 4 c), (0x26, note 4 d), (0x28, note 4 c), (0x2A, note 3 bFlat), (0x2C, note 3 g),
   (0x30, note 4 c), (0x32, note 4 d), (0x34, note 4 c), (0x36, note 3 bFlat), (0x38, note 3 g),
   (0x3A, note 3 f), (0x3C, note 3 c), (0x3E, note 2 bFlat)]

/-- The hits of the lead on the first pulse channel. -/
def lead : List (Nat × Note) :=
  [(0x00, note 3 g), (0x08, note 3 g), (0x0C, note 4 d), (0x10, note 4 d), (0x14, note 4 dFlat),
   (0x18, note 4 dFlat), (0x1C, note 4 d), (0x20, note 4 d), (0x24, note 4 g), (0x28, note 4 g),
   (0x2C, note 4 f), (0x30, note 4 f)]

/-! ### The song -/

/-- Put notes into the rows of a track. -/
def writeNotes (s : Song) (ch : Channel) (track : Nat) (notes : List (Nat × Note)) : Song :=
  notes.foldl (fun s (row, n) => s.modifyRow ch track row fun r => r.withNote n) s

/-- Add effects to the rows of a track. -/
def addEffects (s : Song) (ch : Channel) (track : Nat) (effects : List (Nat × Effect)) : Song :=
  effects.foldl (fun s (row, e) => s.modifyRow ch track row fun r => r.withEffect e) s

/-- The song without its tracks. -/
def frameSong : Song :=
  { Song.new "rushing heart" with
    speed := { raw := 0x22 }
    order := #[⟨0, 0, 0, 0⟩, ⟨0, 1, 0, 1⟩, ⟨0, 0, 0, 0⟩, ⟨0, 2, 0, 2⟩]
    order_pos := by decide
    order_le := by decide }

/-- Add the kicks of the noise channel. -/
def addKicks (s : Song) : Song :=
  let s := kicks.zipIdx.foldl (fun s (notes, track) => writeNotes s .ch4 track notes) s
  addEffects s .ch4 0 [(0, ⟨.track .setEnvelope, 0xB1⟩)]

/-- Add the held note of the wave channel. -/
def addDrone (s : Song) : Song :=
  let start := (Row.empty.withNote (note 3 g)).withEffect ⟨.track .setEnvelope, 0⟩
  let s := s.setRow .ch3 0 0x00 (start.withEffect ⟨.pitch .vibrato, 0x42⟩)
  s.setRow .ch3 0 0x0C (Row.empty.withNote .cut)

/-- Add one track of the second pulse channel: a stab, and the bass line behind it. -/
def addBassTrack (s : Song) (track : Nat) : Song :=
  let s := s.setRow .ch2 track 0x00 ((Row.empty.withNote (note 5 g)).withInstrument 0)
  let s := s.setRow .ch2 track 0x08 (Row.empty.withNote .cut)
  let s := writeNotes s .ch2 track bass
  s.modifyRow .ch2 track 0x0C fun r => r.withInstrument 1

/-- Add the tracks of the second pulse channel. -/
def addBass (s : Song) : Song :=
  let s := [0, 1, 2].foldl addBassTrack s
  let s := writeNotes s .ch2 2 run
  let s := addEffects s .ch2 1
    [(0x10, ⟨.pitch .portamento, 0x20⟩), (0x18, ⟨.pitch .portamento, 0x00⟩)]
  addEffects s .ch2 2 [(0x3E, ⟨.pitch .noteSlideDown, 0x34⟩)]

/-- Add the lead of the first pulse channel, whose notes are cut off after a while. -/
def addLead (s : Song) : Song :=
  let start := (Row.empty.withInstrument 2).withEffect ⟨.track .setTimbre, 1⟩
  let s := s.setRow .ch1 0 0x00 (start.withEffect ⟨.track .setEnvelope, 0xA7⟩)
  let s := writeNotes s .ch1 0 lead
  let s := addEffects s .ch1 0 (lead.map fun (row, _) => (row, ⟨.track .delayedCut, 0x20⟩))
  addEffects s .ch1 0
    [(0x30, ⟨.pitch .arpeggio, 0x37⟩), (0x34, ⟨.track .setPanning, 0x10⟩),
     (0x3C, ⟨.track .setPanning, 0x11⟩), (0x3C, ⟨.pitch .arpeggio, 0x00⟩)]

/-- The song with its tracks. -/
def song : Song :=
  addLead (addBass (addDrone (addKicks frameSong)))

/-! ### Instruments and waveforms -/

/-- A short chord stroke: the program sets envelope and duty and starts the channel anew. -/
def stab : Instrument :=
  { Instrument.new "stab" .ch2 with
    envelope := 0x57
    timbre := 1
    program := [0x5A, 0x57]
    length_le := by decide }

/-- The bass, whose pitch trembles a little. -/
def bassGuitar : Instrument :=
  { Instrument.new "bass" .ch2 with
    envelope := 0x77
    timbre := 0
    program := [0x58, 0x77]
    length_le := by decide
    pitch := {
      values := [0, 0, 1, 0, 0xFF, 0]
      loop := some 2
      length_le := by decide
      loop_lt := fun _ h => Option.some.inj h ▸ (by decide : 2 < 6) } }

/-- A pluck, which falls to its pitch within three frames. -/
def pluck : Instrument :=
  { Instrument.new "pluck" .ch1 with
    program := [0x41, 0xA0, 0x02, 0x01, 0xA0, 0x01, 0x01, 0xA0, 0x00, 0x00]
    length_le := by decide }

/-- A wave that rises and falls evenly. -/
def triangle : Waveform :=
  Waveform.ofSamples "triangle" (Vector.ofFn fun i => if i.val < 16 then i.val else 31 - i.val)

end Demo

/-- The demonstration module. -/
def demo : Module where
  song := Demo.song
  instruments := Table.ofList [(0, Demo.stab), (1, Demo.bassGuitar), (2, Demo.pluck)]
  waveforms := Table.ofList [(0, Demo.triangle)]

end Module
end Chiptune
