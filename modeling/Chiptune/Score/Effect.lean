import Chiptune.Text.Numeral

/-! # Effects

An effect column holds a kind and a parameter.  Kinds fall into three classes by who obeys them:
the position in the song, the settings and the note of the channel, or its pitch.  Every kind has a
tag, whose two highest bits give the class, a column symbol and a name; `ofTag?_tag` says that a
kind is found by its tag. -/

namespace Chiptune

/-- Effects on the position and the speed of playback. -/
inductive PatternEffect where
  /-- Continue with another entry of the order list. -/
  | goto
  /-- Stop playback. -/
  | halt
  /-- Continue in the next entry of the order list, at a given row. -/
  | skip
  /-- Change the speed. -/
  | setTempo
  /-- Start a sound effect; reserved. -/
  | sfx
  deriving DecidableEq, Repr

/-- Effects on the settings and the note of a channel. -/
inductive TrackEffect where
  /-- Set the envelope, or choose the waveform on the wave channel. -/
  | setEnvelope
  /-- Set the duty, the output level or the noise step width. -/
  | setTimbre
  /-- Route the channel to the left and the right output. -/
  | setPanning
  /-- Set the frequency sweep of the first channel. -/
  | setSweep
  /-- Cut the note after some frames. -/
  | delayedCut
  /-- Start the note of the row after some frames. -/
  | delayedNote
  /-- Lock the channel; reserved. -/
  | lock
  deriving DecidableEq, Repr

/-- Effects on the pitch of a channel. -/
inductive PitchEffect where
  /-- Cycle through a chord of three notes. -/
  | arpeggio
  /-- Slide the pitch upwards. -/
  | slideUp
  /-- Slide the pitch downwards. -/
  | slideDown
  /-- Slide from note to note. -/
  | portamento
  /-- Swing the pitch around the note. -/
  | vibrato
  /-- Hold the vibrato back after the start of a note. -/
  | vibratoDelay
  /-- Tune the channel finely. -/
  | tuning
  /-- Slide upwards by semitones. -/
  | noteSlideUp
  /-- Slide downwards by semitones. -/
  | noteSlideDown
  deriving DecidableEq, Repr

/-- The kind of an effect, by class. -/
inductive EffectKind where
  /-- An effect on the position or the speed. -/
  | pattern (effect : PatternEffect)
  /-- An effect on the settings or the note of the channel. -/
  | track (effect : TrackEffect)
  /-- An effect on the pitch of the channel. -/
  | pitch (effect : PitchEffect)
  deriving DecidableEq, Repr

namespace EffectKind

/-- All kinds, by ascending tag. -/
def all : List EffectKind :=
  [.pattern .goto, .pattern .halt, .pattern .skip, .pattern .setTempo, .pattern .sfx,
   .track .setEnvelope, .track .setTimbre, .track .setPanning, .track .setSweep,
   .track .delayedCut, .track .delayedNote, .track .lock,
   .pitch .arpeggio, .pitch .slideUp, .pitch .slideDown, .pitch .portamento, .pitch .vibrato,
   .pitch .vibratoDelay, .pitch .tuning, .pitch .noteSlideUp, .pitch .noteSlideDown]

/-- The byte that stands for a kind. -/
def tag : EffectKind → UInt8
  | pattern .goto => 0x00
  | pattern .halt => 0x01
  | pattern .skip => 0x02
  | pattern .setTempo => 0x03
  | pattern .sfx => 0x04
  | track .setEnvelope => 0x40
  | track .setTimbre => 0x41
  | track .setPanning => 0x42
  | track .setSweep => 0x43
  | track .delayedCut => 0x44
  | track .delayedNote => 0x45
  | track .lock => 0x46
  | pitch .arpeggio => 0x80
  | pitch .slideUp => 0x81
  | pitch .slideDown => 0x82
  | pitch .portamento => 0x83
  | pitch .vibrato => 0x84
  | pitch .vibratoDelay => 0x85
  | pitch .tuning => 0x86
  | pitch .noteSlideUp => 0x87
  | pitch .noteSlideDown => 0x88

/-- The kind that a byte stands for, if any. -/
def ofTag? (tag : UInt8) : Option EffectKind :=
  all.find? fun k => k.tag == tag

/-- A kind is found by its tag. -/
@[simp] theorem ofTag?_tag (k : EffectKind) : ofTag? k.tag = some k := by
  rcases k with e | e | e <;> cases e <;> rfl

/-- The two highest bits of the tag give the class. -/
theorem tag_class (k : EffectKind) :
    k.tag &&& 0xC0 = match k with
      | pattern _ => 0x00
      | track _ => 0x40
      | pitch _ => 0x80 := by
  rcases k with e | e | e <;> cases e <;> rfl

/-- The character that shows a kind in an effect column. -/
def symbol : EffectKind → Char
  | pattern .goto => 'B'
  | pattern .halt => 'C'
  | pattern .skip => 'D'
  | pattern .setTempo => 'F'
  | pattern .sfx => 'T'
  | track .setEnvelope => 'E'
  | track .setTimbre => 'V'
  | track .setPanning => 'I'
  | track .setSweep => 'H'
  | track .delayedCut => 'S'
  | track .delayedNote => 'G'
  | track .lock => 'L'
  | pitch .arpeggio => '0'
  | pitch .slideUp => '1'
  | pitch .slideDown => '2'
  | pitch .portamento => '3'
  | pitch .vibrato => '4'
  | pitch .vibratoDelay => '5'
  | pitch .tuning => 'P'
  | pitch .noteSlideUp => 'Q'
  | pitch .noteSlideDown => 'R'

/-- The name of a kind. -/
def name : EffectKind → String
  | pattern .goto => "Pattern Goto"
  | pattern .halt => "Pattern Halt"
  | pattern .skip => "Pattern Skip"
  | pattern .setTempo => "Set Tempo"
  | pattern .sfx => "Sound Effect"
  | track .setEnvelope => "Set Envelope"
  | track .setTimbre => "Set Timbre"
  | track .setPanning => "Set Panning"
  | track .setSweep => "Set Sweep"
  | track .delayedCut => "Delayed Cut"
  | track .delayedNote => "Delayed Note"
  | track .lock => "Lock"
  | pitch .arpeggio => "Arpeggio"
  | pitch .slideUp => "Pitch Slide Up"
  | pitch .slideDown => "Pitch Slide Down"
  | pitch .portamento => "Portamento"
  | pitch .vibrato => "Vibrato"
  | pitch .vibratoDelay => "Vibrato Delay"
  | pitch .tuning => "Tuning"
  | pitch .noteSlideUp => "Note Slide Up"
  | pitch .noteSlideDown => "Note Slide Down"

end EffectKind

/-- An effect: what to do, with an eight-bit parameter. -/
structure Effect where
  /-- What the effect does. -/
  kind : EffectKind
  /-- How far, how long or where to. -/
  param : UInt8
  deriving DecidableEq, Repr

namespace Effect

/-- The text of an effect column: the symbol and two hexadecimal digits. -/
def text (e : Effect) : String :=
  String.ofList [e.kind.symbol] ++ Numeral.byte e.param

/-- Whether the effect stops playback. -/
def isHalt (e : Effect) : Bool :=
  e.kind == .pattern .halt

/-- Whether the effect takes hold on its row even if no note starts there.  All effects on the pitch
do, but for the delay of the vibrato, which waits for a note. -/
def takesHoldAtOnce (e : Effect) : Bool :=
  match e.kind with
  | .pitch .vibratoDelay => false
  | .pitch _ => true
  | _ => false

end Effect
end Chiptune
