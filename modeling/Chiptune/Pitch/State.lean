import Chiptune.Pitch.Params
import Chiptune.Pitch.Scale
import Chiptune.Pitch.Vibrato

/-! # Pitch

The pitch of a channel turns its note and the changes to it into one frequency per frame.  Changes
are staged and take hold together when they are applied; each step moves the modulation, the vibrato
and the sequences of the instrument by one frame. -/

namespace Chiptune

/-- What a slide heads for, and what happens when it arrives. -/
inductive SlideKind where
  /-- Towards the last note; it stays in force for the next one. -/
  | portamento
  /-- Towards the end of the range. -/
  | pitch
  /-- Towards a note some semitones away; it is over on arrival. -/
  | note
  deriving DecidableEq, Repr

/-- The modulation in force. -/
inductive PitchMode where
  /-- The pitch rests. -/
  | rest
  /-- The pitch moves by some units per frame towards a target. -/
  | slide (kind : SlideKind) (amount target : Nat)
  /-- The pitch cycles through the note and the notes some semitones above it. -/
  | arpeggio (first second : Nat)
  deriving DecidableEq, Repr

/-- The pitch state of a channel. -/
structure Pitch (kind : PitchKind) where
  /-- The changes that wait to be applied. -/
  staged : PitchParams := {}
  /-- The modulation in force. -/
  mode : PitchMode := .rest
  /-- The note from which chords and slides are counted. -/
  note : Nat := 0
  /-- The frequency before tuning, instrument pitch and vibrato. -/
  base : Nat := 0
  /-- The tuning. -/
  tuning : Int := 0
  /-- The sum of the pitch sequence since the note started. -/
  instrumentPitch : Int := 0
  /-- The frequencies of the last chord. -/
  chord : Vector Nat 3 := Vector.replicate 3 0
  /-- The place in the chord that sounds next. -/
  chordIndex : Fin 3 := 0
  /-- The vibrato. -/
  vibrato : Vibrato := {}
  /-- The place in the pitch sequence of the instrument. -/
  pitchSequence : Option Sequence.Cursor := none
  /-- The place in the arpeggio sequence of the instrument. -/
  arpeggioSequence : Option Sequence.Cursor := none
  deriving DecidableEq, Repr

/-- A number brought into the range of sixteen signed bits. -/
def saturate16 (i : Int) : Int :=
  max (-0x8000) (min i 0x7FFF)

/-- Move a frequency by some amount towards a target, but not past it. -/
def approach (amount target f : Nat) : Nat :=
  if f < target then min (f + amount) target else max (f - amount) target

namespace Pitch

variable {kind : PitchKind}

/-- The pitch at the start, which is also what a reset leaves. -/
def new : Pitch kind := {}

instance : Inhabited (Pitch kind) := ⟨new⟩

/-! ### Staging -/

/-- Stage some changes on top of those that wait already. -/
def stage (p : Pitch kind) (changes : PitchParams) : Pitch kind :=
  { p with staged := p.staged.overlay changes }

/-- Stage what an effect asks for; effects that are not on the pitch ask for nothing. -/
def stageEffect (p : Pitch kind) (effect : Effect) : Pitch kind :=
  match effect.kind with
  | .pitch kind => p.stage (kind.params effect.param)
  | _ => p

/-- Whether changes wait to be applied. -/
def hasStaged (p : Pitch kind) : Bool :=
  !p.staged.isEmpty

/-! ### Applying -/

/-- Take up a note, which ends a slide by semitones. -/
def placeNote (p : Pitch kind) (note : Nat) : Pitch kind :=
  let mode := match p.mode with
    | .slide .note _ _ => .rest
    | mode => mode
  { p with note, mode }

/-- The note some semitones away, within the range of the channel. -/
def noteAfter (p : Pitch kind) (direction : SlideDirection) (semitones : Nat) : Nat :=
  match direction with
  | .up => min (p.note + semitones) kind.topNote
  | .down => p.note - semitones

/-- Change the modulation.  A portamento that is in force keeps its target, and a slide by semitones
moves the note, so that the next one starts from where it ends. -/
def modulate (p : Pitch kind) : Modulation → Pitch kind
  | .arpeggio param =>
      let chord := .arpeggio (param.toNat / 16) (param.toNat % 16)
      { p with mode := if param = 0 then .rest else chord }
  | .pitchSlide direction param =>
      let target := match direction with
        | .up => kind.maxFrequency
        | .down => 0
      { p with mode := if param = 0 then .rest else .slide .pitch param.toNat target }
  | .noteSlide direction param =>
      let note := p.noteAfter direction (param.toNat / 16)
      { p with mode := .slide .note (1 + 2 * (param.toNat % 16)) (kind.frequency note), note }
  | .portamento param =>
      let target := match p.mode with
        | .slide .portamento _ target => target
        | _ => p.base
      { p with mode := if param = 0 then .rest else .slide .portamento param.toNat target }

/-- Set vibrato and tuning and bind sequences; a sequence without values unbinds. -/
def configure (p : Pitch kind) (changes : PitchParams) : Pitch kind :=
  let vibrato := match changes.vibrato with
    | some param => p.vibrato.set param
    | none => p.vibrato
  let vibrato := match changes.vibratoDelay with
    | some delay => { vibrato with delay := delay.toNat }
    | none => vibrato
  { p with
    vibrato
    tuning := match changes.tuning with
      | some param => param.toNat - 128
      | none => p.tuning
    pitchSequence := match changes.pitchSequence with
      | some s => s.cursor?
      | none => p.pitchSequence
    arpeggioSequence := match changes.arpeggioSequence with
      | some s => s.cursor?
      | none => p.arpeggioSequence }

/-- Turn to a note: a portamento heads for it, otherwise it sounds at once. -/
def turnTo (p : Pitch kind) (note : Nat) : Pitch kind :=
  match p.mode with
  | .slide .portamento amount _ =>
      { p with mode := .slide .portamento amount (kind.frequency note) }
  | _ => { p with base := kind.frequency note }

/-- Start a note; vibrato and sequences begin anew. -/
def startNote (p : Pitch kind) (note : Nat) : Pitch kind :=
  let p := p.turnTo note
  { p with
    vibrato := p.vibrato.restart
    instrumentPitch := 0
    pitchSequence := p.pitchSequence.map Sequence.Cursor.restart
    arpeggioSequence := p.arpeggioSequence.map Sequence.Cursor.restart }

/-- The frequencies of the chord on the current note with two notes above it. -/
def chordOn (p : Pitch kind) (first second : Nat) : Vector Nat 3 :=
  #v[kind.frequency p.note, kind.frequency (p.noteAfter .up first),
    kind.frequency (p.noteAfter .up second)]

/-- Begin the chord of an arpeggio anew. -/
def restartChord (p : Pitch kind) : Pitch kind :=
  match p.mode with
  | .arpeggio first second => { p with chord := p.chordOn first second, chordIndex := 0 }
  | _ => p

/-- The note of some changes, if the channel has it. -/
def playable? (kind : PitchKind) (changes : PitchParams) : Option Nat :=
  changes.note.filter fun n => n ≤ kind.topNote

/-- Let some changes take hold together. -/
def commit (p : Pitch kind) (changes : PitchParams) : Pitch kind :=
  let note? := playable? kind changes
  -- the note is placed first, because a slide by semitones is counted from it
  let p := match note? with
    | some n => p.placeNote n
    | none => p
  let p := match changes.modulation with
    | some m => p.modulate m
    | none => p
  let p := p.configure changes
  -- the frequency is set last, because it depends on the new modulation
  let p := match note? with
    | some n => p.startNote n
    | none => p
  if note?.isSome || changes.modulation.isSome then p.restartChord else p

/-- Let the staged changes take hold. -/
def apply (p : Pitch kind) : Pitch kind :=
  commit { p with staged := {} } p.staged

/-! ### Stepping -/

/-- Move the modulation by one frame. -/
def stepMode (p : Pitch kind) : Pitch kind :=
  match p.mode with
  | .rest => p
  | .slide slide amount target =>
      let base := approach amount target p.base
      { p with base, mode := if slide = .note ∧ base = target then .rest else p.mode }
  | .arpeggio _ _ => { p with base := p.chord[p.chordIndex], chordIndex := p.chordIndex + 1 }

/-- Read one value of the pitch sequence, which adds to the pitch of the instrument. -/
def stepPitchSequence (p : Pitch kind) : Pitch kind :=
  let (value?, pitchSequence) := Sequence.Cursor.advance p.pitchSequence
  match value? with
  | some value =>
      let instrumentPitch := saturate16 (p.instrumentPitch + value.toInt8.toInt)
      { p with pitchSequence, instrumentPitch }
  | none => { p with pitchSequence }

/-- Advance by one frame.  While the arpeggio sequence has values, they rule the pitch and the
modulation waits. -/
def step (p : Pitch kind) : Pitch kind :=
  let p : Pitch kind := { p with vibrato := p.vibrato.step }
  let p := p.stepPitchSequence
  let (offset?, arpeggioSequence) := Sequence.Cursor.advance p.arpeggioSequence
  let p : Pitch kind := { p with arpeggioSequence }
  match offset? with
  | some offset =>
      { p with base := kind.frequency (kind.clampNote (p.note + offset.toInt8.toInt)) }
  | none => p.stepMode

/-- Advance by one frame, on which a note may start. -/
def play (p : Pitch kind) (started : Option Nat) : Pitch kind :=
  match started with
  | some note => (p.stage { note := some note }).apply.step
  | none => p.step

/-- The frequency of the current frame, within the range of the channel. -/
def frequency (p : Pitch kind) : Nat :=
  kind.clampFrequency (p.base + p.tuning + p.instrumentPitch + p.vibrato.offset)

end Pitch
end Chiptune
