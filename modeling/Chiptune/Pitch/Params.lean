import Chiptune.Bank.Sequence
import Chiptune.Score.Effect

/-! # Pitch parameters

Changes to the pitch of a channel are collected in a set of parameters, each of which may be absent,
and take hold together.  `overlay` joins two such sets; the later one wins. -/

namespace Chiptune

/-- Up or down. -/
inductive SlideDirection where
  /-- Towards higher pitches. -/
  | up
  /-- Towards lower pitches. -/
  | down
  deriving DecidableEq, Repr

/-- A requested change of the modulation.  A parameter of zero ends the modulation, except for
slides by semitones. -/
inductive Modulation where
  /-- A chord of the note and of two notes above it, by one digit each. -/
  | arpeggio (param : UInt8)
  /-- A slide by some units per frame without end. -/
  | pitchSlide (direction : SlideDirection) (param : UInt8)
  /-- A slide by semitones in the high digit, at a rate given by the low one. -/
  | noteSlide (direction : SlideDirection) (param : UInt8)
  /-- A slide by some units per frame to every new note. -/
  | portamento (param : UInt8)
  deriving DecidableEq, Repr

/-- A set of changes to the pitch of a channel. -/
structure PitchParams where
  /-- The note to start. -/
  note : Option Nat := none
  /-- The modulation to change to. -/
  modulation : Option Modulation := none
  /-- Duration and depth of the vibrato. -/
  vibrato : Option UInt8 := none
  /-- The delay of the vibrato. -/
  vibratoDelay : Option UInt8 := none
  /-- The tuning, which is even at 128. -/
  tuning : Option UInt8 := none
  /-- The pitch sequence to bind. -/
  pitchSequence : Option Sequence := none
  /-- The arpeggio sequence to bind. -/
  arpeggioSequence : Option Sequence := none
  deriving DecidableEq, Repr

namespace PitchParams

/-- The set without changes. -/
def empty : PitchParams := {}

instance : Inhabited PitchParams := ⟨empty⟩

/-- Whether there is no change. -/
def isEmpty (p : PitchParams) : Bool :=
  p = empty

/-- The changes of two sets; where both have one, the second counts. -/
def overlay (p q : PitchParams) : PitchParams where
  note := q.note <|> p.note
  modulation := q.modulation <|> p.modulation
  vibrato := q.vibrato <|> p.vibrato
  vibratoDelay := q.vibratoDelay <|> p.vibratoDelay
  tuning := q.tuning <|> p.tuning
  pitchSequence := q.pitchSequence <|> p.pitchSequence
  arpeggioSequence := q.arpeggioSequence <|> p.arpeggioSequence

/-- Adding no changes leaves a set as it is. -/
@[simp] theorem overlay_empty (p : PitchParams) : p.overlay empty = p := by
  simp [overlay, empty]

/-- Joining three sets does not depend on the grouping. -/
theorem overlay_assoc (p q r : PitchParams) :
    (p.overlay q).overlay r = p.overlay (q.overlay r) := by
  simp [overlay, Option.or_assoc]

end PitchParams

/-- The change that an effect on the pitch asks for. -/
def PitchEffect.params (param : UInt8) : PitchEffect → PitchParams
  | arpeggio => { modulation := some (.arpeggio param) }
  | slideUp => { modulation := some (.pitchSlide .up param) }
  | slideDown => { modulation := some (.pitchSlide .down param) }
  | portamento => { modulation := some (.portamento param) }
  | vibrato => { vibrato := some param }
  | vibratoDelay => { vibratoDelay := some param }
  | tuning => { tuning := some param }
  | noteSlideUp => { modulation := some (.noteSlide .up param) }
  | noteSlideDown => { modulation := some (.noteSlide .down param) }

end Chiptune
