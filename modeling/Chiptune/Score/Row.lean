import Chiptune.Score.Effect
import Chiptune.Score.Note

/-! # Rows

A row of a track holds a note, an instrument and three effect columns, each of which may be empty.
The columns are obeyed from left to right. -/

namespace Chiptune

/-- One row of one track. -/
structure Row where
  /-- What the row says about the note. -/
  note : Note := .none
  /-- The instrument that the row selects, if any. -/
  instrument : Option Nat := none
  /-- The effect columns from left to right. -/
  columns : Vector (Option Effect) 3 := Vector.replicate 3 none
  deriving DecidableEq, Repr

namespace Row

/-- The row that carries nothing. -/
def empty : Row := {}

instance : Inhabited Row := ⟨empty⟩

/-- Whether a row carries nothing. -/
def isEmpty (r : Row) : Bool :=
  r = empty

/-- The row with another note. -/
def withNote (r : Row) (note : Note) : Row :=
  { r with note }

/-- The row with another instrument. -/
def withInstrument (r : Row) (id : Nat) : Row :=
  { r with instrument := some id }

/-- The row with an effect in its first free column; a row without a free column stays as it is. -/
def withEffect (r : Row) (e : Effect) : Row :=
  match r.columns.findFinIdx? Option.isNone with
  | some i => { r with columns := r.columns.set i (some e) }
  | none => r

/-- The effects of the occupied columns, from left to right. -/
def effects (r : Row) : List Effect :=
  r.columns.toList.filterMap id

/-- The empty row has no effects. -/
@[simp] theorem effects_empty : empty.effects = [] := rfl

/-! ### What a row asks of playback -/

/-- The effects that are obeyed: those before the first that stops playback. -/
def obeyed (r : Row) : List Effect :=
  r.effects.takeWhile fun e => !e.isHalt

/-- Whether a row stops playback. -/
def halts (r : Row) : Bool :=
  r.effects.any Effect.isHalt

/-- The frames by which a row holds back its note: the last delay that it names, or none. -/
def noteDelay (r : Row) : UInt8 :=
  r.effects.foldl (fun delay e => if e.kind = .track .delayedNote then e.param else delay) 0

/-- Whether a row starts a note. -/
def startsNote (r : Row) : Bool :=
  match r.note with
  | .on n => n ≤ Note.last
  | _ => false

/-- Whether an effect of the row changes the pitch without waiting for a note. -/
def takesHoldAtOnce (r : Row) : Bool :=
  r.effects.any Effect.takesHoldAtOnce

end Row
end Chiptune
