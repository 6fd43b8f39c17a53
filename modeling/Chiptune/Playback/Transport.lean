import Chiptune.Playback.RowClock
import Chiptune.Score.Effect
import Chiptune.Score.Position

/-! # Transport

The transport moves through the song: it knows the position, the move that waits for the end of the
row, and the clock of the rows.  Only effects on position and speed act on it. -/

namespace Chiptune

/-- A move that is made when the next row starts. -/
inductive Move where
  /-- To a row of the next entry of the order list. -/
  | next (row : Nat)
  /-- To the first row of an entry of the order list. -/
  | jump (order : Nat)
  deriving DecidableEq, Repr

/-- The way through a song. -/
structure Transport where
  /-- The current position. -/
  position : Position
  /-- The move that waits for the next row. -/
  move : Option Move := none
  /-- The clock of the rows. -/
  clock : RowClock
  /-- Whether the current pattern is repeated instead of moving on. -/
  repeats : Bool := false
  /-- Whether the next row is the first that is played of its pattern. -/
  entersPattern : Bool := true
  deriving DecidableEq, Repr

namespace Transport

/-- Where a move leads; with repetition, every move leads to the start of the pattern. -/
def destination (t : Transport) (size : Extent) (move : Move) : Position :=
  if t.repeats then { t.position with row := 0 }
  else match move with
    | .next row => size.following t.position.order row
    | .jump order => size.startOf order

/-- Start a row: a move that waits is made. -/
def enterRow (t : Transport) (size : Extent) : Transport :=
  match t.move with
  | some move =>
      { t with position := t.destination size move, move := none, entersPattern := true }
  | none => t

/-- Obey an effect; a parameter outside the song or outside the range of speeds is ignored. -/
def obey (t : Transport) (size : Extent) (e : Effect) : Transport :=
  match e.kind with
  | .pattern .goto =>
      if e.param.toNat < size.orders then { t with move := some (.jump e.param.toNat) } else t
  | .pattern .skip =>
      if e.param.toNat < size.rows then { t with move := some (.next e.param.toNat) } else t
  | .pattern .setTempo =>
      match Speed.ofRaw? e.param.toNat with
      | some speed => { t with clock := t.clock.setPeriod speed }
      | none => t
  | _ => t

/-- End a row: the next one follows, and behind the last row waits a move to the next order. -/
def leaveRow (t : Transport) (size : Extent) : Transport :=
  if t.position.row + 1 < size.rows then
    { t with position := { t.position with row := t.position.row + 1 } }
  else
    -- the position stays on the last row until the move is made
    { t with move := t.move <|> some (.next 0) }

/-- Advance by one frame. -/
def step (t : Transport) (size : Extent) : Transport :=
  let next := { t with clock := t.clock.step }
  if t.clock.isLast then next.leaveRow size else next

/-- Go to the first row of an order at once; orders outside the song are ignored. -/
def jump (t : Transport) (size : Extent) (order : Nat) : Transport :=
  if order < size.orders then
    { t with position := ⟨order, 0⟩, move := none, clock := t.clock.reset, entersPattern := true }
  else t

end Transport
end Chiptune
