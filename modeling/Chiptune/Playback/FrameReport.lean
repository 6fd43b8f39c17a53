import Chiptune.Score.Position
import Chiptune.Score.Speed

/-! # Frame reports

A frame report says where in the song a frame lies and what began on it. -/

namespace Chiptune

/-- What a frame reports of itself. -/
structure FrameReport where
  /-- Whether playback has stopped. -/
  isHalted : Bool := false
  /-- Whether a row started. -/
  startsRow : Bool := false
  /-- Whether a pattern started. -/
  startsPattern : Bool := false
  /-- The speed in effect. -/
  speed : Speed := Speed.standard
  /-- The number of frames since the start, which wraps around at 32 bits. -/
  time : UInt32 := 0
  /-- The entry of the order list. -/
  order : UInt8 := 0
  /-- The row of the pattern. -/
  row : Nat := 0
  deriving DecidableEq, Repr

namespace FrameReport

/-- The report before the first frame, at a position. -/
def start (speed : Speed) (position : Position) : FrameReport :=
  { speed, order := UInt8.ofNat position.order, row := position.row }

instance : Inhabited FrameReport := ⟨{}⟩

/-- Report that a row starts at a position, and perhaps a pattern with it. -/
def enterRow (f : FrameReport) (position : Position) (startsPattern : Bool) : FrameReport :=
  { f with
    startsRow := true
    startsPattern
    order := UInt8.ofNat position.order
    row := position.row }

open Numeral in
/-- The text of a report, as traces list it. -/
def text (f : FrameReport) : String :=
  decimal 6 f.time.toNat ++ " " ++ byte f.order ++ ":" ++ hex 2 f.row ++
    " speed " ++ f.speed.text ++
    (if f.startsPattern then " pattern" else if f.startsRow then " row" else "") ++
    (if f.isHalted then " halt" else "")

end FrameReport
end Chiptune
