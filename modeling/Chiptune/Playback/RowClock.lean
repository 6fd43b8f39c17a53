import Chiptune.Score.Speed

/-! # Row clocks

A row clock counts frames in sixteenths against the length of a row.  What is left over at the end
of a row counts for the next one, so that rows of uneven length keep the tempo. -/

namespace Chiptune

/-- A count of frames against the length of a row. -/
structure RowClock where
  /-- The length of a row. -/
  period : Speed
  /-- The sixteenths of a frame that have passed of the current row. -/
  elapsed : Nat := 0
  deriving DecidableEq, Repr

namespace RowClock

/-- The clock at the start of a row. -/
def new (period : Speed) : RowClock :=
  { period }

instance : Inhabited RowClock := ⟨new Speed.standard⟩

/-- Whether the current frame is the first of its row. -/
def isFirst (c : RowClock) : Bool :=
  c.elapsed < Speed.unit

/-- Whether the row ends with the current frame. -/
def isLast (c : RowClock) : Bool :=
  c.period.raw ≤ c.elapsed + Speed.unit

/-- Change the length of a row; the row that has begun ends by the new length. -/
def setPeriod (c : RowClock) (period : Speed) : RowClock :=
  { c with period }

/-- Return to the start of a row. -/
def reset (c : RowClock) : RowClock :=
  { c with elapsed := 0 }

/-- Advance by one frame; at the end of a row what is left over stays. -/
def step (c : RowClock) : RowClock :=
  let elapsed := c.elapsed + Speed.unit
  { c with elapsed := if c.isLast then elapsed - c.period.raw else elapsed }

/-- Time passes at the same speed. -/
@[simp] theorem period_step (c : RowClock) : c.step.period = c.period := rfl

/-- A reset keeps the speed. -/
@[simp] theorem period_reset (c : RowClock) : c.reset.period = c.period := rfl

/-- The speed that is set is the one in force. -/
@[simp] theorem period_setPeriod (c : RowClock) (s : Speed) : (c.setPeriod s).period = s := rfl

/-- A reset starts a row anew. -/
@[simp] theorem elapsed_reset (c : RowClock) : c.reset.elapsed = 0 := rfl

/-- A new speed leaves what has passed of the row. -/
@[simp] theorem elapsed_setPeriod (c : RowClock) (s : Speed) :
    (c.setPeriod s).elapsed = c.elapsed := rfl

end RowClock
end Chiptune
