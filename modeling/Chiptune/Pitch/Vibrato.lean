/-! # Vibrato

A vibrato swings the pitch between two offsets of equal depth.  It is set by a byte whose high half
says how long the pitch stays on each side and whose low half is the depth.  After the start of a
note it is held back for some frames. -/

namespace Chiptune

/-- The state of a vibrato. -/
structure Vibrato where
  /-- Whether the pitch swings. -/
  isOn : Bool := false
  /-- The frames for which a note is left alone at its start. -/
  delay : Nat := 0
  /-- The frames for which the current note is still left alone. -/
  hold : Nat := 0
  /-- The frames until the pitch changes sides. -/
  countdown : Nat := 0
  /-- The offset of the current side. -/
  swing : Int := 0
  /-- The byte that sets duration and depth. -/
  param : UInt8 := 0
  deriving DecidableEq, Repr

namespace Vibrato

/-- The offset on each side. -/
def depth (v : Vibrato) : Nat :=
  v.param.toNat % 16

/-- The frames beyond the first for which the pitch stays on each side. -/
def dwell (v : Vibrato) : Nat :=
  v.param.toNat / 16

/-- The offset of a side: below the note if the pitch is there now, above it otherwise. -/
def side (v : Vibrato) (depth : Nat) : Int :=
  if v.swing < 0 then -depth else depth

/-- Set duration and depth; a depth of zero ends the vibrato, any other keeps the current side. -/
def set (v : Vibrato) (param : UInt8) : Vibrato :=
  let v := { v with param }
  if v.depth = 0 then { v with isOn := false, swing := 0 }
  else { v with isOn := true, swing := v.side v.depth }

/-- Begin a note: it is left alone for the delay and then raised first. -/
def restart (v : Vibrato) : Vibrato :=
  let v := { v with hold := v.delay, countdown := 0 }
  if v.isOn then { v with swing := v.depth } else v

/-- Advance by one frame. -/
def step (v : Vibrato) : Vibrato :=
  if !v.isOn then v
  else if 0 < v.hold then { v with hold := v.hold - 1 }
  else if v.countdown = 0 then { v with swing := -v.swing, countdown := v.dwell }
  else { v with countdown := v.countdown - 1 }

/-- What the vibrato adds to the frequency in the current frame. -/
def offset (v : Vibrato) : Int :=
  if v.isOn && v.hold == 0 then v.swing else 0

end Vibrato
end Chiptune
