import Chiptune.EditError

/-! # Speeds

A speed is the length of a row in sixteenths of a frame, from one frame to fifteen.  Speeds that are
not whole give rows of uneven length, which is how tempos between the whole ones are reached. -/

namespace Chiptune

/-- The number of frames per thousand seconds: the vertical-blank rate in millihertz. -/
def frameRate : Nat := 59727

/-- The length of a row in sixteenths of a frame. -/
@[ext]
structure Speed where
  /-- The number of sixteenths. -/
  raw : Nat
  /-- A row lasts at least one frame. -/
  le_raw : 0x10 ≤ raw := by decide
  /-- A row lasts at most fifteen frames. -/
  raw_le : raw ≤ 0xF0 := by decide
  deriving DecidableEq, Repr

namespace Speed

/-- The number of sixteenths in a frame. -/
def unit : Nat := 0x10

/-- One frame per row. -/
def fastest : Speed := { raw := 0x10 }

/-- Fifteen frames per row. -/
def slowest : Speed := { raw := 0xF0 }

/-- Six frames per row. -/
def standard : Speed := { raw := 0x60 }

instance : Inhabited Speed := ⟨standard⟩

/-- The speed of a raw number of sixteenths, if it is in range. -/
def ofRaw? (raw : Nat) : Option Speed :=
  if h : 0x10 ≤ raw ∧ raw ≤ 0xF0 then some ⟨raw, h.1, h.2⟩ else none

/-- The speed of a raw number of sixteenths, refused outside the range. -/
def ofRaw (raw : Nat) : Except EditError Speed :=
  match ofRaw? raw with
  | some speed => .ok speed
  | none => .error (.speedOutOfRange raw)

/-- The raw number of a speed gives the speed back. -/
@[simp] theorem ofRaw?_raw (s : Speed) : ofRaw? s.raw = some s := by
  rw [ofRaw?, dif_pos ⟨s.le_raw, s.raw_le⟩]

/-- Exactly the numbers in range are raw numbers of speeds. -/
theorem isSome_ofRaw? (raw : Nat) : (ofRaw? raw).isSome ↔ 0x10 ≤ raw ∧ raw ≤ 0xF0 := by
  rw [ofRaw?]
  split <;> simp_all

/-- The whole frames of a row. -/
def whole (s : Speed) : Nat :=
  s.raw / unit

/-- The sixteenths of a frame beyond the whole frames of a row. -/
def fraction (s : Speed) : Nat :=
  s.raw % unit

/-! ### Tempo -/

/-- The sixteenths of a frame in a thousand minutes. -/
def sixteenthsPerMinute : Nat :=
  frameRate * 60 * unit

/-- A number brought into the range of raw speeds. -/
def clamp (raw : Nat) : Speed where
  raw := max 0x10 (min raw 0xF0)
  le_raw := by omega
  raw_le := by omega

/-- The speed nearest to a tempo in beats per minute; a tempo of zero is as slow as possible. -/
def ofTempo (tempo rowsPerBeat : Nat) : Speed :=
  let rows := tempo * rowsPerBeat * 1000
  if rows = 0 then slowest else clamp ((sixteenthsPerMinute + rows / 2) / rows)

/-- The tempo in beats per minute of a speed, rounded down; a beat has at least one row. -/
def tempo (s : Speed) (rowsPerBeat : Nat) : Nat :=
  sixteenthsPerMinute / (s.raw * max rowsPerBeat 1 * 1000)

/-- The text of a speed: its frames with four decimal places, which are exact. -/
def text (s : Speed) : String :=
  Numeral.decimal 1 s.whole ++ "." ++ Numeral.decimal 4 (s.fraction * 625)

end Speed
end Chiptune
