import Chiptune.Bank.Sequence
import Chiptune.Pitch.Scale
import Chiptune.Pitch.Vibrato
import Chiptune.Proofs.Checked.Arithmetic

/-! # Checked tables, vibratos and sequences

The parts of a pitch look notes up in a table, swing an offset and read a sequence.  None of this
ends in a fault: lookups are clamped, a cursor never reads behind its sequence, and a vibrato keeps
its counts in a byte and its offset in one digit.

* `PitchKind.checkedFrequency_eq` and `checkedNoiseRegister_eq` are about the tables.
* `Vibrato.InRange` is the range of a vibrato, in which `Vibrato.checkedStep_eq` holds.
* `Sequence.Cursor.checkedAdvance_eq` is about sequences. -/

namespace Chiptune

open Checked

/-! ## Scales -/

/-- The frequency value of a note, looked up in the table of the tones or counted in units. -/
def PitchKind.checkedFrequency : PitchKind → Nat → Checked Nat
  | tone, note => read toneTable[min note Note.last]?
  | noise, note => unsigned 16 (min note Note.noiseLast * noiseUnits : Nat)

/-- No note is missing from the table. -/
theorem PitchKind.checkedFrequency_eq (k : PitchKind) (note : Nat) :
    k.checkedFrequency note = .ok (k.frequency note) := by
  cases k with
  | tone =>
      refine read_eq ?_
      have hplace : min note Note.last < 84 := Nat.lt_succ_of_le (Nat.min_le_right ..)
      rw [Vector.getElem?_eq_getElem hplace]
      rfl
  | noise =>
      have hbound : min note Note.noiseLast ≤ 59 := Nat.min_le_right ..
      have hunits : noiseUnits = 4 := rfl
      refine unsigned_eq rfl ?_
      show min note Note.noiseLast * noiseUnits < 2 ^ 16
      rw [hunits]
      omega

/-- The polynomial byte of a noise note, looked up in its table. -/
def checkedNoiseRegister (note : Nat) : Checked UInt8 :=
  read noiseTable[min note Note.noiseLast]?

/-- No note is missing from the table. -/
theorem checkedNoiseRegister_eq (note : Nat) :
    checkedNoiseRegister note = .ok (noiseRegister note) := by
  refine read_eq ?_
  -- the note is clamped to the last one of the table
  have hplace : min note Note.noiseLast < 60 := Nat.lt_succ_of_le (Nat.min_le_right ..)
  rw [Vector.getElem?_eq_getElem hplace]
  rfl

/-! ## Vibrato -/

namespace Vibrato

variable {v : Vibrato}

/-- The range that a vibrato keeps: its counts fit a byte, and it swings by one digit at most. -/
structure InRange (v : Vibrato) : Prop where
  delay : v.delay ≤ 0xFF
  hold : v.hold ≤ 0xFF
  countdown : v.countdown ≤ 0xFF
  swing_ge : -15 ≤ v.swing
  swing_le : v.swing ≤ 15

/-- A vibrato that was never set is at rest. -/
theorem inRange_new : ({} : Vibrato).InRange := by
  constructor <;> decide

/-- The depth is one digit. -/
theorem depth_le (v : Vibrato) : v.depth ≤ 15 :=
  Nat.le_of_lt_succ (Nat.mod_lt _ (by decide))

/-- The dwell is one digit. -/
theorem dwell_le (v : Vibrato) : v.dwell ≤ 15 := by
  have hparam := v.param.toNat_lt
  unfold dwell
  omega

/-- A depth of one digit is taken to either side. -/
theorem InRange.set (h : v.InRange) (param : UInt8) : (v.set param).InRange := by
  have hdepth := depth_le { v with param }
  unfold Vibrato.set
  dsimp only
  split
  · exact { h with swing_ge := by dsimp only; decide, swing_le := by dsimp only; decide }
  · -- the new depth is that of one digit, on either side
    have hside : -15 ≤ side { v with param } (depth { v with param }) ∧
        side { v with param } (depth { v with param }) ≤ 15 := by
      unfold side
      split <;> omega
    exact { h with swing_ge := hside.1, swing_le := hside.2 }

/-- The delay becomes what is held, and the swing starts with the depth. -/
theorem InRange.restart (h : v.InRange) : v.restart.InRange := by
  unfold Vibrato.restart
  dsimp only
  split
  · have hdepth := depth_le { v with hold := v.delay, countdown := 0 }
    exact
      { h with
        hold := h.delay
        countdown := Nat.zero_le _
        swing_ge := by dsimp only; omega
        swing_le := by dsimp only; omega }
  · exact { h with hold := h.delay, countdown := Nat.zero_le _ }

/-- Counts go down or start with the dwell, and the swing changes sides. -/
theorem InRange.step (h : v.InRange) : v.step.InRange := by
  unfold Vibrato.step
  split
  · exact h
  · split
    · exact { h with hold := Nat.le_trans (Nat.sub_le ..) h.hold }
    · split
      · -- the pitch changes sides, and keeps its depth
        have hge := h.swing_ge
        have hle := h.swing_le
        exact
          { h with
            countdown := Nat.le_trans v.dwell_le (by decide)
            swing_ge := by dsimp only; omega
            swing_le := by dsimp only; omega }
      · exact { h with countdown := Nat.le_trans (Nat.sub_le ..) h.countdown }

/-- What a vibrato adds is within its swing. -/
theorem InRange.offset (h : v.InRange) : -15 ≤ v.offset ∧ v.offset ≤ 15 := by
  unfold Vibrato.offset
  split
  · exact ⟨h.swing_ge, h.swing_le⟩
  · decide

/-- Set duration and depth, with the offset in a signed byte. -/
def checkedSet (v : Vibrato) (param : UInt8) : Checked Vibrato :=
  let v := { v with param }
  if v.depth = 0 then .ok { v with isOn := false, swing := 0 }
  else do
    let swing ← if v.swing < 0 then signed 8 (-v.depth) else signed 8 v.depth
    return { v with isOn := true, swing }

/-- Depths of one digit have a sign in a byte. -/
theorem checkedSet_eq (v : Vibrato) (param : UInt8) : v.checkedSet param = .ok (v.set param) := by
  have hdepth := depth_le { v with param }
  rw [checkedSet, Vibrato.set]
  dsimp only
  split
  · rfl
  · unfold side
    split
    · rw [signed_eq (by omega) (by omega)]
      rfl
    · rw [signed_eq (by omega) (by omega)]
      rfl

/-- Advance by one frame, with counts in bytes and the offset in a signed one. -/
def checkedStep (v : Vibrato) : Checked Vibrato :=
  if !v.isOn then .ok v
  else if 0 < v.hold then do
    let hold ← unsigned 8 (v.hold - 1)
    return { v with hold }
  else if v.countdown = 0 then do
    let swing ← signed 8 (-v.swing)
    return { v with swing, countdown := v.dwell }
  else do
    let countdown ← unsigned 8 (v.countdown - 1)
    return { v with countdown }

/-- Counts in a byte go down without a fault, as does a change of sides. -/
theorem checkedStep_eq (h : v.InRange) : v.checkedStep = .ok v.step := by
  have hhold := h.hold
  have hcountdown := h.countdown
  have hge := h.swing_ge
  have hle := h.swing_le
  rw [checkedStep, Vibrato.step]
  split
  · rfl
  · split
    · rw [unsigned_eq (n := v.hold - 1) (by omega) (by omega)]
      rfl
    · split
      · rw [signed_eq (by omega) (by omega)]
        rfl
      · rw [unsigned_eq (n := v.countdown - 1) (by omega) (by omega)]
        rfl

end Vibrato

/-! ## Sequences -/

namespace Sequence.Cursor

/-- The next value, read at the place of the cursor, which moves on by one. -/
def checkedNext (c : Cursor) : Checked (Option UInt8 × Cursor) :=
  match c.position? with
  | some i =>
      match c.sequence.values[i]? with
      | some value => do
          let index ← word (i + 1)
          return (some value, { c with index })
      | none => .ok (none, { c with index := i })
  | none => .ok (none, c)

/-- The position that is read next lies within the sequence. -/
theorem position?_lt (c : Cursor) {i : Nat} (h : c.position? = some i) :
    i < c.sequence.values.length := by
  rw [position?] at h
  split at h
  · next hindex => exact Option.some.inj h ▸ hindex
  · exact c.sequence.loop_lt i h

/-- A cursor reads within its sequence, also when it comes from the loop. -/
theorem checkedNext_eq (c : Cursor) : c.checkedNext = .ok c.next := by
  rw [checkedNext, next]
  cases hi : c.position? with
  | none => rfl
  | some i =>
      -- the place is within the sequence, also when it comes from the loop
      have hlt := c.position?_lt hi
      have hlength := c.sequence.length_le
      dsimp only
      rw [List.getElem?_eq_getElem hlt]
      dsimp only
      rw [word_eq (n := i + 1) (by omega) (by omega)]
      rfl

/-- The next value of a cursor that may be absent. -/
def checkedAdvance : Option Cursor → Checked (Option UInt8 × Option Cursor)
  | some c => do
      let (value?, c) ← c.checkedNext
      return (value?, some c)
  | none => .ok (none, none)

/-- A cursor moves on without a fault, and one that is absent reads nothing. -/
theorem checkedAdvance_eq (c? : Option Cursor) : checkedAdvance c? = .ok (advance c?) := by
  cases c? with
  | none => rfl
  | some c => rw [checkedAdvance, checkedNext_eq, ok_bind]; rfl

end Sequence.Cursor

end Chiptune
