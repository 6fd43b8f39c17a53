import Chiptune.Proofs.Checked.Arithmetic
import Chiptune.Proofs.Playback.Steering

/-! # Checked transport

The transport counts time, rows and orders.  The clock never holds more than the longest row, and
the position, like the place that a waiting move leads to, lies in the song.

* `Transport.Within` says the latter, and `Transport.InRange` both.
* `InRange.enterRow`, `InRange.obeyAll`, `InRange.step` and `InRange.jump` say that they last.
* `Transport.checkedEnterRow_eq` and `Transport.checkedStep_eq` say that no frame has a fault. -/

namespace Chiptune

open Checked

/-! ## Clocks -/

namespace RowClock

variable {c : RowClock}

/-- The range of a clock: less than the longest row has passed. -/
def InRange (c : RowClock) : Prop :=
  c.elapsed < Speed.slowest.raw

/-- A row that goes on has not reached its period, and the rest of one that ends is less than a
frame more. -/
theorem InRange.step (h : c.InRange) : c.step.InRange := by
  have hlong : Speed.slowest.raw = 0xF0 := rfl
  have hunit : Speed.unit = 0x10 := rfl
  have hle := c.period.le_raw
  have hge := c.period.raw_le
  rw [InRange] at h ⊢
  rw [elapsed_step]
  cases hl : c.isLast with
  | true =>
      rw [if_pos rfl]
      omega
  | false =>
      have hlt : ¬c.period.raw ≤ c.elapsed + Speed.unit := of_decide_eq_false hl
      -- a row that goes on has not reached its period, which is the longest at most
      rw [if_neg Bool.false_ne_true]
      omega

/-- Advance by one frame, counting time in sixteen bits; the result says whether the row ends. -/
def checkedStep (c : RowClock) : Checked (RowClock × Bool) := do
  let elapsed ← unsigned 16 (c.elapsed + Speed.unit)
  if c.period.raw ≤ elapsed then
    let rest ← unsigned 16 (elapsed - c.period.raw)
    return ({ c with elapsed := rest }, true)
  else return ({ c with elapsed }, false)

/-- Less than the longest row and one more frame fit sixteen bits. -/
theorem checkedStep_eq (h : c.InRange) : c.checkedStep = .ok (c.step, c.isLast) := by
  have hlong : Speed.slowest.raw = 0xF0 := rfl
  have hunit : Speed.unit = 0x10 := rfl
  rw [InRange] at h
  rw [checkedStep, unsigned_eq (n := c.elapsed + Speed.unit) (by omega) (by omega), ok_bind, step,
    isLast]
  split
  · next hlast =>
    have hrest : unsigned 16 ((c.elapsed + Speed.unit : Nat) - c.period.raw) =
        .ok (c.elapsed + Speed.unit - c.period.raw) := unsigned_eq (by omega) (by omega)
    rw [hrest, decide_eq_true hlast]
    rfl
  · next hlast =>
    rw [decide_eq_false hlast]
    rfl

/-- A clock out of its range overflows. -/
example : ({ period := Speed.standard, elapsed := 0xFFF0 } : RowClock).checkedStep =
    .error .overflow := rfl

end RowClock

/-! ## Transports -/

namespace Transport

variable {t : Transport} {size : Extent}

/-- A transport lies in a song if its position does and if a move that waits leads into it. -/
structure Within (size : Extent) (t : Transport) : Prop where
  position : t.position.Inside size
  move : ∀ move, t.move = some move → move.Inside size

/-- The range of a transport: it lies in the song, and its clock is in range. -/
structure InRange (size : Extent) (t : Transport) : Prop where
  within : t.Within size
  clock : t.clock.InRange

/-- Where a move leads lies in the song. -/
theorem Within.destination (h : t.Within size) (move : Move) :
    (t.destination size move).Inside size := by
  rw [Transport.destination.eq_def]
  split
  · exact ⟨h.position.1, size.rows_pos⟩
  · split
    · exact size.following_inside _ _
    · exact size.startOf_inside _

/-- A move that is made leads into the song. -/
theorem InRange.enterRow (h : t.InRange size) : (t.enterRow size).InRange size := by
  unfold Transport.enterRow
  split
  · exact { h with within := { position := h.within.destination _, move := by rintro _ ⟨⟩ } }
  · exact h

/-- The effects of a line leave a transport in its range. -/
theorem InRange.obeyAll (h : t.InRange size) (es : List Effect) :
    (es.foldl (fun t e => t.obey size e) t).InRange size := by
  rw [foldl_obey]
  refine { clock := h.clock, within := { position := h.within.position, move := ?_ } }
  intro move hmove
  -- the last valid move of the line, or else the one that waited before
  rcases Option.or_eq_some_iff.mp hmove with hlast | ⟨-, hwaits⟩
  · exact lastMove?_inside hlast
  · exact h.within.move _ hwaits

/-- A row that ends leads to the next one, or has a move to the next order wait. -/
theorem InRange.leaveRow (h : t.InRange size) : (t.leaveRow size).InRange size := by
  unfold Transport.leaveRow
  split
  · next hrow =>
    exact { h with within := { position := ⟨h.within.position.1, hrow⟩, move := h.within.move } }
  · refine { h with within := { position := h.within.position, move := ?_ } }
    intro move hmove
    have hor : t.move.orElse (fun _ => some (.next 0)) = some move := hmove
    rw [Option.orElse_eq_or] at hor
    rcases Option.or_eq_some_iff.mp hor with hwaits | ⟨-, hnext⟩
    · exact h.within.move _ hwaits
    · obtain rfl := Option.some.inj hnext
      exact size.rows_pos

/-- A frame keeps a transport in its range. -/
theorem InRange.step (h : t.InRange size) : (t.step size).InRange size := by
  have hclock : ({ t with clock := t.clock.step } : Transport).InRange size :=
    { within := { position := h.within.position, move := h.within.move }, clock := h.clock.step }
  unfold Transport.step
  split
  · exact hclock.leaveRow
  · exact hclock

/-- A jump into the song stays in it, and any other is ignored. -/
theorem InRange.jump (h : t.InRange size) (order : Nat) : (t.jump size order).InRange size := by
  unfold Transport.jump
  split
  · next horder =>
    exact
      { within := { position := ⟨horder, size.rows_pos⟩, move := nofun }
        clock := (by decide : 0 < Speed.slowest.raw) }
  · exact h

/-- Where a move leads, with orders counted in words and rows in sixteen bits. -/
def checkedDestination (t : Transport) (size : Extent) (move : Move) : Checked Position :=
  if t.repeats then .ok { t.position with row := 0 }
  else match move with
    | .next row => do
        let next ← word (t.position.order + 1)
        let order ← remainder next size.orders
        let last ← unsigned 16 (size.rows - 1)
        return ⟨order, min row last⟩
    | .jump order => do
        let last ← word (size.orders - 1)
        return ⟨min order last, 0⟩

/-- Orders and rows of a song are few enough to be counted, and there is at least one of each. -/
theorem checkedDestination_eq (h : t.Within size) (move : Move) :
    t.checkedDestination size move = .ok (t.destination size move) := by
  -- there is at least one order and one row, and there are few of both
  have horder := h.position.1
  have horders := size.orders_pos
  have horders' := size.orders_le
  have hrows := size.rows_pos
  have hrows' := size.rows_le
  rw [checkedDestination.eq_def, destination.eq_def]
  split
  · rfl
  · cases move with
    | next row =>
        dsimp only
        rw [word_eq (n := t.position.order + 1) (by omega) (by omega), ok_bind,
          remainder_eq horders, ok_bind, unsigned_eq (n := size.rows - 1) (by omega) (by omega)]
        rfl
    | jump order =>
        dsimp only
        rw [word_eq (n := size.orders - 1) (by omega) (by omega)]
        rfl

/-- Start a row: a move that waits is made. -/
def checkedEnterRow (t : Transport) (size : Extent) : Checked Transport :=
  match t.move with
  | some move => do
      let position ← t.checkedDestination size move
      return { t with position, move := none, entersPattern := true }
  | none => .ok t

/-- A row is entered without a fault. -/
theorem checkedEnterRow_eq (h : t.Within size) :
    t.checkedEnterRow size = .ok (t.enterRow size) := by
  rw [checkedEnterRow, enterRow]
  cases t.move with
  | none => rfl
  | some move =>
      dsimp only
      rw [checkedDestination_eq h]
      rfl

/-- End a row.  The row is counted up first, and down again behind the last one. -/
def checkedLeaveRow (t : Transport) (size : Extent) : Checked Transport := do
  let row ← unsigned 16 (t.position.row + 1)
  if row < size.rows then return { t with position := { t.position with row } }
  else
    let row ← unsigned 16 (row - 1)
    return { t with position := { t.position with row }, move := t.move <|> some (.next 0) }

/-- A row is left without a fault: the row behind the last one can still be counted. -/
theorem checkedLeaveRow_eq (h : t.Within size) :
    t.checkedLeaveRow size = .ok (t.leaveRow size) := by
  have hrow := h.position.2
  have hrows := size.rows_le
  rw [checkedLeaveRow, unsigned_eq (n := t.position.row + 1) (by omega) (by omega), ok_bind,
    leaveRow]
  split
  · rfl
  · -- behind the last row, the count goes back to it
    have hback : unsigned 16 ((t.position.row + 1 : Nat) - 1) = .ok t.position.row :=
      unsigned_eq (by omega) (by omega)
    rw [hback]
    rfl

/-- Advance by one frame. -/
def checkedStep (t : Transport) (size : Extent) : Checked Transport := do
  let (clock, isLast) ← t.clock.checkedStep
  let next := { t with clock }
  if isLast then next.checkedLeaveRow size else return next

/-- A frame of a transport in its range has no fault. -/
theorem checkedStep_eq (h : t.InRange size) : t.checkedStep size = .ok (t.step size) := by
  have hnext : ({ t with clock := t.clock.step } : Transport).Within size :=
    { position := h.within.position, move := h.within.move }
  rw [checkedStep, RowClock.checkedStep_eq h.clock, ok_bind, step]
  dsimp only
  split
  · exact checkedLeaveRow_eq hnext
  · rfl

end Transport
end Chiptune
