import Chiptune.Playback.Transport
import Chiptune.Score.Song
import Mathlib.Data.List.TakeWhile

/-! # What a line does to the transport

Of the effects of a line, only the last valid move and the last speed in range count.  This file
says so in one equation, and collects what a frame does to the clock and the position.

* `foldl_obey` reads the effect of a whole line off `lastMove?` and `lastSpeed?`.
* `move_enterRow`, `position_enterRow_of_none` and `position_enterRow_of_some` say what becomes of
  the move that waits when a row starts.
* `isFirst_step` ties the end of a row to the start of the next one, for a clock that `Runs`. -/

namespace Chiptune

/-! ## Moves and speeds of a line -/

/-- The move that an effect asks for, provided it leads to a place in the song. -/
def Effect.move? (size : Extent) (e : Effect) : Option Move :=
  match e.kind with
  | .pattern .goto => if e.param.toNat < size.orders then some (.jump e.param.toNat) else none
  | .pattern .skip => if e.param.toNat < size.rows then some (.next e.param.toNat) else none
  | _ => none

/-- The speed that an effect asks for, provided it is in range. -/
def Effect.speed? (e : Effect) : Option Speed :=
  match e.kind with
  | .pattern .setTempo => Speed.ofRaw? e.param.toNat
  | _ => none

/-- The last of some effects' valid moves. -/
def lastMove? (size : Extent) (es : List Effect) : Option Move :=
  (es.filterMap (Effect.move? size)).getLast?

/-- The last of some effects' speeds in range. -/
def lastSpeed? (es : List Effect) : Option Speed :=
  (es.filterMap Effect.speed?).getLast?

/-- All effects of a line, by channel and within a channel by column. -/
def Line.allEffects (l : Line) : List Effect :=
  Channel.all.flatMap fun c => (l.get c).effects

/-- A row that does not stop playback is obeyed as a whole. -/
theorem Row.obeyed_of_not_halts {r : Row} (h : r.halts = false) : r.obeyed = r.effects := by
  rw [halts, List.any_eq_false] at h
  rw [obeyed]
  refine List.takeWhile_eq_self_iff.mpr ?_
  intro e he
  rw [Bool.eq_false_iff.mpr (h e he), Bool.not_false]

/-- A line that does not stop playback is obeyed as a whole. -/
theorem Line.effects_of_not_halts {l : Line} (h : l.halts = false) : l.effects = l.allEffects := by
  have hreads : Channel.all.filter l.reads = Channel.all :=
    List.filter_eq_self.mpr fun c _ => l.reads_of_not_halts h c
  rw [effects, allEffects, hreads]
  rw [halts, List.any_eq_false] at h
  have hrow (c : Channel) : (l.get c).obeyed = (l.get c).effects :=
    Row.obeyed_of_not_halts (Bool.eq_false_iff.mpr (h c c.mem_all))
  simp only [hrow]

/-- Without effects, no move is made. -/
@[simp] theorem lastMove?_nil (size : Extent) : lastMove? size [] = none := rfl

/-- Without effects, the speed stays. -/
@[simp] theorem lastSpeed?_nil : lastSpeed? [] = none := rfl

/-- The first effect's move counts only if no later effect has one. -/
theorem lastMove?_cons (size : Extent) (e : Effect) (es : List Effect) :
    lastMove? size (e :: es) = (lastMove? size es).or (e.move? size) := by
  rw [lastMove?, lastMove?, List.filterMap_cons]
  cases e.move? size with
  | none => rw [Option.or_none]
  | some move =>
      dsimp only
      rw [List.getLast?_cons]
      cases (es.filterMap _).getLast? <;> rfl

/-- The first effect's speed counts only if no later effect has one. -/
theorem lastSpeed?_cons (e : Effect) (es : List Effect) :
    lastSpeed? (e :: es) = (lastSpeed? es).or e.speed? := by
  rw [lastSpeed?, lastSpeed?, List.filterMap_cons]
  cases e.speed? with
  | none => rw [Option.or_none]
  | some speed =>
      dsimp only
      rw [List.getLast?_cons]
      cases (es.filterMap _).getLast? <;> rfl

/-- Whether a move leads to a place that a song of some size has. -/
def Move.Inside (size : Extent) : Move → Prop
  | .next row => row < size.rows
  | .jump order => order < size.orders

/-- The moves that effects ask for lead to places in the song. -/
theorem Effect.move?_inside {size : Extent} {e : Effect} {move : Move}
    (h : e.move? size = some move) : move.Inside size := by
  rw [Effect.move?] at h
  split at h
  · split at h
    · next hlt => cases h; exact hlt
    · cases h
  · split at h
    · next hlt => cases h; exact hlt
    · cases h
  · cases h

/-- The last move of some effects leads to a place in the song. -/
theorem lastMove?_inside {size : Extent} {es : List Effect} {move : Move}
    (h : lastMove? size es = some move) : move.Inside size := by
  obtain ⟨_, _, he⟩ := List.mem_filterMap.mp (List.mem_of_getLast? h)
  exact Effect.move?_inside he

namespace Transport

/-- An effect sets the move that waits and the length of the row, where it asks for them. -/
theorem obey_eq (t : Transport) (size : Extent) (e : Effect) :
    t.obey size e =
      { t with
        move := (e.move? size).or t.move
        clock := { t.clock with period := e.speed?.getD t.clock.period } } := by
  obtain ⟨kind, param⟩ := e
  rcases kind with effect | effect | effect
  · cases effect with
    | goto => simp only [obey, Effect.move?, Effect.speed?]; split <;> rfl
    | skip => simp only [obey, Effect.move?, Effect.speed?]; split <;> rfl
    | setTempo =>
      simp only [obey, Effect.move?, Effect.speed?]
      cases Speed.ofRaw? param.toNat <;> rfl
    | halt => rfl
    | sfx => rfl
  · rfl
  · rfl

/-- **A line acts through its last move and its last speed alone.** -/
theorem foldl_obey (size : Extent) (es : List Effect) (t : Transport) :
    es.foldl (fun t e => t.obey size e) t =
      { t with
        move := (lastMove? size es).or t.move
        clock := { t.clock with period := (lastSpeed? es).getD t.clock.period } } := by
  induction es generalizing t with
  | nil => rfl
  | cons e es ih =>
      rw [List.foldl_cons, ih, obey_eq, lastMove?_cons, lastSpeed?_cons]
      simp only [Option.or_assoc, Option.getD_or]

/-! ## Rows -/

/-- A row that starts has made the move that waited. -/
@[simp] theorem move_enterRow (t : Transport) (size : Extent) : (t.enterRow size).move = none := by
  unfold enterRow
  split
  · rfl
  · next h => exact h

/-- A row is entered without touching the clock. -/
@[simp] theorem clock_enterRow (t : Transport) (size : Extent) :
    (t.enterRow size).clock = t.clock := by
  unfold enterRow
  split <;> rfl

/-- A row is entered with repetition as it was. -/
@[simp] theorem repeats_enterRow (t : Transport) (size : Extent) :
    (t.enterRow size).repeats = t.repeats := by
  unfold enterRow
  split <;> rfl

/-- Where the next row starts, if no move waits. -/
theorem position_enterRow_of_none {t : Transport} (size : Extent) (h : t.move = none) :
    (t.enterRow size).position = t.position := by
  rw [enterRow, h]

/-- Where the next row starts, if a move waits. -/
theorem position_enterRow_of_some {t : Transport} {size : Extent} {move : Move}
    (h : t.move = some move) : (t.enterRow size).position = t.destination size move := by
  rw [enterRow, h]

/-- A row is left without touching the clock, which a frame moves by itself. -/
@[simp] theorem clock_leaveRow (t : Transport) (size : Extent) :
    (t.leaveRow size).clock = t.clock := by
  unfold leaveRow
  split <;> rfl

/-- A row is left with repetition as it was. -/
@[simp] theorem repeats_leaveRow (t : Transport) (size : Extent) :
    (t.leaveRow size).repeats = t.repeats := by
  unfold leaveRow
  split <;> rfl

/-- A frame moves the clock by one frame, whether a row ends or not. -/
@[simp] theorem clock_step (t : Transport) (size : Extent) :
    (t.step size).clock = t.clock.step := by
  unfold step
  split
  · exact clock_leaveRow ..
  · rfl

/-- A frame leaves repetition as it was. -/
@[simp] theorem repeats_step (t : Transport) (size : Extent) :
    (t.step size).repeats = t.repeats := by
  unfold step
  split
  · exact repeats_leaveRow ..
  · rfl

/-- A frame that is not the last of its row moves nothing but the clock. -/
theorem step_of_not_last {t : Transport} (size : Extent) (h : t.clock.isLast = false) :
    t.step size = { t with clock := t.clock.step } := by
  rw [step, h]
  rfl

/-- The last frame of a row leaves it. -/
theorem step_of_last {t : Transport} (size : Extent) (h : t.clock.isLast = true) :
    t.step size = { t with clock := t.clock.step }.leaveRow size := by
  rw [step, h]
  rfl

end Transport

/-! ## Clocks -/

namespace RowClock

/-- A clock runs as long as less than a row has passed. -/
def Runs (c : RowClock) : Prop :=
  c.elapsed < c.period.raw

/-- A clock at the start of a row runs, whatever its period. -/
theorem runs_of_isFirst {c : RowClock} (h : c.isFirst = true) : c.Runs := by
  have hp := c.period.le_raw
  have he : c.elapsed < Speed.unit := of_decide_eq_true h
  rw [Speed.unit] at he
  unfold Runs
  omega

/-- What has passed of a row after one frame more. -/
theorem elapsed_step (c : RowClock) :
    c.step.elapsed =
      if c.isLast then c.elapsed + Speed.unit - c.period.raw else c.elapsed + Speed.unit := rfl

/-- **A row starts behind every row that ends, and only there.** -/
theorem isFirst_step {c : RowClock} (h : c.Runs) : c.step.isFirst = c.isLast := by
  rw [Runs] at h
  rw [isFirst, elapsed_step]
  cases hl : c.isLast with
  | true =>
      rw [if_pos rfl, decide_eq_true_eq, Speed.unit]
      omega
  | false => exact decide_eq_false (by simp)

/-- A clock that runs keeps running. -/
theorem runs_step {c : RowClock} (h : c.Runs) : c.step.Runs := by
  cases hl : c.isLast with
  | true => exact runs_of_isFirst ((isFirst_step h).trans hl)
  | false =>
      have hlt : c.elapsed + Speed.unit < c.period.raw := Nat.not_le.mp (of_decide_eq_false hl)
      rw [Runs, elapsed_step, hl]
      exact hlt

end RowClock
end Chiptune
