import Mathlib.Data.List.Induction
import Chiptune.Proofs.Playback.Timing

/-! # Where rows end

A clock may be told the length of a row at any moment, also when as much has passed already.  It is
then overdrawn: each frame ends a row, and takes one length from what has passed, but no row starts
until less than a length is left.

* `isFirst_step_iff` says when a row starts, for a clock in any state.
* `not_runs_iterate_step_iff` counts the frames for which a clock stays overdrawn.
* `row_starts_iff` says what any calls lead to; `Reachable.isFirst_step` says that the clock of a
  player is never overdrawn. -/

namespace Chiptune

/-- What a caller asks of a clock. -/
inductive ClockCall where
  /-- Advance by one frame. -/
  | step
  /-- Change the length of a row. -/
  | setPeriod (period : Speed)
  /-- Return to the start of a row. -/
  | reset
  deriving DecidableEq, Repr

namespace RowClock

/-- Serve a call. -/
def serve (c : RowClock) : ClockCall → RowClock
  | .step => c.step
  | .setPeriod period => c.setPeriod period
  | .reset => c.reset

/-- The clock behind some calls. -/
def after (c : RowClock) (calls : List ClockCall) : RowClock :=
  calls.foldl serve c

/-- The clock behind some calls and more. -/
theorem after_append (c : RowClock) (calls calls' : List ClockCall) :
    c.after (calls ++ calls') = (c.after calls).after calls' :=
  List.foldl_append

/-- The clock behind some calls and one more. -/
theorem after_concat (c : RowClock) (calls : List ClockCall) (call : ClockCall) :
    c.after (calls ++ [call]) = (c.after calls).serve call :=
  c.after_append calls [call]

/-- Steps alone advance a clock by as many frames. -/
theorem after_replicate_step (c : RowClock) (n : Nat) :
    c.after (List.replicate n .step) = step^[n] c := by
  induction n generalizing c with
  | zero => rfl
  | succ n ih => exact ih c.step

/-! ## Frames -/

/-- A clock that does not run ends a row with every frame. -/
theorem isLast_of_not_runs {c : RowClock} (h : ¬c.Runs) : c.isLast = true := by
  rw [Runs, Nat.not_lt] at h
  exact decide_eq_true (h.trans (Nat.le_add_right _ _))

/-- **A row starts behind a frame exactly if the frame ends a row of a clock that runs.** -/
theorem isFirst_step_iff (c : RowClock) : c.step.isFirst = true ↔ c.isLast = true ∧ c.Runs := by
  by_cases h : c.Runs
  · rw [isFirst_step h, and_iff_left h]
  · refine iff_of_false ?_ fun hrow => h hrow.2
    -- at least one frame is left over
    rw [isFirst, elapsed_step, if_pos (isLast_of_not_runs h), decide_eq_true_eq]
    rw [Runs] at h
    omega

/-- A frame of a clock that does not run takes one length of a row from what has passed. -/
theorem elapsed_step_of_not_runs {c : RowClock} (h : ¬c.Runs) :
    c.step.elapsed + (c.period.raw - Speed.unit) = c.elapsed := by
  have hunit : Speed.unit = 0x10 := rfl
  have hle := c.period.le_raw
  rw [elapsed_step, if_pos (isLast_of_not_runs h)]
  rw [Runs] at h
  omega

/-- **How long a clock stays overdrawn**: each frame takes one length of a row from what has passed,
and adds itself. -/
theorem not_runs_iterate_step_iff (c : RowClock) (n : Nat) :
    ¬(step^[n] c).Runs ↔ c.period.raw + n * (c.period.raw - Speed.unit) ≤ c.elapsed := by
  induction n generalizing c with
  | zero => rw [Nat.zero_mul, Nat.add_zero]; exact Nat.not_lt
  | succ n ih =>
      rw [Function.iterate_succ_apply, ih, period_step]
      by_cases h : c.Runs
      · -- a clock that runs keeps running, and is not overdrawn
        have hstep := runs_step h
        rw [Runs] at h hstep
        rw [period_step] at hstep
        exact iff_of_false (by omega) (by omega)
      · rw [← elapsed_step_of_not_runs h, Nat.succ_mul, ← Nat.add_assoc]
        exact (Nat.add_le_add_iff_right).symm

/-! ## Calls -/

/-- Behind some calls, a clock is overdrawn: the length of a row was set when as much had passed
already, and the frames since then have not made up for it. -/
def Overdrawn (speed : Speed) (calls : List ClockCall) : Prop :=
  ∃ before period n, calls = before ++ .setPeriod period :: List.replicate n .step ∧
    period.raw + n * (period.raw - Speed.unit) ≤ ((new speed).after before).elapsed

/-- Frames after the length of a row was set, a clock does not run exactly if as much had passed
already and the frames since then have not made up for it. -/
theorem not_runs_after_setPeriod_iff (c : RowClock) (before : List ClockCall) (period : Speed)
    (n : Nat) :
    ¬(c.after (before ++ .setPeriod period :: List.replicate n .step)).Runs ↔
      period.raw + n * (period.raw - Speed.unit) ≤ (c.after before).elapsed := by
  have hafter : c.after (before ++ .setPeriod period :: List.replicate n .step) =
      step^[n] ((c.after before).setPeriod period) := by
    rw [after_append]
    exact after_replicate_step _ n
  rw [hafter, not_runs_iterate_step_iff, period_setPeriod, elapsed_setPeriod]

/-- **A clock runs unless it is overdrawn.** -/
theorem not_runs_after_iff (speed : Speed) (calls : List ClockCall) :
    ¬((new speed).after calls).Runs ↔ Overdrawn speed calls := by
  constructor
  · intro h
    induction calls using List.reverseRecOn with
    | nil => exact absurd (runs_of_isFirst rfl) h
    | append_singleton calls call ih =>
        cases call with
        | setPeriod period =>
            exact ⟨calls, period, 0, rfl, (not_runs_after_setPeriod_iff _ calls period 0).mp h⟩
        | reset =>
            rw [after_concat] at h
            exact absurd (runs_of_isFirst rfl) h
        | step =>
            -- the clock was overdrawn before, and is by one frame less
            have hbefore : ¬((new speed).after calls).Runs := by
              rw [after_concat] at h
              exact fun hruns => h (runs_step hruns)
            obtain ⟨before, period, n, rfl, -⟩ := ih hbefore
            have hcalls : before ++ .setPeriod period :: List.replicate n .step ++ [.step] =
                before ++ .setPeriod period :: List.replicate (n + 1) .step := by
              rw [List.append_assoc, List.cons_append, List.replicate_succ']
            rw [hcalls] at h ⊢
            exact ⟨before, period, n + 1, rfl, (not_runs_after_setPeriod_iff _ _ _ _).mp h⟩
  · rintro ⟨before, period, n, rfl, hle⟩
    exact (not_runs_after_setPeriod_iff _ before period n).mpr hle

/-- **Where rows start.**  Behind any calls, the frame that a step leads to is the first of a row
exactly if the step ends a row and the clock is not overdrawn. -/
theorem row_starts_iff (speed : Speed) (calls : List ClockCall) :
    let c := (new speed).after calls
    c.step.isFirst = true ↔ c.isLast = true ∧ ¬Overdrawn speed calls := by
  intro c
  rw [isFirst_step_iff, ← not_runs_after_iff, not_not]

/-- A row of four frames that is cut to one behind its third ends without starting another. -/
theorem row_ends_unstarted :
    let c := (new { raw := 0x40 }).after [.step, .step, .step, .setPeriod .fastest]
    c.isLast = true ∧ c.step.isFirst = false := by
  decide

end RowClock

/-! ## Players -/

/-- The clock of a player is never overdrawn, since a player sets the length of a row on the first
frame alone: each row that ends is followed by the first frame of another. -/
theorem Player.Reachable.isFirst_step {m : Module} {p : Player} (h : Reachable m p)
    (hh : p.isHalted = false) :
    p.transport.clock.step.isFirst = p.transport.clock.isLast := by
  obtain ⟨n, hguides⟩ := h.exists_guides
  exact RowClock.isFirst_step (hguides.runs hh)

end Chiptune
