import Chiptune.Proofs.Playback.Navigation
import Mathlib.Algebra.Order.Floor.Div

/-! # The frames on which rows are played

The clock of the rows counts sixteenths of a frame and carries what is left of a row into the next
one.  So a row starts on the frame that the lengths of all rows before it add up to, rounded up, and
nothing is ever lost, whatever speeds the rows ask for.

* `dueFrame` is the frame of a row by the speeds of the rows before it, `Song.speedsBehind` gives
  these speeds from the rows alone.
* `RowClock.Balances` is the balance of a clock, which `balances_step` keeps.
* `rows_start_when_due` says that a run keeps its timetable from a start or a jump on. -/

namespace Chiptune

/-! ## Timetables -/

/-- The speed behind a row: the last one that it asks for, or the speed before it. -/
def Song.speedBehind (s : Song) (speed : Speed) (r : Position) : Speed :=
  (lastSpeed? (s.line r).allEffects).getD speed

/-- The speeds behind some rows that are played one after the other. -/
def Song.speedsBehind (s : Song) : Speed → List Position → List Speed
  | _, [] => []
  | speed, r :: rs => s.speedBehind speed r :: s.speedsBehind (s.speedBehind speed r) rs

/-- The sixteenths of a frame that rows of some speeds last. -/
def sixteenths (speeds : List Speed) : Nat :=
  (speeds.map Speed.raw).sum

/-- The frame on which a row is due that follows rows of some speeds: the frame that has begun when
their time is up. -/
def dueFrame (speeds : List Speed) : Nat :=
  sixteenths speeds ⌈/⌉ Speed.unit

/-- A row of a run. -/
structure TimedRow where
  /-- The frame on which it starts, from zero. -/
  frame : Nat
  /-- Its position in the song. -/
  position : Position
  /-- The speed in effect when it has been read. -/
  speed : Speed
  deriving DecidableEq, Repr

/-- The frames that a call plays. -/
def Call.frames : Call → Nat
  | .step => 1
  | _ => 0

/-- Whether a call is a jump to an order that a song of some size has. -/
def Call.Jumps (size : Extent) : Call → Prop
  | .jump order => order < size.orders
  | _ => False

instance (size : Extent) (call : Call) : Decidable (call.Jumps size) :=
  match call with
  | .jump order => inferInstanceAs (Decidable (order < size.orders))
  | .step | .setRepeat _ | .halt => isFalse id

namespace Player

/-- The rows that start with some calls, whose frames are counted from a number on. -/
def timedRows (p : Player) (m : Module) (frame : Nat) : List Call → List TimedRow
  | [] => []
  | call :: calls =>
      let p' := (p.serve m call).1
      ((p.rowStart? m call).map fun position => ⟨frame, position, p'.speed⟩).toList ++
        p'.timedRows m (frame + call.frames) calls

/-- The players whose next frame starts a timetable, with the speed before its first row. -/
inductive Onset (m : Module) : Player → Speed → Prop where
  /-- A start of playback. -/
  | start {position : Position} {p : Player} :
      Player.start m position = .ok p → Onset m p m.song.speed
  /-- A jump within the song, after any calls. -/
  | jump {p : Player} {order : Nat} :
      Reachable m p → order < m.song.extent.orders → Onset m (p.jump m order) p.speed

/-- A player that has stopped stays so. -/
theorem isHalted_serve {p : Player} (m : Module) (call : Call) (h : p.isHalted = true) :
    (p.serve m call).1.isHalted = true := by
  cases call with
  | step => rw [serve, step_of_halted m h]; exact h
  | setRepeat repeats => exact h
  | jump order => exact h
  | halt => rfl

/-- No row starts with a call to a player that has stopped. -/
theorem rowStart?_of_halted {p : Player} (m : Module) (call : Call) (h : p.isHalted = true) :
    p.rowStart? m call = none := by
  cases call with
  | step => exact rowStart?_step_eq_none (by rw [h]; rfl)
  | setRepeat repeats => rfl
  | jump order => rfl
  | halt => rfl

/-- A player that has stopped starts no rows, and never goes on. -/
theorem timedRows_of_halted {p : Player} (m : Module) (frame : Nat) (calls : List Call)
    (h : p.isHalted = true) :
    p.timedRows m frame calls = [] ∧ (p.after m calls).isHalted = true := by
  induction calls generalizing p frame with
  | nil => exact ⟨rfl, h⟩
  | cons call calls ih =>
      obtain ⟨hrows, hafter⟩ := ih (frame + call.frames) (isHalted_serve m call h)
      refine ⟨?_, hafter⟩
      rw [timedRows, rowStart?_of_halted m call h]
      exact hrows

end Player

/-! ## The balance of a clock -/

namespace RowClock

/-- The balance of a clock on a frame: the frames so far are the rows that were begun and what has
passed of the last one, all of which counts as passed before its end. -/
def Balances (c : RowClock) (frame total : Nat) : Prop :=
  frame * Speed.unit + (if c.isFirst then 0 else c.period.raw) = total + c.elapsed

/-- At the start of a row, the row is due. -/
theorem eq_ceilDiv_of_balances {c : RowClock} {frame total : Nat} (h : c.Balances frame total)
    (hf : c.isFirst = true) : frame = total ⌈/⌉ Speed.unit := by
  have he : c.elapsed < Speed.unit := of_decide_eq_true hf
  rw [Balances, if_pos hf] at h
  rw [Nat.ceilDiv_eq_add_pred_div]
  rw [Speed.unit] at *
  omega

/-- Before that, the next row is not overdue. -/
theorem le_ceilDiv_of_balances {c : RowClock} {frame total : Nat} (hc : c.Runs)
    (h : c.Balances frame total) : frame ≤ total ⌈/⌉ Speed.unit := by
  cases hf : c.isFirst with
  | true => exact (eq_ceilDiv_of_balances h hf).le
  | false =>
      rw [Balances, hf, if_neg Bool.false_ne_true] at h
      rw [Runs] at hc
      rw [Nat.ceilDiv_eq_add_pred_div]
      rw [Speed.unit] at *
      omega

/-- **A frame keeps the balance**, once the row that it begins is counted in. -/
theorem balances_step {c : RowClock} {frame total : Nat} (hc : c.Runs)
    (h : frame * Speed.unit + c.period.raw = total + c.elapsed) :
    c.step.Balances (frame + 1) total := by
  rw [Balances, isFirst_step hc, elapsed_step, period_step]
  rw [Runs] at hc
  cases hl : c.isLast with
  | true =>
      -- the row ends, and the clock gives back its period
      have hle : c.period.raw ≤ c.elapsed + Speed.unit := of_decide_eq_true hl
      rw [if_pos rfl, if_pos rfl, Nat.add_mul]
      omega
  | false =>
      rw [if_neg Bool.false_ne_true, if_neg Bool.false_ne_true, Nat.add_mul]
      omega

end RowClock

/-! ## Runs on time -/

/-- The row that a heading lies behind. -/
def Heading.row? : Heading → Option Position
  | chosen _ => none
  | behind r => some r

/-- Whether some rows keep the timetable of a song: each starts when it is due, has the speed that
it asks for, and follows the one before it. -/
def KeepsTime (s : Song) (total : Nat) (speed : Speed) (last? : Option Position) :
    List TimedRow → Prop
  | [] => True
  | row :: rows =>
      let speed' := s.speedBehind speed row.position
      row.frame = total ⌈/⌉ Speed.unit ∧
        ((s.line row.position).halts = false → row.speed = speed') ∧
        (∀ r ∈ last?, ∃ repeats, row.position = s.rowAfter repeats r) ∧
        KeepsTime s (total + speed'.raw) speed' (some row.position) rows

namespace Player

/-- **A player is on time** on a frame if the speed and the balance of its clock are right, as long
as it has not stopped. -/
structure OnTime (p : Player) (frame total : Nat) (speed : Speed) : Prop where
  /-- The speed in effect. -/
  speed_eq : p.isHalted = false → p.speed = speed
  /-- The balance of the clock. -/
  balances : p.isHalted = false → p.transport.clock.Balances frame total

variable {m : Module} {n : Navigator} {p : Player} {frame total : Nat} {speed : Speed}

/-- A player that has stopped is never late. -/
theorem onTime_of_halted (h : p.isHalted = true) : p.OnTime frame total speed := by
  constructor <;>
    · intro hgoes
      exact absurd (h.symm.trans hgoes) nofun

/-- The speed in effect behind a frame is the one behind its row. -/
theorem speed_step (h : p.isHalted = false) : (p.step m).1.speed = (p.begun m).speed := by
  rw [speed, speed, transport_step m h]
  split
  · rfl
  · rw [Transport.clock_step, RowClock.period_step]

/-- The clock of a frame on which a row begins has the speed that the row asks for. -/
theorem clock_begun (hf : p.transport.clock.isFirst = true) {r : Position}
    (hr : (p.transport.enterRow m.song.extent).position = r)
    (hh : (m.song.line r).halts = false) :
    (p.begun m).transport.clock =
      { p.transport.clock with period := m.song.speedBehind p.speed r } := by
  have hline : p.nextLine m = m.song.line r := by rw [nextLine, hr]
  have htransport := transport_begun p m
  rw [if_pos hf, Transport.foldl_obey, hline, Line.effects_of_not_halts hh,
    Transport.clock_enterRow] at htransport
  rw [htransport]
  rfl

/-- **A frame that starts a row is on time,** and so is the player behind it. -/
theorem onTime_first (hg : n.Guides m.song p) (ht : p.OnTime frame total speed)
    (hh : p.isHalted = false) (hf : p.transport.clock.isFirst = true) :
    frame = total ⌈/⌉ Speed.unit ∧
      ((m.song.line (n.next m.song)).halts = false →
        (p.step m).1.speed = m.song.speedBehind speed (n.next m.song)) ∧
      (p.step m).1.OnTime (frame + 1)
        (total + (m.song.speedBehind speed (n.next m.song)).raw)
        (m.song.speedBehind speed (n.next m.song)) := by
  have hb := ht.balances hh
  obtain ⟨hposition, -⟩ := Transport.position_enterRow_of_fits (hg.fits hh) hg.repeats_eq hf
  have hline : p.nextLine m = m.song.line (n.next m.song) := by rw [nextLine, hposition]
  have hbegun : (p.begun m).isHalted = (m.song.line (n.next m.song)).halts := by
    rw [isHalted_begun m hh, hf, hline, Bool.true_and]
  have hspeed (hgoes : (m.song.line (n.next m.song)).halts = false) :
      (p.step m).1.speed = m.song.speedBehind speed (n.next m.song) := by
    rw [speed_step hh, Player.speed, clock_begun hf hposition hgoes, ht.speed_eq hh]
  have hgoes (h : (p.step m).1.isHalted = false) :
      (m.song.line (n.next m.song)).halts = false := by
    rw [isHalted_step, hh, hbegun, Bool.false_or] at h
    exact h
  refine ⟨RowClock.eq_ceilDiv_of_balances hb hf, hspeed, fun h => hspeed (hgoes h), ?_⟩
  intro h
  -- the row sets the period while the clock still stands at its start
  have hclock := clock_begun hf hposition (hgoes h)
  rw [ht.speed_eq hh] at hclock
  have hfirst : (p.begun m).transport.clock.isFirst = true := by rw [hclock]; exact hf
  rw [transport_step m hh, hbegun, hgoes h, if_neg Bool.false_ne_true, Transport.clock_step]
  refine RowClock.balances_step (RowClock.runs_of_isFirst hfirst) ?_
  rw [hclock]
  rw [RowClock.Balances, if_pos hf] at hb
  dsimp only
  omega

/-- **Any other frame is on time,** too. -/
theorem onTime_later (hg : n.Guides m.song p) (ht : p.OnTime frame total speed)
    (hh : p.isHalted = false) (hf : p.transport.clock.isFirst = false) :
    (p.step m).1.OnTime (frame + 1) total speed := by
  have hb := ht.balances hh
  have hbegun : (p.begun m).isHalted = false := by rw [isHalted_begun m hh, hf, Bool.false_and]
  have htransport : (p.step m).1.transport = p.transport.step m.song.extent := by
    rw [transport_step m hh, hbegun, if_neg Bool.false_ne_true, begun_of_not_first m hf,
      transport_beginFrame]
  constructor
  · intro _
    rw [Player.speed, htransport, Transport.clock_step, RowClock.period_step]
    exact ht.speed_eq hh
  · intro _
    rw [htransport, Transport.clock_step]
    rw [RowClock.Balances, hf, if_neg Bool.false_ne_true] at hb
    exact RowClock.balances_step (hg.runs hh) hb

/-- A call other than a frame or a jump within the song leaves a player on time, and the heading of
its navigator where it is. -/
theorem onTime_steering {call : Call} (ht : p.OnTime frame total speed) (hstep : call ≠ .step)
    (hjump : ¬call.Jumps m.song.extent) (isOver : Bool) :
    (p.serve m call).1.OnTime (frame + call.frames) total speed ∧
      (n.serve m.song isOver call).1.heading = n.heading := by
  cases call with
  | step => exact absurd rfl hstep
  | setRepeat repeats => exact ⟨⟨ht.speed_eq, ht.balances⟩, rfl⟩
  | jump order =>
      have hout : ¬order < m.song.extent.orders := hjump
      rw [serve, jump, Transport.jump_of_le _ (Nat.le_of_not_lt hout), Navigator.serve, if_neg hout]
      exact ⟨ht, rfl⟩
  | halt => exact ⟨onTime_of_halted rfl, rfl⟩

/-- Some calls keep up with the timetable if their rows keep time and no row that is due has been
left behind. -/
structure KeepsUp (m : Module) (n : Navigator) (p : Player) (frame total : Nat) (speed : Speed)
    (calls : List Call) : Prop where
  /-- The rows keep time. -/
  keeps : KeepsTime m.song total speed n.heading.row? (p.timedRows m frame calls)
  /-- As long as playback goes on, the rows last for all of the frames. -/
  due : (p.after m calls).isHalted = false →
    frame + calls.count .step ≤
      (total + sixteenths (m.song.speedsBehind speed
        ((p.timedRows m frame calls).map TimedRow.position))) ⌈/⌉ Speed.unit

/-- A player that has stopped keeps up. -/
theorem keepsUp_of_halted (h : p.isHalted = true) (calls : List Call) :
    p.KeepsUp m n frame total speed calls := by
  obtain ⟨hrows, hafter⟩ := timedRows_of_halted m frame calls h
  constructor
  · rw [hrows]
    trivial
  · intro hgoes
    exact absurd (hafter.symm.trans hgoes) nofun

/-- A row that a navigator finds follows the one before it. -/
theorem next_follows (s : Song) (n : Navigator) :
    ∀ r ∈ n.heading.row?, ∃ repeats, n.next s = s.rowAfter repeats r := by
  intro r hr
  unfold Navigator.next
  cases hn : n.heading with
  | chosen position => rw [hn] at hr; cases hr
  | behind r' => rw [hn] at hr; cases hr; exact ⟨n.repeats, rfl⟩

/-- A frame that starts a row keeps up if the calls behind it do. -/
theorem keepsUp_first {calls : List Call} (hg : n.Guides m.song p)
    (ht : p.OnTime frame total speed) (hh : p.isHalted = false)
    (hf : p.transport.clock.isFirst = true)
    (h : (p.step m).1.KeepsUp m (n.serve m.song true .step).1 (frame + 1)
      (total + (m.song.speedBehind speed (n.next m.song)).raw)
      (m.song.speedBehind speed (n.next m.song)) calls) :
    p.KeepsUp m n frame total speed (.step :: calls) := by
  obtain ⟨hrow, -⟩ := Navigator.guides_first hg hh hf
  obtain ⟨hframe, hspeed, -⟩ := onTime_first hg ht hh hf
  rw [Navigator.serve_step_of_over m.song (hg.isStopped_eq.trans hh)] at h
  -- the first row is timed here, and the others by the player behind it
  have hrows : p.timedRows m frame (.step :: calls) =
      ⟨frame, n.next m.song, (p.step m).1.speed⟩ :: (p.step m).1.timedRows m (frame + 1) calls := by
    rw [timedRows, hrow]
    rfl
  constructor
  · rw [hrows]
    exact ⟨hframe, hspeed, next_follows m.song n, h.keeps⟩
  · intro hgoes
    have hle := h.due hgoes
    rw [Nat.add_assoc total] at hle
    rw [hrows, List.count_cons_self, Nat.add_comm (calls.count .step), ← Nat.add_assoc]
    exact hle

/-- A frame within a row keeps up if the calls behind it do. -/
theorem keepsUp_later {calls : List Call} (hh : p.isHalted = false)
    (hf : p.transport.clock.isFirst = false)
    (h : (p.step m).1.KeepsUp m n (frame + 1) total speed calls) :
    p.KeepsUp m n frame total speed (.step :: calls) := by
  have hrows : p.timedRows m frame (.step :: calls) =
      (p.step m).1.timedRows m (frame + 1) calls := by
    rw [timedRows, rowStart?_step_eq_none (by rw [hh, hf]; rfl)]
    rfl
  constructor
  · rw [hrows]
    exact h.keeps
  · intro hgoes
    rw [hrows, List.count_cons_self, Nat.add_comm (calls.count .step), ← Nat.add_assoc]
    exact h.due hgoes

/-- A call other than a frame or a jump keeps up if the calls behind it do. -/
theorem keepsUp_steering {call : Call} {calls : List Call} (hstep : call ≠ .step)
    {n' : Navigator} (hheading : n'.heading = n.heading)
    (h : (p.serve m call).1.KeepsUp m n' (frame + call.frames) total speed calls) :
    p.KeepsUp m n frame total speed (call :: calls) := by
  -- only frames start rows and take time
  obtain ⟨hrow, hframes⟩ : p.rowStart? m call = none ∧ call.frames = 0 := by
    cases call with
    | step => exact absurd rfl hstep
    | _ => exact ⟨rfl, rfl⟩
  have hrows : p.timedRows m frame (call :: calls) =
      (p.serve m call).1.timedRows m frame calls := by
    rw [timedRows, hrow, hframes]
    rfl
  rw [hframes, Nat.add_zero] at h
  constructor
  · rw [hrows, ← hheading]
    exact h.keeps
  · intro hgoes
    rw [hrows, List.count_cons_of_ne hstep]
    exact h.due hgoes

/-- **A run without jumps keeps up with its timetable.** -/
theorem keepsUp (hg : n.Guides m.song p) (ht : p.OnTime frame total speed) {calls : List Call}
    (hcalls : ∀ call ∈ calls, ¬call.Jumps m.song.extent) :
    p.KeepsUp m n frame total speed calls := by
  -- the guide and the balance of the clock carry the induction
  induction calls generalizing n p frame total speed with
  | nil => exact ⟨trivial, fun hh => RowClock.le_ceilDiv_of_balances (hg.runs hh) (ht.balances hh)⟩
  | cons call calls ih =>
      have hrest : ∀ call ∈ calls, ¬call.Jumps m.song.extent := by
        intro c hc
        exact hcalls c (List.mem_cons_of_mem _ hc)
      cases hh : p.isHalted with
      | true => exact keepsUp_of_halted hh _
      | false =>
          by_cases hstep : call = .step
          · subst hstep
            cases hf : p.transport.clock.isFirst with
            | true =>
                obtain ⟨-, -, htime⟩ := onTime_first hg ht hh hf
                exact keepsUp_first hg ht hh hf
                  (ih (Navigator.guides_first hg hh hf).2 htime hrest)
            | false =>
                exact keepsUp_later hh hf
                  (ih (Navigator.guides_later hg hh hf).2 (onTime_later hg ht hh hf) hrest)
          · obtain ⟨htime, hheading⟩ := onTime_steering ht hstep (hcalls call List.mem_cons_self)
              (p.rowStart? m call).isSome
            exact keepsUp_steering hstep hheading
              (ih (Navigator.guides_serve hg call).2 htime hrest)

end Player

/-! ## Timetables by row -/

/-- What it means that the rows of a run are played on time.  The rows are numbered from zero, and
their frames are counted from the start of the run. -/
structure Timetable (s : Song) (speed : Speed) (frames : Nat) (isHalted : Bool)
    (rows : List TimedRow) : Prop where
  /-- Each row starts on the frame on which it is due by the rows before it. -/
  due : ∀ i (hi : i < rows.length), rows[i].frame =
    dueFrame ((s.speedsBehind speed (rows.map TimedRow.position)).take i)
  /-- The speeds of the timetable are those in effect behind the rows that do not stop playback. -/
  speeds : ∀ i (hi : i < rows.length), (s.line rows[i].position).halts = false →
    (s.speedsBehind speed (rows.map TimedRow.position))[i]? = some rows[i].speed
  /-- As long as playback goes on, every row that is due has been played. -/
  complete : isHalted = false →
    frames ≤ dueFrame (s.speedsBehind speed (rows.map TimedRow.position))
  /-- No row of the song is passed over. -/
  follows : ∀ i (hi : i + 1 < rows.length),
    ∃ repeats, rows[i + 1].position = s.rowAfter repeats rows[i].position
  /-- Every row lasts a frame at least. -/
  lasts : ∀ i (hi : i + 1 < rows.length), rows[i].frame < rows[i + 1].frame
  /-- A row starts less than a frame late, and never early. -/
  error : ∀ i (hi : i < rows.length),
    let passed := sixteenths ((s.speedsBehind speed (rows.map TimedRow.position)).take i)
    passed ≤ rows[i].frame * Speed.unit ∧ rows[i].frame * Speed.unit < passed + Speed.unit

/-- No rows take no time. -/
@[simp] theorem sixteenths_nil : sixteenths [] = 0 := rfl

/-- The time of the first row comes before that of the others. -/
@[simp] theorem sixteenths_cons (speed : Speed) (speeds : List Speed) :
    sixteenths (speed :: speeds) = speed.raw + sixteenths speeds := rfl

/-- Every row has the speed that is in force behind it. -/
@[simp] theorem length_speedsBehind (s : Song) (speed : Speed) (rs : List Position) :
    (s.speedsBehind speed rs).length = rs.length := by
  induction rs generalizing speed with
  | nil => rfl
  | cons r rs ih => rw [Song.speedsBehind, List.length_cons, List.length_cons, ih]

/-- A row more takes a frame more at least. -/
theorem sixteenths_take_succ {speeds : List Speed} {i : Nat} (hi : i < speeds.length) :
    sixteenths (speeds.take i) + Speed.unit ≤ sixteenths (speeds.take (i + 1)) := by
  induction speeds generalizing i with
  | nil => exact absurd hi (Nat.not_lt_zero _)
  | cons speed speeds ih =>
      cases i with
      | zero =>
          have := speed.le_raw
          rw [List.take_zero, sixteenths_nil, List.take_succ_cons, sixteenths_cons, Speed.unit]
          omega
      | succ i =>
          rw [List.take_succ_cons, List.take_succ_cons, sixteenths_cons, sixteenths_cons,
            Nat.add_assoc]
          exact Nat.add_le_add_left (ih (Nat.lt_of_succ_lt_succ hi)) _

/-- Rounding up to whole frames adds less than a frame. -/
theorem ceilDiv_unit_bounds (total : Nat) :
    total ≤ total ⌈/⌉ Speed.unit * Speed.unit ∧
      total ⌈/⌉ Speed.unit * Speed.unit < total + Speed.unit := by
  rw [Nat.ceilDiv_eq_add_pred_div, Speed.unit]
  omega

namespace KeepsTime

variable {s : Song} {total : Nat} {speed : Speed} {last? : Option Position}
  {rows : List TimedRow}

/-- The frame of a row, by the rows before it. -/
theorem frame_eq (h : KeepsTime s total speed last? rows) {i : Nat} (hi : i < rows.length) :
    rows[i].frame =
      (total + sixteenths ((s.speedsBehind speed (rows.map TimedRow.position)).take i)) ⌈/⌉
        Speed.unit := by
  induction rows generalizing total speed last? i with
  | nil => exact absurd hi (Nat.not_lt_zero _)
  | cons row rows ih =>
      obtain ⟨hframe, -, -, hrest⟩ := h
      cases i with
      | zero => rw [List.take_zero, sixteenths_nil, Nat.add_zero]; exact hframe
      | succ i =>
          rw [List.map_cons, Song.speedsBehind, List.take_succ_cons, sixteenths_cons,
            ← Nat.add_assoc, List.getElem_cons_succ]
          exact ih hrest (Nat.lt_of_succ_lt_succ hi)

/-- The speed of a row that does not stop playback. -/
theorem speed_eq (h : KeepsTime s total speed last? rows) {i : Nat} (hi : i < rows.length)
    (hh : (s.line rows[i].position).halts = false) :
    (s.speedsBehind speed (rows.map TimedRow.position))[i]? = some rows[i].speed := by
  induction rows generalizing total speed last? i with
  | nil => exact absurd hi (Nat.not_lt_zero _)
  | cons row rows ih =>
      obtain ⟨-, hspeed, -, hrest⟩ := h
      rw [List.map_cons, Song.speedsBehind]
      cases i with
      | zero => rw [List.getElem?_cons_zero, List.getElem_cons_zero, hspeed hh]
      | succ i =>
          rw [List.getElem?_cons_succ, List.getElem_cons_succ]
          exact ih hrest (Nat.lt_of_succ_lt_succ hi) hh

/-- Every row follows the one before it. -/
theorem follows (h : KeepsTime s total speed last? rows) {i : Nat} (hi : i + 1 < rows.length) :
    ∃ repeats, rows[i + 1].position = s.rowAfter repeats rows[i].position := by
  induction rows generalizing total speed last? i with
  | nil => exact absurd hi (Nat.not_lt_zero _)
  | cons row rows ih =>
      obtain ⟨-, -, -, hrest⟩ := h
      cases i with
      | zero =>
          cases rows with
          | nil => exact absurd hi (Nat.lt_irrefl _)
          | cons row' rows => exact hrest.2.2.1 _ rfl
      | succ i => exact ih hrest (Nat.lt_of_succ_lt_succ hi)

end KeepsTime

/-- Rows that keep time from the start of a run on make up a timetable. -/
theorem KeepsTime.timetable {s : Song} {speed : Speed} {last? : Option Position}
    {rows : List TimedRow} (h : KeepsTime s 0 speed last? rows) {frames : Nat} {isHalted : Bool}
    (hdue : isHalted = false →
      frames ≤ dueFrame (s.speedsBehind speed (rows.map TimedRow.position))) :
    Timetable s speed frames isHalted rows := by
  have hframe {i : Nat} (hi : i < rows.length) : rows[i].frame =
      dueFrame ((s.speedsBehind speed (rows.map TimedRow.position)).take i) := by
    rw [h.frame_eq hi, Nat.zero_add, dueFrame]
  have hbounds {i : Nat} (hi : i < rows.length) :=
    ceilDiv_unit_bounds (sixteenths ((s.speedsBehind speed (rows.map TimedRow.position)).take i))
  refine ⟨fun i hi => hframe hi, fun i hi hh => h.speed_eq hi hh, hdue, fun i hi => h.follows hi,
    ?_, ?_⟩
  · -- a row lasts as long as its speed, which is a frame at least
    intro i hi
    have hi' : i < rows.length := Nat.lt_of_succ_lt hi
    have hlength : i < (s.speedsBehind speed (rows.map TimedRow.position)).length := by
      rw [length_speedsBehind, List.length_map]
      exact hi'
    have hsum := sixteenths_take_succ hlength
    have hlt := (hbounds hi').2
    have hle := (hbounds hi).1
    rw [hframe hi', hframe hi, dueFrame, dueFrame]
    exact Nat.lt_of_mul_lt_mul_right (a := Speed.unit) (by omega)
  · intro i hi
    rw [hframe hi]
    exact hbounds hi

namespace Player

variable {m : Module} {p : Player}

/-- Every player that was reached has a guide. -/
theorem Reachable.exists_guides (h : Reachable m p) : ∃ n : Navigator, n.Guides m.song p := by
  induction h with
  | start hp => exact ⟨_, Navigator.guides_start hp⟩
  | serve call _ ih =>
      obtain ⟨n, hn⟩ := ih
      exact ⟨_, (Navigator.guides_serve hn call).2⟩

/-- A player whose next frame starts a timetable has a guide to a row that was chosen, and is on
time. -/
theorem Onset.exists_guides {speed : Speed} (h : p.Onset m speed) :
    ∃ n : Navigator, n.Guides m.song p ∧ p.OnTime 0 0 speed := by
  cases h with
  | start hp =>
      obtain ⟨-, rfl⟩ := start_eq_ok.mp hp
      exact ⟨_, Navigator.guides_start hp, fun _ => rfl, fun _ => rfl⟩
  | jump hp ho =>
      obtain ⟨n, hn⟩ := hp.exists_guides
      refine ⟨_, (Navigator.guides_serve hn (.jump _)).2, ?_, ?_⟩
      · intro _
        rw [Player.jump, Player.speed, Transport.jump, if_pos ho]
        rfl
      · intro _
        rw [Player.jump, Transport.jump, if_pos ho]
        rfl

end Player

/-- **Rows start when they are due.**  From a start or a jump on, under frames, changes of the
repetition and all other calls but jumps, the run keeps the timetable of the song: no row is late by
a whole frame, none is skipped, and none is played twice. -/
theorem rows_start_when_due {m : Module} {p : Player} {speed : Speed} (h : p.Onset m speed)
    {calls : List Call} (hcalls : ∀ call ∈ calls, ¬call.Jumps m.song.extent) :
    Timetable m.song speed (calls.count .step) (p.after m calls).isHalted
      (p.timedRows m 0 calls) := by
  obtain ⟨n, hguides, htime⟩ := h.exists_guides
  obtain ⟨hkeeps, hdue⟩ := Player.keepsUp hguides htime hcalls
  rw [Nat.zero_add, Nat.zero_add] at hdue
  exact hkeeps.timetable hdue

/-- A song whose first row asks for two frames and a half. -/
def changingSong : Song :=
  (Song.new "").setRow .ch2 0 0 (Row.empty.withEffect ⟨.pattern .setTempo, 0x28⟩)

/-- The rows of a song that changes its speed start on the frames 0, 3, 5 and 8. -/
theorem timetable_changingSong :
    let m := Module.ofSong changingSong
    let p := Player.atPosition changingSong ⟨0, 0⟩
    let calls := Call.setRepeat true :: List.replicate 9 .step
    p.Onset m changingSong.speed ∧ (∀ call ∈ calls, ¬call.Jumps changingSong.extent) ∧
      (p.timedRows m 0 calls).map TimedRow.frame = [0, 3, 5, 8] ∧
      Timetable changingSong changingSong.speed (calls.count .step) (p.after m calls).isHalted
        (p.timedRows m 0 calls) := by
  intro m p calls
  have hok : Player.start m ⟨0, 0⟩ = .ok p := rfl
  have hstart : p.Onset m changingSong.speed := .start hok
  have hcalls : ∀ call ∈ calls, ¬call.Jumps changingSong.extent := by decide
  exact ⟨hstart, hcalls, by decide +kernel, rows_start_when_due hstart hcalls⟩

end Chiptune
