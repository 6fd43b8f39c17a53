import Chiptune.Proofs.Playback.Run
import Chiptune.Proofs.Playback.Steering

/-! # The order in which rows are played

A navigator knows nothing of clocks, of moves that wait, or of where a player stands within a row.
It knows the row that was read last, or the place that a start or a jump has chosen, and from it the
rule `Song.rowAfter` gives the row that comes next.

* `Song.rowAfter` is the rule, `Navigator.serve` applies it call by call, `navigate` over a run.
* `Navigator.Guides` relates a navigator to a player, and `guides_serve` keeps them together.
* `rowStarts_eq_navigate` says that a player reads the rows of its navigator, whatever the calls.
-/

namespace Chiptune

/-! ## The rule -/

/-- The row that follows a row of a song, with or without repetition of the pattern.  Of the moves
that the row asks for, the last valid one counts. -/
def Song.rowAfter (s : Song) (repeats : Bool) (r : Position) : Position :=
  let move? := lastMove? s.extent (s.line r).allEffects
  let endsPattern := r.row + 1 = s.extent.rows
  if repeats then
    if move?.isSome ∨ endsPattern then ⟨r.order, 0⟩ else ⟨r.order, r.row + 1⟩
  else
    match move? with
    | some (.jump order) => ⟨order, 0⟩
    | some (.next row) => ⟨(r.order + 1) % s.extent.orders, row⟩
    | none =>
        if endsPattern then ⟨(r.order + 1) % s.extent.orders, 0⟩ else ⟨r.order, r.row + 1⟩

/-- The row that follows a row of a song is one of the song. -/
theorem Song.rowAfter_inside {s : Song} (repeats : Bool) {r : Position} (h : r.Inside s.extent) :
    (s.rowAfter repeats r).Inside s.extent := by
  obtain ⟨ho, hr⟩ := h
  have hmod : (r.order + 1) % s.extent.orders < s.extent.orders :=
    Nat.mod_lt _ s.extent.orders_pos
  have h0 := s.extent.rows_pos
  simp only [rowAfter]
  -- repetition keeps the order, and without it the last move decides
  cases repeats with
  | true =>
      rw [if_pos rfl]
      split
      · exact ⟨ho, h0⟩
      · next hm => exact ⟨ho, by dsimp only; omega⟩
  | false =>
      rw [if_neg Bool.false_ne_true]
      split
      · next hm => exact ⟨lastMove?_inside hm, h0⟩
      · next hm => exact ⟨hmod, lastMove?_inside hm⟩
      · split
        · exact ⟨hmod, h0⟩
        · next hm => exact ⟨ho, by dsimp only; omega⟩

/-! ## Navigators -/

/-- What decides about the next row. -/
inductive Heading where
  /-- A start or a jump has chosen it. -/
  | chosen (position : Position)
  /-- It follows the row that was read last. -/
  | behind (row : Position)
  deriving DecidableEq, Repr

/-- Whether a start or a jump has chosen the next row. -/
def Heading.isChosen : Heading → Bool
  | chosen _ => true
  | behind _ => false

/-- The knowledge from which the next row of a song is found. -/
structure Navigator where
  /-- What decides about the next row. -/
  heading : Heading
  /-- Whether patterns are repeated. -/
  repeats : Bool := false
  /-- Whether no row follows any more. -/
  isStopped : Bool := false
  deriving DecidableEq, Repr

namespace Navigator

/-- The next row of a song. -/
def next (n : Navigator) (s : Song) : Position :=
  match n.heading with
  | .chosen position => position
  | .behind row => s.rowAfter n.repeats row

/-- Serve a call, and say which row starts with it.  A frame starts a row if the one before is over;
a row that was chosen does not wait for that. -/
def serve (n : Navigator) (s : Song) (isOver : Bool) : Call → Navigator × Option Position
  | .step =>
      if !n.isStopped && (n.heading.isChosen || isOver) then
        let row := n.next s
        ({ n with heading := .behind row, isStopped := (s.line row).halts }, some row)
      else (n, none)
  | .setRepeat repeats => ({ n with repeats }, none)
  | .jump order =>
      (if order < s.extent.orders then { n with heading := .chosen ⟨order, 0⟩ } else n, none)
  | .halt => ({ n with isStopped := true }, none)

end Navigator

/-- The rows that start with some calls, each of which comes with whether the row before it is
over. -/
def navigate (s : Song) : Navigator → List (Call × Bool) → List (Option Position)
  | _, [] => []
  | n, (call, isOver) :: calls =>
      (n.serve s isOver call).2 :: navigate s (n.serve s isOver call).1 calls

namespace Player

/-- The position of the row that starts with a call, as the report of the frame gives it. -/
def rowStart? (p : Player) (m : Module) : Call → Option Position
  | .step =>
      let report := (p.step m).1.report
      if report.startsRow then some ⟨report.order.toNat, report.row⟩ else none
  | _ => none

/-- The rows that start with some calls. -/
def rowStarts (p : Player) (m : Module) : List Call → List (Option Position)
  | [] => []
  | call :: calls => p.rowStart? m call :: (p.serve m call).1.rowStarts m calls

/-- A row starts where the transport enters it, if that is inside the song. -/
theorem rowStart?_step {p : Player} {m : Module} (h : p.isHalted = false)
    (hf : p.transport.clock.isFirst = true)
    (hin : (p.transport.enterRow m.song.extent).position.Inside m.song.extent) :
    p.rowStart? m .step = some (p.transport.enterRow m.song.extent).position := by
  obtain ⟨ho, hr⟩ := position_step m h hf
  have hlt : (p.transport.enterRow m.song.extent).position.order < 256 :=
    Nat.lt_of_lt_of_le hin.1 m.song.extent.orders_le
  simp only [rowStart?]
  rw [startsRow_step, h, hf, ho, hr, UInt8.toNat_ofNat_of_lt' hlt]
  rfl

/-- No row starts on a frame that the clock does not allow one. -/
theorem rowStart?_step_eq_none {p : Player} {m : Module}
    (h : (!p.isHalted && p.transport.clock.isFirst) = false) : p.rowStart? m .step = none := by
  simp only [rowStart?]
  rw [startsRow_step, h, if_neg Bool.false_ne_true]

end Player

/-! ## Rows on the transport -/

namespace Transport

/-- Whether the next row starts at a position, the pattern being repeated or not. -/
def StartsAt (t : Transport) (s : Song) (row : Bool → Position) : Prop :=
  ∀ repeats, ({ t with repeats }.enterRow s.extent).position = row repeats

/-- Whether a row is being played: the transport stands on it, and the move that it has asked for
waits. -/
def Plays (t : Transport) (s : Song) (r : Position) : Prop :=
  t.position = r ∧ t.move = lastMove? s.extent (s.line r).allEffects

/-- If no move waits, the next row starts where the transport stands. -/
theorem startsAt_of_none {t : Transport} (s : Song) (h : t.move = none) :
    t.StartsAt s fun _ => t.position := fun repeats =>
  position_enterRow_of_none (t := { t with repeats }) s.extent h

/-- If a move waits, the next row starts where it leads, or at the start of the pattern. -/
theorem startsAt_of_some {t : Transport} {s : Song} {move : Move} (h : t.move = some move)
    (hin : move.Inside s.extent) :
    t.StartsAt s fun repeats =>
      if repeats then ⟨t.position.order, 0⟩
      else match move with
        | .next row => ⟨(t.position.order + 1) % s.extent.orders, row⟩
        | .jump order => ⟨order, 0⟩ := by
  intro repeats
  rw [position_enterRow_of_some (t := { t with repeats }) h, destination.eq_def]
  congr 1
  -- a place inside the song is not clamped
  cases move with
  | next row =>
      have hle : row ≤ s.extent.rows - 1 := Nat.le_sub_one_of_lt hin
      simp only [Extent.following, Nat.min_eq_left hle]
  | jump order =>
      have hle : order ≤ s.extent.orders - 1 := Nat.le_sub_one_of_lt hin
      simp only [Extent.startOf, Nat.min_eq_left hle]

/-- **Behind a row that is left, the row after it starts.** -/
theorem startsAt_leaveRow {t : Transport} {s : Song} {r : Position} (hr : r.Inside s.extent)
    (h : t.Plays s r) : (t.leaveRow s.extent).StartsAt s fun repeats => s.rowAfter repeats r := by
  obtain ⟨rfl, hmove⟩ := h
  intro repeats
  simp only [Song.rowAfter]
  by_cases hlast : t.position.row + 1 = s.extent.rows
  · -- the position stays, and a move waits in any case
    have hleave : t.leaveRow s.extent = { t with move := t.move <|> some (.next 0) } := by
      rw [leaveRow, if_neg (by omega)]
    have hposition : (t.leaveRow s.extent).position = t.position := by rw [hleave]
    cases hm : lastMove? s.extent (s.line t.position).allEffects with
    | none =>
        have hwaits : (t.leaveRow s.extent).move = some (.next 0) := by rw [hleave, hmove, hm]; rfl
        have hin : (Move.next 0).Inside s.extent := s.extent.rows_pos
        rw [startsAt_of_some hwaits hin, hposition]
        simp only [hlast, or_true, if_true]
    | some move =>
        have hwaits : (t.leaveRow s.extent).move = some move := by rw [hleave, hmove, hm]; rfl
        rw [startsAt_of_some hwaits (lastMove?_inside hm), hposition]
        simp only [Option.isSome_some, true_or, if_true]
        cases move <;> rfl
  · -- the position moves on, and a move waits only if the row has asked for one
    have hrow : t.position.row + 1 < s.extent.rows := by have := hr.2; omega
    have hleave : t.leaveRow s.extent =
        { t with position := { t.position with row := t.position.row + 1 } } := by
      rw [leaveRow, if_pos hrow]
    have hwaits : (t.leaveRow s.extent).move = t.move := by rw [hleave]
    have hposition : (t.leaveRow s.extent).position = ⟨t.position.order, t.position.row + 1⟩ := by
      rw [hleave]
    rw [hmove] at hwaits
    cases hm : lastMove? s.extent (s.line t.position).allEffects with
    | none =>
        rw [startsAt_of_none s (hwaits.trans hm), hposition]
        simp only [hlast, Option.isSome_none, Bool.false_eq_true, or_self, if_false, ite_self]
    | some move =>
        rw [startsAt_of_some (hwaits.trans hm) (lastMove?_inside hm), hposition]
        simp only [Option.isSome_some, true_or, if_true]
        cases move <;> rfl

end Transport

/-! ## Navigators and players -/

/-- Whether a heading fits a transport: the row that was chosen is about to start, or the row that
was read last is being played or has just been left. -/
def Heading.Fits (s : Song) (t : Transport) : Heading → Prop
  | .chosen position =>
      position.Inside s.extent ∧ t.clock.isFirst = true ∧ t.StartsAt s fun _ => position
  | .behind r =>
      r.Inside s.extent ∧
        if t.clock.isFirst then t.StartsAt s fun repeats => s.rowAfter repeats r else t.Plays s r

namespace Transport

/-- The next row of a heading that fits starts where the transport enters it. -/
theorem position_enterRow_of_fits {t : Transport} {s : Song} {n : Navigator}
    (h : n.heading.Fits s t) (hrepeats : n.repeats = t.repeats) (hf : t.clock.isFirst = true) :
    (t.enterRow s.extent).position = n.next s ∧ (n.next s).Inside s.extent := by
  unfold Navigator.next
  cases hn : n.heading with
  | chosen position =>
      rw [hn] at h
      exact ⟨h.2.2 t.repeats, h.1⟩
  | behind r =>
      rw [hn, Heading.Fits, if_pos hf] at h
      dsimp only
      rw [hrepeats]
      exact ⟨h.2 t.repeats, Song.rowAfter_inside t.repeats h.1⟩

/-- A row that is read is the one that is being played. -/
theorem plays_foldl_obey {t : Transport} {s : Song} {r : Position} (hp : t.position = r)
    (hm : t.move = none) (hh : (s.line r).halts = false) :
    ((s.line r).effects.foldl (fun t e => t.obey s.extent e) t).Plays s r := by
  rw [foldl_obey, Line.effects_of_not_halts hh, hm, Option.or_none]
  exact ⟨hp, rfl⟩

/-- Behind a frame of a row, that row is still being played or has just been left. -/
theorem fits_step {t : Transport} {s : Song} {r : Position} (hr : r.Inside s.extent)
    (h : t.Plays s r) (hruns : t.clock.Runs) : (Heading.behind r).Fits s (t.step s.extent) := by
  refine ⟨hr, ?_⟩
  rw [clock_step, RowClock.isFirst_step hruns]
  cases hl : t.clock.isLast with
  | true =>
      rw [if_pos rfl, step_of_last s.extent hl]
      exact startsAt_leaveRow hr h
  | false =>
      rw [if_neg Bool.false_ne_true, step_of_not_last s.extent hl]
      exact h

/-- A jump chooses the next row. -/
theorem fits_jump (t : Transport) {s : Song} {order : Nat} (h : order < s.extent.orders) :
    (Heading.chosen ⟨order, 0⟩).Fits s (t.jump s.extent order) := by
  rw [jump, if_pos h]
  exact ⟨⟨h, s.extent.rows_pos⟩, rfl, startsAt_of_none s rfl⟩

/-- A jump outside the song is ignored. -/
theorem jump_of_le (t : Transport) {size : Extent} {order : Nat} (h : size.orders ≤ order) :
    t.jump size order = t := by
  rw [jump, if_neg (Nat.not_lt.mpr h)]

end Transport

namespace Navigator

/-- The navigator of a start of playback. -/
def startingAt (position : Position) : Navigator :=
  { heading := .chosen position }

/-- **A navigator guides a player** if it knows whether playback has stopped, and its heading fits
as long as it has not. -/
structure Guides (n : Navigator) (s : Song) (p : Player) : Prop where
  /-- Both have stopped or neither has. -/
  isStopped_eq : n.isStopped = p.isHalted
  /-- Both repeat patterns or neither does. -/
  repeats_eq : n.repeats = p.transport.repeats
  /-- Before playback stops, less than a row has passed of the current one. -/
  runs : p.isHalted = false → p.transport.clock.Runs
  /-- Before playback stops, the heading fits. -/
  fits : p.isHalted = false → n.heading.Fits s p.transport

/-- Playback starts with a guide. -/
theorem guides_start {m : Module} {position : Position} {p : Player}
    (h : Player.start m position = .ok p) : (startingAt position).Guides m.song p := by
  obtain ⟨hin, rfl⟩ := Player.start_eq_ok.mp h
  exact
    { isStopped_eq := rfl
      repeats_eq := rfl
      runs := fun _ => RowClock.runs_of_isFirst rfl
      fits := fun _ => ⟨hin, rfl, Transport.startsAt_of_none m.song rfl⟩ }

variable {m : Module} {n : Navigator} {p : Player}

/-- A navigator that knows of the halt starts no row. -/
theorem serve_step_of_stopped (s : Song) (isOver : Bool) (h : n.isStopped = true) :
    n.serve s isOver .step = (n, none) := by
  rw [serve, h]
  rfl

/-- A navigator whose last row is not over starts no row. -/
theorem serve_step_of_not_over (s : Song) {r : Position} (h : n.heading = .behind r) :
    n.serve s false .step = (n, none) := by
  rw [serve, h, Heading.isChosen, Bool.or_self, Bool.and_false]
  rfl

/-- A navigator whose last row is over starts the next one. -/
theorem serve_step_of_over (s : Song) (h : n.isStopped = false) :
    n.serve s true .step =
      ({ n with heading := .behind (n.next s), isStopped := (s.line (n.next s)).halts },
        some (n.next s)) := by
  rw [serve, h, Bool.or_true]
  rfl

/-- **The first frame of a row starts the row of the navigator**, which goes on as a guide. -/
theorem guides_first (h : n.Guides m.song p) (hh : p.isHalted = false)
    (hf : p.transport.clock.isFirst = true) :
    p.rowStart? m .step = some (n.next m.song) ∧
      (n.serve m.song true .step).1.Guides m.song (p.step m).1 := by
  -- the player enters the row that the navigator finds, and reads its line
  obtain ⟨hposition, hin⟩ := Transport.position_enterRow_of_fits (h.fits hh) h.repeats_eq hf
  have hline : p.nextLine m = m.song.line (n.next m.song) := by rw [Player.nextLine, hposition]
  have hbegun : (p.begun m).isHalted = (m.song.line (n.next m.song)).halts := by
    rw [Player.isHalted_begun m hh, hf, hline, Bool.true_and]
  have hstop : (p.step m).1.isHalted = (m.song.line (n.next m.song)).halts := by
    rw [Player.isHalted_step, hh, hbegun, Bool.false_or]
  have htransport := Player.transport_begun p m
  rw [if_pos hf, hline] at htransport
  -- its effects change neither the time that has passed nor the repetition
  have hclock : (p.begun m).transport.clock.isFirst = true := by
    rw [htransport, Transport.foldl_obey]
    exact (congrArg RowClock.isFirst (Transport.clock_enterRow ..)).trans hf
  have hrepeats : (p.begun m).transport.repeats = n.repeats := by
    rw [htransport, Transport.foldl_obey, h.repeats_eq]
    exact Transport.repeats_enterRow ..
  refine ⟨?_, ?_⟩
  · rw [← hposition] at hin ⊢
    exact Player.rowStart?_step hh hf hin
  · rw [serve_step_of_over m.song (h.isStopped_eq.trans hh)]
    refine ⟨hstop.symm, ?_, ?_, ?_⟩
    · rw [Player.transport_step m hh]
      split
      · exact hrepeats.symm
      · rw [Transport.repeats_step, hrepeats]
    -- what is left is about a line that does not halt
    all_goals
      intro hgoes
      rw [hstop] at hgoes
      rw [Player.transport_step m hh, hbegun, hgoes, if_neg Bool.false_ne_true]
    · rw [Transport.clock_step]
      exact RowClock.runs_step (RowClock.runs_of_isFirst hclock)
    · refine Transport.fits_step hin ?_ (RowClock.runs_of_isFirst hclock)
      rw [htransport]
      exact Transport.plays_foldl_obey hposition (Transport.move_enterRow ..) hgoes

/-- **Any other frame goes on with the row of the navigator.** -/
theorem guides_later (h : n.Guides m.song p) (hh : p.isHalted = false)
    (hf : p.transport.clock.isFirst = false) :
    n.serve m.song false .step = (n, none) ∧ n.Guides m.song (p.step m).1 := by
  have hbegun : (p.begun m).isHalted = false := by
    rw [Player.isHalted_begun m hh, hf, Bool.false_and]
  have hstop : (p.step m).1.isHalted = false := by
    rw [Player.isHalted_step, hh, hbegun, Bool.or_self]
  have htransport : (p.step m).1.transport = p.transport.step m.song.extent := by
    rw [Player.transport_step m hh, hbegun, if_neg Bool.false_ne_true,
      Player.begun_of_not_first m hf, Player.transport_beginFrame]
  have hruns := h.runs hh
  have hfits := h.fits hh
  cases hn : n.heading with
  | chosen position =>
      -- a row that was chosen would start on this frame
      rw [hn] at hfits
      exact absurd (hf.symm.trans hfits.2.1) Bool.false_ne_true
  | behind r =>
      rw [hn, Heading.Fits, if_neg (by rw [hf]; exact Bool.false_ne_true)] at hfits
      refine ⟨serve_step_of_not_over m.song hn, ?_, ?_, ?_, ?_⟩
      · rw [h.isStopped_eq, hh, hstop]
      · rw [htransport, Transport.repeats_step, h.repeats_eq]
      · intro _
        rw [htransport, Transport.clock_step]
        exact RowClock.runs_step hruns
      · intro _
        rw [htransport, hn]
        exact Transport.fits_step hfits.1 hfits.2 hruns

/-- **A navigator stays the guide of a player, call by call,** and they agree on the row that
starts. -/
theorem guides_serve (h : n.Guides m.song p) (call : Call) :
    (n.serve m.song (p.rowStart? m call).isSome call).2 = p.rowStart? m call ∧
      (n.serve m.song (p.rowStart? m call).isSome call).1.Guides m.song (p.serve m call).1 := by
  cases call with
  | step =>
      cases hh : p.isHalted with
      | true =>
          rw [Player.rowStart?_step_eq_none (by rw [hh]; rfl),
            serve_step_of_stopped _ _ (h.isStopped_eq.trans hh), Player.serve,
            Player.step_of_halted m hh]
          exact ⟨rfl, h.isStopped_eq, h.repeats_eq, h.runs, h.fits⟩
      | false =>
          cases hf : p.transport.clock.isFirst with
          | true =>
              obtain ⟨hrow, hguides⟩ := guides_first h hh hf
              rw [hrow]
              refine ⟨?_, hguides⟩
              rw [Option.isSome_some, serve_step_of_over m.song (h.isStopped_eq.trans hh)]
          | false =>
              obtain ⟨hserve, hguides⟩ := guides_later h hh hf
              rw [Player.rowStart?_step_eq_none (by rw [hh, hf]; rfl), Option.isSome_none, hserve]
              exact ⟨rfl, hguides⟩
  | setRepeat repeats =>
      -- headings fit with and without repetition
      refine ⟨rfl, h.isStopped_eq, rfl, h.runs, ?_⟩
      intro hh
      have hfits := h.fits hh
      cases hn : n.heading with
      | chosen position =>
          rw [hn] at hfits
          rw [serve, hn]
          exact hfits
      | behind r =>
          rw [hn] at hfits
          rw [serve, hn]
          exact hfits
  | jump order =>
      refine ⟨rfl, ?_⟩
      rw [serve, Player.serve, Player.jump]
      by_cases ho : order < m.song.extent.orders
      · have hfits := Transport.fits_jump p.transport ho
        rw [if_pos ho]
        refine ⟨h.isStopped_eq, ?_, ?_, ?_⟩
        · rw [Transport.jump, if_pos ho]
          exact h.repeats_eq
        · intro _
          exact RowClock.runs_of_isFirst hfits.2.1
        · intro _
          exact hfits
      · rw [if_neg ho, Transport.jump_of_le _ (Nat.le_of_not_lt ho)]
        exact ⟨h.isStopped_eq, h.repeats_eq, h.runs, h.fits⟩
  | halt => exact ⟨rfl, rfl, h.repeats_eq, by rintro ⟨⟩, by rintro ⟨⟩⟩

end Navigator

/-- A player visits the rows of the navigator that guides it. -/
theorem Navigator.Guides.rowStarts_eq {m : Module} {n : Navigator} {p : Player}
    (h : n.Guides m.song p) (calls : List Call) :
    p.rowStarts m calls =
      navigate m.song n (calls.zip ((p.rowStarts m calls).map Option.isSome)) := by
  induction calls generalizing n p with
  | nil => rfl
  | cons call calls ih =>
      obtain ⟨hrow, hguides⟩ := guides_serve h call
      rw [Player.rowStarts, List.map_cons, List.zip_cons_cons, navigate, hrow, ← ih hguides]

/-- **Playback follows the navigation of the song.**  From every start and under all calls in any
order, the rows that start, at the positions that the reports give, are those that a navigator finds
from the start, the jumps, the rows themselves and the repetition in force when a row starts. -/
theorem rowStarts_eq_navigate {m : Module} {position : Position} {p : Player}
    (h : Player.start m position = .ok p) (calls : List Call) :
    p.rowStarts m calls =
      navigate m.song (.startingAt position)
        (calls.zip ((p.rowStarts m calls).map Option.isSome)) :=
  (Navigator.guides_start h).rowStarts_eq calls

/-- A song of one frame per row, whose first row skips to the last one. -/
def skippingSong : Song :=
  { Song.new "" with speed := .fastest }.setRow .ch1 0 0
    (Row.empty.withEffect ⟨.pattern .skip, 63⟩)

/-- Skipping, running off the pattern, repeating it and jumping, as a navigator finds it. -/
theorem rowStarts_skippingSong :
    let m := Module.ofSong skippingSong
    let p := Player.atPosition skippingSong ⟨0, 0⟩
    let calls := [.step, .step, .step, .setRepeat true, .step, .jump 0, .setRepeat false, .step]
    Player.start m ⟨0, 0⟩ = .ok p ∧
      p.rowStarts m calls =
        [some ⟨0, 0⟩, some ⟨0, 63⟩, some ⟨0, 0⟩, none, some ⟨0, 0⟩, none, none, some ⟨0, 0⟩] ∧
      p.rowStarts m calls =
        navigate skippingSong (.startingAt ⟨0, 0⟩)
          (calls.zip ((p.rowStarts m calls).map Option.isSome)) := by
  intro m p calls
  have hstart : Player.start m ⟨0, 0⟩ = .ok p := rfl
  exact ⟨hstart, by decide +kernel, rowStarts_eq_navigate hstart calls⟩

end Chiptune
