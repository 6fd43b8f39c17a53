import Chiptune.Playback.Player

/-! # Runs of a player

A caller steps a player, steers it and stops it, in any order.  This file makes the calls data and
follows a player through a list of them.

* `Player.serve` answers one call, `Player.after` is the player behind a list of calls, and
  `Reachable` holds of the players that a caller can get hold of.
* `Player.gather` collects what the calls of a run yield, such as its `Player.writes`.
* `Player.begun` is the player of a frame whose row has been read; `step_of_halted`,
  `step_of_halting` and `step_of_going` give the three ways in which a frame ends.
* `transport_begun`, `voice_begun` and `isHalted_begun` say what the row of a frame does, and
  `transport_step`, `startsRow_step` and `position_step` what a whole frame leaves behind. -/

namespace Chiptune

/-! ## Calls -/

/-- What a caller asks of a player. -/
inductive Call where
  /-- Play a frame. -/
  | step
  /-- Repeat the current pattern, or stop doing so. -/
  | setRepeat (repeats : Bool)
  /-- Go to the first row of an order. -/
  | jump (order : Nat)
  /-- Stop playback. -/
  | halt
  deriving DecidableEq, Repr

namespace Player

/-- Serve a call; only a frame that is played yields writes. -/
def serve (p : Player) (m : Module) : Call → Player × List DeviceWrite
  | .step => p.step m
  | .setRepeat repeats => (p.setRepeat repeats, [])
  | .jump order => (p.jump m order, [])
  | .halt => (p.halt, [])

/-- The player behind some calls. -/
def after (p : Player) (m : Module) (calls : List Call) : Player :=
  calls.foldl (fun p call => (p.serve m call).1) p

/-- Without calls, a player stays as it is. -/
@[simp] theorem after_nil (p : Player) (m : Module) : p.after m [] = p := rfl

/-- The first call is served first. -/
@[simp] theorem after_cons (p : Player) (m : Module) (call : Call) (calls : List Call) :
    p.after m (call :: calls) = (p.serve m call).1.after m calls := rfl

/-- Calls are served one list after the other. -/
theorem after_append (p : Player) (m : Module) (calls calls' : List Call) :
    p.after m (calls ++ calls') = (p.after m calls).after m calls' :=
  List.foldl_append

/-- What the calls of a run yield, one after the other. -/
def gather {α : Type} (p : Player) (m : Module) (f : Player → Call → List α) : List Call → List α
  | [] => []
  | call :: calls => f p call ++ (p.serve m call).1.gather m f calls

/-- What is gathered behind some calls is gathered from the player that they lead to. -/
theorem gather_append {α : Type} (p : Player) (m : Module) (f : Player → Call → List α)
    (calls calls' : List Call) :
    p.gather m f (calls ++ calls') = p.gather m f calls ++ (p.after m calls).gather m f calls' := by
  induction calls generalizing p with
  | nil => rfl
  | cons call calls ih =>
      rw [List.cons_append, gather, ih, gather, List.append_assoc, after_cons]

/-- The last call of a run yields what it does behind the others. -/
theorem gather_concat {α : Type} (p : Player) (m : Module) (f : Player → Call → List α)
    (calls : List Call) (call : Call) :
    p.gather m f (calls ++ [call]) = p.gather m f calls ++ f (p.after m calls) call := by
  rw [gather_append, gather, gather, List.append_nil]

/-- The writes of some calls. -/
def writes (p : Player) (m : Module) (calls : List Call) : List DeviceWrite :=
  p.gather m (fun p call => (p.serve m call).2) calls

/-- The player behind some calls and one more. -/
theorem after_concat (p : Player) (m : Module) (calls : List Call) (call : Call) :
    p.after m (calls ++ [call]) = ((p.after m calls).serve m call).1 := by
  rw [after_append, after_cons, after_nil]

/-- The players that some calls lead to from a start of playback. -/
inductive Reachable (m : Module) : Player → Prop where
  /-- A start at a position within the song. -/
  | start {position : Position} {p : Player} :
      Player.start m position = .ok p → Reachable m p
  /-- A call to a player that was reached before. -/
  | serve {p : Player} (call : Call) : Reachable m p → Reachable m (p.serve m call).1

/-- Calls to a player that was reached lead to another one. -/
theorem Reachable.after {m : Module} {p : Player} (h : Reachable m p) (calls : List Call) :
    Reachable m (p.after m calls) := by
  induction calls generalizing p with
  | nil => exact h
  | cons call calls ih => exact ih (h.serve call)

/-- The reached players are those behind a start and some calls. -/
theorem reachable_iff {m : Module} {p : Player} :
    Reachable m p ↔
      ∃ position p₀ calls, Player.start m position = .ok p₀ ∧ p = p₀.after m calls := by
  constructor
  · intro h
    induction h with
    | start hp => exact ⟨_, _, [], hp, rfl⟩
    | serve call _ ih =>
        -- the call stands behind those that have led there
        obtain ⟨position, p₀, calls, hp₀, rfl⟩ := ih
        refine ⟨position, p₀, calls ++ [call], hp₀, ?_⟩
        rw [after_append, after_cons, after_nil]
  · rintro ⟨position, p₀, calls, hp₀, rfl⟩
    exact (Reachable.start hp₀).after calls

/-- A start succeeds exactly within the song. -/
theorem start_eq_ok {m : Module} {position : Position} {p : Player} :
    Player.start m position = .ok p ↔
      position.Inside m.song.extent ∧ p = atPosition m.song position := by
  simp only [Player.start, Position.Inside]
  -- the order is looked at before the row
  split
  · next h => simp only [reduceCtorEq, false_iff]; omega
  · next ho =>
    split
    · next h => simp only [reduceCtorEq, false_iff]; omega
    · next hr =>
      rw [Except.ok.injEq]
      constructor
      · rintro rfl
        exact ⟨⟨by omega, by omega⟩, rfl⟩
      · rintro ⟨-, rfl⟩
        rfl

/-! ## Frames -/

/-- The player of a frame whose row, if one begins on it, has been read. -/
def begun (p : Player) (m : Module) : Player :=
  (p.beginFrame.beginRow m).1

/-- The writes of the row that begins on a frame. -/
def rowWrites (p : Player) (m : Module) : List DeviceWrite :=
  (p.beginFrame.beginRow m).2

/-- The player of a frame whose voices have been updated. -/
def sounded (p : Player) (m : Module) : Player :=
  ((p.begun m).updateVoices m).1

/-- The beginning of a frame does not stop playback. -/
@[simp] theorem isHalted_beginFrame (p : Player) : p.beginFrame.isHalted = p.isHalted := rfl

/-- The beginning of a frame leaves the transport for the row to move. -/
@[simp] theorem transport_beginFrame (p : Player) : p.beginFrame.transport = p.transport := rfl

/-- The beginning of a frame leaves the voices for the row to read. -/
@[simp] theorem voices_beginFrame (p : Player) : p.beginFrame.voices = p.voices := rfl

/-- A player that has stopped does nothing. -/
theorem step_of_halted {p : Player} (m : Module) (h : p.isHalted = true) :
    p.step m = (p.beginFrame, []) :=
  if_pos h

/-- A row that stops playback ends the frame. -/
theorem step_of_halting {p : Player} {m : Module} (h : p.isHalted = false)
    (hb : (p.begun m).isHalted = true) : p.step m = (p.begun m, p.rowWrites m) := by
  have hp : ¬p.beginFrame.isHalted = true := by
    rw [isHalted_beginFrame, h]
    exact Bool.false_ne_true
  rw [step]
  exact (if_neg hp).trans (if_pos hb)

/-- Otherwise the voices are updated and the time of the frame passes. -/
theorem step_of_going {p : Player} {m : Module} (h : p.isHalted = false)
    (hb : (p.begun m).isHalted = false) :
    p.step m =
      ((p.sounded m).endFrame m, p.rowWrites m ++ ((p.begun m).updateVoices m).2) := by
  have hp : ¬p.beginFrame.isHalted = true := by
    rw [isHalted_beginFrame, h]
    exact Bool.false_ne_true
  have hb' : ¬(p.begun m).isHalted = true := by
    rw [hb]
    exact Bool.false_ne_true
  rw [step]
  exact (if_neg hp).trans (if_neg hb')

/-! ## Rows -/

/-- The transport obeys the effects of a line. -/
theorem transport_readLine (p : Player) (m : Module) (line : Line) :
    (p.readLine m line).1.transport =
      line.effects.foldl (fun t e => t.obey m.song.extent e) p.transport := by
  unfold readLine
  dsimp only
  split <;> rfl

/-- The voice of a channel reads its row if the line is read that far. -/
theorem voice_readLine (p : Player) (m : Module) (line : Line) (c : Channel) :
    (p.readLine m line).1.voices.get c =
      if line.reads c then ((p.voices.get c).readRow m.waveforms c (line.get c)).1
      else p.voices.get c := by
  -- a line that halts stops the player and leaves the voices as they are
  have hv : (p.readLine m line).1.voices = (eachVoice p.voices fun c v =>
      if line.reads c then v.readRow m.waveforms c (line.get c) else (v, [])).1 := by
    unfold readLine
    dsimp only
    split <;> rfl
  rw [hv, get_eachVoice]
  split <;> rfl

/-- A line stops playback exactly if one of its rows does. -/
theorem isHalted_readLine (p : Player) (m : Module) (line : Line) :
    (p.readLine m line).1.isHalted = (line.halts || p.isHalted) := by
  unfold readLine
  cases line.halts <;> rfl

/-- The line that a frame reads if a row begins on it. -/
def nextLine (p : Player) (m : Module) : Line :=
  m.song.line (p.transport.enterRow m.song.extent).position

/-- A frame on which a row begins reads its line. -/
theorem begun_of_first {p : Player} (m : Module) (h : p.transport.clock.isFirst = true) :
    p.begun m = ((p.beginFrame.enterRow m).readLine m (p.nextLine m)).1 := by
  rw [begun, beginRow, transport_beginFrame, if_pos h]
  rfl

/-- Any other frame reads nothing. -/
theorem begun_of_not_first {p : Player} (m : Module) (h : p.transport.clock.isFirst = false) :
    p.begun m = p.beginFrame := by
  rw [begun, beginRow, transport_beginFrame, if_neg (by rw [h]; exact Bool.false_ne_true)]

/-- The transport of a frame makes the move that waits and obeys the line, if a row begins. -/
theorem transport_begun (p : Player) (m : Module) :
    (p.begun m).transport =
      if p.transport.clock.isFirst then
        (p.nextLine m).effects.foldl (fun t e => t.obey m.song.extent e)
          { p.transport.enterRow m.song.extent with entersPattern := false }
      else p.transport := by
  cases h : p.transport.clock.isFirst with
  | false => rw [begun_of_not_first m h]; rfl
  | true => rw [begun_of_first m h, transport_readLine]; rfl

/-- The voice of a channel reads its row, if a row begins and the line is read that far. -/
theorem voice_begun (p : Player) (m : Module) (c : Channel) :
    (p.begun m).voices.get c =
      if p.transport.clock.isFirst && (p.nextLine m).reads c then
        ((p.voices.get c).readRow m.waveforms c ((p.nextLine m).get c)).1
      else p.voices.get c := by
  cases h : p.transport.clock.isFirst with
  | false => rw [begun_of_not_first m h]; rfl
  | true => rw [begun_of_first m h, voice_readLine, Bool.true_and]; rfl

/-- A frame stops playback in its row exactly if a row begins whose line says so. -/
theorem isHalted_begun {p : Player} (m : Module) (h : p.isHalted = false) :
    (p.begun m).isHalted = (p.transport.clock.isFirst && (p.nextLine m).halts) := by
  cases hf : p.transport.clock.isFirst with
  | false => rw [begun_of_not_first m hf]; exact h
  | true =>
      have hp : (p.beginFrame.enterRow m).isHalted = false := h
      rw [begun_of_first m hf, isHalted_readLine, hp, Bool.or_false, Bool.true_and]

/-! ## What a frame leaves behind -/

/-- The transport behind a frame: time passes unless the row has stopped playback. -/
theorem transport_step {p : Player} (m : Module) (h : p.isHalted = false) :
    (p.step m).1.transport =
      if (p.begun m).isHalted then (p.begun m).transport
      else (p.begun m).transport.step m.song.extent := by
  cases hb : (p.begun m).isHalted with
  | true => rw [step_of_halting h hb]; rfl
  | false => rw [step_of_going h hb]; rfl

/-- Playback has stopped behind a frame exactly if it had before or if the row of the frame stops
it. -/
theorem isHalted_step (p : Player) (m : Module) :
    (p.step m).1.isHalted = (p.isHalted || (p.begun m).isHalted) := by
  cases h : p.isHalted with
  | true => rw [step_of_halted m h]; exact h
  | false =>
      cases hb : (p.begun m).isHalted with
      | true => rw [step_of_halting h hb]; exact hb
      | false => rw [step_of_going h hb]; exact hb

/-- A frame plays exactly if neither playback had stopped before nor the row of the frame stops it. -/
theorem isHalted_step_eq_false {p : Player} {m : Module} :
    (p.step m).1.isHalted = false ↔ p.isHalted = false ∧ (p.begun m).isHalted = false := by
  rw [isHalted_step, Bool.or_eq_false_iff]

/-- Reading a line reports nothing but a halt. -/
theorem report_readLine (p : Player) (m : Module) (line : Line) :
    (p.readLine m line).1.report = { p.report with isHalted := line.halts || p.isHalted } := by
  unfold readLine
  cases line.halts <;> rfl

/-- The report of a frame on which a row begins. -/
theorem report_begun_of_first {p : Player} (m : Module) (h : p.transport.clock.isFirst = true) :
    (p.begun m).report =
      { p.beginFrame.report.enterRow (p.transport.enterRow m.song.extent).position
          (p.transport.enterRow m.song.extent).entersPattern with
        isHalted := (p.nextLine m).halts || p.isHalted } := by
  rw [begun_of_first m h, report_readLine]
  rfl

/-- The end of a frame reports its speed and its time, and no more. -/
theorem report_step {p : Player} (m : Module) (h : p.isHalted = false) :
    ∃ speed time, (p.step m).1.report = { (p.begun m).report with speed, time } := by
  cases hb : (p.begun m).isHalted with
  | true => rw [step_of_halting h hb]; exact ⟨_, _, rfl⟩
  | false => rw [step_of_going h hb]; exact ⟨_, _, rfl⟩

/-- The report behind a frame that plays. -/
theorem report_of_going {p : Player} {m : Module} (h : p.isHalted = false)
    (hb : (p.begun m).isHalted = false) :
    (p.step m).1.report =
      { (p.begun m).report with
        speed := ((p.begun m).transport.step m.song.extent).clock.period
        time := (p.begun m).report.time + 1 } := by
  rw [step_of_going h hb]
  rfl

/-- **A row starts on a frame exactly if the clock stands at the start of a row.** -/
theorem startsRow_step (p : Player) (m : Module) :
    (p.step m).1.report.startsRow = (!p.isHalted && p.transport.clock.isFirst) := by
  cases h : p.isHalted with
  | true => rw [step_of_halted m h]; rfl
  | false =>
      obtain ⟨speed, time, hr⟩ := report_step m h
      cases hf : p.transport.clock.isFirst with
      | true => rw [hr, report_begun_of_first m hf]; rfl
      | false => rw [hr, begun_of_not_first m hf]; rfl

/-- The report of a frame names the position at which its row starts. -/
theorem position_step {p : Player} (m : Module) (h : p.isHalted = false)
    (hf : p.transport.clock.isFirst = true) :
    (p.step m).1.report.order =
        UInt8.ofNat (p.transport.enterRow m.song.extent).position.order ∧
      (p.step m).1.report.row = (p.transport.enterRow m.song.extent).position.row := by
  obtain ⟨speed, time, hr⟩ := report_step m h
  rw [hr, report_begun_of_first m hf]
  exact ⟨rfl, rfl⟩

end Player
end Chiptune
