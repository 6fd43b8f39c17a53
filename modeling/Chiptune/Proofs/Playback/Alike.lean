import Chiptune.Proofs.Checked.Player
import Chiptune.Proofs.Playback.Isolation
import Chiptune.Recording

/-! # Modules that play alike

A player knows its module by four things: the size of the song, its speed, the instruments and
waveforms, and what it reads of a line.  Modules that agree in these cannot be told apart.

* `Module.PlaysAs` says that two modules are played alike, in every way that a caller has.
* `Module.ReadsAs` says that a player reads them alike, for which `Player.readLine_congr` is of use,
  and `Reachable.serve_alike` that it then serves every call alike.
* `Module.ReadsAs.playsAs` leads from the one to the other. -/

namespace Chiptune

/-- Modules that no caller can tell apart by playing them. -/
structure Module.PlaysAs (m m' : Module) : Prop where
  /-- The same starts are refused, and the others give the same player. -/
  start : ∀ position, Player.start m' position = Player.start m position
  /-- The same calls lead to the same player. -/
  after : ∀ position p calls, Player.start m position = .ok p →
    p.after m' calls = p.after m calls
  /-- They have the same writes. -/
  writes : ∀ position p calls, Player.start m position = .ok p →
    p.writes m' calls = p.writes m calls
  /-- Behind them, every call gives the same player, and has the same writes. -/
  serve : ∀ position p calls call, Player.start m position = .ok p →
    (p.after m' calls).serve m' call = (p.after m calls).serve m call
  /-- The recordings are equal, as far as there are any. -/
  record : ∀ plan, m'.record plan = m.record plan

/-- Modules that a player reads alike. -/
structure Module.ReadsAs (m m' : Module) : Prop where
  /-- The songs have the same size. -/
  extent : m'.song.extent = m.song.extent
  /-- The speeds at the start are equal. -/
  speed : m'.song.speed = m.song.speed
  /-- The instruments are equal. -/
  instruments : m'.instruments = m.instruments
  /-- The waveforms are equal. -/
  waveforms : m'.waveforms = m.waveforms
  /-- The lines at a position of the song are read alike. -/
  line : ∀ p : Player, p.transport.position.Inside m.song.extent →
    (∀ c, (p.voices.get c).Fits c) →
    p.readLine m' (m'.song.line p.transport.position) =
      p.readLine m (m.song.line p.transport.position)

namespace Player

variable {m m' : Module} {p : Player}

/-- A player that was reached stays inside the song when it enters a row. -/
theorem Reachable.inside_enterRow (h : Reachable m p) :
    (p.transport.enterRow m.song.extent).position.Inside m.song.extent := by
  obtain ⟨position, p₀, calls, hp₀, rfl⟩ := reachable_iff.mp h
  exact ((inRange_start hp₀).after calls).transport.enterRow.within.position

/-- Lines are read alike if the voices read their rows alike and the transport goes the same way. -/
theorem readLine_congr {l l' : Line} (hhalts : l'.halts = l.halts)
    (hreads : ∀ c, l'.reads c = l.reads c)
    (hrow : ∀ c, (p.voices.get c).readRow m'.waveforms c (l'.get c) =
      (p.voices.get c).readRow m.waveforms c (l.get c))
    (htransport : l'.effects.foldl (fun t e => t.obey m'.song.extent e) p.transport =
      l.effects.foldl (fun t e => t.obey m.song.extent e) p.transport) :
    p.readLine m' l' = p.readLine m l := by
  have hvoices :
      eachVoice p.voices (fun c v =>
        if l'.reads c then v.readRow m'.waveforms c (l'.get c) else (v, [])) =
      eachVoice p.voices (fun c v =>
        if l.reads c then v.readRow m.waveforms c (l.get c) else (v, [])) :=
    eachVoice_congr fun c => by rw [hreads, hrow]
  rw [readLine, readLine, hvoices, htransport, hhalts]

/-- Starts are refused alike, and lead to the same player. -/
theorem start_alike (hm : m.ReadsAs m') (position : Position) :
    Player.start m' position = Player.start m position := by
  rw [Player.start, Player.start, hm.extent, atPosition, atPosition, hm.speed]

/-- A row begins alike. -/
theorem Reachable.beginRow_alike (h : Reachable m p) (hm : m.ReadsAs m') :
    p.beginFrame.beginRow m' = p.beginFrame.beginRow m := by
  have henter : p.beginFrame.enterRow m' = p.beginFrame.enterRow m := by
    rw [enterRow, enterRow, hm.extent]
  rw [beginRow, beginRow, henter]
  split
  · exact hm.line (p.beginFrame.enterRow m) h.inside_enterRow h.fits
  · rfl

/-- A frame is played alike. -/
theorem Reachable.step_alike (h : Reachable m p) (hm : m.ReadsAs m') : p.step m' = p.step m := by
  have hbegin := h.beginRow_alike hm
  have hupdate (p : Player) : p.updateVoices m' = p.updateVoices m := by
    rw [updateVoices, updateVoices]
    simp only [Voice.update_congr hm.instruments hm.waveforms]
  have hend (p : Player) : p.endFrame m' = p.endFrame m := by
    rw [endFrame, endFrame, hm.extent]
  unfold step
  simp only [hbegin, hupdate, hend]

/-- **A call is served alike.** -/
theorem Reachable.serve_alike (h : Reachable m p) (hm : m.ReadsAs m') (call : Call) :
    p.serve m' call = p.serve m call := by
  cases call with
  | step => exact h.step_alike hm
  | setRepeat repeats => rfl
  | jump order =>
      show (p.jump m' order, []) = (p.jump m order, [])
      rw [jump, jump, hm.extent]
  | halt => rfl

/-- The same calls lead to the same player. -/
theorem Reachable.after_alike (h : Reachable m p) (hm : m.ReadsAs m') (calls : List Call) :
    p.after m' calls = p.after m calls := by
  induction calls generalizing p with
  | nil => rfl
  | cons call calls ih =>
      rw [after_cons, after_cons, h.serve_alike hm call]
      exact ih (h.serve call)

/-- They have the same writes. -/
theorem Reachable.writes_alike (h : Reachable m p) (hm : m.ReadsAs m') (calls : List Call) :
    p.writes m' calls = p.writes m calls := by
  induction calls generalizing p with
  | nil => rfl
  | cons call calls ih =>
      show (p.serve m' call).2 ++ (p.serve m' call).1.writes m' calls =
        (p.serve m call).2 ++ (p.serve m call).1.writes m calls
      rw [h.serve_alike hm call, ih (h.serve call)]

/-- The frames of a run are the same. -/
theorem Reachable.frames_alike (h : Reachable m p) (hm : m.ReadsAs m') (limit : Nat) :
    p.frames m' limit = p.frames m limit := by
  induction limit generalizing p with
  | zero => rfl
  | succ limit ih =>
      have hrest : (p.step m).1.frames m' limit = (p.step m).1.frames m limit := ih (h.serve .step)
      rw [frames_succ, frames_succ, h.step_alike hm, hrest]

end Player

open Player

/-- **Modules that are read alike are played alike.** -/
theorem Module.ReadsAs.playsAs {m m' : Module} (hm : m.ReadsAs m') : m.PlaysAs m' where
  start := start_alike hm
  after := fun _ _ calls hp => (Reachable.start hp).after_alike hm calls
  writes := fun _ _ calls hp => (Reachable.start hp).writes_alike hm calls
  serve := by
    intro position p calls call hp
    rw [(Reachable.start hp).after_alike hm calls]
    exact ((Reachable.start hp).after calls).serve_alike hm call
  record := by
    intro plan
    rw [record, record, start_alike hm]
    cases hp : Player.start m plan.start with
    | error e => rfl
    | ok p =>
        have hframes := ((Reachable.start hp).serve (.setRepeat plan.repeats)).frames_alike hm
          plan.maxFrames
        exact congrArg (fun frames => Except.ok (Recording.mk frames)) hframes

end Chiptune
