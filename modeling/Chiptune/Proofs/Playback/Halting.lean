import Chiptune.Proofs.Playback.OutputMask
import Chiptune.Proofs.Score.ReadingOrder

/-! # How playback stops

A line that stops playback ends its frame on the spot.  What stands before the effect that says so
has been obeyed, but no voice is updated any more, and the time of the frame does not pass.  Later
calls change nothing that can be heard or seen.

* `Effect.writesOn` are the writes of an effect, whatever the voice that obeys it.
* `Voice.readBefore` is a voice that has read a line up to a column; `voice_begun_of_haltsIn` and
  `rowWrites_of_haltsIn` say what such a line leaves behind.
* `Player.Silent` is a player that does nothing any more; `silent_of_isHalted` follows from what
  single calls leave alone.
* `stops_cleanly_for_good` puts both together. -/

namespace Chiptune

open DeviceWrite

/-- The writes of an effect on a channel. -/
def Effect.writesOn (waves : Table Waveform) (c : Channel) (e : Effect) : List DeviceWrite :=
  match e.kind with
  | .track .setEnvelope => c.envelopeWrites waves e.param ++ [.restart c]
  | .track .setTimbre => c.timbreWrites (e.param &&& 3)
  | .track .setSweep => if c = .ch1 then [.register Register.nr10 e.param] else []
  | _ => []

/-! ## Voices -/

namespace Voice

variable {v : Voice} {waves : Table Waveform} {c : Channel}

/-- The writes of an effect do not depend on the voice that obeys it. -/
theorem writes_obey (v : Voice) (waves : Table Waveform) (c : Channel) (e : Effect) :
    (v.obey waves c e).2 = e.writesOn waves c := by
  obtain ⟨kind, param⟩ := e
  cases kind with
  | pattern effect => rfl
  | pitch effect => rfl
  | track effect =>
      cases effect with
      | setPanning =>
          show (v.obeyTrack waves c param .setPanning).2 = []
          rw [obeyTrack]
          split <;> rfl
      | _ => rfl

/-- The effects of a row write one behind the other, whatever the voice; the induction is on the
effects. -/
theorem writes_obeyAll (v : Voice) (waves : Table Waveform) (c : Channel) (es : List Effect) :
    (obeyAll waves c es v).2 = es.flatMap (Effect.writesOn waves c) := by
  induction es generalizing v with
  | nil => rfl
  | cons e es ih =>
      rw [List.flatMap_cons, ← ih (v.obey waves c e).1, ← writes_obey v]
      rfl

/-- The writes of a row are those of the effects that are obeyed. -/
theorem writes_readRow (v : Voice) (waves : Table Waveform) (c : Channel) (r : Row) :
    (v.readRow waves c r).2 = r.obeyed.flatMap (Effect.writesOn waves c) :=
  v.writes_obeyAll waves c r.obeyed

/-- A voice that has read a line up to a column.  Only the rows of the channels before it are
finished, and no frame passes. -/
def readBefore (v : Voice) (waves : Table Waveform) (l : Line) (a : Column) (c : Channel) : Voice :=
  let obeyed := (obeyAll waves c (l.effectsBefore a c) v).1
  if c.index < a.channel.index then obeyed.finishRow (l.get c) else obeyed

/-- Obeying an effect neither starts nor ends a note, and it does not move the program on. -/
theorem obey_keeps (v : Voice) (waves : Table Waveform) (c : Channel) (e : Effect) :
    (v.obey waves c e).1.isPlaying = v.isPlaying ∧ (v.obey waves c e).1.program = v.program := by
  obtain ⟨kind, param⟩ := e
  cases kind with
  | pattern effect => exact ⟨rfl, rfl⟩
  | pitch effect => exact ⟨rfl, rfl⟩
  | track effect =>
      refine ⟨?_, (obeyTrack_frame v waves c param effect).1⟩
      cases effect with
      | setPanning =>
          show (v.obeyTrack waves c param .setPanning).1.isPlaying = v.isPlaying
          rw [obeyTrack]
          split <;> rfl
      | _ => rfl

/-- Reading a row neither starts nor ends a note, and it does not move the program on. -/
theorem readRow_keeps (v : Voice) (waves : Table Waveform) (c : Channel) (r : Row) :
    (v.readRow waves c r).1.isPlaying = v.isPlaying ∧
      (v.readRow waves c r).1.program = v.program := by
  refine readRow_induction (P := fun v' => v'.isPlaying = v.isPlaying ∧ v'.program = v.program)
    ?_ ?_ ⟨rfl, rfl⟩ r
  · intro v' e ⟨hplaying, hprogram⟩
    obtain ⟨hplaying', hprogram'⟩ := v'.obey_keeps waves c e
    exact ⟨hplaying'.trans hplaying, hprogram'.trans hprogram⟩
  · intro v' r ⟨hplaying, hprogram⟩
    -- the note of the row is requested, and the gate stays as it is
    obtain ⟨gate, hopen, hrequest⟩ := (v'.select r).request_eq r
    rw [finishRow, hrequest]
    split
    · exact ⟨hopen.trans hplaying, hprogram⟩
    · exact ⟨hopen.trans hplaying, hprogram⟩

/-- Of a line that stops playback, a voice whose row is read reads the part before the column that
says so. -/
theorem readRow_of_haltsIn {l : Line} {a : Column} (ha : l.HaltsIn a)
    (hc : c.index ≤ a.channel.index) :
    (v.readRow waves c (l.get c)).1 = v.readBefore waves l a c := by
  rw [readRow, readBefore, ha.obeyed hc]
  dsimp only
  -- the rows before are finished, the one with the column is not
  obtain hlt | heq := Nat.lt_or_eq_of_le hc
  · rw [ha.halts_of_lt hlt, if_pos hlt, if_neg Bool.false_ne_true]
  · obtain rfl := Channel.index_inj.mp heq
    rw [ha.halts_self, if_pos rfl, if_neg (Nat.lt_irrefl _)]

end Voice

/-! ## The line that stops playback -/

namespace Player

variable {m : Module} {p : Player} {a : Column}

/-- The voices of a line that stops playback have read it up to the column that says so. -/
theorem voice_begun_of_haltsIn (hf : p.transport.clock.isFirst = true)
    (ha : (p.nextLine m).HaltsIn a) (c : Channel) :
    (p.begun m).voices.get c = (p.voices.get c).readBefore m.waveforms (p.nextLine m) a c := by
  rw [voice_begun, hf, Bool.true_and, ha.reads c]
  by_cases hc : c.index ≤ a.channel.index
  · rw [if_pos (decide_eq_true hc), Voice.readRow_of_haltsIn ha hc]
  · have hgt : a.channel.index < c.index := Nat.lt_of_not_le hc
    rw [decide_eq_false hc, if_neg Bool.false_ne_true, Voice.readBefore,
      Line.HaltsIn.effectsBefore_of_gt _ hgt]
    exact (if_neg (Nat.not_lt.mpr (Nat.le_of_lt hgt))).symm

/-- The writes of a line that stops playback are those of the effects before the column that says
so. -/
theorem rowWrites_of_haltsIn (hf : p.transport.clock.isFirst = true)
    (ha : (p.nextLine m).HaltsIn a) :
    p.rowWrites m = a.before.flatMap fun b =>
      ((p.nextLine m).effect? b).toList.flatMap (Effect.writesOn m.waveforms b.channel) := by
  rw [rowWrites_eq, if_pos hf, ← Line.flatMap_effectsBefore]
  refine congrArg (Channel.all.flatMap ·) (funext fun c => ?_)
  rw [ha.reads c]
  by_cases hc : c.index ≤ a.channel.index
  · rw [if_pos (decide_eq_true hc), Voice.writes_readRow, ha.obeyed hc]
  · rw [decide_eq_false hc, if_neg Bool.false_ne_true,
      Line.HaltsIn.effectsBefore_of_gt _ (Nat.lt_of_not_le hc)]
    rfl

/-- The row of a frame neither starts nor ends a note, and it does not move any program on. -/
theorem begun_keeps (p : Player) (m : Module) (c : Channel) :
    (p.begun m).isPlaying c = p.isPlaying c ∧
      ((p.begun m).voices.get c).program = (p.voices.get c).program := by
  rw [isPlaying, isPlaying, voice_begun]
  split
  · exact Voice.readRow_keeps _ _ _ _
  · exact ⟨rfl, rfl⟩

/-- The row of a frame takes no time. -/
theorem time_begun (p : Player) (m : Module) : (p.begun m).report.time = p.report.time := by
  cases hf : p.transport.clock.isFirst with
  | true => rw [report_begun_of_first m hf]; rfl
  | false => rw [begun_of_not_first m hf]; rfl

/-! ## Afterwards -/

/-- A player that does nothing any more, whatever is called: no call writes or touches a voice, and
every frame says that playback has stopped and starts no row or pattern. -/
def Silent (m : Module) (p : Player) : Prop :=
  ∀ calls : List Call,
    let q := p.after m calls
    q.isHalted = true ∧ q.voices = p.voices ∧ p.writes m calls = [] ∧
      (q.step m).1.isHalted = true ∧ (q.step m).1.voices = p.voices ∧ (q.step m).2 = [] ∧
      (q.step m).1.report =
        { q.report with isHalted := true, startsRow := false, startsPattern := false }

/-- No call wakes up a player that has stopped. -/
theorem serve_of_halted (h : p.isHalted = true) (call : Call) :
    (p.serve m call).1.isHalted = true ∧ (p.serve m call).1.voices = p.voices ∧
      (p.serve m call).2 = [] := by
  cases call with
  | step =>
      rw [serve, step_of_halted m h]
      exact ⟨h, rfl, rfl⟩
  | setRepeat repeats => exact ⟨h, rfl, rfl⟩
  | jump order => exact ⟨h, rfl, rfl⟩
  | halt => exact ⟨rfl, rfl, rfl⟩

/-- Nor do any calls. -/
theorem after_of_halted (h : p.isHalted = true) (calls : List Call) :
    (p.after m calls).isHalted = true ∧ (p.after m calls).voices = p.voices ∧
      p.writes m calls = [] := by
  induction calls generalizing p with
  | nil => exact ⟨h, rfl, rfl⟩
  | cons call calls ih =>
      obtain ⟨hcall, hvoices, hwrites⟩ := serve_of_halted (m := m) h call
      obtain ⟨hafter, hvoices', hwrites'⟩ := ih hcall
      refine ⟨hafter, hvoices'.trans hvoices, ?_⟩
      show (p.serve m call).2 ++ (p.serve m call).1.writes m calls = []
      rw [hwrites, hwrites', List.nil_append]

/-- **A player that has stopped stays silent.** -/
theorem silent_of_isHalted (h : p.isHalted = true) : p.Silent m := by
  intro calls q
  obtain ⟨hafter, hvoices, hwrites⟩ := after_of_halted (m := m) h calls
  refine ⟨hafter, hvoices, hwrites, ?_⟩
  rw [step_of_halted m hafter]
  refine ⟨hafter, hvoices, rfl, ?_⟩
  have hreport : q.report.isHalted = true := hafter
  rw [← hreport]
  rfl

/-- **Playback stops cleanly and for good.**  A line that stops playback ends its frame with the
writes of the effects before the column that says so: no frequency is set and no output switched,
the voices have read the line up to there and were not updated, no note has started or ended, and
the time has not passed.  A player that has stopped, in whichever way, does nothing any more. -/
theorem stops_cleanly_for_good (m : Module) (p : Player) :
    (∀ a, p.isHalted = false → p.transport.clock.isFirst = true → (p.nextLine m).HaltsIn a →
      let q := (p.step m).1
      let ws := (p.step m).2
      q.isHalted = true ∧
        ws = a.before.flatMap (fun b =>
          ((p.nextLine m).effect? b).toList.flatMap (Effect.writesOn m.waveforms b.channel)) ∧
        (∀ c, frequencies c ws = []) ∧ outputEnables ws = [] ∧
        (∀ c, q.voices.get c =
          (p.voices.get c).readBefore m.waveforms (p.nextLine m) a c) ∧
        (∀ c, (q.voices.get c).program = (p.voices.get c).program) ∧
        (∀ c, q.isPlaying c = p.isPlaying c) ∧
        q.report.time = p.report.time ∧ q.Silent m) ∧
      (p.isHalted = true → p.Silent m) ∧ p.halt.Silent m := by
  refine ⟨?_, silent_of_isHalted, silent_of_isHalted rfl⟩
  intro a hp hf ha
  -- the first halt of the line stops playback with this row
  have hb : (p.begun m).isHalted = true := by
    rw [isHalted_begun m hp, hf, (Line.halts_iff _).mpr ⟨a, ha⟩, Bool.and_self]
  rw [step_of_halting hp hb]
  exact ⟨hb, rowWrites_of_haltsIn hf ha, untuned_rowWrites p m, outputEnables_rowWrites p m,
    voice_begun_of_haltsIn hf ha, fun c => (p.begun_keeps m c).2, fun c => (p.begun_keeps m c).1,
    p.time_begun m, silent_of_isHalted hb⟩

end Player

/-- A module whose first line sets the envelope of the first channel, and the timbre of the second
one before it stops playback there. -/
def haltingModule : Module :=
  .ofSong (((Song.new "").setRow .ch1 0 0
    ((Row.empty.withNote (.on 0)).withEffect ⟨.track .setEnvelope, 0xF0⟩)).setRow .ch2 0 0
    (((Row.empty.withNote (.on 0)).withEffect ⟨.track .setTimbre, 1⟩).withEffect
      ⟨.pattern .halt, 0⟩))

/-- The first frame has the writes of both effects, and a jump does not wake the player up. -/
theorem stops_haltingModule :
    let p := Player.atPosition haltingModule.song ⟨0, 0⟩
    let q := (p.step haltingModule).1
    let a : Column := ⟨.ch2, 1⟩
    Player.start haltingModule ⟨0, 0⟩ = .ok p ∧
      p.isHalted = false ∧ p.transport.clock.isFirst = true ∧
      (p.nextLine haltingModule).HaltsIn a ∧ q.isHalted = true ∧
      (p.step haltingModule).2 =
        [.register 0xFF12 0xF0, .restart .ch1, .register 0xFF16 0x40] ∧
      q.writes haltingModule [.jump 0, .step] = [] := by
  intro p q a
  have ha : (p.nextLine haltingModule).HaltsIn a :=
    { halts := by decide +kernel, first := by decide +kernel }
  obtain ⟨hline, -, -⟩ := Player.stops_cleanly_for_good haltingModule p
  obtain ⟨hq, hwrites, -⟩ := hline a rfl rfl ha
  obtain ⟨-, hstopped, -⟩ := Player.stops_cleanly_for_good haltingModule q
  refine ⟨rfl, rfl, rfl, ha, hq, ?_, (hstopped hq [.jump 0, .step]).2.2.1⟩
  rw [hwrites]
  decide +kernel

end Chiptune
