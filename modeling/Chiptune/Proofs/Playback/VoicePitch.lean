import Mathlib.Data.Option.Basic
import Chiptune.Proofs.Pitch.Run
import Chiptune.Proofs.Pitch.Sequences
import Chiptune.Proofs.Playback.Solo

/-! # Gate and pitch of a voice

A voice hands its rows and frames on to its gate and to its pitch.  What it asks of the pitch are the
calls that any caller may make, so that all that holds of the pitches of such calls holds of those
that are heard in a song.

* `gate_obey` and `gate_finishRow` say what becomes of the gate, `pitch_obey`, `pitch_finishRow` and
  `pitch_update` what becomes of the pitch.
* `Player.Reachable.pitch` is what follows for the pitches of a run, `Player.Reachable.requested` for
  the notes that its channels wait for.
* `Player.voice_begun_of_going` says which row a voice reads on a frame that is played. -/

namespace Chiptune

namespace Voice

variable {m : Module} {v : Voice} {c : Channel}

/-! ## Reading a row -/

/-- An effect may set the time of a cut, and leaves the rest of the gate alone. -/
theorem gate_obey (v : Voice) (waves : Table Waveform) (c : Channel) (e : Effect) :
    ∃ cutIn, (v.obey waves c e).1.gate = { v.gate with cutIn } := by
  obtain ⟨kind, param⟩ := e
  cases kind with
  | pattern effect | pitch effect => exact ⟨_, rfl⟩
  | track effect =>
      show ∃ cutIn, (v.obeyTrack waves c param effect).1.gate = _
      cases effect with
      | setPanning =>
          rw [obeyTrack]
          split <;> exact ⟨_, rfl⟩
      | _ => exact ⟨_, rfl⟩

/-- An effect is staged on the pitch, which ignores those that are not on it. -/
theorem pitch_obey (v : Voice) (waves : Table Waveform) (c : Channel) (e : Effect) :
    (v.obey waves c e).1.pitch = v.pitch.map fun p => p.stageEffect e := by
  have hignored (h : ∀ p : Pitch .tone, p.stageEffect e = p) :
      v.pitch = v.pitch.map fun p => p.stageEffect e := by
    simp only [h, Option.map_id']
  obtain ⟨kind, param⟩ := e
  cases kind with
  | pattern effect => exact hignored fun _ => rfl
  | track effect => exact (obeyTrack_frame v waves c param effect).2.trans (hignored fun _ => rfl)
  | pitch effect => rfl

/-- The end of a row lets the changes of the pitch take hold, or leaves them to wait. -/
theorem pitch_finishRow (v : Voice) (r : Row) :
    (v.finishRow r).pitch = v.pitch ∨ (v.finishRow r).pitch = v.pitch.map Pitch.apply := by
  obtain ⟨gate, -, hrequest⟩ := (v.select r).request_eq r
  unfold finishRow
  rw [hrequest]
  dsimp only
  split
  · exact .inr rfl
  · exact .inl rfl

/-- The end of a row asks for its note. -/
theorem gate_finishRow (v : Voice) (r : Row) :
    (v.finishRow r).gate = ((v.select r).request r).gate := by
  unfold finishRow
  dsimp only
  split <;> rfl

/-- A row that starts no note may set the time of a cut, and leaves the rest of the gate alone. -/
theorem gate_finishRow_of_noteless {r : Row} (h : r.startsNote = false) (v : Voice) :
    ∃ cutIn, (v.finishRow r).gate = { v.gate with cutIn } := by
  rw [gate_finishRow, request]
  rw [Row.startsNote] at h
  split
  · next n hn =>
    rw [hn] at h
    rw [if_neg (of_decide_eq_false h)]
    exact ⟨_, rfl⟩
  · exact ⟨_, rfl⟩
  · exact ⟨_, rfl⟩

/-- Whether a gate waits for notes of the scale only. -/
def InScale (v : Voice) : Prop :=
  ∀ request ∈ v.gate.request, request.note ≤ Note.last

/-- A row requests notes of the scale only; the index behind them is a cut. -/
theorem InScale.finishRow (h : v.InScale) (r : Row) : (v.finishRow r).InScale := by
  unfold InScale
  rw [gate_finishRow, request]
  split
  · next n _ =>
    split
    · next hn =>
      have hcut : n < Note.cutIndex := Nat.lt_succ_of_le hn
      dsimp only
      rw [NoteGate.requestNote, if_neg (Nat.ne_of_lt hcut), if_pos hcut]
      rintro request hrequest
      obtain rfl := Option.some.inj hrequest
      exact hn
    · exact h
  · exact h
  · exact h

/-- Reading a row keeps a gate in its scale, since effects request cuts only. -/
theorem InScale.readRow (h : v.InScale) (waves : Table Waveform) (c : Channel) (r : Row) :
    (v.readRow waves c r).1.InScale := by
  refine readRow_induction ?_ (fun v r hv => hv.finishRow r) h r
  intro v e hv
  obtain ⟨cutIn, hgate⟩ := v.gate_obey waves c e
  unfold InScale
  rw [hgate]
  exact hv

/-! ## Updating -/

/-- A note may stage the sequences of an instrument before it starts. -/
theorem pitch_bound (v : Voice) (m : Module) (started : Option Nat) :
    (v.bound m started).pitch = v.pitch ∨
      started.isSome = true ∧
        ∃ i : Instrument, (v.bound m started).pitch = v.pitch.map fun p => p.stage i.sequences := by
  unfold bound
  split
  · next h =>
    unfold bindInstrument
    split
    · split
      · next i _ => exact .inr ⟨h, i, rfl⟩
      · exact .inl rfl
    · exact .inl rfl
  · exact .inl rfl

/-- An update plays a frame of the pitch if a note sounds, and leaves it alone otherwise. -/
theorem pitch_update (v : Voice) (m : Module) (c : Channel) :
    (v.update m c).1.pitch =
      if v.gated.isPlaying then
        (v.gated.bound m v.gate.step.2).pitch.map fun p => p.play v.gate.step.2
      else v.pitch := by
  cases h : v.gated.isPlaying with
  | true => rw [update_of_open m c h]; rfl
  | false => rw [update_of_closed m c h]; rfl

end Voice

/-! ## Runs -/

namespace Player

variable {m : Module} {p : Player}

/-- A player that can be reached is in the range in which no computation has a fault. -/
theorem Reachable.inRange (h : Reachable m p) : p.InRange m := by
  obtain ⟨position, p₀, calls, hp₀, rfl⟩ := reachable_iff.mp h
  exact (inRange_start hp₀).after calls

/-- **The pitch of a channel is always one that calls to a pitch lead to.** -/
theorem Reachable.pitch (h : Reachable m p) (c : Channel) :
    ∀ q ∈ (p.voices.get c).pitch, q.Reachable := by
  refine h.voice (P := fun _ v => ∀ q ∈ v.pitch, q.Reachable) ?_ ?_ ?_ c
  · -- a new voice has a new pitch, if any
    intro c q hq
    have hnew : q ∈ (if c.isNoise then none else some Pitch.new) := hq
    split at hnew
    · cases hnew
    · obtain rfl := Option.some.inj hnew
      exact ⟨[], rfl⟩
  · -- a row stages its effects, and may apply what is staged
    intro c v r hv
    refine Voice.readRow_induction (P := fun v => ∀ q ∈ v.pitch, q.Reachable) ?_ ?_ hv r
    · intro v e hv
      rw [Voice.pitch_obey, Option.forall_mem_map]
      exact fun q hq => (hv q hq).serve (.stageEffect e)
    · intro v r hv
      rcases v.pitch_finishRow r with hpitch | hpitch
      · rw [hpitch]
        exact hv
      · rw [hpitch, Option.forall_mem_map]
        exact fun q hq => (hv q hq).serve .apply
  · -- a frame may bind an instrument before it plays
    intro c v hv
    have hbound (started : Option Nat) : ∀ q ∈ (v.gated.bound m started).pitch, q.Reachable := by
      rcases v.gated.pitch_bound m started with hpitch | ⟨-, i, hpitch⟩
      · rw [hpitch]
        exact hv
      · rw [hpitch, Option.forall_mem_map]
        exact fun q hq => (hv q hq).serve (.stage i.sequences)
    rw [Voice.pitch_update]
    split
    · rw [Option.forall_mem_map]
      intro q hq
      have hq := hbound _ q hq
      cases v.gate.step.2 with
      | none => exact hq.serve .step
      | some note => exact hq.after [.stage { note := some note }, .apply, .step]
    · exact hv

/-- The notes that a channel waits for are always notes of the scale. -/
theorem Reachable.requested (h : Reachable m p) (c : Channel) : (p.voices.get c).InScale := by
  refine h.voice (P := fun _ v => v.InScale) (fun c => nofun)
    (fun c v r hv => hv.readRow m.waveforms c r) ?_ c
  intro c v hv request hrequest
  rw [Voice.gate_update] at hrequest
  -- a request that is left was there before
  have hlater : request ∈ v.gate.laterRequest := hrequest
  unfold NoteGate.laterRequest at hlater
  split at hlater
  · next note n heq =>
    obtain rfl := Option.some.inj hlater
    exact hv ⟨note, n + 1⟩ heq
  · cases hlater

/-- On a frame that is played, the voice of a channel reads its row. -/
theorem voice_begun_of_going (h : p.InRange m) (hgoing : (p.step m).1.isHalted = false)
    (c : Channel) :
    (p.begun m).voices.get c =
      ((p.voices.get c).readRow m.waveforms c (p.rowRead m c)).1 := by
  obtain ⟨hp, hb⟩ := isHalted_step_eq_false.mp hgoing
  rw [isHalted_begun m hp] at hb
  rw [Player.voice_begun]
  -- the first frame of a row reads it, and any other frame reads nothing
  cases hfirst : p.transport.clock.isFirst with
  | true =>
      rw [hfirst, Bool.true_and] at hb
      have hinside := h.transport.enterRow.within.position
      have hrow : p.rowRead m c = (p.nextLine m).get c := by
        rw [rowRead, rowStart?_step hp hfirst hinside, nextLine, Song.line, PerChannel.get_ofFn]
        rfl
      rw [Line.reads_of_not_halts _ hb, hrow]
      rfl
  | false =>
      have hrow : p.rowRead m c = Row.empty := by
        rw [rowRead, rowStart?_step_eq_none (by rw [hfirst, Bool.and_false])]
        rfl
      rw [hrow, Voice.readRow_of_plain Row.isPlain_empty, Voice.follow_empty]
      rfl

end Player
end Chiptune
