import Chiptune.Proofs.Bank.Readings
import Chiptune.Proofs.Pitch.Sequences
import Chiptune.Proofs.Pitch.Slides

/-! # Sequences ahead of the modulation

The two sequences of an instrument begin with the note.  The values of the pitch sequence add up to
the pitch of the instrument.  Those of the arpeggio sequence lead the base frequency, one frame each,
while the modulation waits; when there are none left, it goes on as if it had been paused.

* `Motion` is what a modulation moves.  `motion_step_of_led` and `motion_step_of_silent` are the two
  kinds of frames, and `motion_run_of_silent` says that frames without a lead depend on it alone.
* `Fresh` holds of a pitch whose note has just started.  `Fresh.instrumentPitch_run` follows its pitch
  sequence, `Fresh.motion_of_led` and `Fresh.motion_run_behind` its arpeggio sequence.
* `sequences_lead` states all of this for every run of calls that lets no changes take hold. -/

namespace Chiptune

open Sequence

/-- What the modulation of a pitch moves. -/
structure Motion where
  /-- The modulation in force, with its amount and its target. -/
  mode : PitchMode
  /-- The frequency before tuning, instrument pitch and vibrato. -/
  base : Nat
  /-- The frequencies of the last chord. -/
  chord : Vector Nat 3
  /-- The place in the chord that sounds next. -/
  chordIndex : Fin 3
  deriving DecidableEq

/-- The sum of some signed values from left to right, in the range of sixteen signed bits. -/
def saturatingSum (values : List UInt8) : Int :=
  values.foldl (fun sum value => saturate16 (sum + value.toInt8.toInt)) 0

/-- One more value is added to the sum, which may saturate again. -/
theorem saturatingSum_concat (values : List UInt8) (value : UInt8) :
    saturatingSum (values ++ [value]) = saturate16 (saturatingSum values + value.toInt8.toInt) := by
  rw [saturatingSum, List.foldl_append]
  rfl

namespace Pitch

variable {kind : PitchKind} {p q : Pitch kind}

/-- What the modulation moves. -/
def motion (p : Pitch kind) : Motion :=
  ⟨p.mode, p.base, p.chord, p.chordIndex⟩

/-! ## Frames -/

/-- Frames never change the note. -/
theorem note_step (p : Pitch kind) : p.step.note = p.note := by
  obtain ⟨_, _, _, _, hstep⟩ := p.exists_step_eq
  rw [hstep]

/-- A frame reads the pitch sequence by one value. -/
theorem pitchSequence_step (p : Pitch kind) :
    p.step.pitchSequence = (Cursor.advance p.pitchSequence).2 := by
  obtain ⟨_, _, _, _, hstep⟩ := p.exists_step_eq
  rw [hstep]

/-- A frame reads the arpeggio sequence by one value, also when it has none left. -/
theorem arpeggioSequence_step (p : Pitch kind) :
    p.step.arpeggioSequence = (Cursor.advance p.arpeggioSequence).2 := by
  obtain ⟨_, _, _, _, hstep⟩ := p.exists_step_eq
  rw [hstep]

/-- A value of the pitch sequence is added up, whatever the arpeggio and the modulation do. -/
theorem instrumentPitch_step (p : Pitch kind) :
    p.step.instrumentPitch =
      match (Cursor.advance p.pitchSequence).1 with
      | some value => saturate16 (p.instrumentPitch + value.toInt8.toInt)
      | none => p.instrumentPitch := by
  -- the later stages of a frame leave the instrument pitch alone
  have hmode (p : Pitch kind) : p.stepMode.instrumentPitch = p.instrumentPitch := by
    unfold stepMode
    split <;> rfl
  have htone (p : Pitch kind) : p.stepTone.instrumentPitch = p.instrumentPitch := by
    unfold stepTone
    dsimp only
    split
    · rfl
    · exact hmode _
  rw [step_eq, htone]
  unfold stepPitchSequence
  dsimp only [swung]
  cases (Cursor.advance p.pitchSequence).1 with
  | some value => rfl
  | none => rfl

/-- The pitch sequence leaves alone what the modulation moves. -/
theorem motion_stepPitchSequence (p : Pitch kind) : p.swung.stepPitchSequence.motion = p.motion := by
  unfold stepPitchSequence
  dsimp only
  split <;> rfl

/-- **On a frame with a value of the arpeggio sequence, this leads the base frequency**, and the
modulation waits. -/
theorem motion_step_of_led {offset : UInt8}
    (h : (Cursor.advance p.arpeggioSequence).1 = some offset) :
    p.step.motion =
      { p.motion with
        base := kind.frequency (kind.clampNote (p.note + offset.toInt8.toInt)) } := by
  obtain ⟨-, -, harpeggio⟩ := p.stepPitchSequence_frame
  have hnote : p.swung.stepPitchSequence.note = p.note := by
    unfold stepPitchSequence
    dsimp only
    split <;> rfl
  rw [step_eq, stepTone, harpeggio]
  dsimp only
  rw [h]
  dsimp only
  rw [hnote, ← motion_stepPitchSequence p]
  rfl

/-- How the modulation moves depends on what it moves alone. -/
theorem motion_stepMode_congr (h : p.motion = q.motion) : p.stepMode.motion = q.stepMode.motion := by
  obtain ⟨hmode, hbase, hchord, hindex⟩ := Motion.mk.inj h
  unfold stepMode motion
  rw [hmode]
  split
  · rw [hmode, hbase, hchord, hindex]
  · dsimp only
    rw [hbase, hchord, hindex]
  · dsimp only
    simp only [hchord, hindex]

/-- On a frame without a value of the arpeggio sequence, the modulation moves. -/
theorem motion_step_of_silent (h : p.IsSilent) : p.step.motion = p.stepMode.motion := by
  rw [step_of_silent h]
  exact motion_stepMode_congr p.motion_stepPitchSequence

/-- Once the arpeggio sequence has no value, it never has one again. -/
theorem IsSilent.step (h : p.IsSilent) : p.step.IsSilent := by
  rw [IsSilent, arpeggioSequence_step, Cursor.advance_of_silent h]
  exact h

/-- An arpeggio sequence without a value stays so in all frames. -/
theorem IsSilent.run (h : p.IsSilent) (n : Nat) : (Pitch.step^[n] p).IsSilent := by
  induction n generalizing p with
  | zero => exact h
  | succ n ih => exact ih h.step

/-- **Without a lead, the frames of a modulation depend on what it moves alone.** -/
theorem motion_run_of_silent (hp : p.IsSilent) (hq : q.IsSilent) (h : p.motion = q.motion)
    (n : Nat) : (step^[n] p).motion = (step^[n] q).motion := by
  induction n generalizing p q with
  | zero => exact h
  | succ n ih =>
      refine ih hp.step hq.step ?_
      rw [motion_step_of_silent hp, motion_step_of_silent hq, motion_stepMode_congr h]

/-! ## Notes that have just started -/

/-- A pitch whose note has just started: its sequences are at their first values, and nothing has
been added up. -/
structure Fresh (p : Pitch kind) : Prop where
  pitchSequence : Cursor.AtStart p.pitchSequence
  arpeggioSequence : Cursor.AtStart p.arpeggioSequence
  instrumentPitch : p.instrumentPitch = 0

/-- Changes that start a note make it fresh. -/
theorem fresh_commit {changes : PitchParams} {note : Nat} (hnote : changes.note = some note)
    (hplayable : note ≤ kind.topNote) (p : Pitch kind) : (p.commit changes).Fresh := by
  rw [commit_of_playable hnote hplayable]
  obtain ⟨chord, chordIndex, hchord⟩ := exists_restartChord_eq
    ((((p.placeNote note).modulated changes).configure changes).startNote note)
  rw [hchord]
  exact
    { pitchSequence := Cursor.atStart_restart _
      arpeggioSequence := Cursor.atStart_restart _
      instrumentPitch := rfl }

/-- The value of the pitch sequence on a frame of the note. -/
def pitchValue? (q : Pitch kind) (n : Nat) : Option UInt8 :=
  q.pitchSequence.bind fun c => c.sequence.value? n

/-- The value of the arpeggio sequence on a frame of the note. -/
def arpeggioValue? (q : Pitch kind) (n : Nat) : Option UInt8 :=
  q.arpeggioSequence.bind fun c => c.sequence.value? n

/-- The note stays in all frames. -/
theorem note_run (q : Pitch kind) (n : Nat) : (step^[n] q).note = q.note := by
  induction n with
  | zero => rfl
  | succ n ih => rw [Function.iterate_succ_apply', note_step, ih]

/-- Behind some frames, as many values of the pitch sequence have been read. -/
theorem pitchSequence_run (q : Pitch kind) (n : Nat) :
    (step^[n] q).pitchSequence = Cursor.behind q.pitchSequence n := by
  induction n with
  | zero => rfl
  | succ n ih => rw [Function.iterate_succ_apply', pitchSequence_step, ih, Cursor.behind_succ]

/-- Behind some frames, as many values of the arpeggio sequence have been read. -/
theorem arpeggioSequence_run (q : Pitch kind) (n : Nat) :
    (step^[n] q).arpeggioSequence = Cursor.behind q.arpeggioSequence n := by
  induction n with
  | zero => rfl
  | succ n ih => rw [Function.iterate_succ_apply', arpeggioSequence_step, ih, Cursor.behind_succ]

/-- **The values of the pitch sequence add up**, from the note on. -/
theorem Fresh.instrumentPitch_run (h : q.Fresh) (n : Nat) :
    (step^[n] q).instrumentPitch = saturatingSum ((List.range n).filterMap q.pitchValue?) := by
  induction n with
  | zero => exact h.instrumentPitch
  | succ n ih =>
      have hvalue : (Cursor.advance (step^[n] q).pitchSequence).1 = q.pitchValue? n := by
        rw [pitchSequence_run, Cursor.advance_behind h.pitchSequence]
        rfl
      rw [Function.iterate_succ_apply', instrumentPitch_step, hvalue, ih, List.range_succ,
        List.filterMap_append]
      cases hn : q.pitchValue? n with
      | none => rw [List.filterMap_cons_none hn, List.filterMap_nil, List.append_nil]
      | some value => rw [List.filterMap_cons_some hn, List.filterMap_nil, saturatingSum_concat]

/-- The arpeggio sequence yields its values one after the other. -/
theorem Fresh.arpeggioValue?_eq (h : q.Fresh) (n : Nat) :
    (Cursor.advance (step^[n] q).arpeggioSequence).1 = q.arpeggioValue? n := by
  rw [arpeggioSequence_run, Cursor.advance_behind h.arpeggioSequence]
  rfl

/-- On a frame with a value of the arpeggio sequence, the base frequency follows it and the
modulation waits. -/
theorem Fresh.motion_of_led (h : q.Fresh) {n : Nat} {offset : UInt8}
    (hlead : q.arpeggioValue? n = some offset) :
    (step^[n] q).step.motion =
      { (step^[n] q).motion with
        base := kind.frequency (kind.clampNote (q.note + offset.toInt8.toInt)) } := by
  rw [motion_step_of_led ((h.arpeggioValue?_eq n).trans hlead), note_run]

/-- As long as the arpeggio sequence leads, the modulation waits. -/
theorem Fresh.motion_run_of_led (h : q.Fresh) {n : Nat}
    (hlead : ∀ j < n, (q.arpeggioValue? j).isSome) :
    (step^[n] q).motion = { q.motion with base := (step^[n] q).base } := by
  induction n with
  | zero => rfl
  | succ n ih =>
      obtain ⟨offset, hoffset⟩ := Option.isSome_iff_exists.mp (hlead n (Nat.lt_succ_self n))
      have hframe := h.motion_of_led hoffset
      have hbase := congrArg Motion.base hframe
      rw [ih fun j hj => hlead j (Nat.lt_succ_of_lt hj)] at hframe
      rw [Function.iterate_succ_apply', hframe]
      exact congrArg (fun base => { q.motion with base }) hbase.symm

/-- **When the arpeggio sequence has no values left, the modulation goes on as if it had been
paused.** -/
theorem Fresh.motion_run_behind (h : q.Fresh) {k n : Nat} (hk : k ≤ n)
    (hend : q.arpeggioValue? k = none) (hlead : ∀ j < k, (q.arpeggioValue? j).isSome) :
    (step^[n] q).motion =
      (step^[n - k]
        ({ q with arpeggioSequence := none, base := (step^[k] q).base } : Pitch kind)).motion := by
  have hsplit : step^[n] q = step^[n - k] (step^[k] q) := by
    rw [← Function.iterate_add_apply, Nat.sub_add_cancel hk]
  have hsilent : (step^[k] q).IsSilent := (h.arpeggioValue?_eq k).trans hend
  rw [hsplit]
  exact motion_run_of_silent hsilent (by rfl) (h.motion_run_of_led hlead) _

/-- **Sequences lead and then hand back.**  Behind changes that start a note, the values of the pitch
sequence add up to the pitch of the instrument, one on each frame.  Each value of the arpeggio
sequence leads the base frequency to the note that is so far from the note of the pitch, which stays
the same, and moves nothing else.  From the first frame without such a value on, the modulation goes
on from the last base frequency as if there were no sequence and it were where it was at the note. -/
theorem sequences_lead {call : PitchCall} {changes : PitchParams} {note : Nat}
    {calls : List PitchCall} (hcall : p.changes? call = some changes)
    (hnote : changes.note = some note) (hplayable : note ≤ kind.topNote)
    (hquiet : ∀ call ∈ calls, call.isQuiet = true) :
    let q := p.serve call
    let r := q.after calls
    let n := calls.count .step
    r.instrumentPitch = saturatingSum ((List.range n).filterMap q.pitchValue?) ∧
      r.note = q.note ∧
      (∀ offset, q.arpeggioValue? n = some offset →
        r.step.motion =
          { r.motion with
            base := kind.frequency (kind.clampNote (q.note + offset.toInt8.toInt)) }) ∧
      ∀ k ≤ n, q.arpeggioValue? k = none → (∀ j < k, (q.arpeggioValue? j).isSome) →
        r.motion =
          (step^[n - k]
            ({ q with arpeggioSequence := none, base := (step^[k] q).base } : Pitch kind)).motion := by
  intro q r n
  have hfresh : q.Fresh := by
    obtain ⟨staged, hserve⟩ := exists_serve_eq hcall
    show (p.serve call).Fresh
    rw [hserve]
    exact fresh_commit hnote hplayable _
  -- what waits does not matter, neither now nor on the next frame
  have hrun : r.bare = (step^[n] q).bare := bare_after_eq_run hquiet q
  have hnext : r.step.bare = (step^[n] q).step.bare := by rw [bare_step, hrun, ← bare_step]
  have hmotion : r.motion = (step^[n] q).motion := (congrArg motion hrun :)
  refine ⟨?_, ?_, fun offset hlead => ?_, fun k hk hend hlead => ?_⟩
  · exact (congrArg instrumentPitch hrun).trans (hfresh.instrumentPitch_run n)
  · exact (congrArg Pitch.note hrun).trans (note_run q n)
  · rw [hmotion]
    exact (congrArg motion hnext).trans (hfresh.motion_of_led hlead)
  · rw [hmotion]
    exact hfresh.motion_run_behind hk hend hlead

/-- A pitch that slides upwards and has a note with two sequences waiting, of which one goes around in
a loop. -/
def sequencedPitch : Pitch .tone :=
  (new : Pitch .tone).after
    [.commit { note := some 12, modulation := some (.pitchSlide .up 0x20) }, .step,
      .stage
        { note := some 24
          pitchSequence := some ⟨[2, 2, 0xFF], some 1, by decide, by decide⟩
          arpeggioSequence := some ⟨[12, 0xF4], none, by decide, nofun⟩ }]

/-- The note goes up and down an octave, and then the slide begins where it would have begun without
the sequence, but an octave lower.  The pitch sequence goes on adding up. -/
theorem sequences_lead_sequencedPitch :
    (sequencedPitch.serve .apply).step.base = PitchKind.tone.frequency 36 ∧
      ((sequencedPitch.serve .apply).after [.step, .stage { note := some 0 }]).step.base =
        PitchKind.tone.frequency 12 ∧
      ((sequencedPitch.serve .apply).after (.replicate 4 .step)).instrumentPitch = 5 ∧
      ((sequencedPitch.serve .apply).after (.replicate 4 .step)).base =
        PitchKind.tone.frequency 12 + 2 * 0x20 := by
  obtain ⟨-, -, hfirst, -⟩ :=
    @sequences_lead .tone sequencedPitch .apply sequencedPitch.staged 24 [] rfl rfl (by decide)
      (by decide)
  obtain ⟨-, -, hsecond, -⟩ :=
    @sequences_lead .tone sequencedPitch .apply sequencedPitch.staged 24
      [.step, .stage { note := some 0 }] rfl rfl (by decide) (by decide)
  obtain ⟨hsum, -, -, hend⟩ :=
    @sequences_lead .tone sequencedPitch .apply sequencedPitch.staged 24 (.replicate 4 .step) rfl rfl
      (by decide) (by decide)
  refine ⟨?_, ?_, ?_, ?_⟩
  · exact congrArg Motion.base (hfirst 12 (by decide +kernel))
  · exact congrArg Motion.base (hsecond 0xF4 (by decide +kernel))
  · exact hsum.trans (by decide +kernel)
  · exact (congrArg Motion.base (hend 2 (by decide) (by decide +kernel) (by decide +kernel))).trans
      (by decide +kernel)

end Pitch
end Chiptune
