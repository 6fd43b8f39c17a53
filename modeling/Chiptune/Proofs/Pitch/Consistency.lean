import Chiptune.Proofs.Pitch.Run

/-! # Consistent pitches

The mode, the note, the chord and the vibrato of a pitch are changed by different calls, and yet fit
each other behind every one of them: slides move and know where they end, the chord of an arpeggio
is that of the note, and a vibrato swings by its depth.

* `Vibrato.Consistent` and `Pitch.Consistent` say what fits what.  A pitch is `Regular` if all but
  its chord does, which each stage of a change keeps; the last stage makes the chord fit.
* `Consistent.commit` and `Consistent.step` are the two ways in which a pitch moves.
* `Reachable.consistent` is the invariant of a run, and `runs_consistently` adds that no call of it
  and no frequency behind it ends in a fault. -/

namespace Chiptune

open Checked

/-! ## Vibrato -/

namespace Vibrato

variable {v : Vibrato}

/-- A vibrato is on exactly if its byte has a depth, and then swings by that depth to either side. -/
structure Consistent (v : Vibrato) : Prop where
  isOn_iff : v.isOn = true ↔ v.depth ≠ 0
  swing_on : v.isOn = true → v.swing = v.depth ∨ v.swing = -v.depth
  swing_off : v.isOn = false → v.swing = 0

/-- A vibrato that was never set is off and adds nothing. -/
theorem consistent_new : ({} : Vibrato).Consistent where
  isOn_iff := by decide
  swing_on := nofun
  swing_off := fun _ => rfl

/-- Any byte makes any vibrato consistent. -/
theorem consistent_set (v : Vibrato) (param : UInt8) : (v.set param).Consistent := by
  unfold set
  dsimp only
  split
  · next hdepth =>
    exact
      { isOn_iff := iff_of_false Bool.false_ne_true (not_not_intro hdepth)
        swing_on := nofun
        swing_off := fun _ => rfl }
  · next hdepth =>
    refine { isOn_iff := iff_of_true rfl hdepth, swing_on := fun _ => ?_, swing_off := nofun }
    -- the side is kept, so the swing is the depth on either side
    dsimp only [side]
    split
    · exact .inr rfl
    · exact .inl rfl

/-- A vibrato that is on restarts with its depth, upwards. -/
theorem Consistent.restart (h : v.Consistent) : v.restart.Consistent := by
  unfold Vibrato.restart
  dsimp only
  split
  · next hon =>
    exact
      { isOn_iff := h.isOn_iff
        swing_on := fun _ => .inl rfl
        swing_off := fun hoff => absurd (hon.symm.trans hoff) nofun }
  · exact { h with }

/-- A frame changes sides at most. -/
theorem Consistent.step (h : v.Consistent) : v.step.Consistent := by
  unfold Vibrato.step
  split
  · exact h
  · split
    · exact { h with }
    · split
      · -- the pitch changes sides
        refine { isOn_iff := h.isOn_iff, swing_on := fun hon => ?_, swing_off := fun hoff => ?_ }
        · have hswing := h.swing_on hon
          show -v.swing = v.depth ∨ -v.swing = -v.depth
          omega
        · have hswing := h.swing_off hoff
          show -v.swing = 0
          omega
      · exact { h with }

end Vibrato

/-! ## Pitches -/

/-- Whether a mode fits a note: slides move, and one by semitones heads for the note. -/
def PitchMode.FitsNote (kind : PitchKind) (note : Nat) : PitchMode → Prop
  | .slide form amount target => 1 ≤ amount ∧ (form = .note → target = kind.frequency note)
  | .rest | .arpeggio _ _ => True

/-- A parameter that is not zero gives an amount to move by. -/
theorem one_le_of_ne_zero {param : UInt8} (h : param ≠ 0) : 1 ≤ param.toNat :=
  Nat.one_le_iff_ne_zero.mpr fun hzero => h (UInt8.toNat_inj.mp hzero)

namespace Pitch

variable {kind : PitchKind} {p : Pitch kind}

/-- A pitch in its range whose mode fits its note and whose vibrato is consistent. -/
structure Regular (p : Pitch kind) : Prop extends InRange p where
  mode_fits : p.mode.FitsNote kind p.note
  swings : p.vibrato.Consistent

/-- Whether the chord of an arpeggio is the one on the note; the notes above it are clamped. -/
def Chorded (p : Pitch kind) : Prop :=
  ∀ first second, p.mode = .arpeggio first second →
    p.chord = #v[kind.frequency p.note, kind.frequency (min (p.note + first) kind.topNote),
      kind.frequency (min (p.note + second) kind.topNote)]

/-- A regular pitch with the chord of its note. -/
structure Consistent (p : Pitch kind) : Prop extends Regular p where
  chorded : p.Chorded

/-- A new pitch has no mode and no vibrato that anything would have to fit. -/
theorem consistent_new : (new : Pitch kind).Consistent where
  toInRange := inRange_new
  mode_fits := trivial
  swings := Vibrato.consistent_new
  chorded := nofun

/-! ### Stages of a change -/

/-- A new note ends a slide by semitones, the one mode that headed for the old note. -/
theorem Regular.placeNote (h : p.Regular) {note : Nat} (hn : note ≤ kind.topNote) :
    (p.placeNote note).Regular := by
  refine { h.toInRange.placeNote hn with mode_fits := ?_, swings := h.swings }
  have hfits := h.mode_fits
  unfold Pitch.placeNote
  dsimp only
  -- the one mode that heads for the old note ends
  split
  · trivial
  · next mode hother =>
    cases hmode : p.mode with
    | rest | arpeggio first second => trivial
    | slide slide amount target =>
        rw [hmode] at hfits
        refine ⟨hfits.1, ?_⟩
        rintro rfl
        exact absurd hmode (hother amount target)

/-- A modulation that moves has an amount, and a slide by semitones heads for the note it sets. -/
theorem Regular.modulate (h : p.Regular) (m : Modulation) : (p.modulate m).Regular := by
  refine { h.toInRange.modulate m with mode_fits := ?_, swings := ?_ }
  · cases m with
    | arpeggio param =>
        rw [Pitch.modulate.eq_def]
        dsimp only
        split <;> trivial
    | noteSlide direction param => exact ⟨Nat.le_add_right .., fun _ => rfl⟩
    | pitchSlide direction param | portamento param =>
        rw [Pitch.modulate.eq_def]
        dsimp only
        split
        · trivial
        · next hparam => exact ⟨one_le_of_ne_zero hparam, fun hslide => absurd hslide (by decide)⟩
  · cases m <;> exact h.swings

/-- A new byte makes the vibrato consistent, and a delay leaves it so. -/
theorem Regular.configure (h : p.Regular) (changes : PitchParams) :
    (p.configure changes).Regular := by
  refine { h.toInRange.configure changes with mode_fits := h.mode_fits, swings := ?_ }
  unfold Pitch.configure
  dsimp only
  cases changes.vibrato with
  | none =>
      cases changes.vibratoDelay with
      | none => exact h.swings
      | some delay => exact { h.swings with }
  | some param =>
      have hset := Vibrato.consistent_set p.vibrato param
      cases changes.vibratoDelay with
      | none => exact hset
      | some delay => exact { hset with }

/-- A turn to a note gives a portamento its target, and any other mode fits as before. -/
theorem Regular.turnTo (h : p.Regular) (note : Nat) : (p.turnTo note).Regular := by
  have hrange := h.toInRange.turnTo note
  have hfits := h.mode_fits
  unfold Pitch.turnTo at hrange ⊢
  split at hrange
  · next hmode =>
    rw [hmode] at hfits
    exact
      { hrange with
        mode_fits := ⟨hfits.1, fun hslide => absurd hslide (by decide)⟩
        swings := h.swings }
  · exact { hrange with mode_fits := hfits, swings := h.swings }

/-- A note that starts turns to its frequency and restarts the vibrato. -/
theorem Regular.startNote (h : p.Regular) (note : Nat) : (p.startNote note).Regular :=
  { h.toInRange.startNote note with
    mode_fits := (h.turnTo note).mode_fits
    swings := (h.turnTo note).swings.restart }

/-- The chord is not among what a regular pitch is asked for. -/
theorem Regular.restartChord (h : p.Regular) : p.restartChord.Regular := by
  have hrange := h.toInRange.restartChord
  unfold Pitch.restartChord at hrange ⊢
  split at hrange
  · exact { hrange with mode_fits := h.mode_fits, swings := h.swings }
  · exact h

/-- Beginning the chord anew makes it fit. -/
theorem chorded_restartChord (p : Pitch kind) : p.restartChord.Chorded := by
  intro first second hmode
  unfold restartChord at hmode ⊢
  split at hmode
  · next hmode' =>
    obtain ⟨rfl, rfl⟩ := PitchMode.arpeggio.inj (hmode'.symm.trans hmode)
    rfl
  · next hother => exact absurd hmode (hother first second)

/-! ### Calls -/

/-- **Changes that take hold leave a consistent pitch.** -/
theorem Consistent.commit (h : p.Consistent) (changes : PitchParams) :
    (p.commit changes).Consistent := by
  have hplaced : (p.placed changes).Regular := by
    unfold placed
    split
    · next n hn => exact h.toRegular.placeNote (playable?_le hn)
    · exact h.toRegular
  have hmodulated : ((p.placed changes).modulated changes).Regular := by
    unfold modulated
    split
    · exact hplaced.modulate _
    · exact hplaced
  have hstarted :
      ((((p.placed changes).modulated changes).configure changes).started changes).Regular := by
    unfold started
    split
    · exact (hmodulated.configure changes).startNote _
    · exact hmodulated.configure changes
  rw [commit_eq, rechorded]
  split
  · exact { hstarted.restartChord with chorded := chorded_restartChord _ }
  · next hneither =>
    -- neither the note nor the mode has changed, so the chord fits as before
    rw [Bool.not_eq_true, Bool.or_eq_false_iff, Option.isSome_eq_false_iff,
      Option.isSome_eq_false_iff, Option.isNone_iff_eq_none, Option.isNone_iff_eq_none] at hneither
    obtain ⟨hnote, hmodulation⟩ := hneither
    refine { hstarted with chorded := ?_ }
    unfold started modulated placed
    rw [hnote, hmodulation]
    exact h.chorded

/-- Staging changes nothing that sounds. -/
theorem Consistent.stage (h : p.Consistent) (changes : PitchParams) : (p.stage changes).Consistent :=
  { h with }

/-- An effect on the pitch is staged; any other is ignored. -/
theorem Consistent.stageEffect (h : p.Consistent) (e : Effect) : (p.stageEffect e).Consistent := by
  unfold Pitch.stageEffect
  split
  · exact h.stage _
  · exact h

/-- Staged changes take hold like any others. -/
theorem Consistent.apply (h : p.Consistent) : p.apply.Consistent :=
  Consistent.commit (p := { p with staged := {} }) { h with } p.staged

/-- A slide goes on or ends, and an arpeggio moves in its chord. -/
theorem Consistent.stepMode (h : p.Consistent) : p.stepMode.Consistent := by
  have hrange := h.toInRange.stepMode
  unfold Pitch.stepMode at hrange ⊢
  split at hrange
  · exact h
  · next slide amount target hmode =>
    -- a slide goes on or ends, and neither has a chord
    refine { hrange with mode_fits := ?_, swings := h.swings, chorded := ?_ }
    · dsimp only
      split
      · trivial
      · exact h.mode_fits
    · intro first second hmode'
      dsimp only at hmode'
      split at hmode'
      · exact absurd hmode' nofun
      · exact absurd (hmode.symm.trans hmode') nofun
  · exact { hrange with mode_fits := h.mode_fits, swings := h.swings, chorded := h.chorded }

/-- The pitch sequence changes neither mode nor chord nor vibrato. -/
theorem Consistent.stepPitchSequence (h : p.Consistent) : p.stepPitchSequence.Consistent := by
  have hrange := h.toInRange.stepPitchSequence
  unfold Pitch.stepPitchSequence at hrange ⊢
  dsimp only at hrange ⊢
  split at hrange
  · exact { hrange with mode_fits := h.mode_fits, swings := h.swings, chorded := h.chorded }
  · exact { h with }

/-- An arpeggio sequence sets the base alone; without a value the mode moves. -/
theorem Consistent.stepTone (h : p.Consistent) : p.stepTone.Consistent := by
  unfold Pitch.stepTone
  dsimp only
  split
  · exact { h with base := kind.frequency_le _ }
  · exact Consistent.stepMode { h with }

/-- **A frame leaves a consistent pitch.** -/
theorem Consistent.step (h : p.Consistent) : p.step.Consistent := by
  have hswung : p.swung.Consistent :=
    { h with vibrato := h.vibrato.step, swings := h.swings.step }
  rw [step_eq]
  exact hswung.stepPitchSequence.stepTone

/-- Every call leaves a consistent pitch. -/
theorem Consistent.serve (h : p.Consistent) (call : PitchCall) : (p.serve call).Consistent := by
  cases call with
  | stage changes => exact h.stage changes
  | stageEffect effect => exact h.stageEffect effect
  | apply => exact h.apply
  | commit changes => exact h.commit changes
  | step => exact h.step
  | reset => exact consistent_new

/-- Any calls leave a consistent pitch, one after the other. -/
theorem Consistent.after (h : p.Consistent) (calls : List PitchCall) :
    (p.after calls).Consistent := by
  induction calls generalizing p with
  | nil => exact h
  | cons call calls ih => exact ih (h.serve call)

/-- Every pitch that a caller can get hold of is consistent. -/
theorem Reachable.consistent (h : p.Reachable) : p.Consistent := by
  obtain ⟨calls, rfl⟩ := h
  exact consistent_new.after calls

/-! ### Faults -/

/-- Serve a call. -/
def checkedServe (p : Pitch kind) : PitchCall → Checked (Pitch kind)
  | .apply => p.checkedApply
  | .commit changes => p.checkedCommit changes
  | .step => p.checkedStep
  | call => .ok (p.serve call)

/-- Every call to a pitch in its range is served without a fault. -/
theorem checkedServe_eq (h : p.InRange) (call : PitchCall) :
    p.checkedServe call = .ok (p.serve call) := by
  cases call with
  | apply => exact p.checkedApply_eq
  | commit changes => exact p.checkedCommit_eq changes
  | step => exact checkedStep_eq h
  | stage | stageEffect | reset => rfl

/-- The pitch behind some calls, unless one of them ends in a fault. -/
def checkedAfter (p : Pitch kind) (calls : List PitchCall) : Checked (Pitch kind) :=
  calls.foldlM checkedServe p

/-- Any calls are served without a fault, since each leaves the pitch consistent for the next. -/
theorem checkedAfter_eq (h : p.Consistent) (calls : List PitchCall) :
    p.checkedAfter calls = .ok (p.after calls) := by
  -- each call is served in range, and leaves the pitch consistent for the next
  induction calls generalizing p with
  | nil => rfl
  | cons call calls ih =>
      rw [checkedAfter, List.foldlM_cons, checkedServe_eq h.toInRange, ok_bind]
      exact ih (h.serve call)

/-- **Pitches stay consistent.**  From the start, any calls in any order are served without a fault;
behind them note, base, targets and chord are in the range of the channel, mode, chord, note and
vibrato fit each other, the place in the chord is one of its three, and the frequency of the frame
is computed without a fault. -/
theorem runs_consistently (calls : List PitchCall) :
    (new : Pitch kind).checkedAfter calls = .ok ((new : Pitch kind).after calls) ∧
      ((new : Pitch kind).after calls).Consistent ∧
      ((new : Pitch kind).after calls).chordIndex.val < 3 ∧
      ((new : Pitch kind).after calls).checkedFrequency =
        .ok ((new : Pitch kind).after calls).frequency := by
  have hconsistent : ((new : Pitch kind).after calls).Consistent := consistent_new.after calls
  exact ⟨checkedAfter_eq consistent_new calls, hconsistent, Fin.isLt _,
    checkedFrequency_eq hconsistent.toInRange⟩

end Pitch
end Chiptune
