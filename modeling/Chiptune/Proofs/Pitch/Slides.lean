import Mathlib.Algebra.Order.Floor.Div
import Mathlib.Data.Nat.Dist
import Chiptune.Proofs.Pitch.Consistency

/-! # Slides

A slide moves the base frequency by the same amount on every frame until it is at its target, where
it stays; the last move may be a shorter one.

* `glide` is the frequency behind some frames of a slide, and `approach_glide` says that each frame
  is one approach to the target.  `glide_eq_iff` says from which frame on it is there.
* `step_of_silent` is a frame on which the arpeggio sequence has no value, so that the mode rules.
* `slide_run` follows base and mode through the frames of a slide, and `slides_land` states it for
  every run of calls that lets no changes take hold. -/

namespace Chiptune

/-! ## Approaching a target -/

section Glide

variable {amount target f n : Nat}

/-- The frequency behind some frames of a slide. -/
def glide (amount target f n : Nat) : Nat :=
  if f < target then min (f + n * amount) target else max (f - n * amount) target

/-- Before its first frame, a slide is where it starts. -/
@[simp] theorem glide_zero (amount target f : Nat) : glide amount target f 0 = f := by
  unfold glide
  split <;> omega

/-- Each frame of a slide approaches the target once. -/
theorem approach_glide (amount target f n : Nat) :
    approach amount target (glide amount target f n) = glide amount target f (n + 1) := by
  have hnext : (n + 1) * amount = n * amount + amount := Nat.succ_mul ..
  unfold approach glide
  rw [hnext]
  split <;> split <;> omega

/-- A slide is at its target as soon as its frames make up for the distance. -/
theorem glide_eq_iff (h : 1 ≤ amount) :
    glide amount target f n = target ↔ Nat.dist f target ⌈/⌉ amount ≤ n := by
  rw [ceilDiv_le_iff_le_mul h, Nat.mul_comm amount n]
  unfold glide Nat.dist
  split <;> omega

end Glide

/-! ## Frames of a slide -/

/-- A cursor without a next value rests where it is. -/
theorem Sequence.Cursor.advance_of_silent {c? : Option Sequence.Cursor}
    (h : (advance c?).1 = none) : (advance c?).2 = c? := by
  cases c? with
  | none => rfl
  | some c =>
      refine congrArg some ?_
      change c.next.1 = none at h
      unfold next at h ⊢
      split at h
      · next i hi =>
        -- a position that is read has a value
        exact absurd h (List.getElem?_eq_none_iff.not.mpr (Nat.not_le.mpr (c.position?_lt hi)))
      · rfl

namespace Pitch

variable {kind : PitchKind} {p : Pitch kind}

/-- Whether the arpeggio sequence is absent or has no more values. -/
def IsSilent (p : Pitch kind) : Prop :=
  (Sequence.Cursor.advance p.arpeggioSequence).1 = none

/-- The sequence of pitches does not move what a mode moves. -/
theorem stepPitchSequence_frame (p : Pitch kind) :
    p.swung.stepPitchSequence.mode = p.mode ∧ p.swung.stepPitchSequence.base = p.base ∧
      p.swung.stepPitchSequence.arpeggioSequence = p.arpeggioSequence := by
  unfold stepPitchSequence
  dsimp only
  split <;> exact ⟨rfl, rfl, rfl⟩

/-- On a frame without a value of the arpeggio sequence, the mode rules. -/
theorem step_of_silent (h : p.IsSilent) : p.step = p.swung.stepPitchSequence.stepMode := by
  obtain ⟨-, -, harpeggio⟩ := p.stepPitchSequence_frame
  rw [step_eq, stepTone, harpeggio]
  dsimp only
  rw [h, Sequence.Cursor.advance_of_silent h, ← harpeggio]

/-- Where the frames of a slide have led a pitch: to the frequency of the slide, and out of it if it
is one by semitones that has arrived. -/
structure Slid (p : Pitch kind) (slide : SlideKind) (amount target f n : Nat) : Prop where
  base : p.base = glide amount target f n
  mode : p.mode =
    if slide = .note ∧ max 1 (Nat.dist f target ⌈/⌉ amount) ≤ n then .rest
    else .slide slide amount target
  silent : p.IsSilent

variable {slide : SlideKind} {amount target f n : Nat}

/-- One more frame leads one further. -/
theorem Slid.step (h : p.Slid slide amount target f n) (hamount : 1 ≤ amount) :
    p.step.Slid slide amount target f (n + 1) := by
  obtain ⟨hmode, hbase, harpeggio⟩ := p.stepPitchSequence_frame
  rw [step_of_silent h.silent]
  rw [h.mode] at hmode
  rw [h.base] at hbase
  have hsilent : p.swung.stepPitchSequence.IsSilent := by
    rw [IsSilent, harpeggio]
    exact h.silent
  have hthere : glide amount target f (n + 1) = target ↔
      Nat.dist f target ⌈/⌉ amount ≤ n + 1 := glide_eq_iff hamount
  split at hmode
  · next hover =>
    -- the slide is over, so the pitch rests at the target
    have hnow : glide amount target f n = target :=
      (glide_eq_iff hamount).mpr (Nat.le_trans (Nat.le_max_right ..) hover.2)
    have hlater : glide amount target f (n + 1) = target := by
      rw [← approach_glide, hnow]
      unfold approach
      split <;> omega
    unfold stepMode
    rw [hmode]
    exact
      { base := by rw [hbase, hnow, hlater]
        mode := by rw [hmode, if_pos ⟨hover.1, Nat.le_succ_of_le hover.2⟩]
        silent := hsilent }
  · next hgoing =>
    unfold stepMode
    rw [hmode]
    refine { base := ?_, mode := ?_, silent := hsilent }
    · show approach amount target p.swung.stepPitchSequence.base = _
      rw [hbase, approach_glide]
    · dsimp only
      rw [hbase, approach_glide]
      -- the first frame is the earliest on which the slide can end
      have harrived : Nat.dist f target ⌈/⌉ amount ≤ n + 1 ↔
          max 1 (Nat.dist f target ⌈/⌉ amount) ≤ n + 1 := by omega
      exact if_congr (and_congr_right fun _ => hthere.trans harrived) rfl rfl

/-- **Frames of a slide lead along it.** -/
theorem slide_run (hsilent : p.IsSilent) (hmode : p.mode = .slide slide amount target)
    (hamount : 1 ≤ amount) (n : Nat) : (step^[n] p).Slid slide amount target p.base n := by
  induction n with
  | zero =>
      refine { base := (glide_zero ..).symm, mode := ?_, silent := hsilent }
      rw [if_neg (by omega)]
      exact hmode
  | succ n ih =>
      rw [Function.iterate_succ_apply']
      exact ih.step hamount

/-- **Slides land exactly.**  A slide that was reached, on frames without a value of the arpeggio
sequence, moves by its amount on every frame until the target, and not past it.  One by semitones
is over as soon as it is there, but not before its first frame, and then the pitch stays at the
target; any other goes on for ever. -/
theorem slides_land {calls : List PitchCall} (hp : p.Reachable)
    (hmode : p.mode = .slide slide amount target) (hsilent : p.IsSilent)
    (hquiet : ∀ call ∈ calls, call.isQuiet = true) :
    let n := calls.count .step
    let arrival := max 1 (Nat.dist p.base target ⌈/⌉ amount)
    1 ≤ amount ∧
      (p.after calls).base =
        (if p.base < target then min (p.base + n * amount) target
          else max (p.base - n * amount) target) ∧
      (slide = .note → n < arrival → (p.after calls).mode = .slide .note amount target) ∧
      (slide = .note → arrival ≤ n →
        (p.after calls).mode = .rest ∧ (p.after calls).base = target) ∧
      (slide ≠ .note → (p.after calls).mode = .slide slide amount target) := by
  intro n arrival
  have hamount : 1 ≤ amount := by
    have hfits := hp.consistent.mode_fits
    rw [hmode] at hfits
    exact hfits.1
  -- what waits does not matter
  have hrun : (p.after calls).bare.Slid slide amount target p.base n := by
    rw [bare_after_of_quiet hquiet]
    exact slide_run (p := p.bare) hsilent hmode hamount n
  have hbase : (p.after calls).base = glide amount target p.base n := hrun.base
  have hmode' : (p.after calls).mode =
      if slide = .note ∧ arrival ≤ n then .rest else .slide slide amount target := hrun.mode
  refine ⟨hamount, hbase, ?_, ?_, ?_⟩
  · rintro rfl hbefore
    rw [hmode', if_neg fun hover => Nat.not_le_of_lt hbefore hover.2]
  · rintro hslide hover
    rw [hmode', if_pos ⟨hslide, hover⟩, hbase]
    exact ⟨rfl, (glide_eq_iff hamount).mpr (Nat.le_trans (Nat.le_max_right ..) hover)⟩
  · intro hslide
    rw [hmode', if_neg fun hover => hslide hover.1]

/-- A pitch whose arpeggio sequence has ended three notes above the note of the pitch, from where it
slides to the next note. -/
def slidingPitch : Pitch .tone :=
  (new : Pitch .tone).after
    [.commit { note := some 24, arpeggioSequence := some ⟨[3], none, by decide, nofun⟩ }, .step,
      .commit { modulation := some (.noteSlide .up 0x12) }]

/-- On its way down, the slide takes eleven frames, the last of which is shorter; changes that are
staged in between do not matter. -/
theorem slides_land_slidingPitch :
    slidingPitch.Reachable ∧ slidingPitch.mode = .slide .note 5 0x627 ∧
      slidingPitch.base = 0x65B ∧ slidingPitch.IsSilent ∧
      (slidingPitch.after (.replicate 10 .step)).base = 0x629 ∧
      (slidingPitch.after (.replicate 10 .step)).mode = .slide .note 5 0x627 ∧
      (slidingPitch.after (.stage { note := some 0 } :: .replicate 11 .step)).base = 0x627 ∧
      (slidingPitch.after (.stage { note := some 0 } :: .replicate 11 .step)).mode = .rest := by
  have hreached : slidingPitch.Reachable := ⟨_, rfl⟩
  have hmode : slidingPitch.mode = .slide .note 5 0x627 := by decide +kernel
  have hstart : slidingPitch.base = 0x65B := by decide +kernel
  have hsilent : slidingPitch.IsSilent := by unfold IsSilent; decide +kernel
  obtain ⟨-, hbase, hgoing, -, -⟩ :=
    @slides_land _ _ _ _ _ (.replicate 10 .step) hreached hmode hsilent (by decide)
  obtain ⟨-, -, -, hover, -⟩ :=
    @slides_land _ _ _ _ _ (.stage { note := some 0 } :: .replicate 11 .step) hreached hmode hsilent
      (by decide)
  rw [hstart] at hbase hgoing hover
  obtain ⟨hrest, hthere⟩ := hover rfl (by decide)
  exact ⟨hreached, hmode, hstart, hsilent, hbase, hgoing rfl (by decide), hthere, hrest⟩

end Pitch
end Chiptune
