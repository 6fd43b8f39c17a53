import Chiptune.Proofs.Pitch.Arpeggio
import Chiptune.Proofs.Pitch.VibratoWave

/-! # Notes forget

A note that starts does not depend on what sounded before it.  Two pitches with the same settings may
have come a different way, to another note, another place in a chord, another side of the vibrato;
behind the same note, none of this is heard any more.

* `SameSettings` is what two pitches agree on before the note, and `SoundsLike` what they agree on
  behind it: all that is heard, now or later.
* `SoundsLike.step` keeps it, and `SoundsLike.frequency` is what it is for.
* `SameSettings.commit` leads from one to the other, and `fresh_notes_forget` states it for every run
  of calls that lets no changes take hold. -/

namespace Chiptune

namespace Vibrato

variable {v w : Vibrato}

/-- A note begins a vibrato anew: from then on, its byte and its delay are all that counts. -/
theorem restart_congr (hv : v.Consistent) (hw : w.Consistent) (hparam : v.param = w.param)
    (hdelay : v.delay = w.delay) : v.restart = w.restart := by
  have hdepth : v.depth = w.depth := by rw [depth, depth, hparam]
  have hon : v.isOn = w.isOn := by rw [Bool.eq_iff_iff, hv.isOn_iff, hw.isOn_iff, hdepth]
  have hrestart {v : Vibrato} (hv : v.Consistent) :
      v.restart = ⟨v.isOn, v.delay, v.delay, 0, if v.isOn then v.depth else 0, v.param⟩ := by
    unfold restart
    dsimp only
    split
    · next h => rw [h]; rfl
    · next h => rw [hv.swing_off (Bool.eq_false_iff.mpr h)]
  rw [hrestart hv, hrestart hw, hdepth, hon, hparam, hdelay]

/-- A new byte does not change the delay. -/
theorem delay_set (v : Vibrato) (param : UInt8) : (v.set param).delay = v.delay := by
  unfold set
  dsimp only
  split <;> rfl

/-- A new byte replaces the old one. -/
theorem param_set (v : Vibrato) (param : UInt8) : (v.set param).param = param := by
  unfold set
  dsimp only
  split <;> rfl

end Vibrato

namespace Pitch

variable {kind : PitchKind} {p q : Pitch kind}

/-! ## Agreement -/

/-- What two pitches agree on that sound alike behind the next note. -/
structure SameSettings (p q : Pitch kind) : Prop where
  mode : p.mode = q.mode
  tuning : p.tuning = q.tuning
  param : p.vibrato.param = q.vibrato.param
  delay : p.vibrato.delay = q.vibrato.delay
  bindings : p.bindings = q.bindings

/-- What two pitches agree on that sound alike from now on.  The chord counts only in an arpeggio. -/
structure SoundsLike (p q : Pitch kind) : Prop where
  mode : p.mode = q.mode
  note : p.note = q.note
  base : p.base = q.base
  tuning : p.tuning = q.tuning
  instrumentPitch : p.instrumentPitch = q.instrumentPitch
  vibrato : p.vibrato = q.vibrato
  pitchSequence : p.pitchSequence = q.pitchSequence
  arpeggioSequence : p.arpeggioSequence = q.arpeggioSequence
  chord : ∀ first second, p.mode = .arpeggio first second →
    p.chord = q.chord ∧ p.chordIndex = q.chordIndex

namespace SoundsLike

/-- Pitches that sound alike have the same frequency. -/
theorem frequency (h : p.SoundsLike q) : p.frequency = q.frequency := by
  rw [Pitch.frequency, Pitch.frequency, h.base, h.tuning, h.instrumentPitch, h.vibrato]

/-- Equal vibratos swing alike. -/
theorem swung (h : p.SoundsLike q) : p.swung.SoundsLike q.swung :=
  { h with vibrato := congrArg Vibrato.step h.vibrato }

/-- Equal pitch sequences add the same value. -/
theorem stepPitchSequence (h : p.SoundsLike q) :
    p.stepPitchSequence.SoundsLike q.stepPitchSequence := by
  unfold Pitch.stepPitchSequence
  rw [h.pitchSequence, h.instrumentPitch]
  dsimp only
  split
  · exact { h with pitchSequence := rfl, instrumentPitch := rfl }
  · exact { h with pitchSequence := rfl, instrumentPitch := rfl }

/-- Equal modes move alike, and only an arpeggio looks at the chord. -/
theorem stepMode (h : p.SoundsLike q) : p.stepMode.SoundsLike q.stepMode := by
  unfold Pitch.stepMode
  rw [← h.mode, ← h.base]
  split
  · exact h
  · next slide amount target hmode =>
    refine { h with base := rfl, mode := rfl, chord := ?_ }
    intro first second hchord
    dsimp only at hchord
    -- a slide goes on or ends, and neither has a chord
    split at hchord
    · cases hchord
    · cases hmode.symm.trans hchord
  · next first second hmode =>
    obtain ⟨hchord, hindex⟩ := h.chord first second hmode
    exact
      { h with
        mode := rfl
        base := by simp only [hchord, hindex]
        chord := fun _ _ _ => ⟨hchord, congrArg (· + 1) hindex⟩ }

/-- Equal arpeggio sequences set the same frequency, or both leave it to the mode. -/
theorem stepTone (h : p.SoundsLike q) : p.stepTone.SoundsLike q.stepTone := by
  unfold Pitch.stepTone
  rw [h.arpeggioSequence, h.note]
  dsimp only
  split
  · exact { h with note := rfl, base := rfl, arpeggioSequence := rfl }
  · exact SoundsLike.stepMode { h with note := rfl, arpeggioSequence := rfl }

/-- **Pitches that sound alike do so behind the next frame.** -/
theorem step (h : p.SoundsLike q) : p.step.SoundsLike q.step := by
  rw [step_eq, step_eq]
  exact h.swung.stepPitchSequence.stepTone

/-- Pitches that sound alike do so behind any frames. -/
theorem run (h : p.SoundsLike q) (n : Nat) : (Pitch.step^[n] p).SoundsLike (Pitch.step^[n] q) := by
  induction n generalizing p q with
  | zero => exact h
  | succ n ih => exact ih h.step

end SoundsLike

/-! ## Changes that start a note -/

/-- Whether no portamento is in force, so that a note sounds at once. -/
def Jumps (p : Pitch kind) : Prop :=
  ∀ amount target, p.mode ≠ .slide .portamento amount target

/-- A note sounds at once, and what the changes make of note and mode is left as it is. -/
theorem commit_of_jumps {changes : PitchParams} {note : Nat} (hnote : changes.note = some note)
    (hplayable : note ≤ kind.topNote) (hjumps : ((p.placeNote note).modulated changes).Jumps) :
    (p.commit changes).mode = ((p.placeNote note).modulated changes).mode ∧
      (p.commit changes).note = ((p.placeNote note).modulated changes).note ∧
      (p.commit changes).base = kind.frequency note := by
  have hturned (p : Pitch kind) (h : p.Jumps) :
      p.turnTo note = { p with base := kind.frequency note } := by
    unfold turnTo
    split
    · next hmode => exact absurd hmode (h _ _)
    · rfl
  obtain ⟨_, _, hchord⟩ := exists_restartChord_eq
    ((((p.placeNote note).modulated changes).configure changes).startNote note)
  have hturn := hturned (((p.placeNote note).modulated changes).configure changes) hjumps
  rw [commit_of_playable hnote hplayable, hchord, startNote, hturn]
  exact ⟨rfl, rfl, rfl⟩

/-- Only a portamento that is not zero leaves one in force. -/
theorem jumps_modulate {m : Modulation} (h : ∀ param, m = .portamento param → param = 0)
    (p : Pitch kind) : (p.modulate m).Jumps := by
  intro amount target hmode
  cases m with
  | arpeggio param | pitchSlide direction param =>
      rw [modulate.eq_def] at hmode
      dsimp only at hmode
      split at hmode <;> cases hmode
  | noteSlide direction param => cases hmode
  | portamento param =>
      rw [h param rfl] at hmode
      cases hmode

/-- What such a modulation makes of mode and note does not depend on the frequency. -/
theorem modulate_congr {m : Modulation} (h : ∀ param, m = .portamento param → param = 0)
    (hnote : p.note = q.note) :
    (p.modulate m).mode = (q.modulate m).mode ∧ (p.modulate m).note = (q.modulate m).note := by
  cases m with
  | arpeggio param | pitchSlide direction param => exact ⟨rfl, hnote⟩
  | noteSlide direction param =>
      have hafter (semitones : Nat) :
          p.noteAfter direction semitones = q.noteAfter direction semitones := by
        unfold noteAfter
        rw [hnote]
      rw [modulate.eq_def, modulate.eq_def]
      dsimp only
      rw [hafter]
      exact ⟨rfl, rfl⟩
  | portamento param =>
      rw [h param rfl]
      exact ⟨rfl, hnote⟩

/-- Behind the note of some changes and their modulation, no portamento is in force, and two pitches
with the same mode still have the same one. -/
theorem modulated_placeNote_congr {changes : PitchParams}
    (hportamento : ∀ param, changes.modulation = some (.portamento param) → param = 0)
    (hmode : p.mode = q.mode) (hjumps : p.Jumps) (note : Nat) :
    ((p.placeNote note).modulated changes).Jumps ∧
      ((p.placeNote note).modulated changes).mode = ((q.placeNote note).modulated changes).mode ∧
      ((p.placeNote note).modulated changes).note =
        ((q.placeNote note).modulated changes).note := by
  unfold modulated
  -- without a modulation, the note alone ends a slide
  cases hmodulation : changes.modulation with
  | none =>
      unfold placeNote
      rw [hmode]
      refine ⟨fun amount target hslide => ?_, rfl, rfl⟩
      dsimp only at hslide
      split at hslide
      · cases hslide
      · exact hjumps _ _ (hmode.trans hslide)
  | some m =>
      rw [hmodulation] at hportamento
      have hm : ∀ param, m = .portamento param → param = 0 :=
        fun param h => hportamento param (congrArg some h)
      exact ⟨jumps_modulate hm _, modulate_congr hm rfl⟩

/-- Byte and delay of the vibrato, once some changes have set them. -/
theorem vibrato_configure (p : Pitch kind) (changes : PitchParams) :
    (p.configure changes).vibrato.param = changes.vibrato.getD p.vibrato.param ∧
      (p.configure changes).vibrato.delay =
        (changes.vibratoDelay.map UInt8.toNat).getD p.vibrato.delay := by
  unfold configure
  dsimp only
  cases changes.vibrato with
  | none => cases changes.vibratoDelay <;> exact ⟨rfl, rfl⟩
  | some param =>
      cases changes.vibratoDelay with
      | none => exact ⟨Vibrato.param_set _ _, Vibrato.delay_set _ _⟩
      | some delay => exact ⟨Vibrato.param_set _ _, rfl⟩

/-- Of the changes that take hold, the tuning is set by `configure` alone. -/
theorem tuning_commit (p : Pitch kind) (changes : PitchParams) :
    (p.commit changes).tuning = (p.configure changes).tuning := by
  obtain ⟨_, _, _, _, _, _, hcommit⟩ := p.exists_commit_eq changes
  rw [hcommit]

/-- **Behind changes that start a note, pitches with the same settings sound alike.** -/
theorem SameSettings.commit (h : p.SameSettings q) (hp : p.Consistent) (hq : q.Consistent)
    (hjumps : p.Jumps) {changes : PitchParams} {note : Nat} (hnote : changes.note = some note)
    (hplayable : note ≤ kind.topNote)
    (hportamento : ∀ param, changes.modulation = some (.portamento param) → param = 0) :
    (p.commit changes).SoundsLike (q.commit changes) := by
  have hplayed : (playable? kind changes).isSome = true := by
    rw [playable?_of_le hnote hplayable]
    rfl
  -- mode and note
  obtain ⟨hfree, hmode, hnote'⟩ := modulated_placeNote_congr hportamento h.mode hjumps note
  have hfree' : ((q.placeNote note).modulated changes).Jumps :=
    fun amount target => hmode ▸ hfree amount target
  obtain ⟨hpmode, hpnote, hpbase⟩ := commit_of_jumps hnote hplayable hfree
  obtain ⟨hqmode, hqnote, hqbase⟩ := commit_of_jumps hnote hplayable hfree'
  have hmodes : (p.commit changes).mode = (q.commit changes).mode := by rw [hpmode, hqmode, hmode]
  have hnotes : (p.commit changes).note = (q.commit changes).note := by rw [hpnote, hqnote, hnote']
  -- what has just begun anew
  have hpfresh := fresh_commit hnote hplayable p
  have hqfresh := fresh_commit hnote hplayable q
  have hbindings : (p.commit changes).bindings = (q.commit changes).bindings := by
    rw [bindings_commit, bindings_commit, h.bindings]
  have hvibrato : (p.configure changes).vibrato.restart = (q.configure changes).vibrato.restart := by
    obtain ⟨hparam, hdelay⟩ := vibrato_configure p changes
    obtain ⟨hparam', hdelay'⟩ := vibrato_configure q changes
    refine Vibrato.restart_congr (hp.configure changes).swings (hq.configure changes).swings ?_ ?_
    · rw [hparam, hparam', h.param]
    · rw [hdelay, hdelay', h.delay]
  exact
    { mode := hmodes
      note := hnotes
      base := hpbase.trans hqbase.symm
      tuning := by
        rw [tuning_commit, tuning_commit]
        unfold configure
        rw [h.tuning]
      instrumentPitch := hpfresh.instrumentPitch.trans hqfresh.instrumentPitch.symm
      vibrato := by rw [vibrato_commit, vibrato_commit, hplayed, if_pos rfl, if_pos rfl, hvibrato]
      pitchSequence := by
        rw [← hpfresh.pitchSequence, ← hqfresh.pitchSequence]
        exact congrArg Bindings.pitch hbindings
      arpeggioSequence := by
        rw [← hpfresh.arpeggioSequence, ← hqfresh.arpeggioSequence]
        exact congrArg Bindings.arpeggio hbindings
      chord := by
        intro first second hpchord
        have hqchord := hmodes.symm.trans hpchord
        refine ⟨?_, ?_⟩
        · rw [(hp.commit changes).chorded _ _ hpchord, (hq.commit changes).chorded _ _ hqchord,
            hnotes]
        · rw [chordIndex_commit hpchord (.inr hplayed), chordIndex_commit hqchord (.inr hplayed)] }

/-! ## Runs -/

/-- **Notes forget.**  Two pitches may have been reached in any way, as long as they agree on
modulation, tuning, byte and delay of the vibrato and on the sequences that are bound, and no
portamento is in force.  Behind the same changes, which start a note and begin no portamento, both
have the same frequency behind every number of frames, whatever is staged in between. -/
theorem fresh_notes_forget {call call' : PitchCall} {changes : PitchParams} {note : Nat}
    {calls calls' : List PitchCall} (hp : p.Reachable) (hq : q.Reachable) (h : p.SameSettings q)
    (hjumps : p.Jumps) (hcall : p.changes? call = some changes)
    (hcall' : q.changes? call' = some changes) (hnote : changes.note = some note)
    (hplayable : note ≤ kind.topNote)
    (hportamento : ∀ param, changes.modulation = some (.portamento param) → param = 0)
    (hquiet : ∀ call ∈ calls, call.isQuiet = true) (hquiet' : ∀ call ∈ calls', call.isQuiet = true)
    (hcount : calls.count .step = calls'.count .step) :
    ((p.serve call).after calls).frequency = ((q.serve call').after calls').frequency := by
  obtain ⟨staged, hserve⟩ := exists_serve_eq hcall
  obtain ⟨staged', hserve'⟩ := exists_serve_eq hcall'
  -- what waits counts neither for the changes nor for the frames behind them
  have hagree : ({ p with staged } : Pitch kind).SameSettings { q with staged := staged' } :=
    { h with }
  have halike : (p.serve call).SoundsLike (q.serve call') := by
    rw [hserve, hserve']
    exact hagree.commit { hp.consistent with } { hq.consistent with } hjumps hnote hplayable
      hportamento
  have hframes (q : Pitch kind) {calls : List PitchCall} (h : ∀ call ∈ calls, call.isQuiet = true) :
      (q.after calls).frequency = (step^[calls.count .step] q).frequency :=
    (congrArg Pitch.frequency (bare_after_eq_run h q) :)
  rw [hframes _ hquiet, hframes _ hquiet', hcount]
  exact (halike.run _).frequency

/-- A pitch in the middle of an arpeggio, of a vibrato and of a sequence. -/
def olderPitch : Pitch .tone :=
  (new : Pitch .tone).after
    [.commit
      { note := some 24, modulation := some (.arpeggio 0x37), vibrato := some 0x12
        vibratoDelay := some 1
        pitchSequence := some ⟨[1, 2, 0xFC], some 0, by decide, by decide⟩ },
      .step, .step, .step, .step, .step]

/-- A pitch with the same settings, which got them one by one on another note. -/
def otherPitch : Pitch .tone :=
  (new : Pitch .tone).after
    [.commit { note := some 70, vibrato := some 0x4F, vibratoDelay := some 1 }, .step, .step, .step,
      .commit { pitchSequence := some ⟨[1, 2, 0xFC], some 0, by decide, by decide⟩ }, .step, .step,
      .commit { modulation := some (.arpeggio 0x37), vibrato := some 0x12 }, .step]

/-- Nothing of the two histories is heard behind a note: five frames into it, both pitches are at the
second note of its chord, bent by the sequence and by the vibrato alike. -/
theorem fresh_notes_forget_olderPitch :
    olderPitch.note ≠ otherPitch.note ∧ olderPitch.base ≠ otherPitch.base ∧
      olderPitch.chordIndex ≠ otherPitch.chordIndex ∧
      olderPitch.vibrato.swing ≠ otherPitch.vibrato.swing ∧
      olderPitch.pitchSequence ≠ otherPitch.pitchSequence ∧
      ((olderPitch.serve (.commit { note := some 40 })).after (.replicate 5 .step)).frequency =
        (((otherPitch.serve (.stage { note := some 40 })).serve .apply).after
          (.replicate 5 .step)).frequency := by
  refine ⟨by decide +kernel, by decide +kernel, by decide +kernel, by decide +kernel,
    by decide +kernel, ?_⟩
  have hmode : olderPitch.mode = .arpeggio 3 7 := by decide +kernel
  have hreached : (otherPitch.serve (.stage { note := some 40 })).Reachable :=
    Reachable.serve ⟨_, rfl⟩ _
  have hagree : olderPitch.SameSettings (otherPitch.serve (.stage { note := some 40 })) :=
    { mode := by decide +kernel
      tuning := by decide +kernel
      param := by decide +kernel
      delay := by decide +kernel
      bindings := by decide +kernel }
  exact
    @fresh_notes_forget .tone olderPitch (otherPitch.serve (.stage { note := some 40 }))
      (.commit { note := some 40 }) .apply { note := some 40 } 40 (.replicate 5 .step)
      (.replicate 5 .step) ⟨_, rfl⟩ hreached hagree
      (fun amount target hslide => by cases hmode.symm.trans hslide) rfl (by decide +kernel) rfl
      (by decide) nofun (by decide) (by decide) rfl

end Pitch
end Chiptune
