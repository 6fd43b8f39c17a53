import Chiptune.Pitch.State
import Chiptune.Proofs.Checked.Modulation

/-! # Checked pitch

The pitch of a channel adds up notes, tunings and slides.  In the range that it keeps itself, none
of this ends in a fault.

* `commit_eq` and `step_eq` take changes and frames apart into stages, and `exists_commit_eq` and
  `exists_step_eq` say what these can move at all.
* `Pitch.InRange` is that range, and `InRange.play` says that a frame keeps it.
* `checkedPlay_eq` and `checkedFrequency_eq` say that a frame and the frequency behind it are
  computed without a fault. -/

namespace Chiptune

open Checked

/-- A frequency that approaches a target stays below every bound of the two. -/
theorem approach_le {amount target f bound : Nat} (hf : f ≤ bound) (ht : target ≤ bound) :
    approach amount target f ≤ bound := by
  unfold approach
  split <;> omega

namespace Pitch

variable {kind : PitchKind} {p : Pitch kind}

/-- The range that a pitch keeps: notes and frequencies are those of the channel, tuning and
instrument pitch fit a byte and two. -/
structure InRange (p : Pitch kind) : Prop where
  note : p.note ≤ kind.topNote
  base : p.base ≤ kind.maxFrequency
  target : ∀ slide amount target, p.mode = .slide slide amount target →
    target ≤ kind.maxFrequency
  chord : ∀ i : Fin 3, p.chord[i] ≤ kind.maxFrequency
  tuning_ge : -0x80 ≤ p.tuning
  tuning_le : p.tuning ≤ 0x7F
  instrument_ge : -0x8000 ≤ p.instrumentPitch
  instrument_le : p.instrumentPitch ≤ 0x7FFF
  vibrato : p.vibrato.InRange

/-- Notes fit seven bits. -/
theorem topNote_le (kind : PitchKind) : kind.topNote ≤ 83 := by
  cases kind <;> decide

/-- Frequencies fit eleven bits. -/
theorem maxFrequency_le (kind : PitchKind) : kind.maxFrequency ≤ 0x7FF := by
  cases kind <;> decide

/-- A new pitch is at zero throughout. -/
theorem inRange_new : (new : Pitch kind).InRange where
  note := Nat.zero_le _
  base := Nat.zero_le _
  target := nofun
  chord := by
    intro i
    have hzero : (new : Pitch kind).chord[i] = 0 := Vector.getElem_replicate ..
    rw [hzero]
    exact Nat.zero_le _
  tuning_ge := (by decide : (-0x80 : Int) ≤ 0)
  tuning_le := (by decide : (0 : Int) ≤ 0x7F)
  instrument_ge := (by decide : (-0x8000 : Int) ≤ 0)
  instrument_le := (by decide : (0 : Int) ≤ 0x7FFF)
  vibrato := Vibrato.inRange_new

/-! ### Stages of a frame -/

/-- The pitch that has taken up the note of some changes. -/
def placed (p : Pitch kind) (changes : PitchParams) : Pitch kind :=
  match playable? kind changes with
  | some n => p.placeNote n
  | none => p

/-- The pitch that has taken up the modulation of some changes. -/
def modulated (p : Pitch kind) (changes : PitchParams) : Pitch kind :=
  match changes.modulation with
  | some m => p.modulate m
  | none => p

/-- The pitch that has started the note of some changes. -/
def started (p : Pitch kind) (changes : PitchParams) : Pitch kind :=
  match playable? kind changes with
  | some n => p.startNote n
  | none => p

/-- The pitch that has begun its chord anew for some changes. -/
def rechorded (p : Pitch kind) (changes : PitchParams) : Pitch kind :=
  if (playable? kind changes).isSome || changes.modulation.isSome then p.restartChord else p

/-- Changes take hold in five stages. -/
theorem commit_eq (p : Pitch kind) (changes : PitchParams) :
    p.commit changes =
      ((((p.placed changes).modulated changes).configure changes).started changes).rechorded
        changes := rfl

/-- The pitch whose vibrato has moved. -/
def swung (p : Pitch kind) : Pitch kind :=
  { p with vibrato := p.vibrato.step }

/-- The pitch whose arpeggio sequence or else whose modulation has moved. -/
def stepTone (p : Pitch kind) : Pitch kind :=
  let (offset?, arpeggioSequence) := Sequence.Cursor.advance p.arpeggioSequence
  let p : Pitch kind := { p with arpeggioSequence }
  match offset? with
  | some offset =>
      { p with base := kind.frequency (kind.clampNote (p.note + offset.toInt8.toInt)) }
  | none => p.stepMode

/-- A frame moves a pitch in three stages. -/
theorem step_eq (p : Pitch kind) : p.step = p.swung.stepPitchSequence.stepTone := rfl

/-! ### What moves -/

/-- Beginning a chord anew moves the chord and the place in it. -/
theorem exists_restartChord_eq (p : Pitch kind) :
    ∃ chord chordIndex, p.restartChord = { p with chord, chordIndex } := by
  unfold restartChord
  split <;> exact ⟨_, _, rfl⟩

/-- Changes that take hold move mode, note, frequencies and chord.  All else is what `configure` has
set, except that a note restarts vibrato and sequences. -/
theorem exists_commit_eq (p : Pitch kind) (changes : PitchParams) :
    ∃ mode note base instrumentPitch chord chordIndex,
      p.commit changes =
        let q := p.configure changes
        let starts := (playable? kind changes).isSome
        { q with
          mode, note, base, instrumentPitch, chord, chordIndex
          vibrato := if starts then q.vibrato.restart else q.vibrato
          pitchSequence :=
            if starts then q.pitchSequence.map Sequence.Cursor.restart else q.pitchSequence
          arpeggioSequence :=
            if starts then q.arpeggioSequence.map Sequence.Cursor.restart
            else q.arpeggioSequence } := by
  -- what each of the stages can move
  have hmodulated (p : Pitch kind) : ∃ mode note, p.modulated changes = { p with mode, note } := by
    unfold modulated
    split
    · next m _ => cases m <;> exact ⟨_, _, rfl⟩
    · exact ⟨_, _, rfl⟩
  have hrechorded (p : Pitch kind) :
      ∃ chord chordIndex, p.rechorded changes = { p with chord, chordIndex } := by
    unfold rechorded
    split
    · exact exists_restartChord_eq p
    · exact ⟨_, _, rfl⟩
  have hturned (p : Pitch kind) (note : Nat) :
      ∃ mode base, p.turnTo note = { p with mode, base } := by
    unfold turnTo
    split <;> exact ⟨_, _, rfl⟩
  rw [commit_eq]
  obtain ⟨chord, chordIndex, hchord⟩ :=
    hrechorded ((((p.placed changes).modulated changes).configure changes).started changes)
  obtain ⟨mode, note, hmode⟩ := hmodulated (p.placed changes)
  rw [hchord, hmode]
  unfold started placed startNote
  -- only a note that is played starts anything anew
  cases playable? kind changes with
  | none => exact ⟨_, _, _, _, _, _, rfl⟩
  | some n =>
      dsimp only
      obtain ⟨mode', base, hturn⟩ :=
        hturned (configure { p.placeNote n with mode, note } changes) n
      rw [hturn]
      exact ⟨_, _, _, _, _, _, rfl⟩

/-- A frame moves mode, frequencies and the place in the chord, and vibrato and sequences by one
frame each. -/
theorem exists_step_eq (p : Pitch kind) :
    ∃ mode base instrumentPitch chordIndex,
      p.step =
        { p with
          mode, base, instrumentPitch, chordIndex
          vibrato := p.vibrato.step
          pitchSequence := (Sequence.Cursor.advance p.pitchSequence).2
          arpeggioSequence := (Sequence.Cursor.advance p.arpeggioSequence).2 } := by
  -- what each of the stages can move
  have hpitch (p : Pitch kind) : ∃ instrumentPitch, p.stepPitchSequence =
      { p with instrumentPitch, pitchSequence := (Sequence.Cursor.advance p.pitchSequence).2 } := by
    unfold stepPitchSequence
    dsimp only
    split <;> exact ⟨_, rfl⟩
  have hmode (p : Pitch kind) :
      ∃ mode base chordIndex, p.stepMode = { p with mode, base, chordIndex } := by
    unfold stepMode
    split <;> exact ⟨_, _, _, rfl⟩
  obtain ⟨instrumentPitch, hp⟩ := hpitch p.swung
  rw [step_eq, hp, stepTone]
  dsimp only
  split
  · exact ⟨_, _, _, _, rfl⟩
  · obtain ⟨mode, base, chordIndex, hm⟩ := hmode _
    exact ⟨mode, base, instrumentPitch, chordIndex, hm⟩

/-! ### The range is kept -/

/-- Staging moves nothing yet. -/
theorem InRange.stage (h : p.InRange) (changes : PitchParams) : (p.stage changes).InRange :=
  { h with }

/-- An effect on the pitch is staged; any other is ignored. -/
theorem InRange.stageEffect (h : p.InRange) (e : Effect) : (p.stageEffect e).InRange := by
  unfold Pitch.stageEffect
  split
  · exact h.stage _
  · exact h

/-- Taking up a note of the channel keeps the range. -/
theorem InRange.placeNote (h : p.InRange) {note : Nat} (hn : note ≤ kind.topNote) :
    (p.placeNote note).InRange := by
  refine { h with note := hn, target := ?_ }
  intro slide amount target hmode
  -- a slide by semitones ends, any other one goes on
  rw [Pitch.placeNote] at hmode
  dsimp only at hmode
  split at hmode
  · exact absurd hmode nofun
  · exact h.target _ _ _ hmode

/-- A note some semitones away is a note of the channel. -/
theorem InRange.noteAfter (h : p.InRange) (direction : SlideDirection) (semitones : Nat) :
    p.noteAfter direction semitones ≤ kind.topNote := by
  cases direction with
  | up => exact Nat.min_le_right ..
  | down => exact Nat.le_trans (Nat.sub_le ..) h.note

/-- A new modulation heads for a frequency of the channel, be it a bound, that of a note or the
base. -/
theorem InRange.modulate (h : p.InRange) (m : Modulation) : (p.modulate m).InRange := by
  cases m with
  | arpeggio param =>
      refine { h with target := ?_ }
      intro slide amount target hmode
      rw [Pitch.modulate.eq_def] at hmode
      dsimp only at hmode
      split at hmode <;> exact absurd hmode nofun
  | pitchSlide direction param =>
      refine { h with target := ?_ }
      intro slide amount target hmode
      rw [Pitch.modulate.eq_def] at hmode
      dsimp only at hmode
      split at hmode
      · exact absurd hmode nofun
      · obtain ⟨-, -, rfl⟩ := PitchMode.slide.inj hmode
        cases direction with
        | up => exact Nat.le_refl _
        | down => exact Nat.zero_le _
  | noteSlide direction param =>
      refine { h with note := h.noteAfter .., target := ?_ }
      intro slide amount target hmode
      obtain ⟨-, -, rfl⟩ := PitchMode.slide.inj hmode
      exact kind.frequency_le _
  | portamento param =>
      refine { h with target := ?_ }
      intro slide amount target hmode
      rw [Pitch.modulate.eq_def] at hmode
      dsimp only at hmode
      split at hmode
      · exact absurd hmode nofun
      · obtain ⟨-, -, rfl⟩ := PitchMode.slide.inj hmode
        -- a portamento that is in force keeps its target, any other starts from the base
        split
        · next heq => exact h.target _ _ _ heq
        · exact h.base

/-- A tuning is set from a byte around its middle, and a vibrato delay from a byte. -/
theorem InRange.configure (h : p.InRange) (changes : PitchParams) :
    (p.configure changes).InRange := by
  have hvibrato : (match changes.vibrato with
      | some param => p.vibrato.set param
      | none => p.vibrato).InRange := by
    split
    · exact h.vibrato.set _
    · exact h.vibrato
  have htuning : -0x80 ≤ (p.configure changes).tuning ∧ (p.configure changes).tuning ≤ 0x7F := by
    unfold Pitch.configure
    dsimp only
    split
    · next param _ =>
      have hparam := param.toNat_lt
      constructor <;> omega
    · exact ⟨h.tuning_ge, h.tuning_le⟩
  refine { h with tuning_ge := htuning.1, tuning_le := htuning.2, vibrato := ?_ }
  unfold Pitch.configure
  dsimp only
  split
  · next delay _ => exact { hvibrato with delay := Nat.le_of_lt_succ delay.toNat_lt }
  · exact hvibrato

/-- A turn to a note looks its frequency up, as a target or as the base. -/
theorem InRange.turnTo (h : p.InRange) (note : Nat) : (p.turnTo note).InRange := by
  unfold Pitch.turnTo
  split
  · refine { h with target := ?_ }
    intro slide amount target hmode
    obtain ⟨-, -, rfl⟩ := PitchMode.slide.inj hmode
    exact kind.frequency_le _
  · exact { h with base := kind.frequency_le _ }

/-- A note that starts takes its frequency from the table and begins vibrato and sequences anew. -/
theorem InRange.startNote (h : p.InRange) (note : Nat) : (p.startNote note).InRange :=
  { h.turnTo note with
    instrument_ge := (by decide : (-0x8000 : Int) ≤ 0)
    instrument_le := (by decide : (0 : Int) ≤ 0x7FFF)
    vibrato := (h.turnTo note).vibrato.restart }

/-- A chord begun anew holds frequencies of the table. -/
theorem InRange.restartChord (h : p.InRange) : p.restartChord.InRange := by
  unfold Pitch.restartChord
  split
  · refine { h with chord := ?_ }
    intro i
    match i with
    | 0 | 1 | 2 => exact kind.frequency_le _
  · exact h

/-- A note that a channel plays is one that it has. -/
theorem playable?_le {changes : PitchParams} {note : Nat}
    (h : playable? kind changes = some note) : note ≤ kind.topNote := by
  rw [playable?, Option.filter_eq_some_iff] at h
  exact of_decide_eq_true h.2

/-- A channel plays the notes that it has. -/
theorem playable?_of_le {changes : PitchParams} {note : Nat} (hnote : changes.note = some note)
    (h : note ≤ kind.topNote) : playable? kind changes = some note := by
  rw [playable?, hnote, Option.filter_some, if_pos (decide_eq_true h)]

/-- Changes that take hold keep the range, one stage after the other. -/
theorem InRange.commit (h : p.InRange) (changes : PitchParams) : (p.commit changes).InRange := by
  -- each stage keeps the range, with or without anything to take up
  have hplaced : (p.placed changes).InRange := by
    unfold placed
    split
    · next n hn => exact h.placeNote (playable?_le hn)
    · exact h
  have hmodulated : ((p.placed changes).modulated changes).InRange := by
    unfold modulated
    split
    · exact hplaced.modulate _
    · exact hplaced
  have hconfigured := hmodulated.configure changes
  have hstarted :
      ((((p.placed changes).modulated changes).configure changes).started changes).InRange := by
    unfold started
    split
    · exact hconfigured.startNote _
    · exact hconfigured
  rw [commit_eq, rechorded]
  split
  · exact hstarted.restartChord
  · exact hstarted

/-- Staged changes that take hold keep the range. -/
theorem InRange.apply (h : p.InRange) : p.apply.InRange :=
  InRange.commit (p := { p with staged := {} }) { h with } p.staged

/-- A slide stays below its target and its base, and an arpeggio takes a frequency of the chord. -/
theorem InRange.stepMode (h : p.InRange) : p.stepMode.InRange := by
  unfold Pitch.stepMode
  split
  · exact h
  · next slide amount target hmode =>
    refine { h with base := approach_le h.base (h.target _ _ _ hmode), target := ?_ }
    intro slide' amount' target' hmode'
    dsimp only at hmode'
    split at hmode'
    · exact absurd hmode' nofun
    · exact h.target _ _ _ hmode'
  · exact { h with base := h.chord p.chordIndex }

/-- The instrument pitch saturates at sixteen signed bits. -/
theorem InRange.stepPitchSequence (h : p.InRange) : p.stepPitchSequence.InRange := by
  unfold Pitch.stepPitchSequence
  dsimp only
  split
  · next value _ =>
    have hsum (i : Int) : -0x8000 ≤ saturate16 i ∧ saturate16 i ≤ 0x7FFF := by
      rw [saturate16]
      omega
    exact { h with instrument_ge := (hsum _).1, instrument_le := (hsum _).2 }
  · exact { h with }

/-- An arpeggio sequence takes a frequency of the table; without a value the modulation moves. -/
theorem InRange.stepTone (h : p.InRange) : p.stepTone.InRange := by
  unfold Pitch.stepTone
  dsimp only
  split
  · exact { h with base := kind.frequency_le _ }
  · exact InRange.stepMode { h with }

/-- A frame without a note keeps the range, in its three stages. -/
theorem InRange.step (h : p.InRange) : p.step.InRange := by
  have hswung : p.swung.InRange := { h with vibrato := h.vibrato.step }
  rw [step_eq]
  exact hswung.stepPitchSequence.stepTone

/-- **A frame keeps a pitch in its range.** -/
theorem InRange.play (h : p.InRange) (started : Option Nat) : (p.play started).InRange := by
  cases started with
  | none => exact h.step
  | some note => exact (h.stage _).apply.step

/-! ### Checked changes -/

/-- Change the modulation.  The amount of a slide by semitones is counted in a byte, and its target
is looked up. -/
def checkedModulate (p : Pitch kind) : Modulation → Checked (Pitch kind)
  | .noteSlide direction param => do
      let amount ← unsigned 8 (1 + 2 * (param.toNat % 16 : Nat))
      let note := p.noteAfter direction (param.toNat / 16)
      let target ← kind.checkedFrequency note
      return { p with mode := .slide .note amount target, note }
  | m => .ok (p.modulate m)

/-- A change of the modulation has no fault: the amount of a slide by semitones is at most 31. -/
theorem checkedModulate_eq (p : Pitch kind) (m : Modulation) :
    p.checkedModulate m = .ok (p.modulate m) := by
  cases m with
  | noteSlide direction param =>
      rw [checkedModulate, unsigned_eq (n := 1 + 2 * (param.toNat % 16)) (by omega) (by omega),
        ok_bind]
      dsimp only
      rw [kind.checkedFrequency_eq]
      rfl
  | _ => rfl

/-- Take up the modulation of some changes. -/
def checkedModulated (p : Pitch kind) (changes : PitchParams) : Checked (Pitch kind) :=
  match changes.modulation with
  | some m => p.checkedModulate m
  | none => .ok p

/-- Taking up the modulation of some changes has no fault. -/
theorem checkedModulated_eq (p : Pitch kind) (changes : PitchParams) :
    p.checkedModulated changes = .ok (p.modulated changes) := by
  rw [checkedModulated, modulated]
  split
  · exact checkedModulate_eq _ _
  · rfl

/-- Set vibrato and tuning and bind sequences, with the offset of the vibrato in a signed byte. -/
def checkedConfigure (p : Pitch kind) (changes : PitchParams) : Checked (Pitch kind) := do
  let vibrato ← match changes.vibrato with
    | some param => p.vibrato.checkedSet param
    | none => .ok p.vibrato
  return configure { p with vibrato } { changes with vibrato := none }

/-- Setting vibrato and tuning has no fault. -/
theorem checkedConfigure_eq (p : Pitch kind) (changes : PitchParams) :
    p.checkedConfigure changes = .ok (p.configure changes) := by
  rw [checkedConfigure, configure]
  cases changes.vibrato with
  | some param =>
      dsimp only
      rw [Vibrato.checkedSet_eq]
      rfl
  | none => rfl

/-- Head for a frequency: a portamento moves towards it, otherwise it sounds at once. -/
def headFor (p : Pitch kind) (frequency : Nat) : Pitch kind :=
  match p.mode with
  | .slide .portamento amount _ => { p with mode := .slide .portamento amount frequency }
  | _ => { p with base := frequency }

/-- The pitch whose vibrato and sequences begin anew. -/
def restarted (p : Pitch kind) : Pitch kind :=
  { p with
    vibrato := p.vibrato.restart
    instrumentPitch := 0
    pitchSequence := p.pitchSequence.map Sequence.Cursor.restart
    arpeggioSequence := p.arpeggioSequence.map Sequence.Cursor.restart }

/-- Start the note of some changes, whose frequency is looked up. -/
def checkedStarted (p : Pitch kind) (changes : PitchParams) : Checked (Pitch kind) :=
  match playable? kind changes with
  | some note => do
      let frequency ← kind.checkedFrequency note
      return (p.headFor frequency).restarted
  | none => .ok p

/-- Starting a note has no fault: every note that is played has a frequency in the table. -/
theorem checkedStarted_eq (p : Pitch kind) (changes : PitchParams) :
    p.checkedStarted changes = .ok (p.started changes) := by
  rw [checkedStarted, started]
  split
  · rw [kind.checkedFrequency_eq]
    rfl
  · rfl

/-- Begin the chord of an arpeggio anew, for changes that ask for it; its notes are looked up. -/
def checkedRechorded (p : Pitch kind) (changes : PitchParams) : Checked (Pitch kind) :=
  match (playable? kind changes).isSome || changes.modulation.isSome, p.mode with
  | true, .arpeggio first second => do
      let note ← kind.checkedFrequency p.note
      let above ← kind.checkedFrequency (p.noteAfter .up first)
      let top ← kind.checkedFrequency (p.noteAfter .up second)
      return { p.restartChord with chord := #v[note, above, top] }
  | _, _ => .ok p

/-- Beginning a chord anew has no fault: each of its three notes is within the table. -/
theorem checkedRechorded_eq (p : Pitch kind) (changes : PitchParams) :
    p.checkedRechorded changes = .ok (p.rechorded changes) := by
  rw [checkedRechorded, rechorded, restartChord]
  cases (playable? kind changes).isSome || changes.modulation.isSome with
  | false => rfl
  | true =>
      rw [if_pos rfl]
      split
      · next hmode =>
        rw [kind.checkedFrequency_eq, kind.checkedFrequency_eq, kind.checkedFrequency_eq, hmode]
        rfl
      · next hmode =>
        split
        · next heq => exact absurd heq (hmode _ _ rfl)
        · rfl

/-- Let some changes take hold together. -/
def checkedCommit (p : Pitch kind) (changes : PitchParams) : Checked (Pitch kind) := do
  let modulated ← (p.placed changes).checkedModulated changes
  let configured ← modulated.checkedConfigure changes
  let started ← configured.checkedStarted changes
  started.checkedRechorded changes

/-- Changes take hold without a fault, one stage after the other. -/
theorem checkedCommit_eq (p : Pitch kind) (changes : PitchParams) :
    p.checkedCommit changes = .ok (p.commit changes) := by
  rw [checkedCommit, checkedModulated_eq, ok_bind, checkedConfigure_eq, ok_bind,
    checkedStarted_eq, ok_bind, checkedRechorded_eq, commit_eq]

/-- Let the staged changes take hold. -/
def checkedApply (p : Pitch kind) : Checked (Pitch kind) :=
  checkedCommit { p with staged := {} } p.staged

/-- Staged changes take hold without a fault. -/
theorem checkedApply_eq (p : Pitch kind) : p.checkedApply = .ok p.apply :=
  checkedCommit_eq _ _

/-! ### Checked frames -/

/-- Move the modulation by one frame; the place in a chord goes around. -/
def checkedStepMode (p : Pitch kind) : Checked (Pitch kind) :=
  match p.mode with
  | .arpeggio _ _ => do
      let base ← read p.chord[p.chordIndex.val]?
      let next ← word (p.chordIndex.val + 1)
      let index ← remainder next 3
      let chordIndex ← place 3 index
      return { p with base, chordIndex }
  | _ => .ok p.stepMode

/-- A place in the chord goes around without a fault. -/
theorem checkedStepMode_eq (p : Pitch kind) : p.checkedStepMode = .ok p.stepMode := by
  unfold checkedStepMode
  split
  · next hmode =>
    have hindex := p.chordIndex.isLt
    -- the remainder is what turns the last place into the first
    have hnext : (p.chordIndex.val + 1) % 3 = (p.chordIndex + 1).val := by
      rw [Fin.val_add]
      rfl
    rw [read_eq (Vector.getElem?_eq_getElem hindex), ok_bind,
      word_eq (n := p.chordIndex.val + 1) (by omega) (by omega), ok_bind,
      remainder_eq (by decide), ok_bind, hnext, place_eq, ok_bind, stepMode, hmode]
    rfl
  · rfl

/-- What a pitch takes from its pitch sequence. -/
def takePitch (p : Pitch kind) (next : Option UInt8 × Option Sequence.Cursor) : Pitch kind :=
  match next.1 with
  | some value =>
      { p with
        pitchSequence := next.2
        instrumentPitch := saturate16 (p.instrumentPitch + value.toInt8.toInt) }
  | none => { p with pitchSequence := next.2 }

/-- Read one value of the pitch sequence. -/
def checkedStepPitchSequence (p : Pitch kind) : Checked (Pitch kind) := do
  let next ← Sequence.Cursor.checkedAdvance p.pitchSequence
  return p.takePitch next

/-- Reading the pitch sequence has no fault, whatever the sequence. -/
theorem checkedStepPitchSequence_eq (p : Pitch kind) :
    p.checkedStepPitchSequence = .ok p.stepPitchSequence := by
  rw [checkedStepPitchSequence, Sequence.Cursor.checkedAdvance_eq]
  rfl

/-- Move the arpeggio sequence or else the modulation by one frame.  The note is added up in sixteen
bits before it is brought into the range of the channel. -/
def checkedStepTone (p : Pitch kind) : Checked (Pitch kind) := do
  let (offset?, arpeggioSequence) ← Sequence.Cursor.checkedAdvance p.arpeggioSequence
  let p : Pitch kind := { p with arpeggioSequence }
  match offset? with
  | some offset => do
      let note ← signed 16 (p.note + offset.toInt8.toInt)
      let base ← kind.checkedFrequency (kind.clampNote note)
      return { p with base }
  | none => p.checkedStepMode

/-- A note in range plus the offset of a sequence is far from the bounds of sixteen bits. -/
theorem checkedStepTone_eq (h : p.InRange) : p.checkedStepTone = .ok p.stepTone := by
  rw [checkedStepTone, Sequence.Cursor.checkedAdvance_eq, ok_bind, stepTone]
  dsimp only
  split
  · next offset _ =>
    -- a note and a signed byte are far from sixteen bits
    have hnote := Nat.le_trans h.note (topNote_le kind)
    have hge := offset.toInt8.le_toInt
    have hlt := offset.toInt8.toInt_lt
    rw [signed_eq (by omega) (by omega), ok_bind, kind.checkedFrequency_eq]
    rfl
  · exact checkedStepMode_eq _

/-- Advance by one frame. -/
def checkedStep (p : Pitch kind) : Checked (Pitch kind) := do
  let vibrato ← p.vibrato.checkedStep
  let sequenced ← checkedStepPitchSequence { p with vibrato }
  sequenced.checkedStepTone

/-- A frame without a note has no fault, in its three stages. -/
theorem checkedStep_eq (h : p.InRange) : p.checkedStep = .ok p.step := by
  have hswung : p.swung.InRange := { h with vibrato := h.vibrato.step }
  rw [checkedStep, Vibrato.checkedStep_eq h.vibrato, ok_bind, checkedStepPitchSequence_eq, ok_bind,
    step_eq]
  exact checkedStepTone_eq hswung.stepPitchSequence

/-- Advance by one frame, on which a note may start. -/
def checkedPlay (p : Pitch kind) (started : Option Nat) : Checked (Pitch kind) :=
  match started with
  | some note => do
      let p ← (p.stage { note := some note }).checkedApply
      p.checkedStep
  | none => p.checkedStep

/-- **A frame of a pitch in its range has no fault.** -/
theorem checkedPlay_eq (h : p.InRange) (started : Option Nat) :
    p.checkedPlay started = .ok (p.play started) := by
  cases started with
  | none => exact checkedStep_eq h
  | some note =>
      rw [checkedPlay, checkedApply_eq, ok_bind]
      exact checkedStep_eq (h.stage _).apply

/-- The frequency of the current frame, added up in 32 bits. -/
def checkedFrequency (p : Pitch kind) : Checked Nat := do
  let tuned ← signed 32 (p.base + p.tuning)
  let bent ← signed 32 (tuned + p.instrumentPitch)
  let swung ← signed 32 (bent + p.vibrato.offset)
  return kind.clampFrequency swung

/-- **The frequency of a pitch in its range has no fault.** -/
theorem checkedFrequency_eq (h : p.InRange) : p.checkedFrequency = .ok p.frequency := by
  have hbase := Nat.le_trans h.base (maxFrequency_le kind)
  have htuning := h.tuning_ge
  have htuning' := h.tuning_le
  have hinstrument := h.instrument_ge
  have hinstrument' := h.instrument_le
  obtain ⟨hoffset, hoffset'⟩ := h.vibrato.offset
  -- the sums are checked from the left
  rw [checkedFrequency, signed_eq (by omega) (by omega), ok_bind,
    signed_eq (by omega) (by omega), ok_bind, signed_eq (by omega) (by omega)]
  rfl

/-- No frequency exceeds eleven bits. -/
theorem frequency_le (p : Pitch kind) : p.frequency ≤ 0x7FF :=
  Nat.le_trans (Nat.min_le_right ..) (maxFrequency_le kind)

end Pitch
end Chiptune
