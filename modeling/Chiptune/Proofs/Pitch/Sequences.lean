import Chiptune.Bank.Instrument
import Chiptune.Proofs.Checked.Pitch

/-! # The sequences of a pitch

A pitch reads the two sequences of its instrument.  Frames move the places that it has reached in
them and notes return to their starts, but which sequences are read changes only when others take
hold.

* `Bindings` are the sequences that are read, each at its first value; `Pitch.bindings` finds them
  in a pitch, `Instrument.bindings` in an instrument.
* `bindings_commit`, `bindings_step` and `bindings_play` say what becomes of them.
* `apply_rebound`: a note that binds the sequences of the note before it sounds like one that binds
  none. -/

namespace Chiptune

namespace Sequence

/-- A sequence is bound at its first value. -/
@[simp] theorem map_restart_cursor? (s : Sequence) : s.cursor?.map Cursor.restart = s.cursor? := by
  unfold cursor?
  split <;> rfl

/-- A sequence without values is not bound. -/
theorem cursor?_eq_none {s : Sequence} : s.cursor? = none ↔ s.isEmpty = true := by
  unfold cursor?
  by_cases h : s.isEmpty = true <;> simp [h]

namespace Cursor

/-- The start of a sequence is the same from every place in it. -/
@[simp] theorem restart_restart (c : Cursor) : c.restart.restart = c.restart := rfl

/-- Reading a value does not move the start. -/
@[simp] theorem restart_next (c : Cursor) : c.next.2.restart = c.restart := by
  unfold next
  split <;> rfl

/-- Reading a value of a sequence that may be absent does not move the start. -/
@[simp] theorem map_restart_advance (c? : Option Cursor) :
    (advance c?).2.map restart = c?.map restart := by
  cases c? with
  | none => rfl
  | some c => exact congrArg some c.restart_next

end Cursor
end Sequence

/-! ## Bindings -/

/-- The sequences that a pitch reads, each at its first value. -/
@[ext]
structure Bindings where
  /-- The sequence that adds to the pitch. -/
  pitch : Option Sequence.Cursor
  /-- The sequence that moves the note. -/
  arpeggio : Option Sequence.Cursor
  deriving DecidableEq

/-- No sequence is read. -/
def Bindings.none : Bindings := ⟨.none, .none⟩

namespace Instrument

/-- The changes that bind the sequences of an instrument. -/
def sequences (i : Instrument) : PitchParams :=
  { pitchSequence := some i.pitch, arpeggioSequence := some i.arpeggio }

/-- The sequences of an instrument as they are bound; those without values are not. -/
def bindings (i : Instrument) : Bindings :=
  ⟨i.pitch.cursor?, i.arpeggio.cursor?⟩

/-- An instrument binds no sequence exactly if neither has values. -/
theorem bindings_eq_none {i : Instrument} :
    i.bindings = Bindings.none ↔ i.pitch.isEmpty = true ∧ i.arpeggio.isEmpty = true := by
  rw [bindings, Bindings.none, Bindings.mk.injEq, Sequence.cursor?_eq_none,
    Sequence.cursor?_eq_none]

end Instrument

namespace PitchParams

/-- The sequences that are read once some changes have taken hold. -/
def rebind (changes : PitchParams) (b : Bindings) : Bindings where
  pitch := match changes.pitchSequence with
    | some s => s.cursor?
    | .none => b.pitch
  arpeggio := match changes.arpeggioSequence with
    | some s => s.cursor?
    | .none => b.arpeggio

/-- Whether some changes leave the sequences alone. -/
def KeepsSequences (changes : PitchParams) : Prop :=
  changes.pitchSequence = none ∧ changes.arpeggioSequence = none

/-- No changes leave the sequences alone. -/
theorem keepsSequences_empty : KeepsSequences {} := ⟨rfl, rfl⟩

/-- Effects leave the sequences alone. -/
theorem KeepsSequences.overlay_effect {changes : PitchParams} (h : changes.KeepsSequences)
    (param : UInt8) (e : PitchEffect) : (changes.overlay (e.params param)).KeepsSequences := by
  cases e <;> exact h

/-- Changes that leave the sequences alone bind none. -/
theorem KeepsSequences.rebind_eq {changes : PitchParams} (h : changes.KeepsSequences)
    (b : Bindings) : changes.rebind b = b := by
  rw [rebind, h.1, h.2]

end PitchParams

/-! ## What becomes of them -/

namespace Pitch

variable {kind : PitchKind} {p : Pitch kind}

/-- The sequences that a pitch reads. -/
def bindings (p : Pitch kind) : Bindings :=
  ⟨p.pitchSequence.map Sequence.Cursor.restart, p.arpeggioSequence.map Sequence.Cursor.restart⟩

/-- A pitch reads no sequence exactly if none is bound. -/
theorem bindings_eq_none :
    p.bindings = Bindings.none ↔ p.pitchSequence = none ∧ p.arpeggioSequence = none := by
  rw [bindings, Bindings.none, Bindings.mk.injEq, Option.map_eq_none_iff, Option.map_eq_none_iff]

/-- The changes take hold of the sequences. -/
theorem bindings_configure (p : Pitch kind) (changes : PitchParams) :
    (p.configure changes).bindings = changes.rebind p.bindings := by
  rw [configure, bindings, PitchParams.rebind]
  congr 1
  · cases changes.pitchSequence <;> simp [bindings]
  · cases changes.arpeggioSequence <;> simp [bindings]

/-- A turn to a note keeps the sequences that are bound. -/
theorem bindings_turnTo (p : Pitch kind) (note : Nat) : (p.turnTo note).bindings = p.bindings := by
  unfold turnTo
  split <;> rfl

/-- **Changes that take hold bind their sequences.** -/
theorem bindings_commit (p : Pitch kind) (changes : PitchParams) :
    (p.commit changes).bindings = changes.rebind p.bindings := by
  obtain ⟨_, _, _, _, _, _, hcommit⟩ := p.exists_commit_eq changes
  rw [← bindings_configure, hcommit]
  -- the start of a sequence is the same whether a note has returned to it or not
  cases (playable? kind changes).isSome with
  | true => simp [bindings, Function.comp_def]
  | false => rfl

/-- **A frame does not change which sequences are read.** -/
theorem bindings_step (p : Pitch kind) : p.step.bindings = p.bindings := by
  obtain ⟨_, _, _, _, hstep⟩ := p.exists_step_eq
  rw [hstep]
  simp [bindings]

/-! ### What waits -/

/-- Changes that take hold do not touch those that wait. -/
theorem staged_commit (p : Pitch kind) (changes : PitchParams) :
    (p.commit changes).staged = p.staged := by
  obtain ⟨_, _, _, _, _, _, hcommit⟩ := p.exists_commit_eq changes
  rw [hcommit]
  rfl

/-- Nothing waits behind changes that have taken hold. -/
@[simp] theorem staged_apply (p : Pitch kind) : p.apply.staged = {} :=
  staged_commit _ _

/-- A frame lets what waits wait on. -/
@[simp] theorem staged_step (p : Pitch kind) : p.step.staged = p.staged := by
  obtain ⟨_, _, _, _, hstep⟩ := p.exists_step_eq
  rw [hstep]

/-- Behind a note that starts, nothing waits. -/
theorem staged_play (p : Pitch kind) (started : Option Nat) :
    (p.play started).staged = if started.isSome then {} else p.staged := by
  cases started with
  | none => exact p.staged_step
  | some note => exact ((p.stage { note := some note }).apply.staged_step).trans (staged_apply _)

/-- The sequences that are read behind a frame: a note that starts binds those that wait. -/
theorem bindings_play (p : Pitch kind) (started : Option Nat) :
    (p.play started).bindings =
      if started.isSome then p.staged.rebind p.bindings else p.bindings := by
  cases started with
  | none => exact p.bindings_step
  | some note =>
      rw [play, bindings_step, apply, bindings_commit]
      rfl

/-! ### Binding them anew -/

/-- Of the sequences, the start of a note needs to know nothing but which they are. -/
theorem startNote_configure_congr {changes changes' : PitchParams} (note : Nat)
    (hvibrato : changes.vibrato = changes'.vibrato)
    (hdelay : changes.vibratoDelay = changes'.vibratoDelay)
    (htuning : changes.tuning = changes'.tuning)
    (hbindings : changes.rebind p.bindings = changes'.rebind p.bindings) :
    (p.configure changes).startNote note = (p.configure changes').startNote note := by
  -- sequences matter by what they are bound to
  have hstart (changes : PitchParams) : (p.configure changes).startNote note =
      { (p.configure changes).startNote note with
        pitchSequence := (changes.rebind p.bindings).pitch
        arpeggioSequence := (changes.rebind p.bindings).arpeggio } := by
    rw [← bindings_configure, ← bindings_turnTo _ note]
    rfl
  rw [hstart changes, hstart changes', hbindings]
  unfold startNote turnTo configure
  rw [hvibrato, hdelay, htuning]
  cases p.mode with
  | slide slide amount target => cases slide <;> rfl
  | rest => rfl
  | arpeggio first second => rfl

/-- Changes that name a playable note take hold in five stages. -/
theorem commit_of_playable {changes : PitchParams} {note : Nat} (hnote : changes.note = some note)
    (hplayable : note ≤ kind.topNote) (p : Pitch kind) :
    p.commit changes =
      ((((p.placeNote note).modulated changes).configure changes).startNote note).restartChord := by
  rw [commit_eq]
  unfold rechorded started placed
  rw [playable?_of_le hnote hplayable]
  rfl

/-- Changes that name a playable note and no modulation take hold in four stages. -/
theorem commit_of_note {changes : PitchParams} {note : Nat} (hnote : changes.note = some note)
    (hplayable : note ≤ kind.topNote) (hmodulation : changes.modulation = none) (p : Pitch kind) :
    p.commit changes =
      (((p.placeNote note).configure changes).startNote note).restartChord := by
  rw [commit_of_playable hnote hplayable, modulated, hmodulation]

/-- **A note that binds the sequences that are read already sounds like one that binds none.** -/
theorem apply_rebound {i : Instrument} {note : Nat} (hstaged : p.staged = {})
    (hbindings : p.bindings = i.bindings) (hplayable : note ≤ kind.topNote) :
    ((p.stage i.sequences).stage { note := some note }).apply =
      (p.stage { note := some note }).apply := by
  -- the two sets of changes that take hold
  have hbound : ((p.stage i.sequences).stage { note := some note }).staged =
      { i.sequences with note := some note } := by
    simp [stage, hstaged, PitchParams.overlay, Instrument.sequences]
  have hplain : (p.stage { note := some note }).staged = { note := some note } := by
    simp [stage, hstaged, PitchParams.overlay]
  rw [apply, apply, hbound, hplain, commit_of_note rfl hplayable rfl,
    commit_of_note rfl hplayable rfl]
  refine congrArg restartChord (startNote_configure_congr note rfl rfl rfl ?_)
  exact hbindings.symm

end Pitch
end Chiptune
