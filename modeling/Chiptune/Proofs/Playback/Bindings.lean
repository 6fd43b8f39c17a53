import Chiptune.Proofs.Pitch.Sequences
import Chiptune.Proofs.Playback.Frequencies

/-! # The instrument that a note has bound last

A note binds the instrument that is selected on its channel: the program starts, and the pitch reads
the sequences of the instrument.  If there is no such instrument, the program is dropped, but
nothing is bound in place of the sequences, so that those of the instrument before it go on.

* `Player.instrumentsBound` lists the instruments that the notes of a channel bind in a run.
* `Voice.Reads` says that a voice reads the sequences of an instrument; `reads_after` says that this
  is the instrument that was bound last, in all runs.
* `missing_instrument_leaves` says what a note whose instrument is missing leaves behind. -/

namespace Chiptune

namespace Bindings

/-- The sequences that are read once an instrument has been bound, if any has. -/
def ofLast (last : Option Instrument) : Bindings :=
  (last.map Instrument.bindings).getD Bindings.none

/-- None is read exactly if no instrument has been bound or if it has no sequences. -/
theorem ofLast_eq_none {last : Option Instrument} :
    ofLast last = Bindings.none ↔
      ∀ i, last = some i → i.pitch.isEmpty = true ∧ i.arpeggio.isEmpty = true := by
  cases last with
  | none => simp [ofLast]
  | some i => simp [ofLast, ← Instrument.bindings_eq_none]

end Bindings

namespace Pitch

variable {kind : PitchKind} {p : Pitch kind} {b : Bindings}

/-- A pitch reads some sequences, and no others wait. -/
structure Reads (b : Bindings) (p : Pitch kind) : Prop where
  /-- Those sequences are bound. -/
  bindings : p.bindings = b
  /-- The changes that wait leave them alone. -/
  staged : p.staged.KeepsSequences

/-- A new pitch has no sequences bound, and none waiting. -/
theorem reads_new : (new : Pitch kind).Reads Bindings.none where
  bindings := rfl
  staged := PitchParams.keepsSequences_empty

/-- Effects leave the sequences alone. -/
theorem Reads.stageEffect (h : p.Reads b) (e : Effect) : (p.stageEffect e).Reads b := by
  unfold Pitch.stageEffect
  split
  · exact { bindings := h.bindings, staged := h.staged.overlay_effect _ _ }
  · exact h

/-- Staged changes that take hold bind nothing else, and nothing waits behind them. -/
theorem Reads.apply (h : p.Reads b) : p.apply.Reads b where
  bindings := by
    rw [Pitch.apply, bindings_commit, h.staged.rebind_eq]
    exact h.bindings
  staged := by
    rw [staged_apply]
    exact PitchParams.keepsSequences_empty

/-- A frame leaves the sequences alone, even if a note starts on it. -/
theorem Reads.play (h : p.Reads b) (started : Option Nat) : (p.play started).Reads b := by
  constructor
  · rw [bindings_play, h.staged.rebind_eq, ite_self]
    exact h.bindings
  · rw [staged_play]
    split
    · exact PitchParams.keepsSequences_empty
    · exact h.staged

/-- A note that starts with an instrument makes the pitch read its sequences. -/
theorem reads_play_sequences (p : Pitch kind) (i : Instrument) (note : Nat) :
    ((p.stage i.sequences).play (some note)).Reads i.bindings := by
  constructor
  · rw [bindings_play]
    rfl
  · rw [staged_play]
    exact PitchParams.keepsSequences_empty

/-- The pitch that reads no sequences. -/
def unbound (p : Pitch kind) : Pitch kind :=
  { p with pitchSequence := none, arpeggioSequence := none }

/-- A pitch that reads no sequences is unbound. -/
theorem unbound_eq (h : p.bindings = Bindings.none) : p.unbound = p := by
  obtain ⟨hpitch, harpeggio⟩ := bindings_eq_none.mp h
  show { p with pitchSequence := none, arpeggioSequence := none } =
    { p with pitchSequence := p.pitchSequence, arpeggioSequence := p.arpeggioSequence }
  rw [hpitch, harpeggio]

end Pitch

namespace Voice

variable {m : Module} {v : Voice} {b : Bindings}

/-- The pitch of a voice reads some sequences, unless the channel plays noise. -/
def Reads (b : Bindings) (v : Voice) : Prop :=
  ∀ q, v.pitch = some q → q.Reads b

/-- A voice whose pitch moves by something that leaves the sequences alone reads the same ones. -/
theorem Reads.map {v' : Voice} {f : Pitch .tone → Pitch .tone} (h : v.Reads b)
    (hf : ∀ q, q.Reads b → (f q).Reads b) (hpitch : v'.pitch = v.pitch.map f) : v'.Reads b := by
  intro q hq
  obtain ⟨q', hq', rfl⟩ := Option.map_eq_some_iff.mp (hpitch.symm.trans hq)
  exact hf q' (h q' hq')

/-- A voice with the same pitch reads the same sequences. -/
theorem Reads.congr {v' : Voice} (h : v.Reads b) (hpitch : v'.pitch = v.pitch) : v'.Reads b := by
  intro q hq
  exact h q (hpitch.symm.trans hq)

/-- A new voice reads no sequences, and on the noise channel it has no pitch to read any. -/
theorem reads_new (c : Channel) : (new c).Reads Bindings.none := by
  intro q hq
  have hnew : (if c.isNoise then none else some Pitch.new) = some q := hq
  split at hnew
  · cases hnew
  · cases hnew
    exact Pitch.reads_new

/-! ### Reading a row -/

/-- A row leaves the sequences alone: an instrument is only bound by a note. -/
theorem Reads.readRow (h : v.Reads b) (waves : Table Waveform) (c : Channel) (r : Row) :
    (v.readRow waves c r).1.Reads b := by
  refine readRow_induction ?_ ?_ h r
  · intro v e hv
    unfold Voice.obey
    split
    · exact hv
    · exact hv.congr (obeyTrack_frame v waves c e.param _).2
    · exact hv.map (fun q hq => hq.stageEffect e) rfl
  · intro v r hv
    -- a request waits at the gate, and leaves the pitch alone
    have hrequest : ((v.select r).request r).pitch = v.pitch := by
      unfold request
      split
      · split <;> rfl
      · rfl
      · rfl
    unfold Voice.finishRow
    split
    · refine hv.map (fun q hq => hq.apply) ?_
      rw [← hrequest]
    · exact hv.congr hrequest

/-! ### Updating -/

/-- The instrument that a voice binds on a frame: that which is selected, if a note starts and there
is such an instrument. -/
def binds? (v : Voice) (m : Module) : Option Instrument :=
  if v.gate.step.2.isSome then v.selected.bind m.instruments.get? else none

/-- A note that starts sounds. -/
theorem isPlaying_gated_of_started (h : v.gate.step.2.isSome = true) :
    v.gated.isPlaying = true := by
  have hstarted : (if v.gate.cutIsDue then none else v.gate.due?).isSome = true := h
  show ((v.gate.isOpen || v.gate.due?.isSome) && !v.gate.cutIsDue) = true
  cases hcut : v.gate.cutIsDue with
  | true =>
      rw [hcut, if_pos rfl] at hstarted
      cases hstarted
  | false =>
      rw [hcut, if_neg Bool.false_ne_true] at hstarted
      rw [hstarted, Bool.or_true, Bool.not_false, Bool.and_true]

/-- A voice whose instrument is missing drops its program and binds nothing else. -/
theorem bindInstrument_of_missing {instruments : Table Instrument} {id : Nat}
    (hselected : v.selected = some id) (hmissing : instruments.get? id = none) :
    v.bindInstrument instruments = { v with program := v.program.clear } := by
  rw [bindInstrument, hselected]
  dsimp only
  rw [hmissing]

/-- A voice without a selected instrument binds nothing. -/
theorem bindInstrument_of_none {instruments : Table Instrument} (hselected : v.selected = none) :
    v.bindInstrument instruments = v := by
  rw [bindInstrument, hselected]

/-- A voice binds the instrument that it has selected. -/
theorem bindInstrument_of_found {instruments : Table Instrument} {id : Nat} {i : Instrument}
    (hselected : v.selected = some id) (hfound : instruments.get? id = some i) :
    v.bindInstrument instruments =
      { v with
        program := v.program.setProgram i.program
        pitch := v.pitch.map fun p => p.stage i.sequences } := by
  rw [bindInstrument, hselected]
  dsimp only
  rw [hfound]
  rfl

/-- **An update reads the sequences of the instrument that it binds**, and goes on with those of
before if it binds none. -/
theorem Reads.update {last : Option Instrument} (h : v.Reads (.ofLast last)) (m : Module)
    (c : Channel) : (v.update m c).1.Reads (.ofLast ((v.binds? m).or last)) := by
  cases hstarted : v.gate.step.2 with
  | none =>
      rw [binds?, hstarted, Option.isSome_none, if_neg Bool.false_ne_true, Option.none_or]
      cases hopen : v.gated.isPlaying with
      | true =>
          rw [update_of_open m c hopen, hstarted]
          exact h.map (fun q hq => hq.play none) rfl
      | false =>
          rw [update_of_closed m c hopen]
          exact h
  | some note =>
      have hopen : v.gated.isPlaying = true :=
        isPlaying_gated_of_started (by rw [hstarted, Option.isSome_some])
      rw [update_of_open m c hopen, binds?, hstarted, Option.isSome_some, if_pos rfl]
      -- the program does not touch the pitch
      show ((v.gated.bindInstrument m.instruments).played (some note)).Reads _
      cases hselected : v.selected with
      | none =>
          rw [bindInstrument_of_none (v := v.gated) hselected]
          exact h.map (fun q hq => hq.play (some note)) rfl
      | some id =>
          rw [Option.bind_some]
          cases hfound : m.instruments.get? id with
          | none =>
              rw [bindInstrument_of_missing (v := v.gated) hselected hfound]
              exact h.map (fun q hq => hq.play (some note)) rfl
          | some i =>
              rw [bindInstrument_of_found (v := v.gated) hselected hfound]
              intro q hq
              -- the note starts with the sequences of the instrument
              rw [played, Option.map_map] at hq
              obtain ⟨q', -, rfl⟩ := Option.map_eq_some_iff.mp hq
              exact q'.reads_play_sequences i note

/-! ### Notes without an instrument -/

/-- The voice of a channel on which no instrument has been selected: it has no program, and its
pitch reads no sequences. -/
def withoutInstrument (v : Voice) (c : Channel) : Voice :=
  { v with selected := none, program := .new c, pitch := v.pitch.map Pitch.unbound }

/-- Behind a note whose instrument is missing, no program is left. -/
theorem program_update_of_missing {c : Channel} {id : Nat} (h : Fits c v)
    (hstarted : v.gate.step.2.isSome = true) (hselected : v.selected = some id)
    (hmissing : m.instruments.get? id = none) : (v.update m c).1.program = .new c := by
  have hready : (v.gated.readied m v.gate.step.2).program = .new c := by
    rw [readied, bound, if_pos hstarted,
      bindInstrument_of_missing (v := v.gated) hselected hmissing]
    exact congrArg ProgramRunner.new h.channel
  rw [update_of_open m c (isPlaying_gated_of_started hstarted)]
  show ((v.gated.readied m v.gate.step.2).program.step m.waveforms _).1 = .new c
  rw [hready, ProgramRunner.step_of_stopped rfl]

/-- Behind a frame of a note, the program of the voice has run and the outputs are chosen. -/
theorem state_sound (v : Voice) (m : Module) (c : Channel) (started : Option Nat) :
    (v.sound m c started).1 =
      { v.readied m started with
        program :=
          ((v.readied m started).program.step m.waveforms (v.readied m started).frequency).1
        output := if started.isSome then (v.readied m started).settings.panning
          else (v.readied m started).output } := rfl

/-- **A note whose instrument is missing sounds like one without an instrument**, if no sequences
are read from before. -/
theorem update_of_missing {c : Channel} {id : Nat} (h : Fits c v)
    (hstarted : v.gate.step.2.isSome = true) (hselected : v.selected = some id)
    (hmissing : m.instruments.get? id = none) (hreads : v.Reads Bindings.none) :
    v.update m c =
      ({ ((v.withoutInstrument c).update m c).1 with selected := some id },
        ((v.withoutInstrument c).update m c).2) := by
  have hpitch : v.pitch.map Pitch.unbound = v.pitch := by
    cases hq : v.pitch with
    | none => rfl
    | some q => rw [Option.map_some, Pitch.unbound_eq (hreads q hq).bindings]
  have hwithout : (v.withoutInstrument c).gated.bindInstrument m.instruments =
      (v.withoutInstrument c).gated := bindInstrument_of_none rfl
  -- both voices start the note with the same pitch and without a program
  have hready : v.gated.readied m v.gate.step.2 =
      { (v.withoutInstrument c).gated.readied m v.gate.step.2 with selected := some id } := by
    rw [readied, bound, if_pos hstarted,
      bindInstrument_of_missing (v := v.gated) hselected hmissing, ProgramRunner.clear,
      show v.gated.program.channel = c from h.channel, readied, bound, if_pos hstarted, hwithout,
      withoutInstrument, hpitch, ← hselected]
    rfl
  have hopen := isPlaying_gated_of_started hstarted
  rw [update_of_open m c hopen, update_of_open m c (v := v.withoutInstrument c) hopen]
  refine Prod.ext ?_ ?_
  · rw [state_sound, hready]
    rfl
  · rw [writes_sound, writes_sound, hready]
    rfl

end Voice

/-! ## Runs -/

namespace Player

variable {m : Module} {p : Player}

/-- The note that starts on a channel on a frame, behind the row that may begin on it. -/
def noteStarted? (p : Player) (m : Module) (c : Channel) : Option Nat :=
  ((p.begun m).voices.get c).gate.step.2

/-- The instrument that a channel binds on a call. -/
def binds? (p : Player) (m : Module) (c : Channel) : Call → Option Instrument
  | .step =>
      if p.isHalted || (p.begun m).isHalted then none else ((p.begun m).voices.get c).binds? m
  | _ => none

/-- The instruments that a channel binds in a run, one after the other. -/
def instrumentsBound (p : Player) (m : Module) (c : Channel) (calls : List Call) :
    List Instrument :=
  p.gather m (fun p call => (p.binds? m c call).toList) calls

/-- The row of a frame binds nothing. -/
theorem reads_begun {b : Bindings} {c : Channel} (h : (p.voices.get c).Reads b) (m : Module) :
    ((p.begun m).voices.get c).Reads b := by
  rw [voice_begun]
  split
  · exact h.readRow _ _ _
  · exact h

/-- Behind a call, a channel reads the sequences of the instrument that it has bound on it, or those
of before. -/
theorem reads_serve {last : Option Instrument} {c : Channel}
    (h : (p.voices.get c).Reads (.ofLast last)) (m : Module) (call : Call) :
    ((p.serve m call).1.voices.get c).Reads (.ofLast ((p.binds? m c call).or last)) := by
  cases call with
  | step =>
      show ((p.step m).1.voices.get c).Reads _
      unfold binds?
      cases hp : p.isHalted with
      | true =>
          rw [step_of_halted m hp]
          exact h
      | false =>
      cases hb : (p.begun m).isHalted with
      | true =>
          rw [voice_step_of_halting hp hb]
          exact reads_begun h m
      | false =>
          rw [voice_step hp hb]
          exact (reads_begun h m).update m c
  | setRepeat repeats => exact h
  | jump order => exact h
  | halt => exact h

/-- In all runs, a channel reads the sequences of the instrument that it has bound last. -/
theorem reads_after {last : Option Instrument} {c : Channel}
    (h : (p.voices.get c).Reads (.ofLast last)) (calls : List Call) :
    ((p.after m calls).voices.get c).Reads
      (.ofLast ((p.instrumentsBound m c calls).getLast?.or last)) := by
  induction calls generalizing p last with
  | nil => exact h
  | cons call calls ih =>
      have hlast : (p.binds? m c call).toList.getLast? = p.binds? m c call := by
        cases p.binds? m c call <;> rfl
      rw [instrumentsBound, gather, List.getLast?_append, hlast, Option.or_assoc]
      exact ih (reads_serve h m call)

/-- When the row of a frame has been read, a channel still reads the sequences of the instrument
that it has bound last. -/
theorem reads_of_start {position : Position} (h : Player.start m position = .ok p)
    (calls : List Call) (c : Channel) :
    (((p.after m calls).begun m).voices.get c).Reads
      (.ofLast (p.instrumentsBound m c calls).getLast?) := by
  have hnew : (p.voices.get c).Reads (.ofLast none) := by
    obtain ⟨-, rfl⟩ := start_eq_ok.mp h
    rw [atPosition, PerChannel.get_ofFn]
    exact Voice.reads_new c
  have hafter := reads_after (m := m) hnew calls
  rw [Option.or_none] at hafter
  exact reads_begun hafter m

/-- **What a note leaves behind whose instrument is missing.**  No program is left.  The sequences
that a tone channel reads are those of the instrument that it has bound last.  If there are none,
and on the noise channel in any case, the frame is that of a channel on which no instrument has been
selected. -/
theorem missing_instrument_leaves {position : Position} (h : Player.start m position = .ok p)
    (calls : List Call) (c : Channel) {note id : Nat}
    (hgoing : (p.after m (calls ++ [.step])).isHalted = false)
    (hstarted : (p.after m calls).noteStarted? m c = some note)
    (hselected : (((p.after m calls).begun m).voices.get c).selected = some id)
    (hmissing : m.instruments.get? id = none) :
    let v := ((p.after m calls).begun m).voices.get c
    let v' := (p.after m (calls ++ [.step])).voices.get c
    let last := (p.instrumentsBound m c calls).getLast?
    let isPlain := ∀ i, last = some i → i.pitch.isEmpty = true ∧ i.arpeggio.isEmpty = true
    v'.program = .new c ∧
      (c.isNoise = false → ∃ q, v'.pitch = some q ∧ q.bindings = .ofLast last ∧
        (q.pitchSequence = none ∧ q.arpeggioSequence = none ↔ isPlain)) ∧
      (c.isNoise = true ∨ isPlain → v.update m c =
        ({ ((v.withoutInstrument c).update m c).1 with selected := some id },
          ((v.withoutInstrument c).update m c).2)) := by
  intro v v' last isPlain
  have hreached : Reachable m (p.after m calls) := (Reachable.start h).after calls
  have hfits : v.Fits c := hreached.fits_begun c
  -- the frame updates the voice that has read its row
  rw [after_concat] at hgoing
  obtain ⟨hp, hb⟩ := isHalted_step_eq_false.mp hgoing
  have hv' : v' = (v.update m c).1 := by
    show (p.after m (calls ++ [.step])).voices.get c = _
    rw [after_concat]
    exact voice_step hp hb c
  have hreads : v.Reads (.ofLast last) := reads_of_start h calls c
  have hsome : v.gate.step.2.isSome = true := Option.isSome_iff_exists.mpr ⟨note, hstarted⟩
  refine ⟨?_, ?_, ?_⟩
  · rw [hv']
    exact Voice.program_update_of_missing hfits hsome hselected hmissing
  · intro htone
    obtain ⟨q, hq⟩ : ∃ q, v'.pitch = some q := by
      rw [← Option.isSome_iff_exists, hv', (hfits.update m c).pitch, htone]
      rfl
    -- the note binds nothing, so the sequences are those of before
    have hbinds : v.binds? m = none := by
      rw [Voice.binds?, if_pos hsome, hselected, Option.bind_some, hmissing]
    have hlast : q.bindings = .ofLast last := by
      have hupdate := hreads.update m c
      rw [hbinds, Option.none_or, ← hv'] at hupdate
      exact (hupdate q hq).bindings
    refine ⟨q, hq, hlast, ?_⟩
    rw [← Pitch.bindings_eq_none, hlast, Bindings.ofLast_eq_none]
  · intro hquiet
    have hnone : v.Reads Bindings.none := by
      obtain hnoise | hplain := hquiet
      · -- the noise channel has no pitch that could read any
        intro q hq
        have hpitch := hfits.pitch
        rw [hq, hnoise] at hpitch
        cases hpitch
      · rwa [Bindings.ofLast_eq_none.mpr hplain] at hreads
    exact Voice.update_of_missing hfits hsome hselected hmissing hnone

end Player

/-- A module of one frame per row with a single instrument, whose arpeggio is an octave.  The first
row starts a note with it, and the second one a note with an instrument that is missing.  On another
channel, all notes are without an instrument that exists. -/
def octaveModule : Module where
  song := ((({ Song.new "" with speed := .fastest }.setRow .ch1 0 0
      ((Row.empty.withNote (.on 0)).withInstrument 0)).setRow .ch1 0 1
      ((Row.empty.withNote (.on 0)).withInstrument 9)).setRow .ch2 0 1
      ((Row.empty.withNote (.on 0)).withInstrument 9))
  instruments := Table.ofList [(0, { Instrument.new "" .ch1 with
    arpeggio := { values := [12], loop := some 0, length_le := by decide, loop_lt := by decide } })]
  waveforms := Table.empty

/-- On the second channel, no instrument was ever bound, so that its note leaves nothing behind. -/
theorem missing_instrument_octaveModule :
    let p := Player.atPosition octaveModule.song ⟨0, 0⟩
    let v := ((p.after octaveModule [.step]).begun octaveModule).voices.get .ch2
    let v' := (p.after octaveModule [.step, .step]).voices.get .ch2
    Player.start octaveModule ⟨0, 0⟩ = .ok p ∧
      (p.after octaveModule [.step]).noteStarted? octaveModule .ch2 = some 0 ∧
      v'.program = .new .ch2 ∧
      (∃ q, v'.pitch = some q ∧ q.pitchSequence = none ∧ q.arpeggioSequence = none) ∧
      (v.update octaveModule .ch2).2 = ((v.withoutInstrument .ch2).update octaveModule .ch2).2 := by
  intro p v v'
  have hstart : Player.start octaveModule ⟨0, 0⟩ = .ok p := rfl
  have hnote : (p.after octaveModule [.step]).noteStarted? octaveModule .ch2 = some 0 := by
    decide +kernel
  have hbound : p.instrumentsBound octaveModule .ch2 [.step] = [] := by decide +kernel
  have hselected : v.selected = some 9 := by decide +kernel
  obtain ⟨hprogram, htone, hupdate⟩ := Player.missing_instrument_leaves hstart [.step] .ch2
    (by decide +kernel) hnote hselected (by decide +kernel)
  obtain ⟨q, hq, -, hnone⟩ := htone rfl
  -- no instrument was bound, let alone one with sequences
  have hplain : ∀ i, (p.instrumentsBound octaveModule .ch2 [.step]).getLast? = some i →
      i.pitch.isEmpty = true ∧ i.arpeggio.isEmpty = true := by
    intro i hi
    rw [hbound] at hi
    cases hi
  refine ⟨hstart, hnote, hprogram, ⟨q, hq, hnone.mpr hplain⟩, ?_⟩
  rw [hupdate (.inr hplain)]

/-- On the first channel, the second note reads the arpeggio of the first one: it sounds an octave
above one without an instrument. -/
theorem arpeggio_left_octaveModule :
    let p := Player.atPosition octaveModule.song ⟨0, 0⟩
    let v := ((p.after octaveModule [.step]).begun octaveModule).voices.get .ch1
    let v' := (p.after octaveModule [.step, .step]).voices.get .ch1
    Player.start octaveModule ⟨0, 0⟩ = .ok p ∧
      (p.after octaveModule [.step, .step]).isHalted = false ∧
      (p.after octaveModule [.step]).noteStarted? octaveModule .ch1 = some 0 ∧
      v.selected = some 9 ∧ octaveModule.instruments.get? 9 = none ∧
      (v'.pitch.bind Pitch.arpeggioSequence).isSome = true ∧
      (v.update octaveModule .ch1).2 = [.frequency .ch1 0x416] ∧
      ((v.withoutInstrument .ch1).update octaveModule .ch1).2 = [.frequency .ch1 0x2C] := by
  intro p v v'
  refine ⟨rfl, ?_, ?_, ?_, ?_, ?_, ?_, ?_⟩ <;> decide +kernel

end Chiptune
