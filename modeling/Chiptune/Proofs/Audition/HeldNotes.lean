import Chiptune.Proofs.Audition.Echo
import Chiptune.Proofs.Audition.Outputs
import Chiptune.Recording

/-! # A note that is held and released

An audition of an instrument takes the instrument up, holds one note for some frames, and releases
it for some more.  While the note is held it sounds on every frame, on a tone channel with one
frequency each; once it is released, and throughout if there is no such note, every frame switches
the channel off and does no more.  The frames are reserved before the first one is played, so that
there are none at all if they are too many to be reserved, whereas a recording grows with its frames.

* `NoteGate.Shuts` says that a gate is closed from the next frame on.
* `Audition.frames_add_of_le` tells the frames before the release from the others, and
  `frames_released` says what these write.
* `Audition.Fits` ties pitch and program to the channel, and `Fits.frequencies_step` counts the
  frequencies of a frame.
* `Audition.holding` is the audition behind some frames of a note, `gate_holding` says how its gate
  stands, and `heldWrites_zero` what the first frame writes.
* `Audition.HoldsAndReleases` says what some frames are that hold and release a note,
  `holdsAndReleases_heldFrames` that `heldFrames` do so, and `Module.audition_eq` when an audition
  has them. -/

namespace Chiptune

open DeviceWrite

namespace AuditionPitch

/-- Whether a pitch is that of the noise channel. -/
def isNoise : AuditionPitch → Bool
  | tone _ => false
  | noise _ => true

/-- A new pitch is that of its channel. -/
theorem isNoise_new (c : Channel) : (new c).isNoise = c.isNoise := by
  cases c <;> rfl

/-- Staging leaves the pitch of noise noise, and that of a tone a tone. -/
theorem isNoise_stage (p : AuditionPitch) (changes : PitchParams) :
    (p.stage changes).isNoise = p.isNoise := by
  cases p <;> rfl

/-- A frame leaves the pitch of noise noise, and that of a tone a tone. -/
theorem isNoise_play (p : AuditionPitch) (started : Option Nat) :
    (p.play started).isNoise = p.isNoise := by
  cases p <;> rfl

end AuditionPitch

/-! ## Gates that shut -/

namespace NoteGate

variable {g : NoteGate}

/-- From the next frame on, no note sounds unless another one is requested. -/
def Shuts (g : NoteGate) : Prop :=
  g.step.1.isOpen = false ∧ g.step.1.request = none

/-- A gate without a note and without a request for one stays shut. -/
theorem shuts_of_silent (hopen : g.isOpen = false) (hrequest : g.request = none) : g.Shuts := by
  obtain ⟨request, cutIn, isOpen⟩ := g
  subst hopen hrequest
  exact ⟨rfl, rfl⟩

/-- A gate that shuts does so for good. -/
theorem Shuts.step (h : g.Shuts) : g.step.1.Shuts :=
  shuts_of_silent h.1 h.2

/-- A cut shuts a gate unless a later note is requested. -/
theorem shuts_requestCut (h : g.laterRequest = none) : (g.requestCut 0).Shuts :=
  ⟨Bool.and_false _, h⟩

end NoteGate

namespace Audition

variable {a : Audition} {waves : Table Waveform} {i : Instrument}

/-! ## Frames -/

/-- A frame counts the gate down, whether it plays or not. -/
@[simp] theorem gate_step (a : Audition) (waves : Table Waveform) :
    (a.step waves).1.gate = a.gate.step.1 := by
  cases hopen : a.gated.isPlaying with
  | true =>
      rw [step_of_open waves hopen, state_sound]
      rfl
  | false =>
      rw [step_of_closed waves hopen]
      rfl

/-- The audition behind some frames. -/
def stepped (a : Audition) (waves : Table Waveform) (n : Nat) : Audition :=
  a.after (List.replicate n (.step waves))

/-- The frame on which the note is released starts with that, and no other does. -/
theorem frames_succ (waves : Table Waveform) (hold k n : Nat) (a : Audition) :
    frames waves hold k (n + 1) a =
      ((if k = hold then a.stop else a).step waves).2 ::
        frames waves hold (k + 1) n ((if k = hold then a.stop else a).step waves).1 := rfl

/-- **The frames before the release are played one behind the other.** -/
theorem frames_add_of_le {hold k n : Nat} (h : k + n ≤ hold) (waves : Table Waveform) (n' : Nat)
    (a : Audition) :
    frames waves hold k (n + n') a =
      ((List.range n).map fun j => ((a.stepped waves j).step waves).2) ++
        frames waves hold (k + n) n' (a.stepped waves n) := by
  induction n generalizing k a with
  | zero =>
      rw [Nat.zero_add]
      rfl
  | succ n ih =>
      have hheld : k ≠ hold := by omega
      have hbehind : k + 1 + n ≤ hold := by omega
      rw [Nat.add_right_comm, frames_succ, if_neg hheld, ih hbehind, List.range_succ_eq_map,
        List.map_cons, List.map_map, Nat.add_assoc k 1 n, Nat.add_comm 1 n]
      rfl

/-- If the gate shuts, every frame switches the channel off and does no more. -/
theorem frames_of_shuts (h : a.gate.Shuts) (waves : Table Waveform) {hold k : Nat} (hk : hold < k)
    (n : Nat) :
    frames waves hold k n a = List.replicate n [.channelOutput a.channel Panning.off] := by
  induction n generalizing a k with
  | zero => rfl
  | succ n ih =>
      have hclosed : a.gated.isPlaying = false := h.1
      have hbehind : (a.step waves).1.gate.Shuts := gate_step a waves ▸ h.step
      rw [frames_succ, if_neg (Nat.ne_of_gt hk), ih hbehind (Nat.lt_succ_of_lt hk), channel_step,
        step_of_closed waves hclosed, List.replicate_succ]

/-- Once the note is released, every frame switches the channel off and does no more. -/
theorem frames_released (h : a.stop.gate.Shuts) (waves : Table Waveform) (hold n : Nat) :
    frames waves hold hold n a = List.replicate n [.channelOutput a.channel Panning.off] := by
  cases n with
  | zero => rfl
  | succ n =>
      have hclosed : a.stop.gated.isPlaying = false := h.1
      have hbehind : (a.stop.step waves).1.gate.Shuts := gate_step a.stop waves ▸ h.step
      rw [frames_succ, if_pos rfl, frames_of_shuts hbehind waves (Nat.lt_succ_self hold),
        channel_step, step_of_closed waves hclosed, List.replicate_succ]
      rfl

/-! ## Frequencies -/

/-- What holds of an audition in all runs. -/
structure Fits (a : Audition) : Prop where
  /-- The program rules the channel. -/
  ruled : a.Ruled
  /-- The switch of the program is on exactly if a whole command is left. -/
  settled : a.program.Settled
  /-- The pitch is that of the channel. -/
  pitch : a.pitch.isNoise = a.channel.isNoise

/-- An instrument is bound to the pitch and the program of its own channel. -/
theorem fits_ofInstrument (i : Instrument) (waves : Table Waveform) :
    (ofInstrument i waves).1.Fits where
  ruled := ruled_ofInstrument i waves
  settled := ProgramRunner.settled_setProgram (.new i.channel) i.program
  pitch := by
    show ((AuditionPitch.new i.channel).stage _).isNoise = i.channel.isNoise
    rw [AuditionPitch.isNoise_stage, AuditionPitch.isNoise_new]

/-- A note that may start settles the program anew and leaves the kind of pitch as it is. -/
theorem Fits.played (h : a.Fits) (started : Option Nat) : (a.played started).Fits where
  ruled := h.ruled.played started
  settled := by
    unfold Audition.played
    dsimp only
    split
    · exact ProgramRunner.settled_settle _
    · exact h.settled
  pitch := (a.pitch.isNoise_play started).trans h.pitch

/-- A frame keeps what holds of an audition. -/
theorem Fits.step (h : a.Fits) (waves : Table Waveform) : (a.step waves).1.Fits := by
  have hgated : a.gated.Fits := ⟨h.ruled, h.settled, h.pitch⟩
  cases hopen : a.gated.isPlaying with
  | true =>
      have hplayed := hgated.played a.gate.step.2
      rw [step_of_open waves hopen, state_sound]
      exact
        { ruled := (ProgramRunner.channel_step ..).trans hplayed.ruled
          settled := ProgramRunner.settled_step hplayed.settled
          pitch := hplayed.pitch }
  | false =>
      rw [step_of_closed waves hopen]
      exact hgated

/-- The pitch sets the frequency of its channel once, unless the program does. -/
theorem Fits.frequencies_writePitch (h : a.Fits) (started : Option Nat) (d : Channel) :
    frequencies d (a.writePitch started).2 =
      if a.program.isRunning = false ∧ a.channel = d ∧ d.isNoise = false then [a.pitch.frequency]
      else [] := by
  have hpitch := h.pitch
  rw [writePitch]
  -- noise has no frequency, and a tone leaves its own to a program that runs
  cases hp : a.pitch with
  | noise q =>
      have hnoise : a.channel.isNoise = true := by rw [← hpitch, hp]; rfl
      rw [if_neg fun hd => Bool.false_ne_true (by rw [← hd.2.2, ← hd.2.1, hnoise])]
      dsimp only
      split
      · exact (registers_register _ _).untuned d
      · rfl
  | tone q =>
      have hnoise : a.channel.isNoise = false := by rw [← hpitch, hp]; rfl
      dsimp only
      cases a.program.isRunning with
      | true =>
          rw [if_pos rfl, if_neg fun hd => Bool.false_ne_true hd.1.symm]
          rfl
      | false =>
          rw [if_neg Bool.false_ne_true, frequencies_frequency]
          by_cases hd : a.channel = d
          · rw [if_pos hd, if_pos ⟨rfl, hd, hd ▸ hnoise⟩]
            rfl
          · rw [if_neg hd, if_neg fun hd' => hd hd'.2.1]

/-- The start of a note sets no frequency. -/
theorem untuned_startWrites (a : Audition) (started : Option Nat) :
    Untuned (a.startWrites started) := by
  unfold startWrites
  split
  · refine Untuned.append ?_ (untuned_channelOutput _ _)
    split
    · exact untuned_restart _
    · exact untuned_nil
  · exact untuned_nil

/-- The frequency of a frame of a note: the one of the pitch, bent by the program if that obeys a
command. -/
def frameFrequency (a : Audition) (waves : Table Waveform) : Nat :=
  let played := a.gated.played a.gate.step.2
  let frequency := played.pitch.frequency
  if played.program.isRunning then (played.program.step waves frequency).1.bend frequency
  else frequency

/-- **A frame of a note sets the frequency of its channel once, unless that plays noise**: either
the pitch or the program does. -/
theorem Fits.frequencies_step (h : a.Fits) (waves : Table Waveform)
    (hopen : a.gated.isPlaying = true) (d : Channel) :
    frequencies d (a.step waves).2 =
      if a.channel = d ∧ d.isNoise = false then [a.frameFrequency waves] else [] := by
  have hplayed : (a.gated.played a.gate.step.2).Fits :=
    Fits.played (a := a.gated) ⟨h.ruled, h.settled, h.pitch⟩ _
  have hchannel : (a.gated.played a.gate.step.2).channel = a.channel := rfl
  rw [step_of_open waves hopen, writes_sound, frequencies_append, frequencies_append,
    untuned_startWrites, List.append_nil, hplayed.frequencies_writePitch,
    ProgramRunner.frequencies_step hplayed.settled, hplayed.ruled, hchannel, frameFrequency]
  -- exactly one of the two writers is silent
  cases (a.gated.played a.gate.step.2).program.isRunning with
  | true => simp only [Bool.true_eq_false, false_and, true_and, if_false, if_true]; rfl
  | false =>
      simp only [Bool.false_eq_true, false_and, true_and, if_false, List.append_nil]

/-! ## Holding a note -/

/-- The audition of an instrument on which a note is held, behind some frames of it. -/
def holding (i : Instrument) (waves : Table Waveform) (note n : Nat) : Audition :=
  new.after (.setInstrument i waves :: .playNote note :: List.replicate n (.step waves))

/-- One more frame is played behind those in which the note was held. -/
theorem holding_succ (i : Instrument) (waves : Table Waveform) (note n : Nat) :
    holding i waves note (n + 1) = ((holding i waves note n).step waves).1 := by
  rw [holding, holding, List.replicate_succ', ← List.cons_append, ← List.cons_append, after_concat]
  rfl

/-- The writes of a frame in which a note is held. -/
def heldWrites (i : Instrument) (waves : Table Waveform) (note n : Nat) : List DeviceWrite :=
  ((holding i waves note n).step waves).2

/-- Before the first frame, the note has only been asked for. -/
theorem gate_holding_zero (i : Instrument) (waves : Table Waveform) (note : Nat) :
    (holding i waves note 0).gate = NoteGate.new.requestNote note 0 := rfl

/-- A note is held on the channel of its instrument. -/
@[simp] theorem channel_holding (i : Instrument) (waves : Table Waveform) (note n : Nat) :
    (holding i waves note n).channel = i.channel := by
  induction n with
  | zero => rfl
  | succ n ih => rw [holding_succ, channel_step, ih]

/-- The invariant of an audition holds behind every frame in which a note is held. -/
theorem fits_holding (i : Instrument) (waves : Table Waveform) (note n : Nat) :
    (holding i waves note n).Fits := by
  induction n with
  | zero =>
      have hnew := fits_ofInstrument i waves
      exact ⟨hnew.ruled, hnew.settled, hnew.pitch⟩
  | succ n ih =>
      rw [holding_succ]
      exact ih.step waves

/-- A playable note waits for the first frame, on which it opens the gate. -/
theorem gate_holding {note : Nat} (hnote : note ≤ Note.last) (i : Instrument)
    (waves : Table Waveform) (n : Nat) :
    (holding i waves note n).gate.step =
      ({ isOpen := true }, if n = 0 then some note else none) := by
  induction n with
  | zero =>
      have hlt : note < Note.cutIndex := Nat.lt_succ_of_le hnote
      rw [gate_holding_zero, NoteGate.requestNote, if_neg (Nat.ne_of_lt hlt), if_pos hlt]
      rfl
  | succ n ih =>
      rw [holding_succ, gate_step, ih]
      rfl

/-- A playable note sounds in every frame in which it is held. -/
theorem isPlaying_gated_holding {note : Nat} (hnote : note ≤ Note.last) (i : Instrument)
    (waves : Table Waveform) (n : Nat) : (holding i waves note n).gated.isPlaying = true :=
  congrArg (fun step => step.1.isOpen) (gate_holding hnote i waves n)

/-- Each frame of a playable note sets the frequency of a tone channel once. -/
theorem frequencies_heldWrites {note : Nat} (hnote : note ≤ Note.last) (waves : Table Waveform)
    (htone : i.channel.isNoise = false) (n : Nat) (d : Channel) :
    frequencies d (heldWrites i waves note n) =
      if i.channel = d then [(holding i waves note n).frameFrequency waves] else [] := by
  rw [heldWrites, (fits_holding i waves note n).frequencies_step waves
    (isPlaying_gated_holding hnote i waves n), channel_holding]
  by_cases hd : i.channel = d
  · rw [if_pos hd, if_pos ⟨hd, hd ▸ htone⟩]
  · rw [if_neg hd, if_neg fun h => hd h.1]

/-- No other note waits behind a frame. -/
theorem laterRequest_holding (i : Instrument) (waves : Table Waveform) (note n : Nat) :
    (holding i waves note n).gate.laterRequest = none := by
  induction n with
  | zero =>
      rw [gate_holding_zero]
      unfold NoteGate.requestNote
      split
      · rfl
      · split <;> rfl
  | succ n ih =>
      rw [holding_succ, gate_step]
      exact congrArg (fun request => NoteGate.laterRequest { request }) ih

/-- A note that cannot be played leaves the gate shut. -/
theorem shuts_holding {note : Nat} (hnote : Note.last < note) (i : Instrument)
    (waves : Table Waveform) (n : Nat) : (holding i waves note n).gate.Shuts := by
  induction n with
  | zero =>
      rw [gate_holding_zero, NoteGate.requestNote]
      split
      · exact NoteGate.shuts_requestCut rfl
      · have hcut : ¬note < Note.cutIndex := Nat.not_lt.mpr hnote
        rw [if_neg hcut]
        exact NoteGate.shuts_of_silent rfl rfl
  | succ n ih =>
      rw [holding_succ, gate_step]
      exact ih.step

/-- A note that cannot be played switches the channel off and does no more. -/
theorem heldWrites_of_last_lt {note : Nat} (hnote : Note.last < note) (i : Instrument)
    (waves : Table Waveform) (n : Nat) :
    heldWrites i waves note n = [.channelOutput i.channel Panning.off] := by
  have hclosed : (holding i waves note n).gated.isPlaying = false :=
    (shuts_holding hnote i waves n).1
  rw [heldWrites, step_of_closed waves hclosed, channel_holding]

/-- The pitch switches no output. -/
theorem besideOutputs_writePitch (a : Audition) (started : Option Nat) :
    besideOutputs (a.writePitch started).2 = (a.writePitch started).2 := by
  unfold writePitch
  split
  · dsimp only
    split <;> rfl
  · dsimp only
    split <;> rfl

/-- The first note of an instrument starts its program, which has just been loaded, anew. -/
theorem program_first_frame (i : Instrument) (waves : Table Waveform) (note : Nat) :
    ((holding i waves note 0).gated.played (some note)).program =
      .load i.channel i.program := by
  have hprogram : (ProgramRunner.load i.channel i.program).program = i.program := by
    rw [ProgramRunner.load, if_pos i.length_le]
    rfl
  have hchannel : (holding i waves note 0).program.channel =
      (ProgramRunner.new i.channel).channel :=
    ruled_ofInstrument i waves
  exact ProgramRunner.reset_eq_setProgram hchannel hprogram

/-- What the first frame of a note writes before it switches the outputs: the pitch, and the start
of the channel if its envelope slopes. -/
def attackWrites (i : Instrument) (waves : Table Waveform) (note : Nat) : List DeviceWrite :=
  (((holding i waves note 0).gated.played (some note)).writePitch (some note)).2 ++
    if i.channel.envelopeSlopes i.envelope then [.restart i.channel] else []

/-- Nothing before the switch touches an output. -/
theorem besideOutputs_attackWrites (i : Instrument) (waves : Table Waveform) (note : Nat) :
    besideOutputs (attackWrites i waves note) = attackWrites i waves note := by
  rw [attackWrites, besideOutputs_append, besideOutputs_writePitch]
  split <;> rfl

/-- **The first frame of a note switches the outputs of its channel before its program runs**, which
is the one of the instrument from its first command on.  Bit one of the panning of the instrument is
the left output, bit zero the right one. -/
theorem heldWrites_zero {note : Nat} (hnote : note ≤ Note.last) (i : Instrument)
    (waves : Table Waveform) :
    heldWrites i waves note 0 =
      attackWrites i waves note ++
        .channelOutput i.channel ⟨i.panning.toNat.testBit 1, i.panning.toNat.testBit 0⟩ ::
          ((ProgramRunner.load i.channel i.program).step waves
            ((holding i waves note 0).gated.played (some note)).pitch.frequency).2 := by
  have hopen := isPlaying_gated_holding hnote i waves 0
  have hstarted : (holding i waves note 0).gate.step.2 = some note :=
    congrArg Prod.snd (gate_holding hnote i waves 0)
  have hstart : (holding i waves note 0).gated.startWrites (some note) =
      (if i.channel.envelopeSlopes i.envelope then [.restart i.channel] else []) ++
        [.channelOutput i.channel (.ofByte i.panning)] := rfl
  rw [heldWrites, step_of_open waves hopen, writes_sound, hstarted, program_first_frame, hstart,
    attackWrites, Panning.ofByte_eq]
  simp only [List.append_assoc, List.singleton_append]

/-! ## Frames of a held note -/

/-- The frames of a note on an instrument: the instrument is taken up, the note is held, and the
channel is switched off for as long as it is released. -/
def heldFrames (i : Instrument) (waves : Table Waveform) (note hold release : Nat) :
    List (List DeviceWrite) :=
  (ofInstrument i waves).2 ::
    ((List.range hold).map (heldWrites i waves note) ++
      List.replicate release [.channelOutput i.channel Panning.off])

/-- Some frames take up an instrument, hold a note on it, and release it. -/
structure HoldsAndReleases (i : Instrument) (waves : Table Waveform) (note hold release : Nat)
    (frames : List (List DeviceWrite)) : Prop where
  /-- There is one frame for taking up the instrument, and one for each that the note lasts. -/
  length : frames.length = hold + release + 1
  /-- The first frame takes up the instrument. -/
  setup : frames[0]? = some (ofInstrument i waves).2
  /-- It leaves the channel off on both outputs. -/
  setup_off : ∃ writes,
    (ofInstrument i waves).2 = writes ++ [.channelOutput i.channel ⟨false, false⟩]
  /-- In a frame in which the note is held, it plays, and a tone channel gets one frequency. -/
  held : note ≤ 83 → ∀ k < hold,
    frames[k + 1]? = some (heldWrites i waves note k) ∧
      (holding i waves note (k + 1)).isPlaying = true ∧
      (i.channel.isNoise = false → ∃ f, ∀ c,
        frequencies c (heldWrites i waves note k) = if i.channel = c then [f] else [])
  /-- The first of them switches the outputs to the panning of the instrument, and then runs the
  program from its first command on. -/
  attack : note ≤ 83 → 0 < hold → ∃ frequency,
    frames[1]? = some (attackWrites i waves note ++
      .channelOutput i.channel ⟨i.panning.toNat.testBit 1, i.panning.toNat.testBit 0⟩ ::
        ((ProgramRunner.load i.channel i.program).step waves frequency).2) ∧
      besideOutputs (attackWrites i waves note) = attackWrites i waves note
  /-- A frame of the release switches the channel off on both outputs and does no more. -/
  released : ∀ k < release,
    frames[hold + k + 1]? = some [.channelOutput i.channel ⟨false, false⟩]
  /-- So does every frame of a note that cannot be played. -/
  shut : 84 ≤ note → ∀ k < hold + release,
    frames[k + 1]? = some [.channelOutput i.channel ⟨false, false⟩]

/-- The frames in which a note is held stand behind the first one. -/
theorem getElem?_heldFrames_held {hold k : Nat} (hk : k < hold) (i : Instrument)
    (waves : Table Waveform) (note release : Nat) :
    (heldFrames i waves note hold release)[k + 1]? = some (heldWrites i waves note k) := by
  have hlength : ((List.range hold).map (heldWrites i waves note)).length = hold := by
    rw [List.length_map, List.length_range]
  rw [heldFrames, List.getElem?_cons_succ, List.getElem?_append_left (hlength.symm ▸ hk),
    List.getElem?_map, List.getElem?_range hk]
  rfl

/-- The frames of the release stand behind those in which the note is held. -/
theorem getElem?_heldFrames_released {release k : Nat} (hk : k < release) (i : Instrument)
    (waves : Table Waveform) (note hold : Nat) :
    (heldFrames i waves note hold release)[hold + k + 1]? =
      some [.channelOutput i.channel Panning.off] := by
  have hlength : ((List.range hold).map (heldWrites i waves note)).length = hold := by
    rw [List.length_map, List.length_range]
  rw [heldFrames, List.getElem?_cons_succ,
    List.getElem?_append_right (hlength.symm ▸ Nat.le_add_right ..), hlength,
    Nat.add_sub_cancel_left, List.getElem?_replicate_of_lt hk]

/-- **The frames of a note hold and release it.** -/
theorem holdsAndReleases_heldFrames (i : Instrument) (waves : Table Waveform)
    (note hold release : Nat) :
    HoldsAndReleases i waves note hold release (heldFrames i waves note hold release) where
  length := by
    rw [heldFrames, List.length_cons, List.length_append, List.length_map, List.length_range,
      List.length_replicate]
  setup := rfl
  setup_off := ⟨_, rfl⟩
  held hnote k hk := by
    refine ⟨getElem?_heldFrames_held hk .., ?_, fun htone =>
      ⟨_, frequencies_heldWrites hnote waves htone k⟩⟩
    rw [holding_succ]
    exact (isPlaying_step _ _).trans (isPlaying_gated_holding hnote i waves k)
  attack hnote hhold :=
    ⟨_, (getElem?_heldFrames_held hhold ..).trans (congrArg some (heldWrites_zero hnote i waves)),
      besideOutputs_attackWrites i waves note⟩
  released _ hk := getElem?_heldFrames_released hk ..
  shut hnote k hk := by
    -- the frame is one in which the note is held, or one of the release
    rcases Nat.lt_or_ge k hold with hheld | hheld
    · exact (getElem?_heldFrames_held hheld ..).trans
        (congrArg some (heldWrites_of_last_lt hnote i waves k))
    · obtain ⟨j, rfl⟩ := Nat.exists_eq_add_of_le hheld
      exact getElem?_heldFrames_released (Nat.lt_of_add_lt_add_left hk) ..

end Audition

namespace Module

variable {m : Module} {id : Nat} {i : Instrument}

open Audition

/-- **An audition holds and releases its note if there is room for its frames**, and does nothing
otherwise. -/
theorem audition_eq (hi : m.instruments.get? id = some i) (note hold release : Nat) :
    m.audition id note hold release =
      ((reserve (hold + release + 1)).mapError RecordingError.noRoom).map fun _ =>
        heldFrames i m.waveforms note hold release := by
  have hshuts : (holding i m.waveforms note hold).stop.gate.Shuts :=
    NoteGate.shuts_requestCut (laterRequest_holding i m.waveforms note hold)
  have hheld : ((ofInstrument i m.waveforms).1.playNote note).frames m.waveforms hold 0
      (hold + release) =
        (List.range hold).map (heldWrites i m.waveforms note) ++
          (holding i m.waveforms note hold).frames m.waveforms hold (0 + hold) release :=
    frames_add_of_le (Nat.le_of_eq (Nat.zero_add hold)) m.waveforms release _
  rw [Nat.zero_add, frames_released hshuts, channel_holding] at hheld
  rw [audition, hi, heldFrames]
  dsimp only
  rw [hheld]
  cases reserve (hold + release + 1) <;> rfl

/-- There is no room for the frames of an audition that is too long. -/
theorem audition_eq_noRoom (hi : m.instruments.get? id = some i) {note hold release : Nat}
    (hbytes : 2 ^ 63 ≤ 24 * (hold + release + 1)) :
    m.audition id note hold release =
      .error (.noRoom (if hold + release + 1 < 2 ^ 64 then .bytes else .number)) := by
  have hroom : maxBlockBytes < (hold + release + 1) * frameBytes := by
    unfold maxBlockBytes frameBytes
    omega
  have hsize : UInt64.size = 2 ^ 64 := rfl
  rw [audition_eq hi, reserve, if_pos hroom, hsize]
  by_cases hnumber : hold + release + 1 < 2 ^ 64
  · rw [if_neg (Nat.not_le.mpr hnumber), if_pos hnumber]
    rfl
  · rw [if_pos (Nat.le_of_not_lt hnumber), if_neg hnumber]
    rfl

/-- **An audition holds a note and releases it as long as its frames can be reserved.**  They can if
24 bytes for each of them fit 63 bits; if they do not, the audition ends before its first frame, as
it does if the number of frames does not fit 64 bits. -/
theorem audition_holds_and_releases (m : Module) {id : Nat} {i : Instrument}
    (hi : m.instruments.get? id = some i) (note hold release : Nat) :
    (24 * (hold + release + 1) < 2 ^ 63 →
      ∃ frames, m.audition id note hold release = .ok frames ∧
        HoldsAndReleases i m.waveforms note hold release frames) ∧
      (2 ^ 63 ≤ 24 * (hold + release + 1) →
        m.audition id note hold release =
          .error (.noRoom (if hold + release + 1 < 2 ^ 64 then .bytes else .number))) := by
  refine ⟨fun hbytes => ?_, audition_eq_noRoom hi⟩
  have hroom : reserve (hold + release + 1) = .ok () := by
    rw [reserve_eq_ok_iff]
    unfold maxBlockBytes frameBytes
    omega
  refine ⟨_, ?_, holdsAndReleases_heldFrames i m.waveforms note hold release⟩
  rw [audition_eq hi, hroom]
  rfl

end Module

/-- The chord on the left output alone. -/
def leaningInstrument : Instrument :=
  { chordInstrument with panning := 2 }

/-- A module with this instrument. -/
def leaningModule : Module :=
  { chordModule with instruments := Table.ofList [(0, leaningInstrument)] }

open Audition in
/-- The chord is held for two frames and released for one: both frames of the note set one
frequency, and the first one switches the left output on and starts the program. -/
theorem audition_leaningModule :
    leaningModule.instruments.get? 0 = some leaningInstrument ∧
      24 * (2 + 1 + 1) < 2 ^ 63 ∧ 24 ≤ 83 ∧ leaningInstrument.channel.isNoise = false ∧
      ∃ frames, leaningModule.audition 0 24 2 1 = .ok frames ∧
        frames.length = 4 ∧
        frames[3]? = some [.channelOutput .ch1 ⟨false, false⟩] ∧
        (∀ k < 2, ∃ f, ∀ c,
          frequencies c (heldWrites leaningInstrument leaningModule.waveforms 24 k) =
            if .ch1 = c then [f] else []) ∧
        ∃ frequency, frames[1]? =
          some (attackWrites leaningInstrument leaningModule.waveforms 24 ++
            .channelOutput .ch1 ⟨true, false⟩ ::
              ((ProgramRunner.load .ch1 [0x00, 0x0A]).step leaningModule.waveforms frequency).2) := by
  have hinstrument : leaningModule.instruments.get? 0 = some leaningInstrument := by rfl
  have htone : leaningInstrument.channel.isNoise = false := by decide
  obtain ⟨frames, heq, hframes⟩ :=
    (leaningModule.audition_holds_and_releases hinstrument 24 2 1).1 (by decide)
  obtain ⟨frequency, hattack, -⟩ := hframes.attack (by decide) (by decide)
  exact ⟨hinstrument, by decide, by decide, htone, frames, heq, hframes.length,
    hframes.released 0 (by decide), fun k hk => (hframes.held (by decide) k hk).2.2 htone,
    frequency, hattack⟩

/-- If the chord is to be held for a quintillion frames, there are none, although their number fits
64 bits. -/
theorem no_audition_leaningModule :
    leaningModule.instruments.get? 0 = some leaningInstrument ∧
      2 ^ 60 + 0 + 1 < 2 ^ 64 ∧
      leaningModule.audition 0 84 (2 ^ 60) 0 = .error (.noRoom .bytes) ∧
      ¬∃ frames, leaningModule.audition 0 84 (2 ^ 60) 0 = .ok frames := by
  have hinstrument : leaningModule.instruments.get? 0 = some leaningInstrument := by rfl
  have hnone : leaningModule.audition 0 84 (2 ^ 60) 0 = .error (.noRoom .bytes) :=
    leaningModule.audition_eq_noRoom hinstrument (by decide)
  refine ⟨hinstrument, by decide, hnone, ?_⟩
  rintro ⟨frames, hframes⟩
  cases hnone.symm.trans hframes

end Chiptune
