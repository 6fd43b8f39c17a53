import Chiptune.Proofs.Playback.Voices

/-! # Frequencies of a frame

The frequency of a tone channel has two writers: the voice, as long as no program runs, and the
program, whenever it obeys a command.  That they never both write, and never both leave it to the
other, rests on the switch of the program: it is on exactly if a whole command is left.

* `Untuned` lists of writes set no frequency; those of settings are `Registers`, and so are untuned.
* `Voice.Fits` is what holds of the voice of a channel in all runs.
* `frequencies_update` gives the frequencies that a voice writes on a frame.
* `frequency_once_per_frame` gives those of a whole frame. -/

namespace Chiptune

/-! ## Writes without a frequency -/

namespace DeviceWrite

/-- No write of a list sets a frequency. -/
def Untuned (ws : List DeviceWrite) : Prop :=
  ∀ c, frequencies c ws = []

/-- The frequencies of lists that stand one behind the other. -/
theorem frequencies_flatMap {α : Type} (c : Channel) (xs : List α) (f : α → List DeviceWrite) :
    frequencies c (xs.flatMap f) = xs.flatMap fun x => frequencies c (f x) :=
  List.filterMap_flatMap ..

/-- No writes set no frequency. -/
theorem untuned_nil : Untuned [] := frequencies_nil

/-- Untuned lists that stand one behind the other are untuned together. -/
theorem Untuned.append {ws ws' : List DeviceWrite} (h : Untuned ws) (h' : Untuned ws') :
    Untuned (ws ++ ws') := by
  intro c
  rw [frequencies_append, h c, h' c, List.append_nil]

/-- Lists that are untuned for each of some values are untuned together. -/
theorem Untuned.flatMap {α : Type} {xs : List α} {f : α → List DeviceWrite}
    (h : ∀ x ∈ xs, Untuned (f x)) : Untuned (xs.flatMap f) := by
  intro c
  rw [frequencies_flatMap, List.flatMap_eq_nil_iff]
  intro x hx
  exact h x hx c

/-- A retrigger leaves the frequency alone. -/
theorem untuned_restart (c : Channel) : Untuned [.restart c] :=
  fun _ => rfl

/-- The output switches have nothing to do with the frequency. -/
theorem untuned_outputEnable (mask : UInt8) : Untuned [.outputEnable mask] :=
  fun _ => rfl

/-- The panning of a channel has nothing to do with its frequency. -/
theorem untuned_channelOutput (c : Channel) (panning : Panning) :
    Untuned [.channelOutput c panning] :=
  fun _ => rfl

/-- A write of a frequency sets it on its channel only. -/
theorem frequencies_frequency (c d : Channel) (value : Nat) :
    frequencies d [.frequency c value] = if c = d then [value] else [] := by
  by_cases h : c = d
  -- the write is kept, or it is left out
  · rw [if_pos h, frequencies, List.filterMap_cons, frequencyOn?, if_pos h]
    rfl
  · rw [if_neg h, frequencies, List.filterMap_cons, frequencyOn?, if_neg h]
    rfl

/-! ## Settings -/

/-- All writes of a list are to registers. -/
def Registers (ws : List DeviceWrite) : Prop :=
  ∀ w ∈ ws, ∃ address value, w = .register address value

/-- No writes are to anything but registers. -/
theorem registers_nil : Registers [] :=
  List.forall_mem_nil _

/-- A write to a register is one. -/
theorem registers_register (address : Nat) (value : UInt8) :
    Registers [.register address value] :=
  List.forall_mem_singleton.mpr ⟨address, value, rfl⟩

/-- Writes to registers may stand behind such writes. -/
theorem Registers.append {ws ws' : List DeviceWrite} (h : Registers ws) (h' : Registers ws') :
    Registers (ws ++ ws') :=
  List.forall_mem_append.mpr ⟨h, h'⟩

/-- Writes to registers for each of some values are so together. -/
theorem Registers.flatMap {α : Type} {xs : List α} {f : α → List DeviceWrite}
    (h : ∀ x ∈ xs, Registers (f x)) : Registers (xs.flatMap f) := by
  intro w hw
  obtain ⟨x, hx, hw⟩ := List.mem_flatMap.mp hw
  exact h x hx w hw

/-- Writes to registers set no frequency. -/
theorem Registers.untuned {ws : List DeviceWrite} (h : Registers ws) : Untuned ws := by
  refine fun c => List.filterMap_eq_nil_iff.mpr fun w hw => ?_
  obtain ⟨address, value, rfl⟩ := h w hw
  rfl

end DeviceWrite

open DeviceWrite

/-- A waveform is loaded through registers. -/
theorem Waveform.registers_loadWrites (w : Waveform) : Registers w.loadWrites := by
  intro write hwrite
  rw [loadWrites, List.mem_append, List.mem_cons, List.mem_singleton, List.mem_map] at hwrite
  obtain (rfl | ⟨-, -, rfl⟩) | rfl := hwrite
  · exact ⟨_, _, rfl⟩
  · exact ⟨_, _, rfl⟩
  · exact ⟨_, _, rfl⟩

namespace Channel

/-- An envelope is written to registers. -/
theorem registers_envelopeWrites (c : Channel) (waves : Table Waveform) (envelope : UInt8) :
    Registers (c.envelopeWrites waves envelope) := by
  unfold envelopeWrites
  split
  · exact registers_register _ _
  · split
    · next w _ => exact w.registers_loadWrites
    · exact registers_nil

/-- A timbre is written to a register. -/
theorem registers_timbreWrites (c : Channel) (timbre : UInt8) :
    Registers (c.timbreWrites timbre) := by
  cases c with
  | ch1 | ch2 | ch3 => exact registers_register _ _
  | ch4 => exact registers_nil

/-- The first auxiliary byte is written to a register. -/
theorem registers_firstAuxWrites (c : Channel) (value : UInt8) :
    Registers (c.firstAuxWrites value) := by
  cases c with
  | ch1 | ch4 => exact registers_register _ _
  | ch2 | ch3 => exact registers_nil

end Channel

/-! ## Programs -/

namespace ProgramRunner

variable {r : ProgramRunner} {waves : Table Waveform} {frequency : Nat}

/-- The switch of a runner is on exactly if a whole command is left. -/
def Settled (r : ProgramRunner) : Prop :=
  r.isRunning = r.next?.isSome

/-- The command that a runner obeys on a frame. -/
def obeyed? (r : ProgramRunner) : Option Command :=
  if r.isRunning then r.next?.map Prod.fst else none

/-- A new runner has stopped, and no command is left of its empty program. -/
theorem settled_new (c : Channel) : (new c).Settled := rfl

/-- Settling is what sets the switch by the command that is left. -/
theorem settled_settle (r : ProgramRunner) : r.settle.Settled := rfl

/-- A loaded program is settled, be it the one that is asked for or, if that is too long, none. -/
theorem settled_setProgram (r : ProgramRunner) (program : List UInt8) :
    (r.setProgram program).Settled := by
  rw [setProgram, load]
  split
  · exact settled_settle _
  · exact settled_new _

/-- A program is loaded for the channel of its runner. -/
@[simp] theorem channel_setProgram (r : ProgramRunner) (program : List UInt8) :
    (r.setProgram program).channel = r.channel := by
  rw [setProgram, load]
  split <;> rfl

/-- A settled runner that runs obeys a command, and the switch follows what is left. -/
theorem step_of_running (h : r.Settled) (hr : r.isRunning = true) (waves : Table Waveform)
    (frequency : Nat) :
    ∃ c length, r.next? = some (c, length) ∧ r.obeyed? = some c ∧
      r.step waves frequency =
        ((r.advance c length).settle, (r.advance c length).commandWrites waves c frequency) := by
  -- the switch would be off if no command were left
  rw [Settled, hr] at h
  obtain ⟨⟨c, length⟩, hnext⟩ := Option.isSome_iff_exists.mp h.symm
  refine ⟨c, length, hnext, ?_, ?_⟩
  · rw [obeyed?, if_pos hr, hnext, Option.map_some]
  · rw [step, if_pos hr, hnext]

/-- A runner that has stopped does nothing. -/
theorem step_of_stopped (hr : r.isRunning = false) : r.step waves frequency = (r, []) := by
  rw [step, hr]
  rfl

/-- A settled runner obeys a command exactly if its switch is on. -/
theorem isSome_obeyed? (h : r.Settled) : r.obeyed?.isSome = r.isRunning := by
  unfold obeyed?
  cases hr : r.isRunning with
  | true => rw [if_pos rfl, Option.isSome_map, ← h, hr]
  | false => rfl

/-- Each step settles anew, or has stopped before. -/
theorem settled_step (h : r.Settled) : (r.step waves frequency).1.Settled := by
  cases hr : r.isRunning with
  | true =>
      obtain ⟨c, length, -, -, hstep⟩ := step_of_running h hr waves frequency
      rw [hstep]
      exact settled_settle _
  | false => rwa [step_of_stopped hr]

/-- A step leaves a runner on its channel. -/
@[simp] theorem channel_step (r : ProgramRunner) (waves : Table Waveform) (frequency : Nat) :
    (r.step waves frequency).1.channel = r.channel := by
  unfold step
  split
  · split <;> rfl
  · rfl

/-- A settled runner obeys a command exactly if its place in the program moves. -/
theorem isSome_obeyed?_iff (h : r.Settled) :
    r.obeyed?.isSome ↔ r.position < (r.step waves frequency).1.position := by
  rw [isSome_obeyed? h]
  cases hr : r.isRunning with
  | true =>
      obtain ⟨c, length, hnext, -, hstep⟩ := step_of_running h hr waves frequency
      obtain ⟨⟨c', rest⟩, hread, hc⟩ := Option.map_eq_some_iff.mp hnext
      obtain ⟨-, rfl⟩ := Prod.mk.inj hc
      -- a command has a byte at least
      have hlength := Command.length_of_read hread
      rw [hstep]
      show true = true ↔ r.position < r.position + _
      simp only [true_iff]
      omega
  | false =>
      rw [step_of_stopped hr]
      simp only [Bool.false_eq_true, Nat.lt_irrefl]

/-- The settings of a command before its panning are written to registers. -/
theorem registers_settings (channel : Channel) (waves : Table Waveform) (c : Command) :
    Registers (c.aux1.toList.flatMap channel.firstAuxWrites ++
      c.aux2.toList.flatMap (channel.envelopeWrites waves) ++
      c.settings.toList.flatMap channel.timbreWrites) := by
  have haux1 : Registers (c.aux1.toList.flatMap channel.firstAuxWrites) :=
    .flatMap fun value _ => channel.registers_firstAuxWrites value
  have haux2 : Registers (c.aux2.toList.flatMap (channel.envelopeWrites waves)) :=
    .flatMap fun value _ => channel.registers_envelopeWrites waves value
  have hsettings : Registers (c.settings.toList.flatMap channel.timbreWrites) :=
    .flatMap fun value _ => channel.registers_timbreWrites value
  exact (haux1.append haux2).append hsettings

/-- The settings of a command set no frequency. -/
theorem untuned_settingWrites (channel : Channel) (waves : Table Waveform) (c : Command) :
    Untuned (settingWrites channel waves c) := by
  refine (registers_settings channel waves c).untuned.append ?_
  cases c.panning with
  | none => exact untuned_nil
  | some p => exact untuned_channelOutput _ _

/-- The frequency of a runner is set on its channel, unless that plays noise. -/
theorem frequencies_frequencyWrites (r : ProgramRunner) (d : Channel) :
    frequencies d (r.frequencyWrites frequency) =
      if r.channel = d ∧ d.isNoise = false then [r.bend frequency] else [] := by
  unfold frequencyWrites
  cases hnoise : r.channel.isNoise with
  | true =>
      rw [if_pos rfl, if_neg fun hd => Bool.false_ne_true (by rw [← hd.2, ← hd.1, hnoise])]
      rfl
  | false =>
      rw [if_neg Bool.false_ne_true, frequencies_frequency]
      by_cases h : r.channel = d
      · rw [if_pos h, if_pos ⟨h, h ▸ hnoise⟩]
      · rw [if_neg h, if_neg fun hd => h hd.1]

/-- A command sets the frequency of its channel once, unless that plays noise. -/
theorem frequencies_commandWrites (r : ProgramRunner) (c : Command) (d : Channel) :
    frequencies d (r.commandWrites waves c frequency) =
      if r.channel = d ∧ d.isNoise = false then [r.bend frequency] else [] := by
  have hrestart : frequencies d (if c.retrigger then [.restart r.channel] else []) = [] := by
    split
    · exact untuned_restart _ _
    · rfl
  rw [commandWrites, frequencies_append, frequencies_append, untuned_settingWrites, hrestart,
    List.nil_append, List.append_nil, frequencies_frequencyWrites]

/-- What a runner writes of frequencies: one, bent by the tunings behind the command, if it obeys a
command. -/
theorem frequencies_step (h : r.Settled) (d : Channel) :
    frequencies d (r.step waves frequency).2 =
      if r.isRunning ∧ r.channel = d ∧ d.isNoise = false then
        [(r.step waves frequency).1.bend frequency]
      else [] := by
  cases hr : r.isRunning with
  | true =>
      obtain ⟨c, length, -, -, hstep⟩ := step_of_running h hr waves frequency
      rw [hstep, frequencies_commandWrites, channel_advance]
      simp only [true_and]
      rfl
  | false =>
      rw [step_of_stopped hr, if_neg fun hrun => Bool.false_ne_true hrun.1]
      rfl

/-- A frequency is bent within the range of eleven bits. -/
theorem bend_eq (r : ProgramRunner) (frequency : Nat) :
    (r.bend frequency : Int) =
      max 0 (min (frequency + r.coarse.toInt + 16 * r.fine.toInt) 0x7FF) := by
  rw [bend, PitchKind.clampFrequency, show PitchKind.tone.maxFrequency = 0x7FF from rfl]
  omega

end ProgramRunner

/-! ## Voices -/

namespace Voice

variable {m : Module} {v : Voice} {c : Channel}

/-- What holds of the voice of a channel in all runs. -/
structure Fits (c : Channel) (v : Voice) : Prop where
  /-- The program rules the channel. -/
  channel : v.program.channel = c
  /-- The switch of the program is on exactly if a whole command is left. -/
  settled : v.program.Settled
  /-- The channel has a pitch unless it plays noise. -/
  pitch : v.pitch.isSome = !c.isNoise

/-- The noise channel alone starts without a pitch. -/
theorem fits_new (c : Channel) : Fits c (new c) where
  channel := rfl
  settled := ProgramRunner.settled_new c
  pitch := by cases c <;> rfl

/-- A voice fits its channel while its program stays and it keeps or lacks a pitch as before. -/
theorem Fits.congr {v' : Voice} (h : Fits c v) (hprogram : v'.program = v.program)
    (hpitch : v'.pitch.isSome = v.pitch.isSome) : Fits c v' where
  channel := by rw [hprogram, h.channel]
  settled := by rw [hprogram]; exact h.settled
  pitch := by rw [hpitch, h.pitch]

/-! ### Reading a row -/

/-- An effect on settings or notes leaves program and pitch alone. -/
theorem obeyTrack_frame (v : Voice) (waves : Table Waveform) (c : Channel) (param : UInt8)
    (t : TrackEffect) :
    (v.obeyTrack waves c param t).1.program = v.program ∧
      (v.obeyTrack waves c param t).1.pitch = v.pitch := by
  cases t with
  | setPanning =>
      rw [obeyTrack]
      split <;> exact ⟨rfl, rfl⟩
  | _ => exact ⟨rfl, rfl⟩

/-- No effect on settings or notes sets a frequency. -/
theorem untuned_obeyTrack (v : Voice) (waves : Table Waveform) (c : Channel) (param : UInt8)
    (t : TrackEffect) : Untuned (v.obeyTrack waves c param t).2 := by
  cases t with
  | setEnvelope =>
      exact (c.registers_envelopeWrites waves param).untuned.append (untuned_restart c)
  | setTimbre => exact (c.registers_timbreWrites _).untuned
  | setPanning =>
      rw [obeyTrack]
      split <;> exact untuned_nil
  | setSweep =>
      rw [obeyTrack]
      split
      · exact (registers_register _ _).untuned
      · exact untuned_nil
  | _ => exact untuned_nil

/-- No effect changes the program, or whether there is a pitch. -/
theorem Fits.obey (h : Fits c v) (waves : Table Waveform) (d : Channel) (e : Effect) :
    Fits c (v.obey waves d e).1 := by
  unfold Voice.obey
  split
  · exact h
  · next t _ =>
    obtain ⟨hprogram, hpitch⟩ := obeyTrack_frame v waves d e.param t
    exact h.congr hprogram (congrArg Option.isSome hpitch)
  · exact h.congr rfl Option.isSome_map

/-- No effect sets a frequency. -/
theorem untuned_obey (v : Voice) (waves : Table Waveform) (c : Channel) (e : Effect) :
    Untuned (v.obey waves c e).2 := by
  unfold Voice.obey
  split
  · exact untuned_nil
  · exact untuned_obeyTrack v waves c _ _
  · exact untuned_nil

/-- The effects of a row, one behind the other, set no frequency. -/
theorem untuned_obeyAll (waves : Table Waveform) (c : Channel) (es : List Effect) (v : Voice) :
    Untuned (Voice.obeyAll waves c es v).2 := by
  induction es generalizing v with
  | nil => exact untuned_nil
  | cons e es ih => exact (untuned_obey v waves c e).append (ih _)

/-- The end of a row may apply what is staged, and leaves the program alone. -/
theorem Fits.finishRow (h : Fits c v) (r : Row) : Fits c (v.finishRow r) := by
  have hrequest : Fits c ((v.select r).request r) := by
    unfold request
    split
    · split <;> exact h.congr rfl rfl
    · exact h.congr rfl rfl
    · exact h.congr rfl rfl
  unfold Voice.finishRow
  split
  · exact hrequest.congr rfl Option.isSome_map
  · exact hrequest

/-- Reading a row keeps what holds of a voice. -/
theorem Fits.readRow (h : Fits c v) (waves : Table Waveform) (d : Channel) (r : Row) :
    Fits c (v.readRow waves d r).1 :=
  readRow_induction (fun _ e hv => hv.obey waves d e) (fun _ r hv => hv.finishRow r) h r

/-- No row sets a frequency. -/
theorem untuned_readRow (v : Voice) (waves : Table Waveform) (c : Channel) (r : Row) :
    Untuned (v.readRow waves c r).2 :=
  untuned_obeyAll waves c r.obeyed v

/-! ### Sounding a frame -/

/-- The command that the program of a voice obeys on a frame, if a note sounds. -/
def obeyed? (v : Voice) (m : Module) : Option Command :=
  if v.gated.isPlaying then (v.gated.readied m v.gate.step.2).program.obeyed? else none

/-- Binding an instrument keeps what holds of a voice. -/
theorem Fits.bindInstrument (h : Fits c v) (instruments : Table Instrument) :
    Fits c (v.bindInstrument instruments) := by
  unfold Voice.bindInstrument
  split
  · split
    · next i _ =>
      exact
        { channel := (v.program.channel_setProgram i.program).trans h.channel
          settled := v.program.settled_setProgram i.program
          pitch := Option.isSome_map.trans h.pitch }
    · exact { channel := h.channel, settled := ProgramRunner.settled_new _, pitch := h.pitch }
  · exact h

/-- A note that may start binds an instrument, which keeps what holds of a voice. -/
theorem Fits.readied (h : Fits c v) (m : Module) (started : Option Nat) :
    Fits c (v.readied m started) := by
  have hbound : Fits c (v.bound m started) := by
    unfold bound
    split
    · exact h.bindInstrument _
    · exact h
  exact hbound.congr rfl Option.isSome_map

/-- A frame of a note keeps what holds of a voice. -/
theorem Fits.sound (h : Fits c v) (m : Module) (d : Channel) (started : Option Nat) :
    Fits c (v.sound m d started).1 where
  channel := ((v.readied m started).program.channel_step ..).trans (h.readied m started).channel
  settled := ProgramRunner.settled_step (h.readied m started).settled
  pitch := (h.readied m started).pitch

/-- An update keeps what holds of a voice. -/
theorem Fits.update (h : Fits c v) (m : Module) (d : Channel) : Fits c (v.update m d).1 :=
  update_induction (fun hv => hv.congr rfl rfl) (fun _ started hv => hv.sound m d started)
    (fun _ hv => hv.congr rfl rfl) h

/-- The voice itself sets the frequency of its channel once, unless its program does. -/
theorem frequencies_pitchWrites (h : Fits c v) (started : Option Nat) (d : Channel) :
    frequencies d (v.pitchWrites c started) =
      if v.program.isRunning = false ∧ c = d ∧ d.isNoise = false then [v.frequency] else [] := by
  have hpitch := h.pitch
  rw [pitchWrites, frequency]
  cases hp : v.pitch with
  | none =>
      -- without a pitch, the channel plays noise
      have hnoise : c.isNoise = true := by rw [hp] at hpitch; simpa using hpitch.symm
      rw [if_neg fun hd => Bool.false_ne_true (by rw [← hd.2.2, ← hd.2.1, hnoise])]
      dsimp only
      split
      · exact (registers_register _ _).untuned d
      · rfl
  | some p =>
      have hnoise : c.isNoise = false := by rw [hp] at hpitch; simpa using hpitch.symm
      dsimp only
      cases v.program.isRunning with
      | true =>
          rw [if_pos rfl, if_neg fun hd => Bool.false_ne_true hd.1.symm]
          rfl
      | false =>
          rw [if_neg Bool.false_ne_true, frequencies_frequency]
          by_cases hd : c = d
          · rw [if_pos hd, if_pos ⟨rfl, hd, hd ▸ hnoise⟩]
          · rw [if_neg hd, if_neg fun hd' => hd hd'.2.1]

/-- The start of a note sets no frequency. -/
theorem untuned_startWrites (v : Voice) (c : Channel) (started : Option Nat) :
    Untuned (v.startWrites c started) := by
  unfold startWrites
  split
  · exact untuned_restart c
  · exact untuned_nil

/-- The frequency that stands on the channel of a voice behind a frame, if its program has or has
not obeyed a command on it. -/
def settledFrequency (v : Voice) (hasObeyed : Bool) : Nat :=
  if hasObeyed then v.program.bend v.frequency else v.frequency

/-- A frame of a note sets the frequency of its channel once, unless that plays noise: either the
voice or the program does. -/
theorem frequencies_sound (h : Fits c v) (started : Option Nat) (d : Channel) :
    frequencies d (v.sound m c started).2 =
      if c = d ∧ d.isNoise = false then
        [(v.sound m c started).1.settledFrequency
          (v.readied m started).program.obeyed?.isSome]
      else [] := by
  have hready := h.readied m started
  -- the program does not touch the pitch, so both writers see the same frequency
  have hfrequency : (v.sound m c started).1.frequency = (v.readied m started).frequency := rfl
  rw [writes_sound, frequencies_append, frequencies_append, frequencies_pitchWrites hready,
    untuned_startWrites, List.append_nil, ProgramRunner.frequencies_step hready.settled,
    hready.channel, ProgramRunner.isSome_obeyed? hready.settled, settledFrequency, hfrequency]
  -- exactly one of the two writers is silent
  cases hr : (v.readied m started).program.isRunning with
  | true => simp only [Bool.true_eq_false, false_and, true_and, if_false, if_true]; rfl
  | false => simp only [Bool.false_eq_true, false_and, true_and, if_false, List.append_nil]

/-- An update sets the frequency of the channel once if a note sounds behind it, and not at all
otherwise. -/
theorem frequencies_update (h : Fits c v) (d : Channel) :
    frequencies d (v.update m c).2 =
      if c = d ∧ d.isNoise = false ∧ (v.update m c).1.isPlaying then
        [(v.update m c).1.settledFrequency (v.obeyed? m).isSome]
      else [] := by
  have hgated : Fits c v.gated := h.congr rfl rfl
  rw [isPlaying_update]
  cases hplaying : v.gated.isPlaying with
  | true =>
      rw [update_of_open m c hplaying, frequencies_sound hgated, obeyed?, if_pos hplaying]
      simp only [and_true]
  | false =>
      rw [update_of_closed m c hplaying, if_neg fun hd => Bool.false_ne_true hd.2.2]
      rfl

end Voice

/-! ## Frames -/

namespace Player

variable {m : Module} {p : Player}

/-- The command that the program of a channel obeys on a frame. -/
def obeyed? (p : Player) (m : Module) (c : Channel) : Option Command :=
  ((p.begun m).voices.get c).obeyed? m

/-- In all runs, the voices fit their channels. -/
theorem Reachable.fits (h : Reachable m p) (c : Channel) : (p.voices.get c).Fits c :=
  h.voice (P := Voice.Fits) Voice.fits_new (fun c _ r hv => hv.readRow m.waveforms c r)
    (fun c _ hv => hv.update m c) c

/-- The voices still fit their channels when the row of a frame has been read. -/
theorem Reachable.fits_begun (h : Reachable m p) (c : Channel) :
    ((p.begun m).voices.get c).Fits c := by
  rw [voice_begun]
  split
  · exact (h.fits c).readRow _ _ _
  · exact h.fits c

/-- No row sets a frequency. -/
theorem untuned_rowWrites (p : Player) (m : Module) : Untuned (p.rowWrites m) := by
  rw [rowWrites_eq]
  split
  · refine .flatMap ?_
    intro c _
    split
    · exact Voice.untuned_readRow _ _ _ _
    · exact untuned_nil
  · exact untuned_nil

/-- The output switches set no frequency. -/
theorem untuned_switchWrites (p : Player) (m : Module) : Untuned (p.switchWrites m) := by
  rw [switchWrites]
  split
  · exact untuned_nil
  · exact untuned_outputEnable _

/-- A list for each channel of which only one has members is that one. -/
theorem flatMap_all {α : Type} {f : Channel → List α} {c : Channel} (h : ∀ d, d ≠ c → f d = []) :
    Channel.all.flatMap f = f c := by
  have hall : Channel.all.flatMap f = f .ch1 ++ (f .ch2 ++ (f .ch3 ++ (f .ch4 ++ []))) := rfl
  rw [hall, List.append_nil]
  cases c with
  | ch1 => simp [h .ch2, h .ch3, h .ch4]
  | ch2 => simp [h .ch1, h .ch3, h .ch4]
  | ch3 => simp [h .ch1, h .ch2, h .ch4]
  | ch4 => simp [h .ch1, h .ch2, h .ch3]

/-- A frame that stops playback, or that a stopped player is asked for, sets no frequency. -/
theorem frequencies_of_halted (h : (p.step m).1.isHalted = true) (c : Channel) :
    frequencies c (p.step m).2 = [] := by
  cases hp : p.isHalted with
  | true => rw [step_of_halted m hp, frequencies_nil]
  | false =>
      have hb : (p.begun m).isHalted = true := by rwa [isHalted_step, hp, Bool.false_or] at h
      rw [step_of_halting hp hb]
      exact untuned_rowWrites p m c

/-- A frame that plays sets the frequencies that the voice of each channel sets. -/
theorem frequencies_of_going (h : Reachable m p) (hgoing : (p.step m).1.isHalted = false)
    (c : Channel) :
    frequencies c (p.step m).2 =
      if c.isNoise = false ∧ (p.step m).1.isPlaying c then
        [((p.step m).1.voices.get c).settledFrequency (p.obeyed? m c).isSome]
      else [] := by
  rw [isHalted_step, Bool.or_eq_false_iff] at hgoing
  obtain ⟨hp, hb⟩ := hgoing
  -- no voice writes the frequency of another channel
  have hothers (d : Channel) (hd : d ≠ c) :
      frequencies c (((p.begun m).voices.get d).update m d).2 = [] := by
    rw [Voice.frequencies_update (h.fits_begun d), if_neg fun hc => hd hc.1]
  rw [writes_step hp hb, frequencies_append, frequencies_append, untuned_rowWrites,
    untuned_switchWrites, List.nil_append, List.append_nil, frequencies_flatMap,
    flatMap_all hothers, Voice.frequencies_update (h.fits_begun c), ← voice_step hp hb]
  simp only [true_and]
  rfl

/-- **A frame sets the frequency of each tone channel on which a note sounds once**, and no other
frequency.  It is that of the pitch behind the frame, bent by the tunings of the program if that
obeyed a command on the frame.  A frame that stops playback sets no frequency at all. -/
theorem frequency_once_per_frame (h : Reachable m p) (c : Channel) :
    let p' := (p.step m).1
    let written := frequencies c (p.step m).2
    if p'.isHalted ∨ c.isNoise ∨ p'.isPlaying c = false then written = []
    else ∃ pitch value,
      (p'.voices.get c).pitch = some pitch ∧ written = [value] ∧
        (value : Int) =
          if (p.obeyed? m c).isSome then
            max 0 (min (pitch.frequency + (p'.voices.get c).program.coarse.toInt +
              16 * (p'.voices.get c).program.fine.toInt) 0x7FF)
          else pitch.frequency := by
  intro p' written
  have hfits : (p'.voices.get c).Fits c := (h.serve .step).fits c
  -- the three ways to write nothing, one after the other
  cases hhalted : p'.isHalted with
  | true =>
      rw [if_pos (.inl rfl)]
      exact frequencies_of_halted hhalted c
  | false =>
  have hwritten := frequencies_of_going h hhalted c
  cases hnoise : c.isNoise with
  | true =>
      rw [if_pos (.inr (.inl rfl))]
      exact hwritten.trans (if_neg fun hc => Bool.false_ne_true (hc.1.symm.trans hnoise))
  | false =>
  cases hplaying : p'.isPlaying c with
  | false =>
      rw [if_pos (.inr (.inr rfl))]
      exact hwritten.trans (if_neg fun hc => Bool.false_ne_true (hplaying.symm.trans hc.2))
  | true =>
      rw [if_neg (by simp)]
      obtain ⟨pitch, hpitch⟩ : ∃ pitch, (p'.voices.get c).pitch = some pitch := by
        rw [← Option.isSome_iff_exists, hfits.pitch, hnoise]
        rfl
      have hfrequency : (p'.voices.get c).frequency = pitch.frequency := by
        rw [Voice.frequency, hpitch]
      refine ⟨pitch, _, hpitch, hwritten.trans (if_pos ⟨hnoise, hplaying⟩), ?_⟩
      rw [Voice.settledFrequency, hfrequency]
      split
      · exact ProgramRunner.bend_eq _ _
      · rfl

end Player

/-- A module of two notes, of which the first runs a program that tunes up by five. -/
def tunedModule : Module where
  song := ((Song.new "").setRow .ch1 0 0 ((Row.empty.withNote (.on 0)).withInstrument 0)).setRow
    .ch2 0 0 (Row.empty.withNote (.on 0))
  instruments := Table.ofList
    [(0, { Instrument.new "" .ch1 with program := [0xC0, 5], length_le := by decide })]
  waveforms := Table.empty

/-- Where the program tunes up by five, the frequency is that of the pitch and five; on the channel
without a program it is that of the pitch. -/
theorem frequencies_tunedModule :
    let p := Player.atPosition tunedModule.song ⟨0, 0⟩
    let p' := (p.step tunedModule).1
    Player.Reachable tunedModule p ∧
      (∃ pitch, (p'.voices.get .ch1).pitch = some pitch ∧
        frequencies .ch1 (p.step tunedModule).2 = [pitch.frequency + 5]) ∧
      ∃ pitch, (p'.voices.get .ch2).pitch = some pitch ∧
        frequencies .ch2 (p.step tunedModule).2 = [pitch.frequency] := by
  intro p p'
  have hok : Player.start tunedModule ⟨0, 0⟩ = .ok p := rfl
  have hp : Player.Reachable tunedModule p := .start hok
  refine ⟨hp, ?_, ?_⟩
  · have hframe := Player.frequency_once_per_frame hp .ch1
    dsimp only at hframe
    rw [if_neg (by decide +kernel)] at hframe
    obtain ⟨pitch, value, hpitch, hwritten, hvalue⟩ := hframe
    have hfrequency : (((p.step tunedModule).1.voices.get .ch1).pitch.map Pitch.frequency) =
        some 0x2C := by decide +kernel
    have hcoarse : (((p.step tunedModule).1.voices.get .ch1).program.coarse).toInt = 5 := by
      decide +kernel
    have hfine : (((p.step tunedModule).1.voices.get .ch1).program.fine).toInt = 0 := by
      decide +kernel
    rw [hpitch, Option.map_some, Option.some.injEq] at hfrequency
    rw [if_pos (by decide +kernel), hcoarse, hfine, hfrequency] at hvalue
    refine ⟨pitch, hpitch, ?_⟩
    rw [hwritten, hfrequency, show value = 0x2C + 5 by omega]
  · have hframe := Player.frequency_once_per_frame hp .ch2
    dsimp only at hframe
    rw [if_neg (by decide +kernel)] at hframe
    obtain ⟨pitch, value, hpitch, hwritten, hvalue⟩ := hframe
    refine ⟨pitch, hpitch, ?_⟩
    rw [if_neg (by decide +kernel)] at hvalue
    rw [hwritten, Int.ofNat.inj hvalue]

end Chiptune
