import Chiptune.Proofs.Device.Ownership
import Chiptune.Proofs.Playback.Frequencies

/-! # What the writes of a frame are about

The voice of a channel writes to its own channel alone.  Its rows leave the output switches as they
are, and so does the sound of a note, but for the panning that its program asks for.

* `Voice.plain_readRow`, `Voice.owned_update` and `Voice.switchBits_update` say so of one voice.
* `ownedBy_all`, `switchBits_all` and `outputEnables_all` pick the writes of a channel out of lists
  that belong to the channels one by one.
* `Player.rowWrites_eq_flatMap` and `Player.writes_step_eq` show that the writes of a frame are made
  up of such lists, with the output switches behind them. -/

namespace Chiptune

open DeviceWrite

/-! ## Programs -/

namespace ProgramRunner

variable {r : ProgramRunner} {waves : Table Waveform} {frequency : Nat}

/-- The panning that a program asks for on a frame. -/
def panning? (r : ProgramRunner) : Option Panning :=
  r.obeyed?.bind fun c => c.panning.map Panning.ofByte

/-- The settings of a command before its panning are plain writes. -/
theorem plain_settings (channel : Channel) (waves : Table Waveform) (c : Command) :
    Plain channel (c.aux1.toList.flatMap channel.firstAuxWrites ++
      c.aux2.toList.flatMap (channel.envelopeWrites waves) ++
      c.settings.toList.flatMap channel.timbreWrites) := by
  have haux1 : Plain channel (c.aux1.toList.flatMap channel.firstAuxWrites) :=
    .flatMap fun value _ => channel.plain_firstAuxWrites value
  have haux2 : Plain channel (c.aux2.toList.flatMap (channel.envelopeWrites waves)) :=
    .flatMap fun value _ => channel.plain_envelopeWrites waves value
  have hsettings : Plain channel (c.settings.toList.flatMap channel.timbreWrites) :=
    .flatMap fun value _ => channel.plain_timbreWrites value
  exact (haux1.append haux2).append hsettings

/-- A program bends the frequency of its own channel. -/
theorem plain_frequencyWrites (r : ProgramRunner) (frequency : Nat) :
    Plain r.channel (r.frequencyWrites frequency) := by
  unfold frequencyWrites
  split
  · exact plain_nil
  · exact plain_frequency _ _

/-- The end of a command: its frequency, and perhaps a restart. -/
theorem plain_closing (r : ProgramRunner) (c : Command) (frequency : Nat) :
    Plain r.channel
      (r.frequencyWrites frequency ++ if c.retrigger then [.restart r.channel] else []) := by
  refine (r.plain_frequencyWrites frequency).append ?_
  split
  · exact plain_restart _
  · exact plain_nil

/-- The writes of a command belong to the channel of its program. -/
theorem owned_commandWrites (r : ProgramRunner) (waves : Table Waveform) (c : Command)
    (frequency : Nat) : Owned r.channel (r.commandWrites waves c frequency) := by
  have hpanning :
      Owned r.channel (c.panning.toList.map fun p => .channelOutput r.channel (.ofByte p)) := by
    cases c.panning with
    | none => exact owned_nil
    | some p => exact owned_channelOutput _ _
  rw [commandWrites, settingWrites, List.append_assoc]
  exact ((plain_settings r.channel waves c).owned.append hpanning).append
    (r.plain_closing c frequency).owned

/-- A command gives its channel the bits of the panning that it asks for, and no others. -/
theorem switchBits_commandWrites (r : ProgramRunner) (waves : Table Waveform) (c : Command)
    (frequency : Nat) :
    switchBits r.channel (r.commandWrites waves c frequency) =
      ((c.panning.map Panning.ofByte).map fun p => p.bits r.channel).toList := by
  rw [commandWrites, settingWrites, List.append_assoc, switchBits_append, switchBits_append,
    (plain_settings r.channel waves c).switchBits_eq, (r.plain_closing c frequency).switchBits_eq,
    List.nil_append, List.append_nil]
  cases c.panning with
  | none => rfl
  | some p => exact switchBits_channelOutput _ _

/-- The writes of a frame of a program belong to its channel. -/
theorem owned_step (r : ProgramRunner) (waves : Table Waveform) (frequency : Nat) :
    Owned r.channel (r.step waves frequency).2 := by
  unfold step
  split
  · split
    · next c length _ => exact (r.advance c length).owned_commandWrites waves c frequency
    · exact owned_nil
  · exact owned_nil

/-- A frame of a program gives its channel the bits of the panning that it asks for. -/
theorem switchBits_step (r : ProgramRunner) (waves : Table Waveform) (frequency : Nat) :
    switchBits r.channel (r.step waves frequency).2 =
      (r.panning?.map fun p => p.bits r.channel).toList := by
  unfold step panning? obeyed?
  cases r.isRunning with
  | false => rfl
  | true =>
      rw [if_pos rfl, if_pos rfl]
      cases r.next? with
      | none => rfl
      | some next => exact (r.advance next.1 next.2).switchBits_commandWrites waves next.1 frequency

end ProgramRunner

/-! ## Voices -/

namespace Voice

variable {m : Module} {v : Voice} {c : Channel}

/-- An effect writes to registers of its channel. -/
theorem plain_obeyTrack (v : Voice) (waves : Table Waveform) (c : Channel) (param : UInt8)
    (t : TrackEffect) : Plain c (v.obeyTrack waves c param t).2 := by
  cases t with
  | setEnvelope => exact (c.plain_envelopeWrites waves param).append (plain_restart c)
  | setTimbre => exact c.plain_timbreWrites _
  | setPanning =>
      rw [obeyTrack]
      split <;> exact plain_nil
  | setSweep =>
      -- only the first channel has a sweep
      rw [obeyTrack]
      split
      · next h =>
        subst h
        exact plain_register param (by decide)
      · exact plain_nil
  | _ => exact plain_nil

/-- The effects of a row write to its channel, one behind the other. -/
theorem plain_obeyAll (waves : Table Waveform) (c : Channel) (es : List Effect) (v : Voice) :
    Plain c (Voice.obeyAll waves c es v).2 := by
  have hobey (v : Voice) (e : Effect) : Plain c (v.obey waves c e).2 := by
    unfold Voice.obey
    split
    · exact plain_nil
    · exact plain_obeyTrack v waves c _ _
    · exact plain_nil
  induction es generalizing v with
  | nil => exact plain_nil
  | cons e es ih => exact (hobey v e).append (ih _)

/-- A row writes to registers of its channel. -/
theorem plain_readRow (v : Voice) (waves : Table Waveform) (c : Channel) (r : Row) :
    Plain c (v.readRow waves c r).2 :=
  plain_obeyAll waves c r.obeyed v

/-- A voice writes frequency or polynomial to its channel. -/
theorem plain_pitchWrites (v : Voice) (c : Channel) (started : Option Nat) :
    Plain c (v.pitchWrites c started) := by
  unfold pitchWrites
  split
  · split
    · exact plain_nil
    · exact plain_frequency _ _
  · split
    · exact plain_register _ (Register.owner?_base_add c (by decide))
    · exact plain_nil

/-- The start of a note writes to its channel. -/
theorem plain_startWrites (v : Voice) (c : Channel) (started : Option Nat) :
    Plain c (v.startWrites c started) := by
  unfold startWrites
  split
  · exact plain_restart c
  · exact plain_nil

/-- Counting the gate down keeps what holds of a voice. -/
theorem Fits.gated (h : Fits c v) : Fits c v.gated :=
  h.congr rfl rfl

/-- The panning that the program of a voice asks for on a frame, if a note sounds. -/
def programPanning? (v : Voice) (m : Module) : Option Panning :=
  (v.obeyed? m).bind fun c => c.panning.map Panning.ofByte

/-- The writes of an update belong to the channel of the voice. -/
theorem owned_update (h : Fits c v) (m : Module) : Owned c (v.update m c).2 := by
  cases hplaying : v.gated.isPlaying with
  | true =>
      have hready := h.gated.readied m v.gate.step.2
      have hprogram := (v.gated.readied m v.gate.step.2).program.owned_step m.waveforms
        (v.gated.readied m v.gate.step.2).frequency
      rw [hready.channel] at hprogram
      rw [update_of_open m c hplaying, writes_sound]
      exact ((plain_pitchWrites _ c _).append (plain_startWrites _ c _)).owned.append hprogram
  | false =>
      rw [update_of_closed m c hplaying]
      exact owned_nil

/-- An update gives the channel the bits of the panning that its program asks for. -/
theorem switchBits_update (h : Fits c v) (m : Module) :
    switchBits c (v.update m c).2 = ((v.programPanning? m).map fun p => p.bits c).toList := by
  rw [programPanning?, obeyed?]
  cases hplaying : v.gated.isPlaying with
  | true =>
      have hready := h.gated.readied m v.gate.step.2
      have hprogram := (v.gated.readied m v.gate.step.2).program.switchBits_step m.waveforms
        (v.gated.readied m v.gate.step.2).frequency
      rw [hready.channel] at hprogram
      rw [update_of_open m c hplaying, writes_sound, switchBits_append,
        ((plain_pitchWrites _ c _).append (plain_startWrites _ c _)).switchBits_eq, hprogram,
        if_pos rfl]
      rfl
  | false =>
      rw [update_of_closed m c hplaying]
      rfl

end Voice

/-! ## Channel by channel -/

namespace DeviceWrite

variable {f : Channel → List DeviceWrite}

/-- Of lists that belong to the channels one by one, a channel owns its own. -/
theorem ownedBy_all (h : ∀ d, Owned d (f d)) (c : Channel) :
    ownedBy c (Channel.all.flatMap f) = f c := by
  rw [ownedBy_flatMap, Player.flatMap_all fun d hd => (h d).ownedBy_of_ne hd, (h c).ownedBy_self]

/-- Of lists that belong to the channels one by one, only its own gives a channel bits. -/
theorem switchBits_all (h : ∀ d, Owned d (f d)) (c : Channel) :
    switchBits c (Channel.all.flatMap f) = switchBits c (f c) := by
  rw [switchBits_flatMap, Player.flatMap_all fun d hd => (h d).switchBits_of_ne hd]

/-- Lists that belong to the channels one by one do not replace all switches. -/
theorem outputEnables_all (h : ∀ d, Owned d (f d)) :
    outputEnables (Channel.all.flatMap f) = [] := by
  rw [outputEnables, List.filterMap_flatMap, List.flatMap_eq_nil_iff]
  intro d _
  exact (h d).outputEnables_eq

end DeviceWrite

/-! ## Frames -/

namespace Player

variable {m : Module} {p : Player}

/-- The writes of the voice of a channel in the row that begins on a frame. -/
def rowWritesOf (p : Player) (m : Module) (c : Channel) : List DeviceWrite :=
  if p.transport.clock.isFirst && (p.nextLine m).reads c then
    ((p.voices.get c).readRow m.waveforms c ((p.nextLine m).get c)).2
  else []

/-- The writes of a row stand channel by channel. -/
theorem rowWrites_eq_flatMap (p : Player) (m : Module) :
    p.rowWrites m = Channel.all.flatMap (p.rowWritesOf m) := by
  have hof (c : Channel) : p.rowWritesOf m c =
      if p.transport.clock.isFirst && (p.nextLine m).reads c then
        ((p.voices.get c).readRow m.waveforms c ((p.nextLine m).get c)).2
      else [] := rfl
  rw [rowWrites_eq, funext hof]
  cases p.transport.clock.isFirst with
  | false => rfl
  | true => simp only [if_true, Bool.true_and]

/-- A row writes to registers of its channels. -/
theorem plain_rowWritesOf (p : Player) (m : Module) (c : Channel) :
    Plain c (p.rowWritesOf m c) := by
  unfold rowWritesOf
  split
  · exact Voice.plain_readRow _ _ _ _
  · exact plain_nil

/-- The writes of the voice of a channel on a frame behind its row. -/
def soundWritesOf (p : Player) (m : Module) (c : Channel) : List DeviceWrite :=
  (((p.begun m).voices.get c).update m c).2

/-- The sound of a frame writes to the channels one by one. -/
theorem Reachable.owned_soundWritesOf (h : Reachable m p) (c : Channel) :
    Owned c (p.soundWritesOf m c) :=
  Voice.owned_update (h.fits_begun c) m

/-- The writes of a frame that plays: those of the row, those of the voices, and the switches. -/
theorem writes_step_eq (hp : p.isHalted = false) (hb : (p.begun m).isHalted = false) :
    (p.step m).2 =
      Channel.all.flatMap (p.rowWritesOf m) ++ Channel.all.flatMap (p.soundWritesOf m) ++
        p.switchWrites m := by
  rw [writes_step hp hb, rowWrites_eq_flatMap, List.append_assoc]
  rfl

end Player
end Chiptune
