import Chiptune.Proofs.Playback.Bindings
import Chiptune.Proofs.Playback.Isolation

/-! # Attacks

A note that starts on a tone channel is pitched, and with a sloping envelope the channel is started
anew as well.  Without a program the pitch comes first.  A program that runs sets the frequency
itself, behind the restart, so that the channel starts with its former pitch unless the command of
the frame restarts it once more.

* `attacks` are the writes of a list that pitch a channel or start it anew, and `PitchedFirst` says
  that one of the former stands before one of the latter.
* `attackOrder` is what a note that starts writes of them; `Voice.attacks_update` says so of a
  voice, and `attacks_readRow` says what a row may put before it.
* `pitched_before_restart_iff` says in which frames the pitch comes first. -/

namespace Chiptune

namespace DeviceWrite

variable {c : Channel} {ws ws' : List DeviceWrite}

/-! ## Attacks of a list -/

/-- Whether a write pitches a channel or starts it anew. -/
def isAttack (c : Channel) : DeviceWrite → Bool
  | restart d => d = c
  | frequency d _ => d = c
  | _ => false

/-- The writes that pitch a channel or start it anew. -/
def attacks (c : Channel) (ws : List DeviceWrite) : List DeviceWrite :=
  ws.filter (isAttack c)

/-- A frequency of a channel is set before the channel is started anew. -/
def PitchedFirst (c : Channel) (ws : List DeviceWrite) : Prop :=
  ∃ value, List.Sublist [.frequency c value, .restart c] ws

/-- The attacks of a channel are filtered list by list. -/
theorem attacks_append (c : Channel) (ws ws' : List DeviceWrite) :
    attacks c (ws ++ ws') = attacks c ws ++ attacks c ws' :=
  List.filter_append ..

/-- A retrigger is an attack of its channel. -/
theorem attacks_restart (c : Channel) : attacks c [.restart c] = [.restart c] :=
  List.filter_cons_of_pos (decide_eq_true rfl)

/-- A frequency is an attack of its channel. -/
theorem attacks_frequency (c : Channel) (value : Nat) :
    attacks c [.frequency c value] = [.frequency c value] :=
  List.filter_cons_of_pos (decide_eq_true rfl)

/-- The attacks of a channel are among its own writes. -/
theorem attacks_ownedBy (c : Channel) (ws : List DeviceWrite) :
    attacks c (ownedBy c ws) = attacks c ws := by
  rw [attacks, ownedBy, List.filter_filter]
  refine List.filter_congr fun w _ => ?_
  cases w <;> simp [isAttack, owner?]

/-- All frequencies of a channel are among its attacks. -/
theorem frequencies_attacks (c : Channel) (ws : List DeviceWrite) :
    frequencies c (attacks c ws) = frequencies c ws := by
  rw [frequencies, attacks, List.filterMap_filter]
  refine congrArg (List.filterMap · ws) (funext fun w => ?_)
  cases w with
  | frequency d value =>
      by_cases h : d = c
      · exact if_pos (decide_eq_true h)
      · rw [frequencyOn?, if_neg h, ite_self]
  | _ => exact ite_self none

/-- Whether a channel is pitched first can be told from its attacks. -/
theorem pitchedFirst_attacks (c : Channel) (ws : List DeviceWrite) :
    PitchedFirst c (attacks c ws) ↔ PitchedFirst c ws := by
  refine exists_congr fun value => ⟨fun h => h.trans List.filter_sublist, fun h => ?_⟩
  have hkept : attacks c [.frequency c value, .restart c] = [.frequency c value, .restart c] :=
    List.filter_eq_self.mpr (by simp [isAttack])
  rw [← hkept]
  exact h.filter _

/-- Without frequencies, all attacks are restarts. -/
theorem attacks_of_untuned (h : frequencies c ws = []) :
    attacks c ws = List.replicate (attacks c ws).length (.restart c) := by
  refine List.eq_replicate_of_mem fun w hw => ?_
  obtain ⟨hw, hattack⟩ := List.mem_filter.mp hw
  cases w with
  | restart d => rw [of_decide_eq_true hattack]
  | frequency d value =>
      have hnone := List.filterMap_eq_nil_iff.mp h _ hw
      rw [frequencyOn?, if_pos (of_decide_eq_true hattack)] at hnone
      cases hnone
  | register | outputEnable | channelOutput => cases hattack

/-- Restarts before all frequencies do not matter. -/
theorem pitchedFirst_restarts_append (c : Channel) (n : Nat) (ws : List DeviceWrite) :
    PitchedFirst c (List.replicate n (.restart c) ++ ws) ↔ PitchedFirst c ws := by
  refine exists_congr fun value => ?_
  induction n with
  | zero => rfl
  | succ n ih =>
      rw [List.replicate_succ, List.cons_append, List.sublist_cons_iff, ih]
      simp

/-- Writes to registers are no attacks. -/
theorem Registers.attacks_eq (h : Registers ws) (c : Channel) : attacks c ws = [] := by
  refine List.filter_eq_nil_iff.mpr fun w hw => ?_
  obtain ⟨address, value, rfl⟩ := h w hw
  exact Bool.false_ne_true

end DeviceWrite

open DeviceWrite

/-! ## Programs -/

namespace ProgramRunner

variable {r : ProgramRunner}

/-- The settings of a command neither pitch a channel nor start one. -/
theorem attacks_settingWrites (channel : Channel) (waves : Table Waveform) (command : Command)
    (c : Channel) : attacks c (settingWrites channel waves command) = [] := by
  rw [settingWrites, attacks_append, (registers_settings channel waves command).attacks_eq]
  cases command.panning <;> rfl

/-- A command pitches a tone channel before it restarts it. -/
theorem attacks_commandWrites (hnoise : r.channel.isNoise = false) (waves : Table Waveform)
    (command : Command) (frequency : Nat) :
    attacks r.channel (r.commandWrites waves command frequency) =
      .frequency r.channel (r.bend frequency) ::
        if command.retrigger then [.restart r.channel] else [] := by
  rw [commandWrites, attacks_append, attacks_append, attacks_settingWrites, frequencyWrites,
    if_neg (by rw [hnoise]; exact Bool.false_ne_true), attacks_frequency, List.nil_append]
  split
  · rw [attacks_restart]; rfl
  · rfl

end ProgramRunner

/-! ## Voices -/

/-- The order in which a note that starts with a restart pitches its channel and starts it, by the
command that the program obeys. -/
def attackOrder (c : Channel) (value : Nat) : Option Command → List DeviceWrite
  | none => [.frequency c value, .restart c]
  | some command =>
      .restart c :: .frequency c value :: if command.retrigger then [.restart c] else []

/-- A note that starts pitches its channel once. -/
theorem frequencies_attackOrder (c : Channel) (value : Nat) (command? : Option Command) :
    frequencies c (attackOrder c value command?) = [value] := by
  have hpitch (ws : List DeviceWrite) :
      frequencies c (.frequency c value :: ws) = value :: frequencies c ws :=
    List.filterMap_cons_some (if_pos rfl)
  cases command? with
  | none => exact hpitch [.restart c]
  | some command =>
      show frequencies c (.frequency c value :: if command.retrigger then [.restart c] else []) = _
      rw [hpitch]
      split <;> rfl

/-- A note that starts is pitched first, unless its program obeys a command without a restart. -/
theorem pitchedFirst_attackOrder (c : Channel) (value : Nat) (command? : Option Command) :
    PitchedFirst c (attackOrder c value command?) ↔
      ∀ command, command? = some command → command.retrigger = true := by
  cases command? with
  | none => exact iff_of_true ⟨value, List.Sublist.refl _⟩ nofun
  | some command =>
      simp only [Option.some.injEq, forall_eq', attackOrder, PitchedFirst]
      cases command.retrigger with
      | true => exact iff_of_true ⟨value, (List.Sublist.refl _).cons _⟩ rfl
      | false => simp [List.sublist_cons_iff]

namespace Voice

variable {m : Module} {v : Voice} {c : Channel}

/-- A row may restart its channel, and does not pitch it. -/
theorem attacks_readRow (v : Voice) (waves : Table Waveform) (c : Channel) (r : Row) :
    ∃ n, attacks c (v.readRow waves c r).2 = List.replicate n (.restart c) :=
  ⟨_, attacks_of_untuned (v.untuned_readRow waves c r c)⟩

/-- The voice of a tone channel pitches it unless its program does. -/
theorem attacks_pitchWrites (h : Fits c v) (hc : c.isNoise = false) (started : Option Nat) :
    attacks c (v.pitchWrites c started) =
      if v.program.isRunning then [] else [.frequency c v.frequency] := by
  obtain ⟨pitch, hpitch⟩ : ∃ pitch, v.pitch = some pitch := by
    rw [← Option.isSome_iff_exists, h.pitch, hc]
    rfl
  rw [pitchWrites, frequency, hpitch]
  dsimp only
  split
  · rfl
  · exact attacks_frequency c _

/-- What a note that starts with a restart writes of attacks: the restart stands between what the
voice writes and what its program does, and one of the two pitches the channel. -/
theorem attacks_update (h : Fits c v) (hc : c.isNoise = false)
    (hstarted : v.gate.step.2.isSome = true) (hauto : v.settings.autoRetrigger = true) :
    ∃ value, attacks c (v.update m c).2 = attackOrder c value (v.obeyed? m) := by
  have hopen := isPlaying_gated_of_started hstarted
  have hready : Fits c (v.gated.readied m v.gate.step.2) := h.gated.readied m _
  have hsettings : (v.gated.readied m v.gate.step.2).settings = v.settings :=
    (panning_bound v.gated m v.gate.step.2).1
  have hstart : (v.gated.readied m v.gate.step.2).startWrites c v.gate.step.2 = [.restart c] := by
    rw [startWrites, hsettings, hauto, hstarted]
    rfl
  rw [update_of_open m c hopen, writes_sound, obeyed?, if_pos hopen, attacks_append,
    attacks_append, attacks_pitchWrites hready hc, hstart, attacks_restart]
  generalize v.gated.readied m v.gate.step.2 = w at hready
  -- the voice sets the frequency before the start, and a program behind it
  cases hr : w.program.isRunning with
  | false =>
      refine ⟨w.frequency, ?_⟩
      rw [ProgramRunner.step_of_stopped hr, ProgramRunner.obeyed?, hr]
      rfl
  | true =>
      obtain ⟨command, length, -, hobeyed, hstep⟩ :=
        ProgramRunner.step_of_running hready.settled hr m.waveforms w.frequency
      have hprogram := ProgramRunner.attacks_commandWrites (r := w.program.advance command length)
        (by rw [ProgramRunner.channel_advance, hready.channel, hc]) m.waveforms command w.frequency
      rw [ProgramRunner.channel_advance, hready.channel] at hprogram
      refine ⟨(w.program.advance command length).bend w.frequency, ?_⟩
      rw [hstep, hobeyed, hprogram]
      rfl

end Voice

/-! ## Frames -/

namespace Player

variable {m : Module} {p : Player} {c : Channel}

/-- The row of a frame may restart a channel, and does not pitch it. -/
theorem attacks_rowWritesOf (p : Player) (m : Module) (c : Channel) :
    ∃ n, attacks c (p.rowWritesOf m c) = List.replicate n (.restart c) := by
  unfold rowWritesOf
  split
  · exact Voice.attacks_readRow _ _ _ _
  · exact ⟨0, rfl⟩

/-- **When a note is pitched before its channel is started.**  On a frame on which a note starts on a
tone channel with a sloping envelope, the row may start the channel any number of times.  Behind
that, the note sets the one frequency of the frame and starts the channel, in the order that the
command of its program gives.  The frequency stands before the last restart exactly if no program
obeys a command on the frame, or if its command restarts the channel. -/
theorem pitched_before_restart_iff (h : Reachable m p) (hc : c.isNoise = false) {note : Nat}
    (hstarted : p.noteStarted? m c = some note) (hgoing : (p.step m).1.isHalted = false)
    (hauto : ((p.step m).1.voices.get c).settings.autoRetrigger = true) :
    let ws := (p.step m).2
    (∃ restarts value, frequencies c ws = [value] ∧
        attacks c ws =
          List.replicate restarts (.restart c) ++ attackOrder c value (p.obeyed? m c)) ∧
      (PitchedFirst c ws ↔
        ∀ command, p.obeyed? m c = some command → command.retrigger = true) := by
  intro ws
  obtain ⟨hp, hb⟩ := isHalted_step_eq_false.mp hgoing
  have hbegun : ((p.begun m).voices.get c).settings.autoRetrigger = true := by
    rwa [voice_step hp hb, Voice.settings_update] at hauto
  obtain ⟨restarts, hrow⟩ := p.attacks_rowWritesOf m c
  obtain ⟨value, hsound⟩ := Voice.attacks_update (m := m) (h.fits_begun c) hc
    (Option.isSome_iff_exists.mpr ⟨note, hstarted⟩) hbegun
  -- effects of the row may start the channel before the voice does
  have hattacks : attacks c ws =
      List.replicate restarts (.restart c) ++ attackOrder c value (p.obeyed? m c) := by
    rw [← attacks_ownedBy, h.ownedBy_step, hp, hb, if_neg Bool.false_ne_true,
      if_neg Bool.false_ne_true, attacks_append, hrow]
    exact congrArg (_ ++ ·) hsound
  refine ⟨⟨restarts, value, ?_, hattacks⟩, ?_⟩
  · have hrestarts : frequencies c (List.replicate restarts (.restart c)) = [] :=
      List.filterMap_eq_nil_iff.mpr fun w hw => by rw [List.eq_of_mem_replicate hw]; rfl
    rw [← frequencies_attacks, hattacks, frequencies_append, hrestarts, frequencies_attackOrder,
      List.nil_append]
  · rw [← pitchedFirst_attacks, hattacks, pitchedFirst_restarts_append, pitchedFirst_attackOrder]

end Player

/-- A module whose first line starts two notes with sloping envelopes.  The program of the first
waits for a frame, and that of the second restarts its channel. -/
def attackModule : Module where
  song := ((Song.new "").setRow .ch1 0 0
    (((Row.empty.withNote (.on 0)).withInstrument 0).withEffect ⟨.track .setEnvelope, 0xA3⟩)).setRow
      .ch2 0 0
    (((Row.empty.withNote (.on 0)).withInstrument 1).withEffect ⟨.track .setEnvelope, 0xA3⟩)
  instruments := Table.ofList
    [(0, { Instrument.new "" .ch1 with program := [0], length_le := by decide }),
      (1, { Instrument.new "" .ch2 with program := [0x40], length_le := by decide })]
  waveforms := Table.empty

/-- The second note is pitched before its channel is started for the last time. -/
theorem pitched_before_restart_attackModule :
    let p := Player.atPosition attackModule.song ⟨0, 0⟩
    Player.Reachable attackModule p ∧ p.noteStarted? attackModule .ch2 = some 0 ∧
      (p.step attackModule).1.isHalted = false ∧
      ((p.step attackModule).1.voices.get .ch2).settings.autoRetrigger = true ∧
      PitchedFirst .ch2 (p.step attackModule).2 := by
  intro p
  have hok : Player.start attackModule ⟨0, 0⟩ = .ok p := rfl
  have hp : Player.Reachable attackModule p := .start hok
  have hstarted : p.noteStarted? attackModule .ch2 = some 0 := by decide +kernel
  have hgoing : (p.step attackModule).1.isHalted = false := by decide +kernel
  have hauto : ((p.step attackModule).1.voices.get .ch2).settings.autoRetrigger = true := by
    decide +kernel
  refine ⟨hp, hstarted, hgoing, hauto, ?_⟩
  refine (Player.pitched_before_restart_iff hp rfl hstarted hgoing hauto).2.mpr ?_
  have hrestarts : (p.obeyed? attackModule .ch2).all Command.retrigger = true := by decide +kernel
  intro command hobeyed
  rwa [hobeyed] at hrestarts

/-- The first channel is started before the note is pitched, and not again. -/
theorem restarted_before_pitch_attackModule :
    let p := Player.atPosition attackModule.song ⟨0, 0⟩
    Player.Reachable attackModule p ∧ p.noteStarted? attackModule .ch1 = some 0 ∧
      ((p.step attackModule).1.voices.get .ch1).settings.autoRetrigger = true ∧
      attacks .ch1 (p.step attackModule).2 =
        [.restart .ch1, .restart .ch1, .frequency .ch1 0x2C] ∧
      ¬PitchedFirst .ch1 (p.step attackModule).2 := by
  intro p
  have hok : Player.start attackModule ⟨0, 0⟩ = .ok p := rfl
  have hattacks : attacks .ch1 (p.step attackModule).2 =
      [.restart .ch1, .restart .ch1, .frequency .ch1 0x2C] := by decide +kernel
  refine ⟨.start hok, by decide +kernel, by decide +kernel, hattacks, ?_⟩
  rw [← pitchedFirst_attacks, hattacks]
  simp [PitchedFirst, List.sublist_cons_iff]

end Chiptune
