import Mathlib.Algebra.GroupWithZero.Nat
import Chiptune.Proofs.Device.WaveMemory
import Chiptune.Proofs.Playback.Frequencies
import Chiptune.Proofs.Program.Codec

/-! # Runners obey their programs

A program is a list of commands, which a runner obeys one per frame.  This file says in terms of
that list what a runner writes on every frame and where it stands.

* `Command.writesOn` gives the writes of a command on a channel, register by register and bit by bit,
  and `commandWrites_eq` says that they are those of a runner.
* `lastTuning` is the tuning that some commands leave behind, and `bent` a frequency that it bends.
* `HasObeyed` describes a runner by the number of commands behind it; `HasObeyed.step` and
  `HasObeyed.step_of_over` are the frames, `HasObeyed.after` is the run.
* `obeys_program` puts this together for every way in which a program starts. -/

namespace Chiptune

/-! ## The writes of a command -/

namespace Command

/-- The writes of the first auxiliary byte: the sweep of the first channel, or the noise
polynomial. -/
def aux1Writes (channel : Channel) (value : UInt8) : List DeviceWrite :=
  match channel with
  | .ch1 => [.register 0xFF10 value]
  | .ch4 => [.register 0xFF22 value]
  | _ => []

/-- The writes of the second auxiliary byte: an envelope, or the block of the waveform of that
identifier if there is one. -/
def aux2Writes (channel : Channel) (waves : Table Waveform) (value : UInt8) : List DeviceWrite :=
  match channel with
  | .ch1 => [.register 0xFF12 value]
  | .ch2 => [.register 0xFF17 value]
  | .ch3 => (waves.get? value.toNat).toList.flatMap Waveform.block
  | .ch4 => [.register 0xFF21 value]

/-- The byte of a duty, which takes its two highest bits. -/
def dutyByte (value : UInt8) : UInt8 :=
  UInt8.ofNat (64 * (value.toNat % 4))

/-- The byte of an output level: off, a quarter, a half, full. -/
def levelByte (value : UInt8) : UInt8 :=
  match value.toNat % 4 with
  | 0 => 0x00
  | 1 => 0x60
  | 2 => 0x40
  | _ => 0x20

/-- The writes of a timbre, of which two bits count: the duty of a pulse, or the output level of the
wave. -/
def settingsWrites (channel : Channel) (value : UInt8) : List DeviceWrite :=
  match channel with
  | .ch1 => [.register 0xFF11 (dutyByte value)]
  | .ch2 => [.register 0xFF16 (dutyByte value)]
  | .ch3 => [.register 0xFF1C (levelByte value)]
  | .ch4 => []

/-- The write of a panning: bit one is the left output, bit zero the right one. -/
def panningWrite (channel : Channel) (value : UInt8) : DeviceWrite :=
  .channelOutput channel ⟨value.toNat.testBit 1, value.toNat.testBit 0⟩

/-- The writes of a command that sets a frequency, in order. -/
def writesOn (c : Command) (channel : Channel) (waves : Table Waveform) (frequency : Nat) :
    List DeviceWrite :=
  c.aux1.toList.flatMap (aux1Writes channel) ++
    c.aux2.toList.flatMap (aux2Writes channel waves) ++
    c.settings.toList.flatMap (settingsWrites channel) ++
    c.panning.toList.map (panningWrite channel) ++
    (if channel = .ch4 then [] else [.frequency channel frequency]) ++
    if c.retrigger then [.restart channel] else []

/-! These are the writes that effects and instruments have for the same bytes. -/

/-- The first auxiliary byte goes where the layout of the channel has it. -/
theorem firstAuxWrites_eq (channel : Channel) : channel.firstAuxWrites = aux1Writes channel := by
  funext value
  cases channel <;> rfl

/-- The second auxiliary byte goes where the layout of the channel has it. -/
theorem envelopeWrites_eq (channel : Channel) (waves : Table Waveform) :
    channel.envelopeWrites waves = aux2Writes channel waves := by
  funext value
  cases channel with
  | ch3 =>
      simp only [Channel.envelopeWrites, Channel.layout, aux2Writes]
      cases waves.get? value.toNat with
      | none => rfl
      | some w => simp [Waveform.loadWrites_eq]
  | _ => rfl

/-- Two bits of a byte are left by a division. -/
theorem toNat_and_three (value : UInt8) : (value &&& 3).toNat = value.toNat % 4 := by
  rw [UInt8.toNat_and]
  exact Nat.and_two_pow_sub_one_eq_mod value.toNat 2

/-- The duty bits of a timbre are its byte. -/
theorem dutyBits_eq (value : UInt8) : dutyBits value = dutyByte value := by
  refine UInt8.toNat_inj.mp ?_
  have hbits := toNat_and_three value
  rw [dutyBits, dutyByte, UInt8.toNat_shiftLeft, hbits, Nat.shiftLeft_eq, UInt8.toNat_ofNat']
  show _ * 2 ^ 6 % 2 ^ 8 = _
  omega

/-- The output level of a timbre is that of its byte. -/
theorem waveLevel_eq (value : UInt8) : waveLevel value = levelByte value := by
  have hbits := toNat_and_three value
  have hlevel : value.toNat % 4 < 4 := Nat.mod_lt _ (by decide)
  unfold waveLevel levelByte
  generalize (value &&& 3).toNat = level at hbits ⊢
  generalize value.toNat % 4 = number at hbits hlevel
  subst hbits
  match level, hlevel with
  | 0, _ | 1, _ | 2, _ | 3, _ => rfl

/-- A timbre goes where the layout of the channel has it. -/
theorem timbreWrites_eq (channel : Channel) : channel.timbreWrites = settingsWrites channel := by
  funext value
  cases channel with
  | ch1 | ch2 => exact congrArg (fun b => [DeviceWrite.register _ b]) (dutyBits_eq value)
  | ch3 => exact congrArg (fun b => [DeviceWrite.register _ b]) (waveLevel_eq value)
  | ch4 => rfl

end Command

/-! ## Tunings -/

/-- The last of the tunings that some commands give, or none at all. -/
def lastTuning (tuning? : Command → Option Int8) (cs : List Command) : Int8 :=
  (cs.filterMap tuning?).getLast?.getD 0

/-- A command that gives no tuning leaves the last one. -/
theorem lastTuning_concat (tuning? : Command → Option Int8) (cs : List Command) (c : Command) :
    lastTuning tuning? (cs ++ [c]) = (tuning? c).getD (lastTuning tuning? cs) := by
  rw [lastTuning, lastTuning, List.filterMap_append]
  cases h : tuning? c with
  | none => simp [h]
  | some tuning => simp [h]

/-- A frequency bent by a coarse and a fine tuning, within eleven bits. -/
def bent (frequency : Nat) (tune fine : Int8) : Nat :=
  (max 0 (min (frequency + tune.toInt + 16 * fine.toInt) 0x7FF)).toNat

namespace ProgramRunner

variable {r : ProgramRunner} {channel : Channel} {program : List UInt8} {waves : Table Waveform}
  {k : Nat}

/-- A runner bends by the tunings that it keeps. -/
theorem bend_eq_bent (r : ProgramRunner) (frequency : Nat) :
    r.bend frequency = bent frequency r.coarse r.fine := by
  rw [bent, ← bend_eq, Int.toNat_natCast]

/-- The writes of a runner are those of its command. -/
theorem commandWrites_eq (r : ProgramRunner) (waves : Table Waveform) (c : Command)
    (frequency : Nat) :
    r.commandWrites waves c frequency =
      c.writesOn r.channel waves (bent frequency r.coarse r.fine) := by
  have hpanning : Command.panningWrite r.channel =
      fun value => .channelOutput r.channel (.ofByte value) := by
    funext value
    rw [Command.panningWrite, Panning.ofByte_eq]
  rw [commandWrites, settingWrites, frequencyWrites, bend_eq_bent, Command.firstAuxWrites_eq,
    Command.envelopeWrites_eq, Command.timbreWrites_eq, Command.writesOn, hpanning]
  cases r.channel <;> rfl

/-! ## Runs -/

/-- The runner behind some frames, each with the frequency of its row. -/
def after (r : ProgramRunner) (waves : Table Waveform) (frequencies : Nat → Nat) :
    Nat → ProgramRunner
  | 0 => r
  | k + 1 => ((r.after waves frequencies k).step waves (frequencies k)).1

/-- The program that a runner obeys: one that is too long counts as none. -/
def accepted (program : List UInt8) : List UInt8 :=
  if program.length ≤ Instrument.maxProgramLength then program else []

/-- The ways in which a program starts on a channel. -/
inductive Starts (channel : Channel) (program : List UInt8) : ProgramRunner → Prop where
  /-- A new runner is loaded with the program. -/
  | load : Starts channel program (.load channel program)
  /-- Any runner of the channel is given the program. -/
  | setProgram {r : ProgramRunner} :
      r.channel = channel → Starts channel program (r.setProgram program)
  /-- A runner that has started the program is reset behind some frames. -/
  | reset {r : ProgramRunner} (waves : Table Waveform) (frequencies : Nat → Nat) (k : Nat) :
      Starts channel program r → Starts channel program (r.after waves frequencies k).reset

/-- What holds of a runner that has obeyed some number of commands of a program. -/
structure HasObeyed (channel : Channel) (program : List UInt8) (k : Nat) (r : ProgramRunner) :
    Prop where
  /-- The runner rules the channel. -/
  onChannel : r.channel = channel
  /-- The runner has the program. -/
  ofProgram : r.program = program
  /-- The runner stands behind the bytes of the commands. -/
  position : r.position = (((Command.decodeAll program).take k).map Prod.snd).sum
  /-- The other commands are still to come. -/
  rest : Command.decodeAll (program.drop r.position) = (Command.decodeAll program).drop k
  /-- The coarse tuning is the last one. -/
  coarse : r.coarse =
    lastTuning Command.tune (((Command.decodeAll program).take k).map Prod.fst)
  /-- The fine tuning is the last one. -/
  fine : r.fine = lastTuning Command.fine (((Command.decodeAll program).take k).map Prod.fst)
  /-- The switch is on as long as a command is to come. -/
  settled : r.Settled

/-- A loaded runner has obeyed nothing. -/
theorem hasObeyed_load (channel : Channel) (program : List UInt8) :
    HasObeyed channel (accepted program) 0 (load channel program) := by
  rw [accepted, load]
  split
  · exact
      { onChannel := rfl, ofProgram := rfl, position := rfl, rest := rfl, coarse := rfl, fine := rfl
        settled := settled_settle _ }
  · exact
      { onChannel := rfl, ofProgram := rfl, position := rfl, rest := rfl, coarse := rfl, fine := rfl
        settled := settled_new _ }

namespace HasObeyed

/-- The next command is the first of those that are to come. -/
theorem next?_eq (h : HasObeyed channel program k r) :
    r.next? = (Command.decodeAll program)[k]? := by
  rw [← List.head?_drop, ← h.rest, next?, h.ofProgram]
  cases hnext : Command.decode (program.drop r.position) with
  | none => rw [Command.decodeAll_of_decode_eq_none hnext]; rfl
  | some next => rw [Command.decodeAll_of_decode hnext]; rfl

/-- The switch is on exactly if a command is to come. -/
theorem isRunning_eq (h : HasObeyed channel program k r) :
    r.isRunning = decide (k < (Command.decodeAll program).length) := by
  rw [h.settled, h.next?_eq, Bool.eq_iff_iff]
  simp

/-- **A runner obeys the next command of its program**, and then has obeyed one more. -/
theorem step (h : HasObeyed channel program k r) (hk : k < (Command.decodeAll program).length)
    (waves : Table Waveform) (frequency : Nat) :
    HasObeyed channel program (k + 1) (r.step waves frequency).1 ∧
      (r.step waves frequency).2 =
        ((Command.decodeAll program)[k].1).writesOn channel waves
          (bent frequency (r.step waves frequency).1.coarse (r.step waves frequency).1.fine) := by
  have hrunning : r.isRunning = true := by
    rw [h.isRunning_eq]
    exact decide_eq_true hk
  -- the runner obeys the command that stands at its place
  obtain ⟨c, length, hnext, -, hstep⟩ := step_of_running h.settled hrunning waves frequency
  have hcommand : (Command.decodeAll program)[k] = (c, length) := by
    rw [h.next?_eq, List.getElem?_eq_getElem hk] at hnext
    exact Option.some.inj hnext
  have htake : (Command.decodeAll program).take (k + 1) =
      (Command.decodeAll program).take k ++ [(c, length)] := by
    rw [List.take_succ_eq_append_getElem hk, hcommand]
  have hdecode : Command.decode (program.drop r.position) = some (c, length) := by
    rw [← h.ofProgram]
    exact hnext
  rw [hstep, hcommand]
  constructor
  · constructor
    · exact h.onChannel
    · exact h.ofProgram
    · show r.position + length = _
      rw [htake, List.map_append, List.sum_append, ← h.position]
      rfl
    · show Command.decodeAll (program.drop (r.position + length)) = _
      have hrest := h.rest
      rw [Command.decodeAll_of_decode hdecode, List.drop_drop,
        List.drop_eq_getElem_cons hk] at hrest
      exact (List.cons.inj hrest).2
    · show c.tune.getD r.coarse = _
      rw [htake, List.map_append, h.coarse]
      exact (lastTuning_concat _ _ _).symm
    · show c.fine.getD r.fine = _
      rw [htake, List.map_append, h.fine]
      exact (lastTuning_concat _ _ _).symm
    · exact settled_settle _
  · rw [commandWrites_eq, channel_advance, h.onChannel]
    rfl

/-- A runner that has obeyed its whole program does nothing. -/
theorem step_of_over (h : HasObeyed channel program k r)
    (hk : (Command.decodeAll program).length ≤ k) (waves : Table Waveform) (frequency : Nat) :
    r.step waves frequency = (r, []) := by
  apply step_of_stopped
  rw [h.isRunning_eq]
  exact decide_eq_false (by omega)

/-- **A run obeys the commands of its program in turn**, as many as there are. -/
theorem after (h : HasObeyed channel program 0 r) (waves : Table Waveform)
    (frequencies : Nat → Nat) (k : Nat) :
    HasObeyed channel program (min k (Command.decodeAll program).length)
      (r.after waves frequencies k) := by
  induction k with
  | zero => rwa [Nat.zero_min]
  | succ k ih =>
      rw [ProgramRunner.after]
      -- behind the last command the count stays, as does the runner
      by_cases hk : k < (Command.decodeAll program).length
      · rw [Nat.min_eq_left (by omega)] at ih ⊢
        exact (ih.step hk waves (frequencies k)).1
      · rw [Nat.min_eq_right (by omega)] at ih ⊢
        rw [ih.step_of_over (by omega) waves (frequencies k)]
        exact ih

end HasObeyed

/-- However a program starts, the runner is the one that is loaded with it. -/
theorem Starts.eq_load (h : Starts channel program r) : r = ProgramRunner.load channel program := by
  induction h with
  | load => rfl
  | setProgram hchannel => rw [ProgramRunner.setProgram, hchannel]
  | reset waves frequencies k _ ih =>
      -- a run keeps the channel and the program, which is all that is left by a reset
      have hobeyed := (hasObeyed_load channel program).after waves frequencies k
      rw [ih, ProgramRunner.reset, hobeyed.onChannel, hobeyed.ofProgram, accepted,
        ProgramRunner.load]
      split <;> rfl

/-- **A runner obeys exactly its program.**  However a program starts on a channel, the runner is
switched on before a frame exactly if the program has a command for it.  That command is obeyed with
all its writes in order, and its frequency is bent by the last tunings that the program has given up
to it.  The runner stands behind the bytes of the commands that it has obeyed, and behind the last
one it does nothing. -/
theorem obeys_program (h : Starts channel program r) (waves : Table Waveform)
    (frequencies : Nat → Nat) :
    let commands := Command.decodeAll (accepted program)
    ∀ k,
      (r.after waves frequencies k).isRunning = decide (k < commands.length) ∧
      (∀ hk : k < commands.length,
        ((r.after waves frequencies k).step waves (frequencies k)).2 =
          (commands[k].1).writesOn channel waves
            (bent (frequencies k)
              (lastTuning Command.tune ((commands.take (k + 1)).map Prod.fst))
              (lastTuning Command.fine ((commands.take (k + 1)).map Prod.fst)))) ∧
      (k ≤ commands.length →
        (r.after waves frequencies k).position = ((commands.take k).map Prod.snd).sum) ∧
      (commands.length ≤ k →
        (r.after waves frequencies k).step waves (frequencies k) =
          (r.after waves frequencies k, [])) := by
  intro commands k
  obtain rfl := h.eq_load
  -- behind so many frames, as many commands have been obeyed, or all that there are
  have hobeyed := (hasObeyed_load channel program).after waves frequencies k
  refine ⟨?_, ?_, ?_, ?_⟩
  · rw [hobeyed.isRunning_eq, decide_eq_decide]
    show min k commands.length < commands.length ↔ k < commands.length
    omega
  · intro hk
    rw [Nat.min_eq_left (Nat.le_of_lt hk)] at hobeyed
    obtain ⟨hnext, hwrites⟩ := hobeyed.step hk waves (frequencies k)
    rw [hwrites, hnext.coarse, hnext.fine]
  · intro hk
    rw [Nat.min_eq_left hk] at hobeyed
    exact hobeyed.position
  · intro hk
    rw [Nat.min_eq_right hk] at hobeyed
    exact hobeyed.step_of_over (Nat.le_refl _) waves (frequencies k)

/-- A program that sets the sweep and starts the channel anew, then tunes the channel by three
units, and ends within a command. -/
def bendingProgram : List UInt8 := [0x60, 0x35, 0xC0, 0x03, 0x20]

/-- A program with a single command that loads a waveform, halves its level, tunes the channel,
leaves it on the left output alone, and starts it anew. -/
def shapingProgram : List UInt8 := [0x5D, 0xD8, 0x01, 0x03]

/-- A waveform whose bytes rise by as much as the samples allow. -/
def risingWave : Waveform :=
  Waveform.new "" (Vector.ofFn fun i => UInt8.ofNat (17 * i.val))

/-- Started anew behind a frame, the one program is obeyed from its beginning, and what is left
behind its second command is not.  On the wave channel, the other one is obeyed with all its
writes. -/
theorem obeys_bendingProgram :
    let frequencies := fun _ : Nat => 0x600
    let r := (((new .ch1).setProgram bendingProgram).after Table.empty frequencies 1).reset
    let waves := Table.ofList [(1, risingWave)]
    Starts .ch1 bendingProgram r ∧
      (r.step Table.empty 0x600).2 =
        [.register Register.nr10 0x35, .frequency .ch1 0x600, .restart .ch1] ∧
      ((r.after Table.empty frequencies 1).step Table.empty 0x600).2 = [.frequency .ch1 0x603] ∧
      (r.after Table.empty frequencies 2).isRunning = false ∧
      (r.after Table.empty frequencies 2).position = 4 ∧
      ((load .ch3 shapingProgram).step waves 0x600).2 =
        .register 0xFF1A 0x00 ::
          (List.range 16).map (fun i => .register (0xFF30 + i) (UInt8.ofNat (17 * i))) ++
          [.register 0xFF1A 0x80, .register 0xFF1C 0x40, .channelOutput .ch3 ⟨true, false⟩,
            .frequency .ch3 0x603, .restart .ch3] := by
  intro frequencies r waves
  have hstarts : Starts .ch1 bendingProgram r := .reset _ _ _ (.setProgram rfl)
  -- the commands of the two programs
  have hcommands : Command.decodeAll (accepted bendingProgram) =
      [({ retrigger := true, aux1 := some 0x35 }, 2), ({ tune := some 3 }, 2)] := by
    have hfirst : Command.decode bendingProgram =
        some ({ retrigger := true, aux1 := some 0x35 }, 2) := by decide
    have hsecond : Command.decode (bendingProgram.drop 2) = some ({ tune := some 3 }, 2) := by
      decide
    have hend : Command.decode ((bendingProgram.drop 2).drop 2) = none := by decide
    rw [show accepted bendingProgram = bendingProgram from rfl, Command.decodeAll_of_decode hfirst,
      Command.decodeAll_of_decode hsecond, Command.decodeAll_of_decode_eq_none hend]
  have hcommand : Command.decodeAll (accepted shapingProgram) =
      [({ retrigger := true, aux2 := some 1, settings := some 2, tune := some 3,
          panning := some 2 }, 4)] := by
    have hfirst : Command.decode shapingProgram =
        some ({ retrigger := true, aux2 := some 1, settings := some 2, tune := some 3,
                panning := some 2 }, 4) := by decide
    have hend : Command.decode (shapingProgram.drop 4) = none := by decide
    rw [show accepted shapingProgram = shapingProgram from rfl, Command.decodeAll_of_decode hfirst,
      Command.decodeAll_of_decode_eq_none hend]
  have hruns := obeys_program hstarts Table.empty frequencies
  have hshapes := obeys_program (Starts.load : Starts .ch3 shapingProgram _) waves frequencies
  simp only [hcommands] at hruns
  simp only [hcommand] at hshapes
  refine ⟨hstarts, ?_, ?_, (hruns 2).1, (hruns 2).2.2.1 (by decide), ?_⟩
  · refine ((hruns 0).2.1 (by decide)).trans ?_
    show Command.writesOn { retrigger := true, aux1 := some 0x35 } .ch1 Table.empty
      (bent 0x600 0 0) = _
    decide +kernel
  · refine ((hruns 1).2.1 (by decide)).trans ?_
    show Command.writesOn { tune := some 3 } .ch1 Table.empty (bent 0x600 3 0) = _
    decide +kernel
  · refine ((hshapes 0).2.1 (by decide)).trans ?_
    show Command.writesOn { retrigger := true, aux2 := some 1, settings := some 2, tune := some 3,
                            panning := some 2 } .ch3 waves (bent 0x600 3 0) = _
    decide +kernel

end ProgramRunner
end Chiptune
