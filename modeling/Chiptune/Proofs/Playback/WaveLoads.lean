import Chiptune.Proofs.Audition.Run
import Chiptune.Proofs.Device.WaveMemory
import Chiptune.Proofs.Playback.Halting

/-! # Wave memory while playing

Wave memory is reached from many places: by effects, by programs and by instruments that are
auditioned.  All of them load a waveform as a whole, within one call, and nothing else comes near.

* `Voice.inBlocks_readRow` and `Voice.inBlocks_update` are about the voices, and
  `Player.inBlocks_serve` and `Player.inBlocks_writes` about calls and runs of a player.
* `Audition.inBlocks_serve` and `Audition.inBlocks_writes` are about those of an audition.
* `wave_memory_stays_whole` says what they leave in the memory. -/

namespace Chiptune

open DeviceWrite

variable {present : Waveform → Prop} {waves : Table Waveform}

/-! ## Programs -/

namespace ProgramRunner

/-- The settings of a command load the waveform that it names, if there is one. -/
theorem inBlocks_settingWrites (channel : Channel) (c : Command) :
    InBlocks waves.Has (settingWrites channel waves c) := by
  have haux1 : InBlocks waves.Has (c.aux1.toList.flatMap channel.firstAuxWrites) :=
    .flatMap fun value _ => channel.inBlocks_firstAuxWrites value
  have haux2 : InBlocks waves.Has (c.aux2.toList.flatMap (channel.envelopeWrites waves)) :=
    .flatMap fun value _ => channel.inBlocks_envelopeWrites waves value
  have hsettings : InBlocks waves.Has (c.settings.toList.flatMap channel.timbreWrites) :=
    .flatMap fun value _ => channel.inBlocks_timbreWrites value
  have hpanning :
      InBlocks waves.Has (c.panning.toList.map fun p => .channelOutput channel (.ofByte p)) := by
    cases c.panning with
    | none => exact inBlocks_nil
    | some p => exact inBlocks_singleton rfl
  exact ((haux1.append haux2).append hsettings).append hpanning

/-- A command loads at most the one waveform that its second auxiliary byte names. -/
theorem inBlocks_commandWrites (r : ProgramRunner) (c : Command) (frequency : Nat) :
    InBlocks waves.Has (r.commandWrites waves c frequency) := by
  have hfrequency : InBlocks waves.Has (r.frequencyWrites frequency) := by
    unfold frequencyWrites
    split
    · exact inBlocks_nil
    · exact inBlocks_singleton rfl
  refine ((inBlocks_settingWrites r.channel c).append hfrequency).append ?_
  split
  · exact inBlocks_singleton rfl
  · exact inBlocks_nil

/-- A frame of a program loads waveforms as a whole. -/
theorem inBlocks_step (r : ProgramRunner) (waves : Table Waveform) (frequency : Nat) :
    InBlocks waves.Has (r.step waves frequency).2 := by
  unfold step
  split
  · split
    · next c length _ => exact (r.advance c length).inBlocks_commandWrites c frequency
    · exact inBlocks_nil
  · exact inBlocks_nil

end ProgramRunner

/-! ## Voices -/

/-- An effect loads the waveform that it names, if there is one. -/
theorem Effect.inBlocks_writesOn (e : Effect) (waves : Table Waveform) (c : Channel) :
    InBlocks waves.Has (e.writesOn waves c) := by
  unfold writesOn
  split
  · exact (c.inBlocks_envelopeWrites waves e.param).append (inBlocks_singleton rfl)
  · exact c.inBlocks_timbreWrites _
  · split
    · exact inBlocks_singleton rfl
    · exact inBlocks_nil
  · exact inBlocks_nil

namespace Voice

/-- A row loads waveforms as a whole. -/
theorem inBlocks_readRow (v : Voice) (waves : Table Waveform) (c : Channel) (r : Row) :
    InBlocks waves.Has (v.readRow waves c r).2 := by
  rw [writes_readRow]
  exact .flatMap fun e _ => e.inBlocks_writesOn waves c

/-- Frequencies and polynomials are written elsewhere. -/
theorem inBlocks_pitchWrites (v : Voice) (c : Channel) (started : Option Nat) :
    InBlocks present (v.pitchWrites c started) := by
  unfold pitchWrites
  split
  · split
    · exact inBlocks_nil
    · exact inBlocks_singleton rfl
  · split
    · exact c.inBlocks_nrx3 _
    · exact inBlocks_nil

/-- A retrigger and a panning are written elsewhere. -/
theorem inBlocks_startWrites (v : Voice) (c : Channel) (started : Option Nat) :
    InBlocks present (v.startWrites c started) := by
  unfold startWrites
  split
  · exact inBlocks_singleton rfl
  · exact inBlocks_nil

/-- An update loads waveforms as a whole. -/
theorem inBlocks_update (v : Voice) (m : Module) (c : Channel) :
    InBlocks m.waveforms.Has (v.update m c).2 := by
  cases hplaying : v.gated.isPlaying with
  | true =>
      rw [update_of_open m c hplaying, writes_sound]
      exact ((inBlocks_pitchWrites _ c _).append (inBlocks_startWrites _ c _)).append
        (ProgramRunner.inBlocks_step _ m.waveforms _)
  | false =>
      rw [update_of_closed m c hplaying]
      exact inBlocks_nil

end Voice

/-! ## Players -/

namespace Player

/-- The row of a frame loads waveforms as a whole. -/
theorem inBlocks_rowWrites (p : Player) (m : Module) :
    InBlocks m.waveforms.Has (p.rowWrites m) := by
  rw [rowWrites_eq]
  split
  · refine .flatMap fun c _ => ?_
    split
    · exact Voice.inBlocks_readRow _ m.waveforms c _
    · exact inBlocks_nil
  · exact inBlocks_nil

/-- A frame loads waveforms as a whole. -/
theorem inBlocks_step (p : Player) (m : Module) : InBlocks m.waveforms.Has (p.step m).2 := by
  cases hp : p.isHalted with
  | true =>
      rw [step_of_halted m hp]
      exact inBlocks_nil
  | false =>
      cases hb : (p.begun m).isHalted with
      | true =>
          rw [step_of_halting hp hb]
          exact p.inBlocks_rowWrites m
      | false =>
          have hswitches : InBlocks m.waveforms.Has (p.switchWrites m) := by
            unfold switchWrites
            dsimp only
            split
            · exact inBlocks_nil
            · exact inBlocks_singleton rfl
          rw [writes_step hp hb]
          exact (p.inBlocks_rowWrites m).append
            ((InBlocks.flatMap fun c _ => Voice.inBlocks_update _ m c).append hswitches)

/-- **A call loads waveforms as a whole.** -/
theorem inBlocks_serve (p : Player) (m : Module) (call : Call) :
    InBlocks m.waveforms.Has (p.serve m call).2 := by
  cases call with
  | step => exact p.inBlocks_step m
  | setRepeat repeats => exact inBlocks_nil
  | jump order => exact inBlocks_nil
  | halt => exact inBlocks_nil

/-- So do some calls, one after the other. -/
theorem inBlocks_writes (p : Player) (m : Module) (calls : List Call) :
    InBlocks m.waveforms.Has (p.writes m calls) := by
  induction calls generalizing p with
  | nil => exact inBlocks_nil
  | cons call calls ih => exact (p.inBlocks_serve m call).append (ih _)

end Player

/-! ## Auditions -/

/-- A call comes with a waveform. -/
def AuditionCall.Offers (call : AuditionCall) (w : Waveform) : Prop :=
  match call with
  | setInstrument _ waves => waves.Has w
  | step waves => waves.Has w
  | playNote _ | stop => False

namespace Audition

/-- An instrument loads at most the one waveform of its envelope byte. -/
theorem inBlocks_ofInstrument (i : Instrument) (waves : Table Waveform) :
    InBlocks waves.Has (ofInstrument i waves).2 :=
  ((i.channel.inBlocks_envelopeWrites waves i.envelope).append
    (i.channel.inBlocks_timbreWrites i.timbre)).append (inBlocks_singleton rfl)

/-- The pitch of an audition is written elsewhere. -/
theorem inBlocks_writePitch (a : Audition) (started : Option Nat) :
    InBlocks present (a.writePitch started).2 := by
  unfold writePitch
  split
  · dsimp only
    split
    · exact inBlocks_nil
    · exact inBlocks_singleton rfl
  · dsimp only
    split
    · exact a.channel.inBlocks_nrx3 _
    · exact inBlocks_nil

/-- What starts a note in an audition is written elsewhere. -/
theorem inBlocks_startWrites (a : Audition) (started : Option Nat) :
    InBlocks present (a.startWrites started) := by
  unfold startWrites
  split
  · refine InBlocks.append ?_ (inBlocks_singleton rfl)
    split
    · exact inBlocks_singleton rfl
    · exact inBlocks_nil
  · exact inBlocks_nil

/-- A frame loads waveforms as a whole. -/
theorem inBlocks_step (a : Audition) (waves : Table Waveform) :
    InBlocks waves.Has (a.step waves).2 := by
  cases hopen : a.gated.isPlaying with
  | true =>
      rw [step_of_open waves hopen, writes_sound]
      exact ((inBlocks_writePitch _ _).append (inBlocks_startWrites _ _)).append
        (ProgramRunner.inBlocks_step _ waves _)
  | false =>
      rw [step_of_closed waves hopen]
      exact inBlocks_singleton rfl

/-- **A call loads waveforms as a whole.** -/
theorem inBlocks_serve (a : Audition) (call : AuditionCall) :
    InBlocks call.Offers (a.serve call).2 := by
  cases call with
  | setInstrument i waves => exact inBlocks_ofInstrument i waves
  | playNote note => exact inBlocks_nil
  | stop => exact inBlocks_nil
  | step waves => exact a.inBlocks_step waves

/-- So do some calls, one after the other; each of them may come with other waveforms. -/
theorem inBlocks_writes (a : Audition) (calls : List AuditionCall) :
    InBlocks (fun w => ∃ call ∈ calls, call.Offers w) (a.writes calls) := by
  induction calls generalizing a with
  | nil => exact inBlocks_nil
  | cons call calls ih =>
      refine InBlocks.append ?_ ?_
      · exact (a.inBlocks_serve call).mono fun w hw => ⟨call, List.mem_cons_self .., hw⟩
      · refine (ih (a.serve call).1).mono fun w hw => ?_
        obtain ⟨call', hmem, hw⟩ := hw
        exact ⟨call', List.mem_cons_of_mem _ hmem, hw⟩

end Audition

/-- **Wave memory is never torn, and the wave channel is never left switched off.**  Players and
auditions reach the memory only by whole blocks of waveforms that are present, none of which extends
over two calls.  Behind a call that has reached it, and behind any calls, the memory holds the last
waveform that was loaded and the channel is switched on; other calls leave both as they are. -/
theorem wave_memory_stays_whole :
    (∀ (m : Module) (p : Player) (calls : List Call),
      KeepsWaveWhole m.waveforms.Has (p.writes m calls) ∧
        ∀ call, KeepsWaveWhole m.waveforms.Has ((p.after m calls).serve m call).2) ∧
      ∀ (a : Audition) (calls : List AuditionCall),
        KeepsWaveWhole (fun w => ∃ call ∈ calls, call.Offers w) (a.writes calls) ∧
          ∀ call : AuditionCall, KeepsWaveWhole call.Offers ((a.after calls).serve call).2 := by
  refine ⟨?_, ?_⟩
  · intro m p calls
    exact ⟨(p.inBlocks_writes m calls).keepsWaveWhole,
      fun call => ((p.after m calls).inBlocks_serve m call).keepsWaveWhole⟩
  · intro a calls
    exact ⟨(a.inBlocks_writes calls).keepsWaveWhole,
      fun call => ((a.after calls).inBlocks_serve call).keepsWaveWhole⟩

/-- An audition of the wave channel begins with a block. -/
example :
    let w : Waveform := ⟨"saw", Vector.ofFn fun i => Waveform.pack (2 * i) (2 * i + 1)⟩
    let i : Instrument := { Instrument.new "bass" .ch3 with envelope := 7 }
    (Audition.ofInstrument i (Table.ofList [(7, w)])).2.take 18 = w.block := by
  decide +kernel

end Chiptune
