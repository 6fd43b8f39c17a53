import Chiptune.Proofs.Audition.Run
import Chiptune.Proofs.Playback.VoiceWrites
import Mathlib.Data.List.Induction

/-! # The outputs that an audition leaves on

An audition switches the channel of its instrument off in every frame without a note, and so does an
instrument with its own channel when it is taken up.  The channel of the instrument before it is
switched off by neither: an instrument that is replaced while a note of it is heard stays heard.

* `Audition.Heard` says that the outputs of a channel are on behind some calls.
* `Ruled.owned_serve` says that a call writes to the channel behind it alone, so that
  `heard_concat_of_ne` leaves the others as they are; `not_heard_current` is about the current one.
* `Audition.LeftOn` says that an instrument was replaced while a note of it was heard.
* `heard_channels` says which channels are heard behind some calls, and `current_of_heard` that none
  is left on if instruments are taken up only between the notes. -/

namespace Chiptune

open DeviceWrite

/-- A call takes up an instrument on a channel. -/
def AuditionCall.Loads (c : Channel) : AuditionCall → Prop
  | setInstrument i _ => i.channel = c
  | _ => False

namespace Audition

variable {a : Audition}

/-! ## One call -/

/-- The program of an audition rules its channel. -/
def Ruled (a : Audition) : Prop :=
  a.program.channel = a.channel

/-- A new audition has the program of its own channel. -/
theorem ruled_new : new.Ruled := rfl

/-- An instrument is loaded on its channel. -/
theorem ruled_ofInstrument (i : Instrument) (waves : Table Waveform) :
    (ofInstrument i waves).1.Ruled :=
  ProgramRunner.channel_setProgram (.new i.channel) i.program

/-- A note that may start leaves the program on the channel. -/
theorem Ruled.played (h : a.Ruled) (started : Option Nat) : (a.played started).Ruled :=
  (a.program_played started).2.trans h

/-- A frame leaves the program on the channel. -/
theorem Ruled.step (h : a.Ruled) (waves : Table Waveform) : (a.step waves).1.Ruled := by
  cases hopen : a.gated.isPlaying with
  | true =>
      have hplayed : (a.gated.played a.gate.step.2).Ruled := Ruled.played (a := a.gated) h _
      rw [step_of_open waves hopen, state_sound]
      exact (ProgramRunner.channel_step ..).trans hplayed
  | false =>
      rw [step_of_closed waves hopen]
      exact h

/-- Every call leaves the program on the channel. -/
theorem Ruled.serve (h : a.Ruled) (call : AuditionCall) : (a.serve call).1.Ruled := by
  cases call with
  | setInstrument i waves => exact ruled_ofInstrument i waves
  | playNote note => exact h
  | stop => exact h
  | step waves => exact h.step waves

/-- Every call leaves the program on the channel that is heard. -/
theorem Ruled.after (h : a.Ruled) (calls : List AuditionCall) : (a.after calls).Ruled := by
  induction calls generalizing a with
  | nil => exact h
  | cons call calls ih => exact ih (h.serve call)

/-- The writes of the pitch belong to the channel. -/
theorem owned_writePitch (a : Audition) (started : Option Nat) :
    Owned a.channel (a.writePitch started).2 := by
  have hregister (value : UInt8) : Plain a.channel [.register a.channel.layout.nrx3 value] :=
    plain_register value (Register.owner?_base_add a.channel (by decide))
  unfold writePitch
  split
  · dsimp only
    split
    · exact owned_nil
    · exact (plain_frequency _ _).owned
  · dsimp only
    split
    · exact (hregister _).owned
    · exact owned_nil

/-- The writes of a note that starts belong to the channel. -/
theorem owned_startWrites (a : Audition) (started : Option Nat) :
    Owned a.channel (a.startWrites started) := by
  unfold startWrites
  split
  · refine Owned.append ?_ (owned_channelOutput _ _)
    split
    · exact (plain_restart _).owned
    · exact owned_nil
  · exact owned_nil

/-- The writes of a frame belong to the channel. -/
theorem Ruled.owned_step (h : a.Ruled) (waves : Table Waveform) :
    Owned a.channel (a.step waves).2 := by
  cases hopen : a.gated.isPlaying with
  | true =>
      have hplayed : (a.gated.played a.gate.step.2).Ruled := Ruled.played (a := a.gated) h _
      rw [step_of_open waves hopen, writes_sound]
      refine Owned.append (Owned.append ?_ ?_) ?_
      · exact owned_writePitch (a.gated.played a.gate.step.2) a.gate.step.2
      · exact owned_startWrites a.gated a.gate.step.2
      · have hprogram := ProgramRunner.owned_step (a.gated.played a.gate.step.2).program waves
          (a.gated.played a.gate.step.2).pitch.frequency
        rwa [hplayed] at hprogram
  | false =>
      rw [step_of_closed waves hopen]
      exact owned_channelOutput _ _

/-- The writes of an instrument belong to its channel. -/
theorem owned_ofInstrument (i : Instrument) (waves : Table Waveform) :
    Owned i.channel (ofInstrument i waves).2 :=
  ((i.channel.plain_envelopeWrites waves i.envelope).append
    (i.channel.plain_timbreWrites i.timbre)).owned.append (owned_channelOutput _ _)

/-- **The writes of a call belong to the channel behind it.** -/
theorem Ruled.owned_serve (h : a.Ruled) (call : AuditionCall) :
    Owned (a.serve call).1.channel (a.serve call).2 := by
  cases call with
  | setInstrument i waves => exact owned_ofInstrument i waves
  | playNote note => exact owned_nil
  | stop => exact owned_nil
  | step waves =>
      show Owned (a.step waves).1.channel (a.step waves).2
      rw [channel_step]
      exact h.owned_step waves

/-- An instrument switches its channel off. -/
theorem switchBits_ofInstrument (i : Instrument) (waves : Table Waveform) :
    switchBits i.channel (ofInstrument i waves).2 = [0] := by
  show switchBits i.channel (i.channel.envelopeWrites waves i.envelope ++
    i.channel.timbreWrites i.timbre ++ [.channelOutput i.channel Panning.off]) = [0]
  have hplain := (i.channel.plain_envelopeWrites waves i.envelope).append
    (i.channel.plain_timbreWrites i.timbre)
  rw [switchBits_append, hplain.switchBits_eq, switchBits_channelOutput, Panning.bits_off]
  rfl

/-! ## Runs -/

/-- The output switches of the device behind some calls to a new audition, which are off at
first. -/
def deviceSwitches (calls : List AuditionCall) : UInt8 :=
  switched 0 (new.writes calls)

/-- Whether a channel is switched on behind some calls. -/
def Heard (c : Channel) (calls : List AuditionCall) : Prop :=
  deviceSwitches calls &&& c.outputMask ≠ 0

instance (c : Channel) (calls : List AuditionCall) : Decidable (Heard c calls) :=
  inferInstanceAs (Decidable (_ ≠ _))

/-- Without calls, nothing is heard. -/
theorem not_heard_nil (c : Channel) : ¬Heard c [] := by
  cases c <;> decide

/-- The bits of a channel behind a call are the last ones that it gives, or those of before. -/
theorem deviceSwitches_concat (calls : List AuditionCall) (call : AuditionCall) (c : Channel) :
    deviceSwitches (calls ++ [call]) &&& c.outputMask =
      (switchBits c ((new.after calls).serve call).2).getLast?.getD
        (deviceSwitches calls &&& c.outputMask) := by
  rw [deviceSwitches, writes_concat, switched, List.foldl_append, ← switched, ← switched,
    switched_and_outputMask]
  rfl

/-- A call leaves all channels but the one behind it as they are. -/
theorem heard_concat_of_ne {calls : List AuditionCall} {call : AuditionCall} {c : Channel}
    (hne : (new.after (calls ++ [call])).channel ≠ c) :
    Heard c (calls ++ [call]) ↔ Heard c calls := by
  rw [after_concat] at hne
  have howned := (ruled_new.after calls).owned_serve call
  rw [Heard, Heard, deviceSwitches_concat, howned.switchBits_of_ne hne]
  rfl

/-- **The current channel is silent whenever no note sounds.** -/
theorem not_heard_current (calls : List AuditionCall)
    (hsilent : (new.after calls).isPlaying = false) :
    ¬Heard (new.after calls).channel calls := by
  induction calls using List.reverseRecOn with
  | nil => exact not_heard_nil _
  | append_singleton calls call ih =>
      have hconcat := deviceSwitches_concat calls call
      rw [after_concat] at hsilent ⊢
      rw [Heard, Decidable.not_not, hconcat]
      cases call with
      | setInstrument i waves =>
          show (switchBits i.channel (ofInstrument i waves).2).getLast?.getD _ = 0
          rw [switchBits_ofInstrument]
          rfl
      | playNote note =>
          have hbefore := ih ((isPlaying_playNote _ _).symm.trans hsilent)
          rwa [Heard, Decidable.not_not] at hbefore
      | stop =>
          have hbefore := ih hsilent
          rwa [Heard, Decidable.not_not] at hbefore
      | step waves =>
          -- a frame without a note switches the channel off
          have hclosed : (new.after calls).gated.isPlaying = false := by
            rw [← isPlaying_step _ waves]
            exact hsilent
          show (switchBits ((new.after calls).step waves).1.channel
            ((new.after calls).step waves).2).getLast?.getD _ = 0
          rw [channel_step, step_of_closed waves hclosed, switchBits_channelOutput,
            Panning.bits_off]
          rfl

/-! ## Channels that are left on -/

/-- A channel is left on: while a note was heard on it, an instrument on another channel was taken
up, and none on the channel itself has been since. -/
def LeftOn (c : Channel) (calls : List AuditionCall) : Prop :=
  ∃ before i waves behind, calls = before ++ .setInstrument i waves :: behind ∧
    ((new.after before).channel = c ∧ (new.after before).isPlaying = true ∧ Heard c before) ∧
    i.channel ≠ c ∧ ∀ call ∈ behind, ¬call.Loads c

/-- Without calls, no channel was heard. -/
theorem not_leftOn_nil (c : Channel) : ¬LeftOn c [] := by
  rintro ⟨before, i, waves, behind, heq, -⟩
  cases before <;> cases heq

/-- A channel is left on by the last call, or it was left on before and the last call does not load
it. -/
theorem leftOn_concat {c : Channel} {calls : List AuditionCall} {call : AuditionCall} :
    LeftOn c (calls ++ [call]) ↔
      LeftOn c calls ∧ ¬call.Loads c ∨
        ∃ i waves, call = .setInstrument i waves ∧ i.channel ≠ c ∧
          (new.after calls).channel = c ∧ (new.after calls).isPlaying = true ∧ Heard c calls := by
  constructor
  · rintro ⟨before, i, waves, behind, heq, hbefore, hne, hbehind⟩
    obtain rfl | ⟨behind, last, rfl⟩ := behind.eq_nil_or_concat
    · -- the instrument was taken up by the last call
      obtain ⟨rfl, hlast⟩ := List.append_inj' heq rfl
      cases hlast
      exact .inr ⟨i, waves, rfl, hne, hbefore⟩
    · rw [List.concat_eq_append, ← List.cons_append, ← List.append_assoc] at heq
      obtain ⟨rfl, hlast⟩ := List.append_inj' heq rfl
      cases hlast
      rw [List.concat_eq_append, List.forall_mem_append, List.forall_mem_singleton] at hbehind
      exact .inl ⟨⟨before, i, waves, behind, rfl, hbefore, hne, hbehind.1⟩, hbehind.2⟩
  · rintro (⟨⟨before, i, waves, behind, rfl, hbefore, hne, hbehind⟩, hcall⟩ |
      ⟨i, waves, rfl, hne, hcalls⟩)
    · refine ⟨before, i, waves, behind ++ [call], ?_, hbefore, hne, ?_⟩
      · rw [List.append_assoc, List.cons_append]
      · rw [List.forall_mem_append, List.forall_mem_singleton]
        exact ⟨hbehind, hcall⟩
    · exact ⟨calls, i, waves, [], rfl, hcalls, hne, List.forall_mem_nil _⟩

/-- Behind a call that loads a channel, that is the current one; other calls keep it. -/
theorem channel_serve (call : AuditionCall) :
    (∀ c, ¬call.Loads c) ∧ (a.serve call).1.channel = a.channel ∨
      ∀ c, call.Loads c ↔ (a.serve call).1.channel = c := by
  cases call with
  | setInstrument i waves => exact .inr fun c => Iff.rfl
  | playNote note => exact .inl ⟨fun _ => id, rfl⟩
  | stop => exact .inl ⟨fun _ => id, rfl⟩
  | step waves => exact .inl ⟨fun _ => id, channel_step _ _⟩

/-- A channel that is left on is not the current one. -/
theorem LeftOn.ne_current {c : Channel} {calls : List AuditionCall} (h : LeftOn c calls) :
    (new.after calls).channel ≠ c := by
  induction calls using List.reverseRecOn with
  | nil => exact absurd h (not_leftOn_nil c)
  | append_singleton calls call ih =>
      rw [after_concat]
      obtain ⟨hleft, hcall⟩ | ⟨i, waves, rfl, hne, -⟩ := leftOn_concat.mp h
      · obtain ⟨-, hsame⟩ | hloads := (new.after calls).channel_serve call
        · rw [hsame]
          exact ih hleft
        · rwa [hloads] at hcall
      · exact hne

/-- **The channels that are heard besides the current one are those that were left on.** -/
theorem heard_iff_leftOn {c : Channel} {calls : List AuditionCall}
    (hne : (new.after calls).channel ≠ c) : Heard c calls ↔ LeftOn c calls := by
  induction calls using List.reverseRecOn with
  | nil => exact iff_of_false (not_heard_nil c) (not_leftOn_nil c)
  | append_singleton calls call ih =>
      rw [heard_concat_of_ne hne, leftOn_concat]
      rw [after_concat] at hne
      by_cases hcurrent : (new.after calls).channel = c
      · -- the channel was current before, so the call has taken up an instrument on another one
        constructor
        · intro hheard
          have hplaying : (new.after calls).isPlaying = true := by
            by_contra hsilent
            rw [Bool.not_eq_true] at hsilent
            exact not_heard_current calls hsilent (hcurrent ▸ hheard)
          cases call with
          | setInstrument i waves =>
              exact .inr ⟨i, waves, rfl, hne, hcurrent, hplaying, hheard⟩
          | playNote note => exact absurd hcurrent hne
          | stop => exact absurd hcurrent hne
          | step waves => exact absurd ((channel_step _ _).trans hcurrent) hne
        · rintro (⟨hleft, -⟩ | ⟨-, -, -, -, -, -, hheard⟩)
          · exact absurd hcurrent hleft.ne_current
          · exact hheard
      · -- it was not, so that it is left on as before
        have hloads : ¬call.Loads c := by
          obtain ⟨hnone, -⟩ | hloads := (new.after calls).channel_serve call
          · exact hnone c
          · rwa [hloads]
        rw [ih hcurrent]
        constructor
        · intro hleft
          exact .inl ⟨hleft, hloads⟩
        · rintro (⟨hleft, -⟩ | ⟨-, -, -, -, hchannel, -⟩)
          · exact hleft
          · exact absurd hchannel hcurrent

/-- If instruments are taken up only while no note sounds, then nothing is ever heard but the note
of the current channel. -/
theorem current_of_heard {c : Channel} {calls : List AuditionCall}
    (hquiet : ∀ before i waves behind, calls = before ++ .setInstrument i waves :: behind →
      (new.after before).isPlaying = false) (h : Heard c calls) :
    (new.after calls).channel = c ∧ (new.after calls).isPlaying = true := by
  have hcurrent : (new.after calls).channel = c := by
    by_contra hne
    obtain ⟨before, i, waves, behind, heq, ⟨-, hplaying, -⟩, -⟩ := (heard_iff_leftOn hne).mp h
    rw [hquiet before i waves behind heq] at hplaying
    cases hplaying
  refine ⟨hcurrent, ?_⟩
  by_contra hsilent
  rw [Bool.not_eq_true] at hsilent
  exact not_heard_current calls hsilent (hcurrent ▸ h)

/-- **Which channels an audition is heard on.**  The current channel is silent whenever no note
sounds, and another channel is heard exactly if it was left on when its instrument was replaced. -/
theorem heard_channels (calls : List AuditionCall) (c : Channel) :
    let current := (new.after calls).channel
    (c = current → (new.after calls).isPlaying = false → ¬Heard c calls) ∧
      (c ≠ current → (Heard c calls ↔ LeftOn c calls)) := by
  refine ⟨?_, ?_⟩
  · rintro rfl
    exact not_heard_current calls
  · intro hne
    exact heard_iff_leftOn hne.symm

/-- A note on the first channel, then an instrument for the second one. -/
def replacingCalls : List AuditionCall :=
  [.setInstrument (Instrument.new "" .ch1) Table.empty, .playNote 0, .step Table.empty,
    .setInstrument (Instrument.new "" .ch2) Table.empty]

/-- The instrument for the second channel leaves the first one on. -/
theorem heard_channels_replacingCalls :
    (new.after replacingCalls).channel = .ch2 ∧ ¬Heard .ch2 replacingCalls ∧
      LeftOn .ch1 replacingCalls := by
  have hchannel : (new.after replacingCalls).channel = .ch2 := rfl
  have hsilent : (new.after replacingCalls).isPlaying = false := rfl
  refine ⟨hchannel, ?_, ?_⟩
  · exact (heard_channels replacingCalls .ch2).1 hchannel.symm hsilent
  · refine ((heard_channels replacingCalls .ch1).2 ?_).mp (by decide)
    rw [hchannel]
    decide

/-- No note sounds and the second channel is the current one, but the first one is heard. -/
theorem heard_replacingCalls :
    (new.after replacingCalls).channel = .ch2 ∧ (new.after replacingCalls).isPlaying = false ∧
      Heard .ch1 replacingCalls := by
  refine ⟨rfl, rfl, by decide⟩

end Audition
end Chiptune
