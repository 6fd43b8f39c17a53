import Chiptune.Proofs.Playback.VoicePanning
import Chiptune.Proofs.Playback.VoiceWrites

/-! # The mask of the output switches

Playback wants certain outputs switched on: those of the channels on which a note sounds, as their
settings say.  It keeps these switches in one byte, of which each change touches the bits of one
channel, and writes the byte at the end of a frame if it is not the one that was written last.

* `outputMask_and` finds the bits of a channel in the byte.
* `Player.changes` lists the changes to the byte in the order in which they are made;
  `Reachable.switched_changes` says that they make up the byte.
* `outputsWritten_eq_lastMask`: the byte that was written last is known.
* `output_mask_exact` says what the byte is and when it is written. -/

namespace Chiptune

open DeviceWrite

namespace Player

variable {m : Module} {p : Player}

/-- The bits of a channel in the byte are those of its voice. -/
theorem outputMask_and (voices : PerChannel Voice) (c : Channel) :
    outputMask voices &&& c.outputMask = (voices.get c).output.bits c := by
  have hmask : outputMask voices =
      0 ||| (voices.get .ch1).output.bits .ch1 ||| (voices.get .ch2).output.bits .ch2 |||
        (voices.get .ch3).output.bits .ch3 ||| (voices.get .ch4).output.bits .ch4 := rfl
  have hself := (voices.get c).output.bits_and_mask c
  have hothers (d : Channel) (hd : d ≠ c) : (voices.get d).output.bits d &&& c.outputMask = 0 :=
    Panning.bits_and_mask_of_ne _ hd
  rw [hmask, UInt8.zero_or, or_and_mask, or_and_mask, or_and_mask]
  cases c with
  | ch1 => simp [hself, hothers .ch2, hothers .ch3, hothers .ch4]
  | ch2 => simp [hself, hothers .ch1, hothers .ch3, hothers .ch4]
  | ch3 => simp [hself, hothers .ch1, hothers .ch2, hothers .ch4]
  | ch4 => simp [hself, hothers .ch1, hothers .ch2, hothers .ch3]

/-- Nothing is switched on at a start. -/
theorem outputMask_start {position : Position} (h : Player.start m position = .ok p) :
    outputMask p.voices = 0 := by
  obtain ⟨-, rfl⟩ := start_eq_ok.mp h
  refine eq_of_and_outputMask ?_
  intro c
  rw [outputMask_and, atPosition, PerChannel.get_ofFn, UInt8.zero_and]
  exact Panning.bits_off c

/-- The switches of the channels on which a note sounds, as their settings say. -/
def soundingMask (p : Player) : UInt8 :=
  (Channel.all.filter p.isPlaying).foldl
    (fun mask c => mask ||| (p.voices.get c).settings.panning.bits c) 0

/-- In all runs, the byte holds the switches of the channels on which a note sounds. -/
theorem Reachable.outputMask_eq (h : Reachable m p) : outputMask p.voices = p.soundingMask := by
  rw [soundingMask, List.foldl_filter, outputMask]
  refine congrArg (fun f => Channel.all.foldl f 0) ?_
  funext mask c
  cases hplaying : p.isPlaying c with
  | true =>
      rw [h.output_of_playing hplaying]
      rfl
  | false => simp [h.output_of_silent hplaying]

/-! ## Changes -/

/-- Changes to the bits of a channel, one after the other. -/
def changesOf (c : Channel) (pannings : List Panning) : List DeviceWrite :=
  pannings.map (.channelOutput c)

/-- The changes that the row of a frame makes to the byte. -/
def rowChanges (p : Player) (m : Module) : List DeviceWrite :=
  Channel.all.flatMap fun c =>
    if p.transport.clock.isFirst && (p.nextLine m).reads c then
      changesOf c ((p.voices.get c).rowPannings ((p.nextLine m).get c))
    else []

/-- The changes that the voices make to the byte on a frame behind its row. -/
def frameChanges (p : Player) (m : Module) : List DeviceWrite :=
  Channel.all.flatMap fun c => changesOf c ((p.begun m).voices.get c).framePannings

/-- The changes that a call makes to the byte: for each channel, a panning effect while a note
sounds, then the start or the end of a note. -/
def changes (p : Player) (m : Module) : Call → List DeviceWrite
  | .step =>
      if p.isHalted then []
      else if (p.begun m).isHalted then p.rowChanges m
      else p.rowChanges m ++ p.frameChanges m
  | _ => []

/-- The changes to the bits of a channel belong to it. -/
theorem owned_changesOf (c : Channel) (pannings : List Panning) :
    Owned c (changesOf c pannings) := by
  intro w hw
  obtain ⟨panning, -, rfl⟩ := List.mem_map.mp hw
  rfl

/-- Changes to the bits of a channel give it the bits of the pannings. -/
theorem switchBits_changesOf (c : Channel) (pannings : List Panning) :
    switchBits c (changesOf c pannings) = pannings.map fun panning => panning.bits c := by
  induction pannings with
  | nil => rfl
  | cons panning pannings ih =>
      rw [changesOf, List.map_cons, switchBits_cons, ← changesOf, ih, switchBits?, if_pos rfl]
      rfl

/-- The last of some changes gives a channel its bits. -/
theorem getLast?_switchBits_changesOf (c : Channel) (pannings : List Panning)
    (output : Panning) :
    (switchBits c (changesOf c pannings)).getLast?.getD (output.bits c) =
      (pannings.getLast?.getD output).bits c := by
  rw [switchBits_changesOf, List.getLast?_map, Option.getD_map]

/-- The row of a frame makes its changes to the byte. -/
theorem switched_rowChanges (p : Player) (m : Module) :
    switched (outputMask p.voices) (p.rowChanges m) = outputMask (p.begun m).voices := by
  -- the changes of a row belong to the channels that read it
  have howned (d : Channel) : Owned d
      (if p.transport.clock.isFirst && (p.nextLine m).reads d then
        changesOf d ((p.voices.get d).rowPannings ((p.nextLine m).get d))
      else []) := by
    split
    · exact owned_changesOf _ _
    · exact owned_nil
  refine eq_of_and_outputMask ?_
  intro c
  rw [switched_and_outputMask, rowChanges, switchBits_all howned, outputMask_and, outputMask_and,
    voice_begun]
  split
  · obtain ⟨-, -, houtput⟩ := Voice.panning_readRow (p.voices.get c) m.waveforms c
      ((p.nextLine m).get c)
    rw [getLast?_switchBits_changesOf, houtput]
  · rfl

/-- The voices make their changes to the byte. -/
theorem switched_frameChanges (h : Reachable m p) (hp : p.isHalted = false)
    (hb : (p.begun m).isHalted = false) :
    switched (outputMask (p.begun m).voices) (p.frameChanges m) =
      outputMask (p.step m).1.voices := by
  refine eq_of_and_outputMask ?_
  intro c
  rw [switched_and_outputMask, frameChanges,
    switchBits_all fun d => owned_changesOf d ((p.begun m).voices.get d).framePannings,
    outputMask_and, outputMask_and, getLast?_switchBits_changesOf, voice_step hp hb,
    Voice.output_update (h.panned_begun c)]

/-- **The byte of switches is kept by changes to the bits of one channel at a time.** -/
theorem Reachable.switched_changes (h : Reachable m p) (call : Call) :
    switched (outputMask p.voices) (p.changes m call) = outputMask (p.serve m call).1.voices := by
  cases call with
  | step =>
      rw [changes, Player.serve]
      cases hp : p.isHalted with
      | true =>
          rw [if_pos rfl, step_of_halted m hp]
          rfl
      | false =>
      rw [if_neg Bool.false_ne_true]
      cases hb : (p.begun m).isHalted with
      | true => rw [if_pos rfl, switched_rowChanges, voice_step_of_halting hp hb]
      | false =>
          rw [if_neg Bool.false_ne_true, switched, List.foldl_append, ← switched, ← switched,
            switched_rowChanges, switched_frameChanges h hp hb]
  | setRepeat repeats => rfl
  | jump order => rfl
  | halt => rfl

/-- The changes of some calls make up the byte behind them. -/
theorem Reachable.switched_gather (h : Reachable m p) (calls : List Call) :
    switched (outputMask p.voices) (p.gather m (fun p => p.changes m) calls) =
      outputMask (p.after m calls).voices := by
  induction calls generalizing p with
  | nil => rfl
  | cons call calls ih =>
      rw [gather, switched, List.foldl_append, ← switched, ← switched, h.switched_changes,
        ih (h.serve call), after_cons]

/-- The byte of switches behind some calls, as it is kept by changes from the start on. -/
def keptMask (p : Player) (m : Module) (calls : List Call) : UInt8 :=
  switched 0 (p.gather m (fun p => p.changes m) calls)

/-- The byte that is kept by changes is the one that the voices ask for. -/
theorem keptMask_eq {position : Position} (h : Player.start m position = .ok p)
    (calls : List Call) : p.keptMask m calls = outputMask (p.after m calls).voices := by
  rw [keptMask, ← (Reachable.start h).switched_gather, outputMask_start h]

/-! ## Writes -/

/-- Reading the row of a frame does not touch the byte that was written last. -/
theorem outputsWritten_begun (p : Player) (m : Module) :
    (p.begun m).outputsWritten = p.outputsWritten := by
  cases hf : p.transport.clock.isFirst with
  | true =>
      rw [begun_of_first m hf]
      unfold readLine
      dsimp only
      split <;> rfl
  | false =>
      rw [begun_of_not_first m hf]
      rfl

/-- No row replaces all switches. -/
theorem outputEnables_rowWrites (p : Player) (m : Module) : outputEnables (p.rowWrites m) = [] := by
  rw [rowWrites_eq_flatMap]
  exact outputEnables_all fun d => (p.plain_rowWritesOf m d).owned

/-- A frame that plays has written the byte that the voices ask for. -/
theorem outputsWritten_step (hp : p.isHalted = false) (hb : (p.begun m).isHalted = false) :
    (p.step m).1.outputsWritten = outputMask (p.step m).1.voices := by
  rw [step_of_going hp hb]
  rfl

/-- The writes of a frame that plays end with the byte, if it has changed. -/
theorem switchWrites_eq (hp : p.isHalted = false) (hb : (p.begun m).isHalted = false) :
    p.switchWrites m =
      if outputMask (p.step m).1.voices = p.outputsWritten then []
      else [.outputEnable (outputMask (p.step m).1.voices)] := by
  rw [switchWrites, outputsWritten_begun, step_of_going hp hb]
  rfl

/-- Nothing before the end of a frame replaces all switches. -/
theorem Reachable.outputEnables_before (h : Reachable m p) :
    outputEnables
      (Channel.all.flatMap (p.rowWritesOf m) ++ Channel.all.flatMap (p.soundWritesOf m)) = [] := by
  rw [outputEnables_append, outputEnables_all fun d => (p.plain_rowWritesOf m d).owned,
    outputEnables_all h.owned_soundWritesOf, List.append_nil]

/-- A frame that does not play replaces no switches. -/
theorem outputEnables_of_halted (h : (p.step m).1.isHalted = true) :
    outputEnables (p.step m).2 = [] := by
  cases hp : p.isHalted with
  | true =>
      rw [step_of_halted m hp]
      rfl
  | false =>
      have hb : (p.begun m).isHalted = true := by rwa [isHalted_step, hp, Bool.false_or] at h
      rw [step_of_halting hp hb]
      exact outputEnables_rowWrites p m

/-- The byte that was written last, behind a call. -/
theorem Reachable.outputsWritten_serve (h : Reachable m p) (call : Call) :
    (p.serve m call).1.outputsWritten =
      (outputEnables (p.serve m call).2).getLast?.getD p.outputsWritten := by
  cases call with
  | step =>
      show (p.step m).1.outputsWritten =
        (outputEnables (p.step m).2).getLast?.getD p.outputsWritten
      cases hp : p.isHalted with
      | true =>
          rw [step_of_halted m hp]
          rfl
      | false =>
      cases hb : (p.begun m).isHalted with
      | true =>
          rw [step_of_halting hp hb, outputEnables_rowWrites]
          exact outputsWritten_begun p m
      | false =>
          -- the byte that was written last is the one at the end of this frame, or stays
          rw [writes_step_eq hp hb, outputEnables_append, h.outputEnables_before, List.nil_append,
            outputsWritten_step hp hb, switchWrites_eq hp hb]
          split
          · next heq => exact heq
          · rfl
  | setRepeat repeats => rfl
  | jump order => rfl
  | halt => rfl

/-- The byte that was written last, behind some calls. -/
theorem Reachable.outputsWritten_after (h : Reachable m p) (calls : List Call) :
    (p.after m calls).outputsWritten =
      (outputEnables (p.writes m calls)).getLast?.getD p.outputsWritten := by
  induction calls generalizing p with
  | nil => rfl
  | cons call calls ih =>
      rw [after_cons, ih (h.serve call), h.outputsWritten_serve, writes, writes, gather,
        outputEnables_append, List.getLast?_append, Option.getD_or]

/-- From the start on, the byte that was written last is the last one among the writes. -/
theorem outputsWritten_eq_lastMask {position : Position} (h : Player.start m position = .ok p)
    (calls : List Call) : (p.after m calls).outputsWritten = lastMask (p.writes m calls) := by
  have hoff : p.outputsWritten = 0 := by
    obtain ⟨-, rfl⟩ := start_eq_ok.mp h
    rfl
  rw [(Reachable.start h).outputsWritten_after, hoff, lastMask]

/-- **The mask of the output switches is exact and written once.**  Behind a frame that plays, the
byte that playback keeps holds the switches of the channels on which a note sounds, as their
settings say, and no others.  It is written at the end of the frame, and nowhere before, if it is not
the one that was written last; a frame that does not play writes no such byte. -/
theorem output_mask_exact {position : Position} (h : Player.start m position = .ok p)
    (calls : List Call) :
    let p₁ := p.after m calls
    let p₂ := (p₁.step m).1
    let kept := p.keptMask m (calls ++ [.step])
    if p₂.isHalted then outputEnables (p₁.step m).2 = []
    else kept = p₂.soundingMask ∧ kept = outputMask p₂.voices ∧
      ∃ before, outputEnables before = [] ∧
        (p₁.step m).2 = before ++
          if kept = lastMask (p.writes m calls) then [] else [.outputEnable kept] := by
  intro p₁ p₂ kept
  have hreached : Reachable m p₁ := (Reachable.start h).after calls
  have hkept : kept = outputMask p₂.voices := by
    show p.keptMask m (calls ++ [.step]) = _
    rw [keptMask_eq h, after_concat]
    rfl
  -- a frame that stops playback writes no switches, and any other ends with them
  cases hgoing : p₂.isHalted with
  | true =>
      rw [if_pos rfl]
      exact outputEnables_of_halted hgoing
  | false =>
      obtain ⟨hp, hb⟩ := isHalted_step_eq_false.mp hgoing
      rw [if_neg Bool.false_ne_true]
      refine ⟨hkept.trans (hreached.serve .step).outputMask_eq, hkept, _,
        hreached.outputEnables_before, ?_⟩
      rw [hkept, ← outputsWritten_eq_lastMask h, writes_step_eq hp hb, switchWrites_eq hp hb]

end Player

/-- A module of one frame per row.  Two notes start on its first row, of which the second is heard
on the right only, and the first one is cut on its second row. -/
def cutModule : Module :=
  .ofSong ((({ Song.new "" with speed := .fastest }.setRow .ch1 0 0
      (Row.empty.withNote (.on 0))).setRow .ch2 0 0
      ((Row.empty.withNote (.on 0)).withEffect ⟨.track .setPanning, 0x01⟩)).setRow .ch1 0 1
      (Row.empty.withNote .cut))

/-- On the frame of the cut, the outputs of the first channel are switched off, and that of the
second one stays on. -/
theorem output_mask_cutModule :
    let p := Player.atPosition cutModule.song ⟨0, 0⟩
    let p₁ := p.after cutModule [.step]
    Player.start cutModule ⟨0, 0⟩ = .ok p ∧
      lastMask (p.writes cutModule [.step]) = 0x13 ∧
      (p₁.step cutModule).1.soundingMask = 0x02 ∧
      p.keptMask cutModule [.step, .step] = (p₁.step cutModule).1.soundingMask ∧
      ∃ before, outputEnables before = [] ∧
        (p₁.step cutModule).2 = before ++ [.outputEnable 0x02] := by
  intro p p₁
  have hstart : Player.start cutModule ⟨0, 0⟩ = .ok p := rfl
  have hlast : lastMask (p.writes cutModule [.step]) = 0x13 := by decide +kernel
  have hsounding : (p₁.step cutModule).1.soundingMask = 0x02 := by decide +kernel
  have hframe := Player.output_mask_exact hstart [.step]
  dsimp only at hframe
  rw [if_neg (by decide +kernel)] at hframe
  obtain ⟨hkept, -, before, hbefore, hwrites⟩ := hframe
  refine ⟨hstart, hlast, hsounding, hkept, before, hbefore, ?_⟩
  rw [show p.keptMask cutModule ([.step] ++ [.step]) = 0x02 from hkept.trans hsounding, hlast,
    if_neg (by decide)] at hwrites
  exact hwrites

end Chiptune
