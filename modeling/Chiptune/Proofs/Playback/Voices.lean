import Chiptune.Proofs.Playback.Run

/-! # The voices of a run

A run moves the voice of a channel in two ways only: the voice reads a row of its channel, and it is
updated once per frame.  The writes of a frame are those of the voices, channel by channel, and the
output switches behind them.

* `Voice.gated`, `Voice.bound` and `Voice.played` are the stages of an update, and
  `update_of_open`, `update_of_closed` and `writes_sound` say what it does.
* `Voice.readRow_induction` and `Voice.update_induction` carry a property of a voice through a row
  and a frame, `Reachable.voice` through all runs.
* `voice_step` and `voice_step_of_halting` give the voice of a channel behind a frame.
* `rowWrites_eq` and `soundWrites_eq` take the writes of a frame apart. -/

namespace Chiptune

/-! ## Voices by themselves -/

namespace Voice

variable {P : Voice → Prop} {v : Voice}

/-- The note of a row changes the requests of the gate and nothing else. -/
theorem request_eq (v : Voice) (r : Row) :
    ∃ gate : NoteGate, gate.isOpen = v.gate.isOpen ∧ v.request r = { v with gate } := by
  unfold request
  split
  · next n _ =>
    split
    · next hn =>
      have hcut : n < Note.cutIndex := Nat.lt_succ_of_le hn
      refine ⟨v.gate.requestNote n r.noteDelay.toNat, ?_, rfl⟩
      rw [NoteGate.requestNote, if_neg (Nat.ne_of_lt hcut), if_pos hcut]
    · exact ⟨v.gate, rfl, rfl⟩
  · exact ⟨v.gate.requestCut r.noteDelay.toNat, rfl, rfl⟩
  · exact ⟨v.gate, rfl, rfl⟩

/-- A property of a voice is kept by some effects if each of them keeps it. -/
theorem obeyAll_induction_of_mem {waves : Table Waveform} {c : Channel} {es : List Effect}
    (hobey : ∀ e ∈ es, ∀ v, P v → P (v.obey waves c e).1) (h : P v) :
    P (obeyAll waves c es v).1 := by
  induction es generalizing v with
  | nil => exact h
  | cons e es ih =>
      exact ih (fun e he => hobey e (List.mem_cons_of_mem _ he))
        (hobey e (List.mem_cons_self ..) v h)

/-- A property of a voice is kept by some effects if single ones keep it. -/
theorem obeyAll_induction {waves : Table Waveform} {c : Channel}
    (hobey : ∀ v e, P v → P (v.obey waves c e).1) (h : P v) (es : List Effect) :
    P (obeyAll waves c es v).1 :=
  obeyAll_induction_of_mem (fun e _ v => hobey v e) h

/-- A property of a voice is kept by a row if its effects and its end keep it. -/
theorem readRow_induction_of_mem {waves : Table Waveform} {c : Channel} {r : Row}
    (hobey : ∀ e ∈ r.obeyed, ∀ v, P v → P (v.obey waves c e).1)
    (hfinish : ∀ v, P v → P (v.finishRow r)) (h : P v) : P (v.readRow waves c r).1 := by
  have hobeyed : P (obeyAll waves c r.obeyed v).1 := obeyAll_induction_of_mem hobey h
  unfold readRow
  split
  next v' ws heq =>
    rw [heq] at hobeyed
    -- a row that halts is left unfinished
    split
    · exact hobeyed
    · exact hfinish v' hobeyed

/-- A property of a voice is kept by a row if the effects and the end of a row keep it. -/
theorem readRow_induction {waves : Table Waveform} {c : Channel}
    (hobey : ∀ v e, P v → P (v.obey waves c e).1) (hfinish : ∀ v r, P v → P (v.finishRow r))
    (h : P v) (r : Row) : P (v.readRow waves c r).1 :=
  readRow_induction_of_mem (fun e _ v => hobey v e) (fun v => hfinish v r) h

/-- The voice of a frame whose gate has moved. -/
def gated (v : Voice) : Voice :=
  { v with gate := v.gate.step.1 }

/-- The voice of a frame of a note that has bound its instrument if the note starts on the frame. -/
def bound (v : Voice) (m : Module) (started : Option Nat) : Voice :=
  if started.isSome then v.bindInstrument m.instruments else v

/-- The voice of a frame of a note whose pitch has moved. -/
def played (v : Voice) (started : Option Nat) : Voice :=
  { v with pitch := v.pitch.map fun p => p.play started }

/-- The voice of a frame of a note whose program is still to run. -/
def readied (v : Voice) (m : Module) (started : Option Nat) : Voice :=
  (v.bound m started).played started

/-- The writes of a frame of a note are those of its pitch, of its start and of its program. -/
theorem writes_sound (v : Voice) (m : Module) (c : Channel) (started : Option Nat) :
    (v.sound m c started).2 =
      (v.readied m started).pitchWrites c started ++ (v.readied m started).startWrites c started ++
        ((v.readied m started).program.step m.waveforms (v.readied m started).frequency).2 := rfl

/-- A voice whose note sounds plays a frame of it. -/
theorem update_of_open (m : Module) (c : Channel) (h : v.gated.isPlaying = true) :
    v.update m c = v.gated.sound m c v.gate.step.2 :=
  if_pos h

/-- A voice without a note falls silent. -/
theorem update_of_closed (m : Module) (c : Channel) (h : v.gated.isPlaying = false) :
    v.update m c = ({ v.gated with output := Panning.off }, []) :=
  if_neg (Bool.not_eq_true _ ▸ h)

/-- A property of a voice is kept by an update if the gate, the sound of a note and silence keep
it. -/
theorem update_induction {m : Module} {c : Channel} (hgated : P v → P v.gated)
    (hsound : ∀ v started, P v → P (v.sound m c started).1)
    (hsilent : ∀ v : Voice, P v → P { v with output := Panning.off }) (h : P v) :
    P (v.update m c).1 := by
  cases hplaying : v.gated.isPlaying with
  | true =>
      rw [update_of_open m c hplaying]
      exact hsound _ _ (hgated h)
  | false =>
      rw [update_of_closed m c hplaying]
      exact hsilent _ (hgated h)

/-- Binding an instrument does not touch the gate. -/
theorem gate_bindInstrument (v : Voice) (instruments : Table Instrument) :
    (v.bindInstrument instruments).gate = v.gate := by
  unfold bindInstrument
  split
  · split <;> rfl
  · rfl

/-- An update moves the gate by one frame. -/
theorem gate_update (v : Voice) (m : Module) (c : Channel) :
    (v.update m c).1.gate = v.gate.step.1 := by
  cases h : v.gated.isPlaying with
  | true =>
      rw [update_of_open m c h]
      show (v.gated.bound m v.gate.step.2).gate = v.gated.gate
      unfold bound
      split
      · exact gate_bindInstrument _ _
      · rfl
  | false =>
      rw [update_of_closed m c h]
      rfl

/-- Behind an update a note sounds if the gate has opened or stayed open. -/
theorem isPlaying_update (v : Voice) (m : Module) (c : Channel) :
    (v.update m c).1.isPlaying = v.gated.isPlaying :=
  congrArg NoteGate.isOpen (v.gate_update m c)

end Voice

/-! ## Voices of a player -/

namespace Player

variable {m : Module} {p : Player}

/-- What the voices make of a frame depends on what each makes of it. -/
theorem eachVoice_congr {voices : PerChannel Voice}
    {f g : Channel → Voice → Voice × List DeviceWrite}
    (h : ∀ c, f c (voices.get c) = g c (voices.get c)) :
    eachVoice voices f = eachVoice voices g := by
  unfold eachVoice
  simp only [h]

/-- The writes of all voices stand channel by channel. -/
theorem writes_eachVoice (voices : PerChannel Voice)
    (f : Channel → Voice → Voice × List DeviceWrite) :
    (eachVoice voices f).2 = Channel.all.flatMap fun c => (f c (voices.get c)).2 := rfl

/-- The writes of a row are those of the channels that read it. -/
theorem rowWrites_eq (p : Player) (m : Module) :
    p.rowWrites m =
      if p.transport.clock.isFirst then
        Channel.all.flatMap fun c =>
          if (p.nextLine m).reads c then
            ((p.voices.get c).readRow m.waveforms c ((p.nextLine m).get c)).2
          else []
      else [] := by
  rw [rowWrites, beginRow, transport_beginFrame]
  split
  · have hwrites (line : Line) (p' : Player) : (p'.readLine m line).2 =
        (eachVoice p'.voices fun c v =>
          if line.reads c then v.readRow m.waveforms c (line.get c) else (v, [])).2 := by
      rw [readLine]
    rw [hwrites, writes_eachVoice]
    refine congrArg (Channel.all.flatMap ·) (funext fun c => ?_)
    rw [apply_ite Prod.snd]
    rfl
  · rfl

/-- The output switches that a frame writes, if they have changed. -/
def switchWrites (p : Player) (m : Module) : List DeviceWrite :=
  let mask := outputMask (p.sounded m).voices
  if mask = (p.begun m).outputsWritten then [] else [.outputEnable mask]

/-- The writes of a frame behind its row are those of the voices, and the output switches. -/
theorem soundWrites_eq (p : Player) (m : Module) :
    ((p.begun m).updateVoices m).2 =
      (Channel.all.flatMap fun c => (((p.begun m).voices.get c).update m c).2) ++
        p.switchWrites m := rfl

/-- The writes of a frame that plays. -/
theorem writes_step (h : p.isHalted = false) (hb : (p.begun m).isHalted = false) :
    (p.step m).2 =
      p.rowWrites m ++
        ((Channel.all.flatMap fun c => (((p.begun m).voices.get c).update m c).2) ++
          p.switchWrites m) := by
  rw [step_of_going h hb, soundWrites_eq]

/-- A frame that plays updates the voice that has read its row. -/
theorem voice_step (h : p.isHalted = false) (hb : (p.begun m).isHalted = false) (c : Channel) :
    (p.step m).1.voices.get c = (((p.begun m).voices.get c).update m c).1 := by
  rw [step_of_going h hb]
  exact get_eachVoice (p.begun m).voices (fun c v => v.update m c) c

/-- A frame that stops in its row updates no voice. -/
theorem voice_step_of_halting (h : p.isHalted = false) (hb : (p.begun m).isHalted = true) :
    (p.step m).1.voices = (p.begun m).voices := by
  rw [step_of_halting h hb]

/-- **A property of one voice holds in all runs** if it holds at the start and is kept by reading
rows and by updates. -/
theorem Reachable.voice {P : Channel → Voice → Prop} (hnew : ∀ c, P c (Voice.new c))
    (hread : ∀ c v r, P c v → P c (v.readRow m.waveforms c r).1)
    (hupdate : ∀ c v, P c v → P c (v.update m c).1) (h : Reachable m p) (c : Channel) :
    P c (p.voices.get c) := by
  have hbegun {p : Player} (hp : ∀ c, P c (p.voices.get c)) (c : Channel) :
      P c ((p.begun m).voices.get c) := by
    rw [voice_begun]
    split
    · exact hread _ _ _ (hp c)
    · exact hp c
  -- the induction is on the calls, the two cases of a frame on whether its row halts
  induction h generalizing c with
  | start hp =>
      obtain ⟨-, rfl⟩ := start_eq_ok.mp hp
      rw [atPosition, PerChannel.get_ofFn]
      exact hnew c
  | @serve p call _ ih =>
      cases call with
      | step =>
          unfold Player.serve
          cases h : p.isHalted with
          | true => rw [step_of_halted m h]; exact ih c
          | false =>
              cases hb : (p.begun m).isHalted with
              | true => rw [voice_step_of_halting h hb]; exact hbegun ih c
              | false => rw [voice_step h hb]; exact hupdate _ _ (hbegun ih c)
      | setRepeat repeats => exact ih c
      | jump order => exact ih c
      | halt => exact ih c

end Player
end Chiptune
