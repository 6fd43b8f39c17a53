import Chiptune.Proofs.Playback.OutputMask
import Chiptune.Proofs.Score.Agreement

/-! # Channels do not interfere

Two players of modules that agree off a channel take the same way through their songs, whatever the
two songs have on that channel, and the other channels cannot tell the two apart.

* `Transport.foldl_obey_filter`: the transport obeys effects on position and speed alone.
* `Player.AgreeOff` relates the two players; `AgreeOff.begun`, `AgreeOff.step` and `AgreeOff.serve`
  keep it, and `AgreeOff.after` carries it through runs.
* `Reachable.ownedBy_step` finds the writes of a channel among those of a frame.
* `channels_do_not_interfere` compares what the two runs report and write. -/

namespace Chiptune

open DeviceWrite

namespace Transport

/-- The transport does not obey other effects. -/
theorem obey_of_not_isPattern (t : Transport) (size : Extent) {e : Effect}
    (h : e.isPattern = false) : t.obey size e = t := by
  obtain ⟨kind, param⟩ := e
  cases kind with
  | pattern effect => cases h
  | track effect => rfl
  | pitch effect => rfl

/-- Of some effects, the transport obeys those on position and speed. -/
theorem foldl_obey_filter (t : Transport) (size : Extent) (es : List Effect) :
    (es.filter Effect.isPattern).foldl (fun t e => t.obey size e) t =
      es.foldl (fun t e => t.obey size e) t := by
  have hobey : (fun (t : Transport) (e : Effect) =>
      if e.isPattern = true then t.obey size e else t) = fun t e => t.obey size e := by
    funext t e
    cases h : e.isPattern with
    | true => rw [if_pos rfl]
    | false => rw [if_neg Bool.false_ne_true, t.obey_of_not_isPattern size h]
  rw [List.foldl_filter, hobey]

end Transport

/-- An update reads nothing of a module but its instruments and waveforms. -/
theorem Voice.update_congr {m m' : Module} (hinstruments : m.instruments = m'.instruments)
    (hwaveforms : m.waveforms = m'.waveforms) (v : Voice) (c : Channel) :
    v.update m c = v.update m' c := by
  unfold update sound
  rw [hinstruments, hwaveforms]

namespace Player

variable {d : Channel} {m m' : Module} {p p' : Player}

/-- Players that agree off a channel: they are at the same place of the song, have reported the
same, and every other channel has the same voice and the same bits in the byte that was written
last. -/
structure AgreeOff (d : Channel) (p p' : Player) : Prop where
  /-- The ways through the song are the same. -/
  transport : p.transport = p'.transport
  /-- The last reports are the same. -/
  report : p.report = p'.report
  /-- The other channels have the same voices. -/
  voices : ∀ c, c ≠ d → p.voices.get c = p'.voices.get c
  /-- The other channels have the same bits in the byte that was written last. -/
  outputs : ∀ c, c ≠ d →
    p.outputsWritten &&& c.outputMask = p'.outputsWritten &&& c.outputMask

/-- Starts at the same position agree. -/
theorem agreeOff_atPosition (hm : m.AgreeOff d m') (position : Position) :
    AgreeOff d (atPosition m.song position) (atPosition m'.song position) := by
  unfold atPosition
  rw [hm.song.speed]
  exact ⟨rfl, rfl, fun _ _ => rfl, fun _ _ => rfl⟩

namespace AgreeOff

/-- Players that agree have stopped alike. -/
theorem isHalted (h : AgreeOff d p p') : p.isHalted = p'.isHalted :=
  congrArg FrameReport.isHalted h.report

/-- The next lines agree, too. -/
theorem nextLine (hm : m.AgreeOff d m') (h : AgreeOff d p p') :
    Line.AgreeOff d (p.nextLine m) (p'.nextLine m') := by
  unfold Player.nextLine
  rw [h.transport, hm.song.extent]
  exact hm.song.line _

/-- The row of a frame is read alike. -/
theorem begun (hm : m.AgreeOff d m') (h : AgreeOff d p p') :
    AgreeOff d (p.begun m) (p'.begun m') := by
  have hline := h.nextLine hm
  constructor
  · -- the transport sees only effects on position and speed, which agree
    rw [transport_begun, transport_begun, h.transport, hm.song.extent,
      ← Transport.foldl_obey_filter, hline.patternEffects, Transport.foldl_obey_filter]
  · have hreport : p.beginFrame.report = p'.beginFrame.report := by
      unfold beginFrame
      rw [h.report]
    cases hf : p'.transport.clock.isFirst with
    | true =>
        rw [report_begun_of_first m (h.transport ▸ hf), report_begun_of_first m' hf, hreport,
          h.transport, hm.song.extent, hline.halts, h.isHalted]
    | false =>
        rw [begun_of_not_first m (h.transport ▸ hf), begun_of_not_first m' hf]
        exact hreport
  · -- the other channels read the same rows
    intro c hc
    rw [voice_begun, voice_begun, h.transport, hline.reads c, hline.rows c hc, h.voices c hc,
      hm.waveforms]
  · intro c hc
    rw [outputsWritten_begun, outputsWritten_begun, h.outputs c hc]

/-- A frame is played alike. -/
theorem step (hm : m.AgreeOff d m') (h : AgreeOff d p p') :
    AgreeOff d (p.step m).1 (p'.step m').1 := by
  have hbegun := h.begun hm
  -- both have stopped, or both stop on this row, or both go on
  cases hp : p'.isHalted with
  | true =>
      rw [step_of_halted m (h.isHalted.trans hp), step_of_halted m' hp]
      unfold beginFrame
      rw [h.report]
      exact { transport := h.transport, report := rfl, voices := h.voices, outputs := h.outputs }
  | false =>
  cases hb : (p'.begun m').isHalted with
  | true =>
      rw [step_of_halting (h.isHalted.trans hp) (hbegun.isHalted.trans hb), step_of_halting hp hb]
      exact hbegun
  | false =>
      have hp₁ : p.isHalted = false := h.isHalted.trans hp
      have hb₁ : (p.begun m).isHalted = false := hbegun.isHalted.trans hb
      have hvoice (c : Channel) (hc : c ≠ d) :
          (p.step m).1.voices.get c = (p'.step m').1.voices.get c := by
        rw [voice_step hp₁ hb₁, voice_step hp hb, hbegun.voices c hc,
          Voice.update_congr hm.instruments hm.waveforms]
      refine ⟨?_, ?_, hvoice, ?_⟩
      · rw [transport_step m hp₁, transport_step m' hp, hb₁, hb, hbegun.transport,
          hm.song.extent]
      · rw [report_of_going hp₁ hb₁, report_of_going hp hb, hbegun.transport, hbegun.report,
          hm.song.extent]
      · intro c hc
        rw [outputsWritten_step hp₁ hb₁, outputsWritten_step hp hb, outputMask_and,
          outputMask_and, hvoice c hc]

/-- A call is served alike. -/
theorem serve (hm : m.AgreeOff d m') (h : AgreeOff d p p') (call : Call) :
    AgreeOff d (p.serve m call).1 (p'.serve m' call).1 := by
  cases call with
  | step => exact h.step hm
  | setRepeat repeats =>
      refine ⟨?_, h.report, h.voices, h.outputs⟩
      show { p.transport with repeats } = { p'.transport with repeats }
      rw [h.transport]
  | jump order =>
      refine ⟨?_, h.report, h.voices, h.outputs⟩
      show p.transport.jump m.song.extent order = p'.transport.jump m'.song.extent order
      rw [h.transport, hm.song.extent]
  | halt =>
      refine ⟨h.transport, ?_, h.voices, h.outputs⟩
      show { p.report with isHalted := true } = { p'.report with isHalted := true }
      rw [h.report]

/-- Runs through the same calls agree. -/
theorem after (hm : m.AgreeOff d m') (h : AgreeOff d p p') (calls : List Call) :
    AgreeOff d (p.after m calls) (p'.after m' calls) := by
  induction calls generalizing p p' with
  | nil => exact h
  | cons call calls ih => exact ih (h.serve hm call)

end AgreeOff

/-! ## Writes -/

/-- The switches at the end of a frame belong to no channel. -/
theorem ownedBy_switchWrites (p : Player) (m : Module) (c : Channel) :
    ownedBy c (p.switchWrites m) = [] := by
  unfold switchWrites
  dsimp only
  split <;> rfl

/-- The writes of a channel on a frame are those of its voice. -/
theorem Reachable.ownedBy_step (h : Reachable m p) (c : Channel) :
    ownedBy c (p.step m).2 =
      if p.isHalted then []
      else p.rowWritesOf m c ++ if (p.begun m).isHalted then [] else p.soundWritesOf m c := by
  have hrow : ownedBy c (Channel.all.flatMap (p.rowWritesOf m)) = p.rowWritesOf m c :=
    ownedBy_all (fun d => (p.plain_rowWritesOf m d).owned) c
  cases hp : p.isHalted with
  | true =>
      rw [if_pos rfl, step_of_halted m hp]
      rfl
  | false =>
  rw [if_neg Bool.false_ne_true]
  cases hb : (p.begun m).isHalted with
  | true =>
      rw [if_pos rfl, step_of_halting hp hb, rowWrites_eq_flatMap, hrow, List.append_nil]
  | false =>
      rw [if_neg Bool.false_ne_true, writes_step_eq hp hb, ownedBy_append, ownedBy_append, hrow,
        ownedBy_all h.owned_soundWritesOf, ownedBy_switchWrites, List.append_nil]

/-- The writes of another channel are the same on every call. -/
theorem AgreeOff.ownedBy_serve (hm : m.AgreeOff d m') (h : AgreeOff d p p') (hp : Reachable m p)
    (hp' : Reachable m' p') {c : Channel} (hc : c ≠ d) (call : Call) :
    ownedBy c (p.serve m call).2 = ownedBy c (p'.serve m' call).2 := by
  cases call with
  | step =>
      have hline := h.nextLine hm
      have hbegun := h.begun hm
      have hrow : p.rowWritesOf m c = p'.rowWritesOf m' c := by
        rw [rowWritesOf, rowWritesOf, h.transport, hline.reads c, hline.rows c hc, h.voices c hc,
          hm.waveforms]
      have hsound : p.soundWritesOf m c = p'.soundWritesOf m' c := by
        rw [soundWritesOf, soundWritesOf, hbegun.voices c hc,
          Voice.update_congr hm.instruments hm.waveforms]
      show ownedBy c (p.step m).2 = ownedBy c (p'.step m').2
      rw [hp.ownedBy_step, hp'.ownedBy_step, h.isHalted, hbegun.isHalted, hrow, hsound]
  | setRepeat repeats => rfl
  | jump order => rfl
  | halt => rfl

/-- **Channels do not interfere.**  Modules that agree off a channel refuse the same starts, and
from any other start the same calls lead to the same reports, whatever the songs have on that
channel.  Every other channel has the same writes of its own on every call, and the same bits in the
byte of switches that was written last. -/
theorem channels_do_not_interfere (hm : m.AgreeOff d m') (position : Position) :
    (∀ e, Player.start m position = .error e ↔ Player.start m' position = .error e) ∧
      ∀ p, Player.start m position = .ok p →
        ∃ p', Player.start m' position = .ok p' ∧
          ∀ calls,
            (p.after m calls).report = (p'.after m' calls).report ∧
              ∀ c, c ≠ d →
                (∀ call, ownedBy c ((p.after m calls).serve m call).2 =
                  ownedBy c ((p'.after m' calls).serve m' call).2) ∧
                lastMask (p.writes m calls) &&& c.outputMask =
                  lastMask (p'.writes m' calls) &&& c.outputMask := by
  constructor
  · intro e
    -- a start is refused by the extent of the song, which is the same
    simp only [Player.start, hm.song.extent]
    split
    · exact Iff.rfl
    · split
      · exact Iff.rfl
      · constructor
        · intro he
          cases he
        · intro he
          cases he
  · intro p hp
    obtain ⟨hinside, rfl⟩ := start_eq_ok.mp hp
    have hp' : Player.start m' position = .ok (atPosition m'.song position) :=
      start_eq_ok.mpr ⟨hm.song.extent ▸ hinside, rfl⟩
    refine ⟨atPosition m'.song position, hp', ?_⟩
    intro calls
    have hafter := (agreeOff_atPosition hm position).after hm calls
    refine ⟨hafter.report, ?_⟩
    intro c hc
    constructor
    · exact hafter.ownedBy_serve hm ((Reachable.start hp).after calls)
        ((Reachable.start hp').after calls) hc
    · rw [← outputsWritten_eq_lastMask hp, ← outputsWritten_eq_lastMask hp']
      exact hafter.outputs c hc

end Player

/-- A module of one frame per row with a note on each of two channels, of which the second is sent
to the left output. -/
def duetModule : Module :=
  .ofSong (({ Song.new "" with speed := .fastest }.setRow .ch1 0 0
    (Row.empty.withNote (.on 0))).setRow .ch2 0 0
    ((Row.empty.withNote (.on 0)).withEffect ⟨.track .setPanning, 0x10⟩))

/-- The same module with a cut in place of the second note. -/
def soloModule : Module :=
  .ofSong (duetModule.song.setRow .ch2 0 0 (Row.empty.withNote .cut))

/-- The first channel plays its note alike in both modules, though the byte of all switches is not
the same. -/
theorem isolation_duetModule :
    let p := Player.atPosition soloModule.song ⟨0, 0⟩
    let p' := Player.atPosition duetModule.song ⟨0, 0⟩
    soloModule.AgreeOff .ch2 duetModule ∧
      lastMask (p.writes soloModule [.step]) = 0x11 ∧
      lastMask (p'.writes duetModule [.step]) = 0x31 ∧
      (p.step soloModule).1.report = (p'.step duetModule).1.report ∧
      ownedBy .ch1 (p.step soloModule).2 = ownedBy .ch1 (p'.step duetModule).2 := by
  intro p p'
  have hcell : (Row.empty.withNote .cut).patternColumns =
      (duetModule.song.cell .ch2 0 0).patternColumns := by decide +kernel
  have hm : soloModule.AgreeOff .ch2 duetModule :=
    { song := Song.AgreeOff.setRow duetModule.song hcell, instruments := rfl, waveforms := rfl }
  have hp : Player.start soloModule ⟨0, 0⟩ = .ok p := rfl
  have hp' : Player.start duetModule ⟨0, 0⟩ = .ok p' := rfl
  obtain ⟨-, hruns⟩ := Player.channels_do_not_interfere hm ⟨0, 0⟩
  obtain ⟨q, hq, hframes⟩ := hruns p hp
  obtain rfl : p' = q := Except.ok.inj (hp'.symm.trans hq)
  refine ⟨hm, ?_, ?_, (hframes [.step]).1, ?_⟩
  · decide +kernel
  · decide +kernel
  · exact ((hframes []).2 .ch1 (by decide)).1 .step

end Chiptune
