import Chiptune.Proofs.Checked.Pitch
import Chiptune.Proofs.Checked.Program
import Chiptune.Proofs.Playback.Voices

/-! # Checked voices

A voice counts the frames before its notes and cuts in bytes, and leaves the rest to its pitch, its
program and the registers of its channel.

* `Voice.InRange` is the range of its parts; `InRange.readRow` and `InRange.update` say that rows
  and frames keep it.
* `checkedReadRow_eq` and `checkedUpdate_eq` say that neither has a fault. -/

namespace Chiptune

open Checked

/-! ## Gates -/

namespace NoteGate

variable {g : NoteGate}

/-- The range of a gate: what it counts fits a byte. -/
structure InRange (g : NoteGate) : Prop where
  delay_le : ∀ request, g.request = some request → request.delay ≤ 0xFF
  cut_le : ∀ n, g.cutIn = some n → n ≤ 0xFF

/-- A gate that waits for nothing has nothing to count. -/
theorem inRange_new : new.InRange where
  delay_le := nofun
  cut_le := nofun

/-- A cut asked for in a byte is counted in a byte; the request of a note stays. -/
theorem InRange.requestCut (h : g.InRange) {delay : Nat} (hdelay : delay ≤ 0xFF) :
    (g.requestCut delay).InRange where
  delay_le := h.delay_le
  cut_le := by
    intro n hn
    obtain rfl : delay = n := Option.some.inj hn
    exact hdelay

/-- A note asked for with a delay in a byte, be it a cut, a note or neither, keeps the range. -/
theorem InRange.requestNote (h : g.InRange) (note : Nat) {delay : Nat} (hdelay : delay ≤ 0xFF) :
    (g.requestNote note delay).InRange := by
  unfold NoteGate.requestNote
  split
  · exact h.requestCut hdelay
  · split
    · refine { h with delay_le := ?_ }
      rintro request hrequest
      obtain rfl := Option.some.inj hrequest
      exact hdelay
    · exact h

/-- Counting down keeps what is left within a byte. -/
theorem InRange.step (h : g.InRange) : g.step.1.InRange where
  delay_le := by
    intro request hrequest
    have hlater : g.laterRequest = some request := hrequest
    rw [laterRequest] at hlater
    -- what is left of the delay is less than before
    split at hlater
    · next heq =>
      obtain rfl := Option.some.inj hlater
      exact Nat.le_trans (Nat.le_succ _) (h.delay_le _ heq)
    · exact absurd hlater nofun
  cut_le := by
    intro n hn
    have hlater : g.laterCut = some n := hn
    rw [laterCut] at hlater
    split at hlater
    · next heq =>
      obtain rfl := Option.some.inj hlater
      exact Nat.le_trans (Nat.le_succ _) (h.cut_le _ heq)
    · exact absurd hlater nofun

/-- The requested note one frame later, its delay counted down in a byte. -/
def checkedLaterRequest (g : NoteGate) : Checked (Option NoteRequest) :=
  match g.request with
  | some { note, delay } =>
      if delay = 0 then .ok none
      else do
        let delay ← unsigned 8 (delay - 1)
        return some { note, delay }
  | none => .ok none

/-- The requested cut one frame later, counted down in a byte. -/
def checkedLaterCut (g : NoteGate) : Checked (Option Nat) :=
  match g.cutIn with
  | some n =>
      if n = 0 then .ok none
      else do
        let n ← unsigned 8 (n - 1)
        return some n
  | none => .ok none

/-- Advance by one frame; the result comes with the note that starts. -/
def checkedStep (g : NoteGate) : Checked (NoteGate × Option Nat) := do
  let request ← g.checkedLaterRequest
  let cutIn ← g.checkedLaterCut
  return ({ request, cutIn, isOpen := (g.isOpen || g.due?.isSome) && !g.cutIsDue },
    if g.cutIsDue then none else g.due?)

/-- The delay of a request is only counted down where some of it is left. -/
theorem checkedLaterRequest_eq (h : g.InRange) : g.checkedLaterRequest = .ok g.laterRequest := by
  have hdelay := h.delay_le
  rw [checkedLaterRequest, laterRequest]
  cases hrequest : g.request with
  | none => rfl
  | some request =>
      obtain ⟨note, delay⟩ := request
      have hle := hdelay _ hrequest
      -- only a delay that is left is counted down
      cases delay with
      | zero => rfl
      | succ n =>
          dsimp only at hle ⊢
          rw [if_neg (Nat.succ_ne_zero n), unsigned_eq (n := n) (by omega) (by omega)]
          rfl

/-- The delay of a cut is only counted down where some of it is left. -/
theorem checkedLaterCut_eq (h : g.InRange) : g.checkedLaterCut = .ok g.laterCut := by
  have hcut := h.cut_le
  rw [checkedLaterCut, laterCut]
  cases hcutIn : g.cutIn with
  | none => rfl
  | some n =>
      have hle := hcut _ hcutIn
      cases n with
      | zero => rfl
      | succ n =>
          dsimp only
          rw [if_neg (Nat.succ_ne_zero n), unsigned_eq (n := n) (by omega) (by omega)]
          rfl

/-- A frame of a gate has no fault. -/
theorem checkedStep_eq (h : g.InRange) : g.checkedStep = .ok g.step := by
  rw [checkedStep, checkedLaterRequest_eq h, ok_bind, checkedLaterCut_eq h]
  rfl

end NoteGate

/-! ## Voices -/

namespace Voice

variable {v : Voice}

/-- The range of a voice is that of its parts. -/
structure InRange (v : Voice) : Prop where
  gate : v.gate.InRange
  program : v.program.InRange
  pitch : ∀ p, v.pitch = some p → p.InRange

/-- A pitch that may be absent keeps its range if it does so when it is there. -/
theorem InRange.map_pitch (h : v.InRange) {f : Pitch .tone → Pitch .tone}
    (hf : ∀ p : Pitch .tone, p.InRange → (f p).InRange) :
    ∀ p, v.pitch.map f = some p → p.InRange := by
  intro p hp
  obtain ⟨q, hq, rfl⟩ := Option.map_eq_some_iff.mp hp
  exact hf q (h.pitch q hq)

/-- A new voice has a new gate, an idle program and, off the noise channel, a new pitch, all in
range. -/
theorem inRange_new (c : Channel) : (new c).InRange where
  gate := NoteGate.inRange_new
  program := ProgramRunner.inRange_new c
  pitch := by
    intro p hp
    have hnew : (if c.isNoise then none else some Pitch.new) = some p := hp
    split at hnew
    · exact absurd hnew nofun
    · obtain rfl := Option.some.inj hnew
      exact Pitch.inRange_new

/-! ### Reading a row -/

/-- An effect on the settings leaves the range alone; a delayed cut is delayed by a byte. -/
theorem InRange.obeyTrack (h : v.InRange) (waves : Table Waveform) (c : Channel) (param : UInt8)
    (t : TrackEffect) : (v.obeyTrack waves c param t).1.InRange := by
  cases t with
  | setPanning =>
      rw [Voice.obeyTrack]
      split
      · exact { h with }
      · exact h
  | delayedCut =>
      exact { h with gate := h.gate.requestCut (Nat.le_of_lt_succ param.toNat_lt) }
  | _ => exact { h with }

/-- An effect on the pitch is only staged, which keeps its range. -/
theorem InRange.obey (h : v.InRange) (waves : Table Waveform) (c : Channel) (e : Effect) :
    (v.obey waves c e).1.InRange := by
  unfold Voice.obey
  split
  · exact h
  · exact h.obeyTrack waves c _ _
  · exact { h with pitch := h.map_pitch fun p hp => hp.stageEffect e }

/-- What a row asks the gate for comes with the delay of the row, a byte. -/
theorem InRange.request (h : v.InRange) (r : Row) : (v.request r).InRange := by
  have hdelay : r.noteDelay.toNat ≤ 0xFF := Nat.le_of_lt_succ r.noteDelay.toNat_lt
  unfold Voice.request
  split
  · split
    · exact { h with gate := h.gate.requestNote _ hdelay }
    · exact h
  · exact { h with gate := h.gate.requestCut hdelay }
  · exact h

/-- The end of a row may apply the staged changes, which keeps the pitch in its range. -/
theorem InRange.finishRow (h : v.InRange) (r : Row) : (v.finishRow r).InRange := by
  have hselected : (v.select r).InRange := { h with }
  have hrequested := hselected.request r
  unfold Voice.finishRow
  split
  · exact { hrequested with pitch := hrequested.map_pitch fun p hp => hp.apply }
  · exact hrequested

/-- Reading a row keeps a voice in its range. -/
theorem InRange.readRow (h : v.InRange) (waves : Table Waveform) (c : Channel) (r : Row) :
    (v.readRow waves c r).1.InRange :=
  readRow_induction (fun _ e hv => hv.obey waves c e) (fun _ r hv => hv.finishRow r) h r

/-- Obey an effect on the settings or the note of the channel. -/
def checkedObeyTrack (v : Voice) (waves : Table Waveform) (c : Channel) (param : UInt8) :
    TrackEffect → Checked (Voice × List DeviceWrite)
  | .setEnvelope => do
      let writes ← c.checkedEnvelopeWrites waves param
      return ({ v with settings := v.settings.setEnvelope c param }, writes ++ [.restart c])
  | .setTimbre => do
      let timbre := param &&& 3
      let writes ← c.checkedTimbreWrites timbre
      return ({ v with settings := { v.settings with timbre } }, writes)
  | t => .ok (v.obeyTrack waves c param t)

/-- Envelope and timbre are the effects that compute, and the writes of either have no fault. -/
theorem checkedObeyTrack_eq (v : Voice) (waves : Table Waveform) (c : Channel) (param : UInt8)
    (t : TrackEffect) :
    v.checkedObeyTrack waves c param t = .ok (v.obeyTrack waves c param t) := by
  cases t with
  | setEnvelope =>
      rw [checkedObeyTrack, c.checkedEnvelopeWrites_eq]
      rfl
  | setTimbre =>
      unfold checkedObeyTrack
      dsimp only
      rw [c.checkedTimbreWrites_eq]
      rfl
  | _ => rfl

/-- Obey an effect; those on the pitch are staged. -/
def checkedObey (v : Voice) (waves : Table Waveform) (c : Channel) (e : Effect) :
    Checked (Voice × List DeviceWrite) :=
  match e.kind with
  | .track t => v.checkedObeyTrack waves c e.param t
  | _ => .ok (v.obey waves c e)

/-- Obeying one effect has no fault. -/
theorem checkedObey_eq (v : Voice) (waves : Table Waveform) (c : Channel) (e : Effect) :
    v.checkedObey waves c e = .ok (v.obey waves c e) := by
  rw [checkedObey, obey]
  cases e.kind with
  | track t => exact v.checkedObeyTrack_eq waves c e.param t
  | _ => rfl

/-- Obey some effects in order. -/
def checkedObeyAll (waves : Table Waveform) (c : Channel) :
    List Effect → Voice → Checked (Voice × List DeviceWrite)
  | [], v => .ok (v, [])
  | e :: es, v => do
      let (v, ws) ← v.checkedObey waves c e
      let (v, ws') ← checkedObeyAll waves c es v
      return (v, ws ++ ws')

/-- Obeying the effects of a row one after the other has no fault; the induction is on the effects.
-/
theorem checkedObeyAll_eq (waves : Table Waveform) (c : Channel) (es : List Effect) (v : Voice) :
    checkedObeyAll waves c es v = .ok (obeyAll waves c es v) := by
  induction es generalizing v with
  | nil => rfl
  | cons e es ih =>
      rw [checkedObeyAll, checkedObey_eq, ok_bind]
      dsimp only
      rw [ih]
      rfl

/-- Finish a row whose effects were obeyed. -/
def checkedFinishRow (v : Voice) (r : Row) : Checked Voice :=
  let v := (v.select r).request r
  if !r.startsNote && r.takesHoldAtOnce then do
    let pitch ← v.pitch.mapM Pitch.checkedApply
    return { v with pitch }
  else .ok v

/-- Applying the staged changes at the end of a row has no fault. -/
theorem checkedFinishRow_eq (v : Voice) (r : Row) :
    v.checkedFinishRow r = .ok (v.finishRow r) := by
  rw [checkedFinishRow, finishRow]
  split
  · rw [mapM_option fun p _ => p.checkedApply_eq]
    rfl
  · rfl

/-- Read a row. -/
def checkedReadRow (v : Voice) (waves : Table Waveform) (c : Channel) (r : Row) :
    Checked (Voice × List DeviceWrite) := do
  let (v, ws) ← checkedObeyAll waves c r.obeyed v
  if r.halts then return (v, ws)
  else do
    let v ← v.checkedFinishRow r
    return (v, ws)

/-- **Reading a row has no fault.** -/
theorem checkedReadRow_eq (v : Voice) (waves : Table Waveform) (c : Channel) (r : Row) :
    v.checkedReadRow waves c r = .ok (v.readRow waves c r) := by
  rw [checkedReadRow, readRow, checkedObeyAll_eq, ok_bind]
  dsimp only
  split
  · rfl
  · rw [checkedFinishRow_eq]
    rfl

/-! ### Updating -/

/-- Binding an instrument resets the program and stages sequences; a missing one clears the program.
-/
theorem InRange.bindInstrument (h : v.InRange) (instruments : Table Instrument) :
    (v.bindInstrument instruments).InRange := by
  unfold Voice.bindInstrument
  split
  · split
    · next i _ =>
      exact
        { gate := h.gate
          program := ProgramRunner.inRange_setProgram _ _
          pitch := h.map_pitch fun p hp => hp.stage _ }
    · exact { h with program := ProgramRunner.inRange_new _ }
  · exact h

/-- The frequency of a voice fits eleven bits. -/
theorem frequency_le (v : Voice) : v.frequency ≤ 0x7FF := by
  unfold frequency
  split
  · exact Pitch.frequency_le _
  · exact Nat.zero_le _

/-- Binding for a note keeps the range, and without a note nothing is bound. -/
theorem InRange.bound (h : v.InRange) (m : Module) (started : Option Nat) :
    (v.bound m started).InRange := by
  unfold Voice.bound
  split
  · exact h.bindInstrument _
  · exact h

/-- A frame of its pitch keeps a voice in its range. -/
theorem InRange.played (h : v.InRange) (started : Option Nat) : (v.played started).InRange :=
  { h with pitch := h.map_pitch fun _ hp => hp.play started }

/-- A frame of a note keeps the range: binding, pitch and program do so in turn. -/
theorem InRange.sound (h : v.InRange) (m : Module) (c : Channel) (started : Option Nat) :
    (v.sound m c started).1.InRange := by
  have hplayed := (h.bound m started).played started
  exact { hplayed with program := hplayed.program.step _ _ }

/-- Counting the gate down keeps a voice in its range. -/
theorem InRange.gated (h : v.InRange) : v.gated.InRange :=
  { h with gate := h.gate.step }

/-- An update keeps a voice in its range. -/
theorem InRange.update (h : v.InRange) (m : Module) (c : Channel) : (v.update m c).1.InRange :=
  update_induction InRange.gated (fun _ started hv => hv.sound m c started)
    (fun _ hv => { hv with }) h

/-- Bind the selected instrument. -/
def checkedBindInstrument (v : Voice) (instruments : Table Instrument) : Checked Voice :=
  match v.selected with
  | some id =>
      match instruments.get? id with
      | some i => do
          let program ← v.program.checkedSetProgram i.program
          let sequences : PitchParams :=
            { pitchSequence := some i.pitch, arpeggioSequence := some i.arpeggio }
          return { v with program, pitch := v.pitch.map fun p => p.stage sequences }
      | none => .ok { v with program := v.program.clear }
  | none => .ok v

/-- Binding the selected instrument has no fault; only a program that is loaded settles at once. -/
theorem checkedBindInstrument_eq (v : Voice) (instruments : Table Instrument) :
    v.checkedBindInstrument instruments = .ok (v.bindInstrument instruments) := by
  rw [checkedBindInstrument, bindInstrument]
  cases v.selected with
  | none => rfl
  | some id =>
      dsimp only
      cases instruments.get? id with
      | none => rfl
      | some i =>
          dsimp only
          rw [ProgramRunner.checkedSetProgram_eq]
          rfl

/-- Bind the selected instrument if a note starts. -/
def checkedBound (v : Voice) (m : Module) (started : Option Nat) : Checked Voice :=
  if started.isSome then v.checkedBindInstrument m.instruments else .ok v

/-- Binding for a note has no fault. -/
theorem checkedBound_eq (v : Voice) (m : Module) (started : Option Nat) :
    v.checkedBound m started = .ok (v.bound m started) := by
  rw [checkedBound, bound]
  split
  · exact v.checkedBindInstrument_eq _
  · rfl

/-- Move the pitch by a frame. -/
def checkedPlayed (v : Voice) (started : Option Nat) : Checked Voice := do
  let pitch ← v.pitch.mapM fun p => p.checkedPlay started
  return { v with pitch }

/-- A pitch in its range moves by a frame without a fault. -/
theorem checkedPlayed_eq (h : v.InRange) (started : Option Nat) :
    v.checkedPlayed started = .ok (v.played started) := by
  rw [checkedPlayed, mapM_option fun p hp => Pitch.checkedPlay_eq (h.pitch p hp) started]
  rfl

/-- The frequency of the current frame, from which the program bends. -/
def checkedFrequency (v : Voice) : Checked Nat :=
  match v.pitch with
  | some p => p.checkedFrequency
  | none => .ok 0

/-- The frequency of a voice in its range is computed without a fault; the noise channel has none.
-/
theorem checkedFrequency_eq (h : v.InRange) : v.checkedFrequency = .ok v.frequency := by
  have hpitch := h.pitch
  rw [checkedFrequency, frequency]
  cases hp : v.pitch with
  | none => rfl
  | some p => exact Pitch.checkedFrequency_eq (hpitch p hp)

/-- The writes of a pitch of some frequency; the polynomial of a note on the noise channel is looked
up. -/
def checkedPitchWrites (v : Voice) (c : Channel) (started : Option Nat) (frequency : Nat) :
    Checked (List DeviceWrite) :=
  match v.pitch with
  | some _ => .ok (if v.program.isRunning then [] else [.frequency c frequency])
  | none =>
      match started.filter fun n => n ≤ Note.noiseLast with
      | some n => do
          let address ← c.layout.checkedRegister 3
          let polynomial ← checkedNoiseRegister n
          return [.register address (polynomial ||| stepWidth v.settings.timbre)]
      | none => .ok []

/-- The polynomial of a noise note is looked up within its table, and other writes need no lookup.
-/
theorem checkedPitchWrites_eq (v : Voice) (c : Channel) (started : Option Nat) :
    v.checkedPitchWrites c started v.frequency = .ok (v.pitchWrites c started) := by
  rw [checkedPitchWrites, pitchWrites, frequency]
  cases v.pitch with
  | some p => rfl
  | none =>
      cases started.filter fun n => n ≤ Note.noiseLast with
      | none => rfl
      | some n =>
          dsimp only
          rw [c.checkedRegister_eq (by decide), ok_bind, checkedNoiseRegister_eq]
          rfl

/-- One frame of a note, which may start on it. -/
def checkedSound (v : Voice) (m : Module) (c : Channel) (started : Option Nat) :
    Checked (Voice × List DeviceWrite) := do
  let bound ← v.checkedBound m started
  let played ← bound.checkedPlayed started
  let frequency ← played.checkedFrequency
  let pitchWrites ← played.checkedPitchWrites c started frequency
  let (program, programWrites) ← played.program.checkedStep m.waveforms frequency
  let output := if started.isSome then played.settings.panning else played.output
  return ({ played with program, output },
    pitchWrites ++ played.startWrites c started ++ programWrites)

/-- A frame of a note has no fault: what is bound stays in range for the pitch, and that for the
program. -/
theorem checkedSound_eq (h : v.InRange) (m : Module) (c : Channel) (started : Option Nat) :
    v.checkedSound m c started = .ok (v.sound m c started) := by
  have hbound := h.bound m started
  have hplayed := hbound.played started
  -- each stage hands its range to the next
  rw [checkedSound, checkedBound_eq, ok_bind, checkedPlayed_eq hbound, ok_bind,
    checkedFrequency_eq hplayed, ok_bind, checkedPitchWrites_eq, ok_bind,
    ProgramRunner.checkedStep_eq hplayed.program m.waveforms (frequency_le _)]
  rfl

/-- Advance by one frame. -/
def checkedUpdate (v : Voice) (m : Module) (c : Channel) : Checked (Voice × List DeviceWrite) := do
  let (gate, started) ← v.gate.checkedStep
  let v := { v with gate }
  if v.isPlaying then v.checkedSound m c started
  else return ({ v with output := Panning.off }, [])

/-- **An update of a voice in its range has no fault.** -/
theorem checkedUpdate_eq (h : v.InRange) (m : Module) (c : Channel) :
    v.checkedUpdate m c = .ok (v.update m c) := by
  rw [checkedUpdate, NoteGate.checkedStep_eq h.gate, ok_bind, update]
  dsimp only
  split
  · exact checkedSound_eq h.gated m c _
  · rfl

end Voice
end Chiptune
