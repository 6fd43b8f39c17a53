import Chiptune.Playback.Audition

/-! # Runs of an audition

A caller gives an audition its instrument, asks for notes and for their ends, and steps it, in any
order.  This file makes the calls data and follows an audition through a list of them.

* `Audition.serve` answers one call, `Audition.after` is the audition behind a list of calls, and
  `Audition.writes` are the writes of all of them.
* `Audition.gated` and `Audition.played` are the stages of a frame, and `step_of_open`,
  `step_of_closed` and `writes_sound` say what it does. -/

namespace Chiptune

/-- What a caller asks of an audition. -/
inductive AuditionCall where
  /-- Take up an instrument. -/
  | setInstrument (i : Instrument) (waves : Table Waveform)
  /-- Start a note on the next frame. -/
  | playNote (note : Nat)
  /-- End the note on the next frame. -/
  | stop
  /-- Play a frame. -/
  | step (waves : Table Waveform)

namespace Audition

variable {a : Audition}

/-! ## Calls -/

/-- Serve a call.  An instrument replaces all that was there before. -/
def serve (a : Audition) : AuditionCall → Audition × List DeviceWrite
  | .setInstrument i waves => ofInstrument i waves
  | .playNote note => (a.playNote note, [])
  | .stop => (a.stop, [])
  | .step waves => a.step waves

/-- The audition behind some calls. -/
def after (a : Audition) (calls : List AuditionCall) : Audition :=
  calls.foldl (fun a call => (a.serve call).1) a

/-- The writes of some calls. -/
def writes (a : Audition) : List AuditionCall → List DeviceWrite
  | [] => []
  | call :: calls => (a.serve call).2 ++ (a.serve call).1.writes calls

/-- Without calls, an audition stays as it is. -/
@[simp] theorem after_nil (a : Audition) : a.after [] = a := rfl

/-- The first call is served first. -/
@[simp] theorem after_cons (a : Audition) (call : AuditionCall) (calls : List AuditionCall) :
    a.after (call :: calls) = (a.serve call).1.after calls := rfl

/-- Calls are served one list after the other. -/
theorem after_append (a : Audition) (calls calls' : List AuditionCall) :
    a.after (calls ++ calls') = (a.after calls).after calls' :=
  List.foldl_append

/-- The audition behind some calls and one more. -/
theorem after_concat (a : Audition) (calls : List AuditionCall) (call : AuditionCall) :
    a.after (calls ++ [call]) = ((a.after calls).serve call).1 := by
  rw [after_append, after_cons, after_nil]

/-- The writes of the last call stand behind those of the others. -/
theorem writes_concat (a : Audition) (calls : List AuditionCall) (call : AuditionCall) :
    a.writes (calls ++ [call]) = a.writes calls ++ ((a.after calls).serve call).2 := by
  induction calls generalizing a with
  | nil => simp [writes]
  | cons call' calls ih => rw [List.cons_append, writes, ih, writes, List.append_assoc, after_cons]

/-- A note that is asked for does not sound yet. -/
@[simp] theorem isPlaying_playNote (a : Audition) (note : Nat) :
    (a.playNote note).isPlaying = a.isPlaying := by
  show (a.gate.requestNote note 0).isOpen = a.gate.isOpen
  unfold NoteGate.requestNote
  split
  · rfl
  · split <;> rfl

/-! ## Frames -/

/-- The audition of a frame whose gate has moved. -/
def gated (a : Audition) : Audition :=
  { a with gate := a.gate.step.1 }

/-- The audition of a frame of a note whose pitch has moved and whose program is still to run. -/
def played (a : Audition) (started : Option Nat) : Audition :=
  { a with
    program := if started.isSome then a.program.reset else a.program
    pitch := a.pitch.play started }

/-- A note that starts changes neither the bytes of the program nor the channel that it rules. -/
theorem program_played (a : Audition) (started : Option Nat) :
    (a.played started).program.program = a.program.program ∧
      (a.played started).program.channel = a.program.channel := by
  unfold played
  dsimp only
  split <;> exact ⟨rfl, rfl⟩

/-- An audition whose note sounds plays a frame of it. -/
theorem step_of_open (waves : Table Waveform) (h : a.gated.isPlaying = true) :
    a.step waves = a.gated.sound waves a.gate.step.2 :=
  if_pos h

/-- An audition without a note switches its channel off. -/
theorem step_of_closed (waves : Table Waveform) (h : a.gated.isPlaying = false) :
    a.step waves = (a.gated, [.channelOutput a.channel Panning.off]) :=
  if_neg (Bool.not_eq_true _ ▸ h)

/-- Writing the pitch changes nothing but the polynomial that was written last. -/
theorem state_writePitch (a : Audition) (started : Option Nat) :
    (a.writePitch started).1 =
      { a with noiseWritten := (a.writePitch started).1.noiseWritten } := by
  unfold writePitch
  split
  · rfl
  · dsimp only
    split <;> rfl

/-- The audition behind a frame of a note. -/
theorem state_sound (a : Audition) (waves : Table Waveform) (started : Option Nat) :
    (a.sound waves started).1 =
      { a.played started with
        program := ((a.played started).program.step waves (a.played started).pitch.frequency).1
        noiseWritten := ((a.played started).writePitch started).1.noiseWritten } := by
  show { ((a.played started).writePitch started).1 with
      program := (((a.played started).writePitch started).1.program.step waves
        ((a.played started).writePitch started).1.pitch.frequency).1 } = _
  rw [state_writePitch]

/-- The writes of a frame of a note are those of its pitch, of its start and of its program. -/
theorem writes_sound (a : Audition) (waves : Table Waveform) (started : Option Nat) :
    (a.sound waves started).2 =
      ((a.played started).writePitch started).2 ++ a.startWrites started ++
        ((a.played started).program.step waves (a.played started).pitch.frequency).2 := by
  show ((a.played started).writePitch started).2 ++
      ((a.played started).writePitch started).1.startWrites started ++
      (((a.played started).writePitch started).1.program.step waves
        ((a.played started).writePitch started).1.pitch.frequency).2 = _
  rw [state_writePitch]
  rfl

/-- A frame does not change the channel. -/
@[simp] theorem channel_step (a : Audition) (waves : Table Waveform) :
    (a.step waves).1.channel = a.channel := by
  cases hopen : a.gated.isPlaying with
  | true =>
      rw [step_of_open waves hopen, state_sound]
      rfl
  | false =>
      rw [step_of_closed waves hopen]
      rfl

/-- Behind a frame, a note sounds if the gate has opened or stayed open. -/
theorem isPlaying_step (a : Audition) (waves : Table Waveform) :
    (a.step waves).1.isPlaying = a.gated.isPlaying := by
  cases hopen : a.gated.isPlaying with
  | true =>
      rw [step_of_open waves hopen, state_sound]
      exact hopen
  | false =>
      rw [step_of_closed waves hopen]
      exact hopen

end Audition
end Chiptune
