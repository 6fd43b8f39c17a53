import Chiptune.Playback.Audition
import Chiptune.Playback.Player

/-! # Recordings

A recording collects the reports and the writes of a song, frame by frame, until the song stops or a
limit is reached.  `frames_succ` unrolls a recording by one frame.  An audition of an instrument
collects the writes of a single note.  Unlike a recording, which grows with its frames, it reserves
the room for all of them before the first one; `Audition.reserve_eq_ok_iff` says when there is room.
Memory is taken to have no other limit. -/

namespace Chiptune

/-- Where a recording starts and how far it goes. -/
structure RecordingPlan where
  /-- The position to start from. -/
  start : Position := ⟨0, 0⟩
  /-- The most frames to record; one minute unless said otherwise. -/
  maxFrames : Nat := 3600
  /-- Whether the first pattern is repeated. -/
  repeats : Bool := false
  deriving DecidableEq, Repr

/-- One frame with its writes. -/
structure RecordedFrame where
  /-- The report of the frame. -/
  report : FrameReport
  /-- The writes of the frame. -/
  writes : List DeviceWrite
  deriving DecidableEq, Repr

/-- The frames of a song in order. -/
structure Recording where
  /-- The frames. -/
  frames : List RecordedFrame
  deriving DecidableEq, Repr

/-- Why there is no room for the frames of an audition. -/
inductive RoomShortage where
  /-- Their number does not fit 64 bits. -/
  | number
  /-- They take more bytes than one block of memory can have. -/
  | bytes
  deriving DecidableEq, Repr

/-- The wording of a shortage. -/
def RoomShortage.message : RoomShortage → String
  | number => "attempt to add with overflow"
  | bytes => "capacity overflow"

/-- Why a song cannot be recorded or an instrument not be auditioned. -/
inductive RecordingError where
  /-- Playback cannot start. -/
  | start (error : StartError)
  /-- The module has no such instrument. -/
  | unknownInstrument (id : Nat)
  /-- There is no room for the frames. -/
  | noRoom (shortage : RoomShortage)
  deriving DecidableEq, Repr

/-- The wording of a recording that cannot be made. -/
def RecordingError.message : RecordingError → String
  | start e => e.message
  | unknownInstrument id => "no instrument with id " ++ Numeral.hex 2 id
  | noRoom shortage => shortage.message

namespace Recording

instance : Inhabited Recording := ⟨⟨[]⟩⟩

/-- Whether the last frame stopped playback. -/
def isHalted (r : Recording) : Bool :=
  match r.frames.getLast? with
  | some f => f.report.isHalted
  | none => false

/-- All writes in order. -/
def writes (r : Recording) : List DeviceWrite :=
  r.frames.flatMap RecordedFrame.writes

/-- The number of writes of some frames. -/
def countWrites : List RecordedFrame → Nat
  | [] => 0
  | f :: fs => f.writes.length + countWrites fs

/-- The number of writes of all frames. -/
def totalWrites (r : Recording) : Nat :=
  countWrites r.frames

/-- The recording without its first frames. -/
def dropFrames (r : Recording) (count : Nat) : Recording :=
  ⟨r.frames.drop count⟩

/-- As many writes are listed as are counted. -/
theorem length_writes (r : Recording) : r.writes.length = r.totalWrites := by
  rcases r with ⟨fs⟩
  induction fs with
  | nil => rfl
  | cons f fs ih =>
    simp only [writes, totalWrites, countWrites, List.flatMap_cons, List.length_append] at ih ⊢
    rw [ih]

end Recording

namespace Player

/-! ### Frames of a run -/

/-- Add the frames of a run, of which there are at most `limit`, to those collected so far.  The run
ends early on the frame that stops playback. -/
def collect (m : Module) (limit : Nat) (p : Player) (frames : Array RecordedFrame) :
    Array RecordedFrame :=
  match limit with
  | 0 => frames
  | limit + 1 =>
      let (p, writes) := p.step m
      let frames := frames.push { report := p.report, writes }
      if p.isHalted then frames else collect m limit p frames

/-- The frames of a run, of which there are at most `limit`. -/
def frames (m : Module) (limit : Nat) (p : Player) : List RecordedFrame :=
  (collect m limit p #[]).toList

/-- The frames of a run follow those collected before. -/
theorem toList_collect (m : Module) (limit : Nat) (p : Player) (done : Array RecordedFrame) :
    (collect m limit p done).toList = done.toList ++ frames m limit p := by
  induction limit generalizing p done with
  | zero => simp [frames, collect]
  | succ limit ih =>
    simp only [frames, collect]
    split
    · simp
    · rw [ih, ih _ (#[].push _)]
      simp

/-- A limit of zero allows no frames. -/
@[simp] theorem frames_zero (m : Module) (p : Player) : frames m 0 p = [] := rfl

/-- A run begins with its first frame, and goes on unless that frame stops playback. -/
theorem frames_succ (m : Module) (limit : Nat) (p : Player) :
    frames m (limit + 1) p =
      { report := (p.step m).1.report, writes := (p.step m).2 } ::
        if (p.step m).1.isHalted then [] else frames m limit (p.step m).1 := by
  rw [frames, collect]
  by_cases h : (p.step m).1.isHalted
  · simp [h]
  · simp [h, toList_collect]

end Player

namespace Audition

/-- The writes of some frames of an audition, of which the first has the number `k`.  The note is
released on the frame with the number `hold`. -/
def frames (waves : Table Waveform) (hold : Nat) : Nat → Nat → Audition → List (List DeviceWrite)
  | _, 0, _ => []
  | k, n + 1, a =>
      let (a, ws) := (if k = hold then a.stop else a).step waves
      ws :: frames waves hold (k + 1) n a

/-- The bytes that a frame takes in memory: three words, which refer to its writes. -/
def frameBytes : Nat := 24

/-- The most bytes that a block of memory can have, which is what a signed word can count. -/
def maxBlockBytes : Nat := 0x7FFF_FFFF_FFFF_FFFF

/-- Reserve the room for a number of frames. -/
def reserve (count : Nat) : Except RoomShortage Unit :=
  if UInt64.size ≤ count then .error .number
  else if maxBlockBytes < count * frameBytes then .error .bytes
  else .ok ()

/-- There is room for some frames if they fit a block of memory. -/
theorem reserve_eq_ok_iff (count : Nat) :
    reserve count = .ok () ↔ count * frameBytes ≤ maxBlockBytes := by
  have hnumber : UInt64.size ≤ count → maxBlockBytes < count * frameBytes := by
    unfold UInt64.size maxBlockBytes frameBytes
    omega
  unfold reserve
  split
  · next h => exact ⟨nofun, fun hle => absurd (hnumber h) (Nat.not_lt.mpr hle)⟩
  · split
    · next h => exact ⟨nofun, fun hle => absurd h (Nat.not_lt.mpr hle)⟩
    · next h => exact ⟨fun _ => Nat.le_of_not_lt h, fun _ => rfl⟩

end Audition

namespace Module

/-- Play the song of a module until it stops or the limit is reached. -/
def record (m : Module) (plan : RecordingPlan) : Except RecordingError Recording :=
  match Player.start m plan.start with
  | .ok p => .ok ⟨(p.setRepeat plan.repeats).frames m plan.maxFrames⟩
  | .error e => .error (.start e)

/-- Play a note of an instrument, which is held and then released for some frames.  The first frame
is that of taking up the instrument.  The room for all frames is reserved before they are played. -/
def audition (m : Module) (id note hold release : Nat) :
    Except RecordingError (List (List DeviceWrite)) :=
  match m.instruments.get? id with
  | some i =>
      let (a, setup) := Audition.ofInstrument i m.waveforms
      match Audition.reserve (hold + release + 1) with
      | .ok () => .ok (setup :: (a.playNote note).frames m.waveforms hold 0 (hold + release))
      | .error shortage => .error (.noRoom shortage)
  | none => .error (.unknownInstrument id)

end Module
end Chiptune
