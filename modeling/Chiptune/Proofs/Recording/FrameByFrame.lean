import Chiptune.Proofs.Playback.Run
import Chiptune.Recording
import Mathlib.Data.Nat.Basic
import Mathlib.Order.Basic

/-! # Recordings frame by frame

A recording has the frames of its player one after the other, each with the writes that belong to
it.  It ends on the first frame that stops playback, or at its limit if that comes before.  A lower
limit therefore cuts it off and changes nothing else.

* `Player.stepped` is the player behind some frames, `Player.nextFrame` what it plays next, and
  `Player.PlaysOn` says that none of the frames so far has stopped playback.
* `getElem?_frames` says which frame of a player stands at a place of its run.
* `Player.StopsOn` names the first frame that stops playback, and `length_frames_of_stopsOn` and
  `length_frames_of_endless` count the frames from it. -/

namespace Chiptune

namespace Player

variable {m : Module} {p : Player} {limit n : Nat}

/-! ## Frames of a player -/

/-- The player behind some frames. -/
def stepped (p : Player) (m : Module) (n : Nat) : Player :=
  p.after m (List.replicate n .step)

/-- The frame that a player plays next. -/
def nextFrame (p : Player) (m : Module) : RecordedFrame where
  report := (p.step m).1.report
  writes := (p.step m).2

/-- The first frame comes before the others. -/
theorem stepped_succ (p : Player) (m : Module) (n : Nat) :
    p.stepped m (n + 1) = (p.step m).1.stepped m n := rfl

/-- The last frame comes behind the others. -/
theorem step_stepped (p : Player) (m : Module) (n : Nat) :
    ((p.stepped m n).step m).1 = p.stepped m (n + 1) := by
  rw [stepped, stepped, List.replicate_succ', after_concat]
  rfl

/-- A frame says that playback has stopped if it has behind it. -/
theorem isHalted_nextFrame (p : Player) (m : Module) (n : Nat) :
    ((p.stepped m n).nextFrame m).report.isHalted = (p.stepped m (n + 1)).isHalted := by
  rw [← step_stepped]
  rfl

/-- None of the first frames has stopped playback. -/
def PlaysOn (p : Player) (m : Module) (n : Nat) : Prop :=
  ∀ k < n, (p.stepped m (k + 1)).isHalted = false

instance (p : Player) (m : Module) (n : Nat) : Decidable (p.PlaysOn m n) :=
  inferInstanceAs (Decidable (∀ k < n, _))

/-- Of no frames, none stops playback. -/
theorem playsOn_zero (p : Player) (m : Module) : p.PlaysOn m 0 :=
  fun k hk => absurd hk (Nat.not_lt_zero k)

/-- Playback goes on for longer if it goes on behind the first frame. -/
theorem playsOn_succ :
    p.PlaysOn m (n + 1) ↔ (p.step m).1.isHalted = false ∧ (p.step m).1.PlaysOn m n := by
  constructor
  · intro h
    exact ⟨h 0 (Nat.zero_lt_succ n), fun k hk => h (k + 1) (Nat.succ_lt_succ hk)⟩
  · rintro ⟨hfirst, hrest⟩ k hk
    cases k with
    | zero => exact hfirst
    | succ k => exact hrest k (Nat.lt_of_succ_lt_succ hk)

/-- **The frames of a run are those of its player, up to the limit and to the first one that stops
playback.** -/
theorem getElem?_frames (m : Module) (limit : Nat) (p : Player) (n : Nat) :
    (frames m limit p)[n]? =
      if n < limit ∧ p.PlaysOn m n then some ((p.stepped m n).nextFrame m) else none := by
  induction limit generalizing p n with
  | zero =>
      rw [frames_zero, if_neg fun h => Nat.not_lt_zero n h.1]
      rfl
  | succ limit ih =>
      rw [frames_succ]
      -- a later frame is one of the run behind the first frame, if playback goes on there
      cases n with
      | zero => exact (if_pos ⟨Nat.zero_lt_succ limit, p.playsOn_zero m⟩).symm
      | succ n =>
          rw [List.getElem?_cons_succ, stepped_succ]
          cases hhalted : (p.step m).1.isHalted with
          | true =>
              have hover : ¬p.PlaysOn m (n + 1) := by
                rw [playsOn_succ, hhalted]
                exact fun h => Bool.noConfusion h.1
              rw [if_pos rfl, if_neg fun h => hover h.2]
              rfl
          | false =>
              rw [if_neg Bool.false_ne_true, ih]
              refine if_congr ?_ rfl rfl
              rw [Nat.add_lt_add_iff_right, playsOn_succ, hhalted]
              simp only [true_and]

/-- A run has a frame at a place if the limit lies behind it and playback goes on up to there. -/
theorem lt_length_frames : n < (frames m limit p).length ↔ n < limit ∧ p.PlaysOn m n := by
  rw [← not_iff_not, Nat.not_lt, ← List.getElem?_eq_none_iff, getElem?_frames]
  simp

/-- Every frame of a run is the one that its player plays there. -/
theorem getElem?_frames_of_lt (h : n < (frames m limit p).length) :
    (frames m limit p)[n]? = some ((p.stepped m n).nextFrame m) := by
  rw [getElem?_frames, if_pos (lt_length_frames.mp h)]

/-- A lower limit cuts a run off. -/
theorem frames_take (m : Module) (p : Player) {limit limit' : Nat} (h : limit ≤ limit') :
    frames m limit p = (frames m limit' p).take limit := by
  refine List.ext_getElem? fun n => ?_
  rw [List.getElem?_take, getElem?_frames, getElem?_frames]
  by_cases hn : n < limit
  · rw [if_pos hn]
    refine if_congr ?_ rfl rfl
    simp only [hn, Nat.lt_of_lt_of_le hn h, true_and]
  · rw [if_neg hn, if_neg fun hplays => hn hplays.1]

/-! ## The frame that stops playback -/

/-- A frame is the first one that stops playback. -/
def StopsOn (p : Player) (m : Module) (n : Nat) : Prop :=
  (p.stepped m (n + 1)).isHalted = true ∧ p.PlaysOn m n

/-- Playback goes on up to the frame that stops it. -/
theorem StopsOn.playsOn_iff {h : Nat} (hstop : p.StopsOn m h) : p.PlaysOn m n ↔ n < h + 1 := by
  constructor
  · intro hplays
    by_contra hlate
    have hgoing := hplays h (Nat.lt_of_not_le fun hle => hlate (Nat.lt_succ_of_le hle))
    rw [hstop.1] at hgoing
    cases hgoing
  · intro hn k hk
    exact hstop.2 k (Nat.lt_of_lt_of_le hk (Nat.le_of_lt_succ hn))

/-- If no frame stops playback, it goes on for ever. -/
theorem playsOn_of_endless (hendless : ∀ h, ¬p.StopsOn m h) (n : Nat) : p.PlaysOn m n := by
  induction n with
  | zero => exact p.playsOn_zero m
  | succ n ih =>
      intro k hk
      rcases Nat.lt_succ_iff_lt_or_eq.mp hk with hlt | rfl
      · exact ih k hlt
      · exact Bool.not_eq_true _ ▸ fun hhalted => hendless k ⟨hhalted, ih⟩

/-- A run that is stopped ends with the frame that stops it. -/
theorem length_frames_of_stopsOn {h : Nat} (hstop : p.StopsOn m h) (limit : Nat) :
    (frames m limit p).length = min limit (h + 1) := by
  refine eq_of_forall_lt_iff fun n => ?_
  rw [lt_length_frames, hstop.playsOn_iff, Nat.lt_min]

/-- A run that is never stopped goes up to its limit. -/
theorem length_frames_of_endless (hendless : ∀ h, ¬p.StopsOn m h) (limit : Nat) :
    (frames m limit p).length = limit := by
  refine eq_of_forall_lt_iff fun n => ?_
  rw [lt_length_frames, and_iff_left (playsOn_of_endless hendless n)]

/-- The last frame of a run says that playback has stopped exactly if it is the one to stop it. -/
theorem isHalted_frames (m : Module) (limit : Nat) (p : Player) :
    Recording.isHalted ⟨frames m limit p⟩ = true ↔
      ∃ h, p.StopsOn m h ∧ (frames m limit p).length = h + 1 := by
  rw [Recording.isHalted, List.getLast?_eq_getElem?]
  -- the last frame of a run is the only one that can have stopped it
  cases hlength : (frames m limit p).length with
  | zero =>
      have hnil : frames m limit p = [] := List.length_eq_zero_iff.mp hlength
      rw [hnil]
      exact iff_of_false Bool.false_ne_true fun ⟨h, _, heq⟩ => Nat.succ_ne_zero h heq.symm
  | succ n =>
      have hlast : n < (frames m limit p).length := hlength ▸ Nat.lt_succ_self n
      rw [Nat.add_sub_cancel, getElem?_frames_of_lt hlast]
      show ((p.stepped m n).nextFrame m).report.isHalted = true ↔ _
      rw [isHalted_nextFrame]
      constructor
      · intro hhalted
        exact ⟨n, ⟨hhalted, (lt_length_frames.mp hlast).2⟩, rfl⟩
      · rintro ⟨h, hstop, heq⟩
        obtain rfl := Nat.succ.inj heq
        exact hstop.1

end Player

/-! ## Recordings -/

/-- A recording follows a player up to a limit. -/
structure Recording.Follows (r : Recording) (p : Player) (m : Module) (limit : Nat) : Prop where
  /-- Every frame has the report behind it and its own writes. -/
  frame : ∀ n < r.frames.length, r.frames[n]? =
    some { report := (p.stepped m (n + 1)).report, writes := ((p.stepped m n).step m).2 }
  /-- The first frame that stops playback is the last one, unless the limit comes before. -/
  length_of_stop : ∀ h, p.StopsOn m h → r.frames.length = min limit (h + 1)
  /-- Without such a frame, the limit is reached. -/
  length_of_endless : (∀ h, ¬p.StopsOn m h) → r.frames.length = limit
  /-- On all frames but the last, playback goes on. -/
  going : ∀ n f, n + 1 < r.frames.length → r.frames[n]? = some f → f.report.isHalted = false
  /-- The recording says that playback has stopped if it has the frame that stops it. -/
  isHalted_iff : r.isHalted = true ↔ ∃ h, p.StopsOn m h ∧ r.frames.length = h + 1

/-- The frames of a run follow their player. -/
theorem Player.follows_frames (m : Module) (limit : Nat) (p : Player) :
    Recording.Follows ⟨frames m limit p⟩ p m limit where
  frame n hn := by
    rw [getElem?_frames_of_lt hn, nextFrame, step_stepped]
  length_of_stop h hstop := length_frames_of_stopsOn hstop limit
  length_of_endless hendless := length_frames_of_endless hendless limit
  going n f hn hf := by
    rw [getElem?_frames_of_lt (Nat.lt_of_succ_lt hn)] at hf
    obtain rfl := Option.some.inj hf
    rw [isHalted_nextFrame]
    exact (lt_length_frames.mp hn).2 n (Nat.lt_succ_self n)
  isHalted_iff := isHalted_frames m limit p

namespace Module

/-- **A recording is playback, cut off.**  It fails exactly if playback cannot start, for the same
reason, and the order is looked at before the row.  Otherwise it has the reports and the writes of
the player frame by frame, up to the first frame that stops playback or to the limit, and it says
that playback has stopped exactly if that frame is in it.  A recording with a lower limit has the
first frames of it. -/
theorem record_follows_playback (m : Module) (plan : RecordingPlan) :
    let size := m.song.extent
    (∀ e, m.record plan = .error (.start e) ↔ Player.start m plan.start = .error e) ∧
      (size.orders ≤ plan.start.order →
        Player.start m plan.start = .error (.orderOutOfRange plan.start.order size.orders)) ∧
      (plan.start.order < size.orders → size.rows ≤ plan.start.row →
        Player.start m plan.start = .error (.rowOutOfRange plan.start.row size.rows)) ∧
      (plan.start.Inside size → ∃ p r,
        Player.start m plan.start = .ok p ∧ m.record plan = .ok r ∧
          r.Follows (p.setRepeat plan.repeats) m plan.maxFrames ∧
          ∀ limit ≤ plan.maxFrames, m.record { plan with maxFrames := limit } =
            .ok ⟨r.frames.take (min limit r.frames.length)⟩) := by
  intro size
  refine ⟨?_, ?_, ?_, ?_⟩
  · intro e
    rw [record]
    cases Player.start m plan.start with
    | ok p => exact iff_of_false nofun nofun
    | error e' => simp
  · intro horder
    exact if_pos horder
  · intro horder hrow
    exact (if_neg (Nat.not_le.mpr horder)).trans (if_pos hrow)
  · -- from a start inside the song, every limit cuts the same run
    intro hinside
    have hstart := Player.start_eq_ok.mpr ⟨hinside, rfl⟩
    have hrecord (limit : Nat) : m.record { plan with maxFrames := limit } =
        .ok ⟨(((Player.atPosition m.song plan.start).setRepeat plan.repeats).frames m limit)⟩ := by
      rw [record, hstart]
    refine ⟨_, _, hstart, hrecord plan.maxFrames, Player.follows_frames m plan.maxFrames _, ?_⟩
    intro limit hlimit
    rw [hrecord, Player.frames_take m _ hlimit, List.take_eq_take_min]

end Module

/-- A module that plays a note for two rows of one frame and stops playback on the third. -/
def stoppedModule : Module :=
  .ofSong (({ Song.new "" with speed := .fastest }.setRow .ch1 0 0
    (Row.empty.withNote (.on 0))).setRow .ch1 0 2 (Row.empty.withEffect ⟨.pattern .halt, 0⟩))

/-- A recording of up to ten frames ends with the third one, and one of two frames before it. -/
theorem record_stoppedModule :
    let plan : RecordingPlan := { maxFrames := 10 }
    let p := (Player.atPosition stoppedModule.song ⟨0, 0⟩).setRepeat false
    plan.start.Inside stoppedModule.song.extent ∧ p.StopsOn stoppedModule 2 ∧
      ∃ r, stoppedModule.record plan = .ok r ∧ r.frames.length = 3 ∧ r.isHalted = true ∧
        stoppedModule.record { plan with maxFrames := 2 } = .ok ⟨r.frames.take 2⟩ := by
  intro plan p
  have hinside : plan.start.Inside stoppedModule.song.extent := by decide
  have hstop : p.StopsOn stoppedModule 2 := ⟨by decide +kernel, by decide +kernel⟩
  obtain ⟨-, -, -, hrecord⟩ := Module.record_follows_playback stoppedModule plan
  obtain ⟨p₀, r, hstart, hr, hfollows, htake⟩ := hrecord hinside
  obtain rfl := (Player.start_eq_ok.mp hstart).2
  have hlength : r.frames.length = 3 := hfollows.length_of_stop 2 hstop
  refine ⟨hinside, hstop, r, hr, hlength, hfollows.isHalted_iff.mpr ⟨2, hstop, hlength⟩, ?_⟩
  rw [htake 2 (by decide), hlength]
  rfl

end Chiptune
