import Mathlib.Data.Int.Order.Basic
import Chiptune.Proofs.Pitch.Consistency

/-! # The wave of a vibrato

A vibrato adds nothing to the pitch while it is held back, then raises it, and from the next frame
on lowers and raises it in turn, for as many frames as its byte says.

* `Vibrato.wave` is what a vibrato adds some frames from now.  `wave_step` moves it on by one frame,
  and `offset_run` says that the frames follow it.
* `set_of_on` is a new byte for a vibrato that is on, and `wave_set` its wave at the same speed.
* `Pitch.vibrato_commit` and `Pitch.vibrato_after_of_quiet` are the two ways in which the vibrato of
  a pitch moves; `vibrato_serve_note` and `vibrato_serve_byte` are the first for a note and for a new
  byte.  `Pitch.heardWith` is what is heard of a pitch and its vibrato, and `vibrato_waves` states the
  wave behind the start of a note. -/

namespace Chiptune

namespace Vibrato

variable {v : Vibrato}

/-! ## Frames -/

/-- What a vibrato that is on adds some frames from now: nothing while it is held back, its swing
until the countdown is over, and then either side in turn. -/
def wave (v : Vibrato) (n : Nat) : Int :=
  if n < v.hold then 0
  else if n ≤ v.hold + v.countdown then v.swing
  else if (n - v.hold - v.countdown - 1) / (v.dwell + 1) % 2 = 0 then -v.swing
  else v.swing

/-- A vibrato that is off rests. -/
theorem step_of_off (h : v.isOn = false) : v.step = v := by
  unfold step
  rw [h]
  rfl

/-- A vibrato that is held back is so for one frame less. -/
theorem step_of_held (h : v.isOn = true) (hhold : 0 < v.hold) :
    v.step = { v with hold := v.hold - 1 } := by
  unfold step
  rw [h, if_neg (by decide), if_pos hhold]

/-- At the end of the countdown, the pitch changes sides. -/
theorem step_of_turning (h : v.isOn = true) (hhold : v.hold = 0) (hcountdown : v.countdown = 0) :
    v.step = { v with swing := -v.swing, countdown := v.dwell } := by
  unfold step
  rw [h, if_neg (by decide), if_neg (by omega), if_pos hcountdown]

/-- Before that, the countdown goes on. -/
theorem step_of_waiting (h : v.isOn = true) (hhold : v.hold = 0) (hcountdown : 0 < v.countdown) :
    v.step = { v with countdown := v.countdown - 1 } := by
  unfold step
  rw [h, if_neg (by decide), if_neg (by omega), if_neg (by omega)]

/-- A frame does not switch the vibrato. -/
@[simp] theorem isOn_step (v : Vibrato) : v.step.isOn = v.isOn := by
  unfold step
  split
  · rfl
  · split
    · rfl
    · split <;> rfl

/-- A frame keeps the byte of duration and depth. -/
@[simp] theorem param_step (v : Vibrato) : v.step.param = v.param := by
  unfold step
  split
  · rfl
  · split
    · rfl
    · split <;> rfl

/-- Frames keep the byte. -/
theorem param_run (v : Vibrato) (n : Nat) : (step^[n] v).param = v.param := by
  induction n with
  | zero => rfl
  | succ n ih => rw [Function.iterate_succ_apply', param_step, ih]

/-- Frames leave a vibrato on or off. -/
theorem isOn_run (v : Vibrato) (n : Nat) : (step^[n] v).isOn = v.isOn := by
  induction n with
  | zero => rfl
  | succ n ih => rw [Function.iterate_succ_apply', isOn_step, ih]

/-- The wave begins with what the vibrato adds now. -/
theorem wave_zero (h : v.isOn = true) : v.wave 0 = v.offset := by
  unfold wave offset
  rw [h, Bool.true_and]
  rcases Nat.eq_zero_or_pos v.hold with hhold | hhold
  · rw [if_neg (by omega), if_pos (by omega), if_pos (by rw [hhold]; rfl)]
  · rw [if_pos hhold, if_neg (by simp only [beq_iff_eq]; omega)]

/-- A frame on which the pitch changes sides moves the wave on: the sides are counted from the one
that begins now, which is the other one. -/
theorem wave_step_of_turning (h : v.isOn = true) (hhold : v.hold = 0) (hcountdown : v.countdown = 0)
    (n : Nat) : v.step.wave n = v.wave (n + 1) := by
  -- the same frame is counted from here, and from the next frame on
  have hnow : v.wave (n + 1) = if n / (v.dwell + 1) % 2 = 0 then -v.swing else v.swing := by
    have hfirst : n + 1 - v.hold - v.countdown - 1 = n := by omega
    rw [wave, hfirst, if_neg (by omega), if_neg (by omega)]
  have hnext : v.step.wave n =
      if n ≤ v.dwell then -v.swing
      else if (n - (v.dwell + 1)) / (v.dwell + 1) % 2 = 0 then v.swing else -v.swing := by
    have hfirst : n - v.hold - v.dwell - 1 = n - (v.dwell + 1) := by omega
    rw [step_of_turning h hhold hcountdown, wave]
    dsimp only
    change (if _ then _ else if _ then _ else if
      (n - v.hold - v.dwell - 1) / (v.dwell + 1) % 2 = 0 then - -v.swing else -v.swing) = _
    rw [if_neg (by omega), hfirst, neg_neg, hhold, Nat.zero_add]
  rw [hnow, hnext]
  -- the first dwell is cut off a wave that is counted from here
  by_cases hn : n ≤ v.dwell
  · rw [if_pos hn, Nat.div_eq_of_lt (by omega), if_pos rfl]
  · have hsides : n / (v.dwell + 1) = (n - (v.dwell + 1)) / (v.dwell + 1) + 1 :=
      Nat.div_eq_sub_div (by omega) (by omega)
    rw [if_neg hn, hsides]
    split
    · rw [if_neg (by omega)]
    · rw [if_pos (by omega)]

/-- **Each frame moves the wave on.** -/
theorem wave_step (h : v.isOn = true) (n : Nat) : v.step.wave n = v.wave (n + 1) := by
  rcases Nat.eq_zero_or_pos v.hold with hhold | hhold
  · rcases Nat.eq_zero_or_pos v.countdown with hcountdown | hcountdown
    · exact wave_step_of_turning h hhold hcountdown n
    · have hsides : n - v.hold - (v.countdown - 1) - 1 = n + 1 - v.hold - v.countdown - 1 := by
        omega
      rw [step_of_waiting h hhold hcountdown]
      unfold wave
      dsimp only [dwell]
      rw [hsides]
      exact if_congr (by omega) rfl (if_congr (by omega) rfl rfl)
  · have hsides : n - (v.hold - 1) - v.countdown - 1 = n + 1 - v.hold - v.countdown - 1 := by
      omega
    rw [step_of_held h hhold]
    unfold wave
    dsimp only [dwell]
    rw [hsides]
    exact if_congr (by omega) rfl (if_congr (by omega) rfl rfl)

/-- **The frames of a vibrato follow its wave.** -/
theorem offset_run (h : v.isOn = true) (n : Nat) : (step^[n] v).offset = v.wave n := by
  induction n generalizing v with
  | zero => exact (wave_zero h).symm
  | succ n ih =>
      rw [Function.iterate_succ_apply, ih (v.isOn_step.trans h), wave_step h]

/-- A vibrato that is off adds nothing on any frame. -/
theorem offset_run_of_off (h : v.isOn = false) (n : Nat) : (step^[n] v).offset = 0 := by
  rw [Function.iterate_fixed (step_of_off h), offset, h]
  rfl

/-! ## Notes and bytes -/

/-- A note that starts is held back for the delay, and then begins on the upper side. -/
theorem restart_of_on (h : v.isOn = true) :
    v.restart = { v with hold := v.delay, countdown := 0, swing := v.depth } := by
  unfold restart
  exact if_pos h

/-- A restart does not switch the vibrato. -/
@[simp] theorem isOn_restart (v : Vibrato) : v.restart.isOn = v.isOn := by
  unfold restart
  dsimp only
  split <;> rfl

/-- The wave of a note: it is silent for the delay, raised by the depth for one frame, and then
lowered and raised in turn. -/
theorem wave_restart (h : v.isOn = true) (n : Nat) :
    v.restart.wave n =
      if n < v.restart.delay then 0
      else if n = v.restart.delay then (v.restart.depth : Int)
      else if (n - v.restart.delay - 1) / (v.restart.dwell + 1) % 2 = 0 then -v.restart.depth
      else v.restart.depth := by
  rw [restart_of_on h]
  unfold wave
  dsimp only
  split
  · rfl
  · next hdelay => exact if_congr (by omega) rfl rfl

/-- A byte without a depth ends the vibrato. -/
theorem isOn_set_of_flat {param : UInt8} (h : param.toNat % 16 = 0) :
    (v.set param).isOn = false := by
  have hflat : depth { v with param } = 0 := h
  unfold set
  dsimp only
  rw [if_pos hflat]

/-- A byte with a depth changes how far a vibrato swings, but neither its side nor its counts. -/
theorem set_of_on (hv : v.Consistent) (hon : v.isOn = true) {param : UInt8}
    (h : param.toNat % 16 ≠ 0) :
    v.set param = { v with param, swing := v.swing.sign * (param.toNat % 16 : Nat) } := by
  have hdepth : v.depth ≠ 0 := hv.isOn_iff.mp hon
  have hside : side { v with param } (param.toNat % 16) =
      v.swing.sign * (param.toNat % 16 : Nat) := by
    unfold side
    dsimp only
    split
    · next hlow => rw [Int.sign_eq_neg_one_of_neg hlow, Int.neg_one_mul]
    · next hhigh =>
      -- the swing is not zero, because the vibrato has a depth
      have hswing := hv.swing_on hon
      rw [Int.sign_eq_one_of_pos (by omega), Int.one_mul]
  have hdeep : depth { v with param } ≠ 0 := h
  unfold set
  dsimp only
  rw [if_neg hdeep]
  show { v with param, isOn := true, swing := side { v with param } (param.toNat % 16) } = _
  rw [hside, ← hon]

/-- What a vibrato adds behind a new byte is on the same side. -/
theorem offset_set (hv : v.Consistent) (hon : v.isOn = true) {param : UInt8}
    (h : param.toNat % 16 ≠ 0) :
    (v.set param).offset = v.offset.sign * (param.toNat % 16 : Nat) := by
  rw [set_of_on hv hon h]
  unfold offset
  dsimp only
  split
  · rfl
  · rw [Int.sign_zero, Int.zero_mul]

/-- A new byte of the same speed scales the wave. -/
theorem wave_set (hv : v.Consistent) (hon : v.isOn = true) {param : UInt8}
    (h : param.toNat % 16 ≠ 0) (hspeed : param.toNat / 16 = v.dwell) (n : Nat) :
    (v.set param).wave n = (v.wave n).sign * (param.toNat % 16 : Nat) := by
  rw [set_of_on hv hon h]
  have hdwell : dwell { v with param, swing := v.swing.sign * (param.toNat % 16 : Nat) } = v.dwell :=
    hspeed
  unfold wave
  rw [hdwell]
  dsimp only
  split
  · rw [Int.sign_zero, Int.zero_mul]
  · split
    · rfl
    · split
      · rw [Int.sign_neg, Int.neg_mul]
      · rfl

end Vibrato

/-! ## The vibrato of a pitch -/

namespace Pitch

variable {kind : PitchKind} {p : Pitch kind}

/-- Each frame of a pitch is one of its vibrato. -/
theorem vibrato_step (p : Pitch kind) : p.step.vibrato = p.vibrato.step := by
  obtain ⟨_, _, _, _, hstep⟩ := p.exists_step_eq
  rw [hstep]

/-- Behind quiet calls, the vibrato is where its frames have led it. -/
theorem vibrato_after_of_quiet {calls : List PitchCall} (h : ∀ call ∈ calls, call.isQuiet = true)
    (p : Pitch kind) : (p.after calls).vibrato = Vibrato.step^[calls.count .step] p.vibrato := by
  have hrun (n : Nat) (p : Pitch kind) : (step^[n] p).vibrato = Vibrato.step^[n] p.vibrato :=
    Function.Semiconj.iterate_right vibrato_step n p
  exact (congrArg Pitch.vibrato (bare_after_of_quiet h p)).trans (hrun _ p.bare)

/-- The vibrato of a pitch behind changes that take hold: it is set, and then a note restarts it. -/
theorem vibrato_commit (p : Pitch kind) (changes : PitchParams) :
    (p.commit changes).vibrato =
      if (playable? kind changes).isSome then (p.configure changes).vibrato.restart
      else (p.configure changes).vibrato := by
  obtain ⟨_, _, _, _, _, _, hcommit⟩ := p.exists_commit_eq changes
  rw [hcommit]

/-- The vibrato behind a call that lets some changes take hold. -/
theorem vibrato_serve {call : PitchCall} {changes : PitchParams}
    (h : p.changes? call = some changes) : (p.serve call).vibrato = (p.commit changes).vibrato := by
  obtain ⟨staged, hserve⟩ := exists_serve_eq h
  rw [hserve, vibrato_commit, vibrato_commit]
  rfl

/-- Behind changes that start a note, the vibrato has just been restarted. -/
theorem vibrato_serve_note {call : PitchCall} {changes : PitchParams} {note : Nat}
    (hcall : p.changes? call = some changes) (hnote : changes.note = some note)
    (hplayable : note ≤ kind.topNote) :
    (p.serve call).vibrato = (p.configure changes).vibrato.restart := by
  rw [vibrato_serve hcall, vibrato_commit, playable?_of_le hnote hplayable]
  rfl

/-- Behind a byte that takes hold by itself, the vibrato is set to it. -/
theorem vibrato_serve_byte {call : PitchCall} {param : UInt8}
    (h : p.changes? call = some { vibrato := some param }) :
    (p.serve call).vibrato = p.vibrato.set param := by
  rw [vibrato_serve h, vibrato_commit]
  rfl

/-- What is heard of a pitch to which its vibrato adds some offset: the sum of all that leads it,
within the range of the channel. -/
def heardWith (p : Pitch kind) (offset : Int) : Int :=
  max 0 (min (p.base + p.tuning + p.instrumentPitch + offset) kind.maxFrequency)

/-- What is heard of a pitch has the offset of its vibrato in it. -/
theorem frequency_eq_heardWith (p : Pitch kind) :
    (p.frequency : Int) = p.heardWith p.vibrato.offset := by
  rw [frequency, PitchKind.clampFrequency, heardWith]
  omega

/-- **Vibratos wave.**  Behind changes that start a note with the vibrato on, what it adds is zero on
the frames of its delay, its depth on the next, and from then on the depth below and above the note
in turn, for as many frames each as its byte says.  A byte that takes hold in between keeps side and
counts and scales what is added to its own depth; one without a depth ends the wave.  What is heard
is the sum of the pitch and what its vibrato adds, within the range of the channel. -/
theorem vibrato_waves {call : PitchCall} {changes : PitchParams} {note : Nat}
    {calls : List PitchCall} (hp : p.Reachable) (hcall : p.changes? call = some changes)
    (hnote : changes.note = some note) (hplayable : note ≤ kind.topNote)
    (hon : (p.serve call).vibrato.isOn = true) (hquiet : ∀ call ∈ calls, call.isQuiet = true) :
    let v := (p.serve call).vibrato
    let q := (p.serve call).after calls
    let n := calls.count .step
    let offset : Int :=
      if n < v.delay then 0
      else if n = v.delay then (v.depth : Int)
      else if (n - v.delay - 1) / (v.dwell + 1) % 2 = 0 then -v.depth
      else v.depth
    1 ≤ v.depth ∧ q.vibrato.offset = offset ∧ q.frequency = q.heardWith offset ∧
      ∀ (call' : PitchCall) (param : UInt8) (calls' : List PitchCall),
        q.changes? call' = some { vibrato := some param } →
        (∀ call ∈ calls', call.isQuiet = true) →
        (param.toNat % 16 ≠ 0 →
          (q.serve call').vibrato =
            { q.vibrato with param, swing := q.vibrato.swing.sign * (param.toNat % 16 : Nat) } ∧
          (q.serve call').vibrato.offset = q.vibrato.offset.sign * (param.toNat % 16 : Nat) ∧
          (param.toNat / 16 = v.dwell →
            ((q.serve call').after calls').vibrato.offset =
              (q.after calls').vibrato.offset.sign * (param.toNat % 16 : Nat))) ∧
        (param.toNat % 16 = 0 → ((q.serve call').after calls').vibrato.offset = 0) ∧
        (((q.serve call').after calls').frequency : Int) =
          ((q.serve call').after calls').heardWith
            ((q.serve call').after calls').vibrato.offset := by
  intro v q n offset
  -- the note has just restarted the vibrato, and no call behind it but a frame moves it
  have hv : v = (p.configure changes).vibrato.restart := vibrato_serve_note hcall hnote hplayable
  have hq : q.vibrato = Vibrato.step^[n] v := vibrato_after_of_quiet hquiet _
  have hvset : v.Consistent := ((hp.serve call).consistent).swings
  have hqset : q.vibrato.Consistent := ((hp.serve call).after calls).consistent.swings
  have hqon : q.vibrato.isOn = true := by rw [hq, Vibrato.isOn_run, hon]
  have hdwell : q.vibrato.dwell = v.dwell := by
    rw [Vibrato.dwell, Vibrato.dwell, hq, Vibrato.param_run]
  have hoffset : q.vibrato.offset = offset := by
    -- a vibrato that was restarted follows its wave
    have hon' : (p.configure changes).vibrato.isOn = true := by
      rw [← Vibrato.isOn_restart, ← hv]
      exact hon
    have hwave := Vibrato.wave_restart hon' n
    rw [← hv] at hwave
    rw [hq, Vibrato.offset_run (v := v) hon, hwave]
  refine ⟨Nat.one_le_iff_ne_zero.mpr (hvset.isOn_iff.mp hon), hoffset, ?_, ?_⟩
  · rw [frequency_eq_heardWith, hoffset]
  · intro call' param calls' hcall' hquiet'
    have hset : (q.serve call').vibrato = q.vibrato.set param := vibrato_serve_byte hcall'
    have hafter (q : Pitch kind) := vibrato_after_of_quiet hquiet' q
    refine ⟨fun hdeep => ⟨?_, ?_, fun hspeed => ?_⟩, fun hflat => ?_, frequency_eq_heardWith _⟩
    · rw [hset, Vibrato.set_of_on hqset hqon hdeep]
    · rw [hset, Vibrato.offset_set hqset hqon hdeep]
    · -- the new vibrato is on as well, and both follow their waves
      have hon' : (q.vibrato.set param).isOn = true := by
        rw [Vibrato.set_of_on hqset hqon hdeep]
        exact hqon
      rw [hafter, hafter, hset, Vibrato.offset_run hon', Vibrato.offset_run hqon,
        Vibrato.wave_set hqset hqon hdeep (hspeed.trans hdwell.symm)]
    · rw [hafter, hset, Vibrato.offset_run_of_off (Vibrato.isOn_set_of_flat hflat)]

/-- A pitch with a vibrato, on which a note with another vibrato and a delay waits. -/
def wavingPitch : Pitch .tone :=
  (new : Pitch .tone).after
    [.commit { note := some 12, vibrato := some 0x37 }, .step,
      .stage { note := some 24, vibrato := some 0x12 }, .stage { vibratoDelay := some 2 }]

/-- Five frames, between which a deeper byte is staged. -/
def fiveFrames : List PitchCall :=
  [.step, .step, .step, .stage { vibrato := some 0x15 }, .step, .step]

/-- Five frames into the note the pitch is above it again.  The deeper byte keeps it there for one
more frame, and one without a depth would end the wave. -/
theorem vibrato_waves_wavingPitch :
    let q := (wavingPitch.serve .apply).after fiveFrames
    wavingPitch.Reachable ∧ (wavingPitch.serve .apply).vibrato.isOn = true ∧
      q.vibrato.offset = 2 ∧ q.frequency = PitchKind.tone.frequency 24 + 2 ∧
      (q.serve .apply).vibrato.offset = 5 ∧
      ((q.serve .apply).after [.step, .step]).vibrato.offset = -5 ∧
      ((q.serve .apply).after [.step, .step]).frequency = PitchKind.tone.frequency 24 - 5 ∧
      ((q.serve (.commit { vibrato := some 0x30 })).after [.step]).vibrato.offset = 0 := by
  intro q
  have hreached : wavingPitch.Reachable := ⟨_, rfl⟩
  have hon : (wavingPitch.serve .apply).vibrato.isOn = true := by decide +kernel
  obtain ⟨-, hwave, hheard, hset⟩ :=
    @vibrato_waves .tone wavingPitch .apply wavingPitch.staged 24 fiveFrames hreached rfl rfl
      (by decide) hon (by decide)
  obtain ⟨hdeep, -, hheard'⟩ := hset .apply 0x15 [.step, .step] rfl (by decide)
  obtain ⟨-, hnow, hlater⟩ := hdeep (by decide)
  obtain ⟨-, hflat, -⟩ := hset (.commit { vibrato := some 0x30 }) 0x30 [.step] rfl (by decide)
  have hlow : ((q.serve .apply).after [.step, .step]).vibrato.offset = -5 := hlater (by decide)
  rw [hlow] at hheard'
  exact ⟨hreached, hon, hwave, Int.ofNat_inj.mp (hheard.trans (by decide +kernel)), hnow, hlow,
    Int.ofNat_inj.mp (hheard'.trans (by decide +kernel)), hflat (by decide)⟩

end Pitch
end Chiptune
