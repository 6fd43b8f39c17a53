import Mathlib.Data.List.Induction
import Chiptune.Proofs.Pitch.VibratoWave
import Chiptune.Proofs.Playback.Bindings
import Chiptune.Proofs.Playback.Halting
import Chiptune.Proofs.Playback.VoicePitch

/-! # The delay of a vibrato

A note holds its vibrato back.  The delay is loaded when the note starts and counted down on every
frame, and the first of these frames is the one on which the note starts: what is heard is one frame
shorter than the delay, unless that is zero.

* `Row.keepsVibrato` are the rows that leave note and vibrato of their channel alone.
* `Voice.Swings` says where the vibrato of a voice is; `Swings.readRow` and `Swings.update` carry it
  through a row and a frame, and `swings_after` through a run.
* `vibrato_held_back` gives the frequencies that are written behind the start of a note. -/

namespace Chiptune

open DeviceWrite

/-! ## Changes and rows that keep the vibrato -/

/-- Whether an effect leaves the vibrato alone. -/
def Effect.keepsVibrato (e : Effect) : Bool :=
  e.kind != .pitch .vibrato && e.kind != .pitch .vibratoDelay

/-- Whether a row leaves note and vibrato of its channel alone. -/
def Row.keepsVibrato (r : Row) : Bool :=
  !r.startsNote && r.effects.all Effect.keepsVibrato

/-- Whether some changes leave note and vibrato alone. -/
structure PitchParams.KeepsVibrato (changes : PitchParams) : Prop where
  note : changes.note = none
  vibrato : changes.vibrato = none
  vibratoDelay : changes.vibratoDelay = none

/-- No changes leave note and vibrato alone. -/
theorem PitchParams.keepsVibrato_empty : PitchParams.KeepsVibrato {} := ⟨rfl, rfl, rfl⟩

namespace Pitch

variable {kind : PitchKind} {p : Pitch kind}

/-- Effects that leave the vibrato alone stage nothing for it. -/
theorem keepsVibrato_stageEffect (h : p.staged.KeepsVibrato) {e : Effect}
    (he : e.keepsVibrato = true) : (p.stageEffect e).staged.KeepsVibrato := by
  obtain ⟨k, param⟩ := e
  cases k with
  | pattern effect | track effect => exact h
  | pitch effect =>
      cases effect with
      | vibrato | vibratoDelay => cases he
      | _ => exact ⟨h.note, h.vibrato, h.vibratoDelay⟩

/-- Changes that leave the vibrato alone do so when they take hold. -/
theorem vibrato_apply (h : p.staged.KeepsVibrato) : p.apply.vibrato = p.vibrato := by
  have hplayable : playable? kind p.staged = none := by
    rw [playable?, h.note]
    rfl
  rw [apply, vibrato_commit, hplayable, configure, h.vibrato, h.vibratoDelay]
  rfl

/-- The vibrato behind the frame on which a note starts: it is restarted, and moves at once. -/
theorem exists_vibrato_play (p : Pitch kind) {note : Nat} (h : note ≤ kind.topNote) :
    ∃ v : Vibrato, (p.play (some note)).vibrato = v.restart.step := by
  have hplayable : playable? kind (p.stage { note := some note }).staged = some note :=
    playable?_of_le rfl h
  rw [play, vibrato_step, apply, vibrato_commit, hplayable]
  exact ⟨_, rfl⟩

end Pitch

namespace Vibrato

/-- Frames keep the delay. -/
@[simp] theorem delay_step (v : Vibrato) : v.step.delay = v.delay := by
  unfold step
  split
  · rfl
  · split
    · rfl
    · split <;> rfl

/-- What a vibrato adds behind the frame on which it was restarted, in its own terms. -/
theorem offset_run_of_started {v w : Vibrato} (hv : v = w.restart.step) (hon : v.isOn = true)
    (n : Nat) :
    (step^[n] v).offset =
      if n + 1 < v.delay then 0
      else if n + 1 = v.delay then (v.depth : Int)
      else if (n - v.delay) / (v.dwell + 1) % 2 = 0 then -v.depth
      else v.depth := by
  have hw : w.isOn = true := by rw [← isOn_restart, ← isOn_step, ← hv, hon]
  have hdelay : v.delay = w.restart.delay := by rw [hv, delay_step]
  have hparam : v.param = w.restart.param := by rw [hv, param_step]
  have hdepth : v.depth = w.restart.depth := by rw [depth, depth, hparam]
  have hdwell : v.dwell = w.restart.dwell := by rw [dwell, dwell, hparam]
  have hsides : n + 1 - w.restart.delay - 1 = n - w.restart.delay := by omega
  rw [hdelay, hdepth, hdwell, ← hsides, ← wave_restart hw (n + 1), hv, ← Function.iterate_succ_apply]
  exact offset_run (w.isOn_restart.trans hw) (n + 1)

/-- A vibrato with a depth is heard from the last frame of its delay on, on either side. -/
theorem heldBack_eq_zero_iff {depth delay dwell n : Nat} (hdepth : depth ≠ 0) :
    (if n + 1 < delay then (0 : Int)
      else if n + 1 = delay then depth
      else if (n - delay) / (dwell + 1) % 2 = 0 then -depth
      else depth) = 0 ↔ n + 1 < delay := by
  by_cases hheld : n + 1 < delay
  · rw [if_pos hheld]
    exact iff_of_true rfl hheld
  · -- behind the delay, the vibrato is on one side or the other
    rw [if_neg hheld, iff_false_right hheld]
    by_cases hlast : n + 1 = delay
    · rw [if_pos hlast]
      omega
    · rw [if_neg hlast]
      by_cases hside : (n - delay) / (dwell + 1) % 2 = 0
      · rw [if_pos hside]
        omega
      · rw [if_neg hside]
        omega

end Vibrato

/-- A note that starts is the one that the gate waited for, with no frame left to wait. -/
theorem NoteGate.request_of_started {g : NoteGate} {note : Nat} (h : g.step.2 = some note) :
    g.request = some ⟨note, 0⟩ := by
  have hdue : (if g.cutIsDue then none else g.due?) = some note := h
  unfold due? at hdue
  split at hdue
  · cases hdue
  · split at hdue
    · next heq =>
      obtain rfl := Option.some.inj hdue
      exact heq
    · cases hdue

namespace Voice

variable {m : Module} {v : Voice} {c : Channel} {w : Vibrato}

/-- A voice without a note to come whose vibrato, as long as a note sounds, is the given one and will
not be changed by what waits. -/
structure Swings (w : Vibrato) (v : Voice) : Prop where
  request : v.gate.request = none
  staged : ∀ q ∈ v.pitch, q.staged.KeepsVibrato
  vibrato : v.isPlaying = true → ∀ q ∈ v.pitch, q.vibrato = w

/-- An effect that leaves the vibrato alone. -/
theorem Swings.obey (h : v.Swings w) (waves : Table Waveform) (c : Channel) {e : Effect}
    (he : e.keepsVibrato = true) : (v.obey waves c e).1.Swings w := by
  obtain ⟨cutIn, hgate⟩ := v.gate_obey waves c e
  have hpitch := v.pitch_obey waves c e
  refine { request := ?_, staged := ?_, vibrato := ?_ }
  · rw [hgate]
    exact h.request
  · rw [hpitch, Option.forall_mem_map]
    exact fun q hq => Pitch.keepsVibrato_stageEffect (h.staged q hq) he
  · intro hplaying
    rw [isPlaying, hgate] at hplaying
    rw [hpitch, Option.forall_mem_map]
    intro q hq
    exact (congrArg Pitch.vibrato (q.bare_stageEffect e) :).trans (h.vibrato hplaying q hq)

/-- The end of a row that leaves note and vibrato alone. -/
theorem Swings.finishRow (h : v.Swings w) {r : Row} (hr : r.startsNote = false) :
    (v.finishRow r).Swings w := by
  obtain ⟨cutIn, hgate⟩ := gate_finishRow_of_noteless hr v
  have hrequest : (v.finishRow r).gate.request = none := by
    rw [hgate]
    exact h.request
  have hvibrato (hplaying : (v.finishRow r).isPlaying = true) : ∀ q ∈ v.pitch, q.vibrato = w := by
    rw [isPlaying, hgate] at hplaying
    exact h.vibrato hplaying
  -- without a note, the end of a row applies what is staged at most
  rcases v.pitch_finishRow r with hpitch | hpitch
  · refine { request := hrequest, staged := ?_, vibrato := fun hplaying => ?_ }
    · rw [hpitch]
      exact h.staged
    · rw [hpitch]
      exact hvibrato hplaying
  · refine { request := hrequest, staged := ?_, vibrato := fun hplaying => ?_ }
    · rw [hpitch, Option.forall_mem_map]
      intro q _
      rw [Pitch.staged_apply]
      exact PitchParams.keepsVibrato_empty
    · rw [hpitch, Option.forall_mem_map]
      exact fun q hq => (Pitch.vibrato_apply (h.staged q hq)).trans (hvibrato hplaying q hq)

/-- **Rows that leave note and vibrato alone leave the vibrato where it is.** -/
theorem Swings.readRow (h : v.Swings w) (waves : Table Waveform) (c : Channel) {r : Row}
    (hr : r.keepsVibrato = true) : (v.readRow waves c r).1.Swings w := by
  rw [Row.keepsVibrato, Bool.and_eq_true, Bool.not_eq_true', List.all_eq_true] at hr
  refine readRow_induction_of_mem (fun e he v hv => hv.obey waves c (hr.2 e ?_))
    (fun v hv => hv.finishRow hr.1) h
  exact List.takeWhile_subset _ he

/-- **A frame moves the vibrato on by one**, as long as a note sounds. -/
theorem Swings.update (h : v.Swings w) (m : Module) (c : Channel) :
    (v.update m c).1.Swings w.step := by
  have hdue : v.gate.due? = none := by rw [NoteGate.due?, h.request]
  have hstarted : v.gate.step.2 = none := by
    show (if v.gate.cutIsDue then none else v.gate.due?) = none
    rw [hdue, ite_self]
  have hpitch : (v.update m c).1.pitch =
      if v.gated.isPlaying then v.pitch.map Pitch.step else v.pitch := by
    rw [pitch_update, hstarted]
    rfl
  refine { request := ?_, staged := ?_, vibrato := fun hplaying => ?_ }
  · rw [gate_update]
    show v.gate.laterRequest = none
    rw [NoteGate.laterRequest, h.request]
  · rw [hpitch]
    split
    · rw [Option.forall_mem_map]
      intro q hq
      rw [Pitch.staged_step]
      exact h.staged q hq
    · exact h.staged
  · rw [isPlaying_update] at hplaying
    rw [hpitch, if_pos hplaying, Option.forall_mem_map]
    intro q hq
    -- without a note that starts, the gate was open before
    have hopen : v.isPlaying = true := by
      have hgated : ((v.gate.isOpen || v.gate.due?.isSome) && !v.gate.cutIsDue) = true := hplaying
      rw [hdue, Option.isSome_none, Bool.or_false, Bool.and_eq_true] at hgated
      exact hgated.1
    rw [Pitch.vibrato_step, h.vibrato hopen q hq]

/-- Behind the frame on which a note starts, the vibrato has been restarted and has moved once. -/
theorem exists_swings_update (hscale : v.InScale) {note : Nat}
    (hstarted : v.gate.step.2 = some note) {q : Pitch .tone} (hq : q ∈ (v.update m c).1.pitch) :
    (∃ w : Vibrato, q.vibrato = w.restart.step) ∧ (v.update m c).1.Swings q.vibrato := by
  have hrequest := NoteGate.request_of_started hstarted
  have hnote : note ≤ Note.last := hscale ⟨note, 0⟩ hrequest
  have hpitch : (v.update m c).1.pitch =
      (v.gated.bound m (some note)).pitch.map fun p => p.play (some note) := by
    have hplaying := isPlaying_gated_of_started (Option.isSome_iff_exists.mpr ⟨note, hstarted⟩)
    rw [pitch_update, if_pos hplaying, hstarted]
  have hsame : ∀ q' ∈ (v.update m c).1.pitch, q' = q := fun q' hq' => Option.mem_unique hq' hq
  rw [hpitch] at hq
  obtain ⟨q₀, -, rfl⟩ := Option.mem_map.mp hq
  refine ⟨q₀.exists_vibrato_play hnote, { request := ?_, staged := ?_, vibrato := ?_ }⟩
  · -- the note that has started was the request that waited
    rw [gate_update]
    show v.gate.laterRequest = none
    rw [NoteGate.laterRequest, hrequest]
  · intro q' hq'
    rw [hsame q' hq', Pitch.staged_play]
    exact PitchParams.keepsVibrato_empty
  · intro _ q' hq'
    rw [hsame q' hq']

end Voice

/-! ## Runs -/

namespace Player

variable {m : Module} {p : Player} {c : Channel} {w : Vibrato}

/-- **Through rows that leave note and vibrato alone, the vibrato moves by one on each frame.** -/
theorem swings_after (h : p.InRange m) (hswings : (p.voices.get c).Swings w) (calls : List Call)
    (hrows : ∀ r ∈ p.rowsRead m c calls, r.keepsVibrato = true)
    (hgoing : (p.after m calls).isHalted = false) :
    ((p.after m calls).voices.get c).Swings (Vibrato.step^[calls.count .step] w) := by
  induction calls using List.reverseRecOn with
  | nil => exact hswings
  | append_singleton calls call ih =>
      rw [after_concat] at hgoing ⊢
      rw [rowsRead, gather_concat] at hrows
      have hbefore : (p.after m calls).isHalted = false := by
        rw [← Bool.not_eq_true] at hgoing ⊢
        exact fun hhalted => hgoing (serve_of_halted hhalted call).1
      have ih := ih (fun r hr => hrows r (List.mem_append_left _ hr)) hbefore
      rw [List.count_append]
      -- only a frame moves the vibrato
      cases call with
      | step =>
          have hrow := hrows _ (List.mem_append_right _ (List.mem_singleton_self _))
          obtain ⟨hp, hb⟩ := isHalted_step_eq_false.mp hgoing
          rw [List.count_singleton_self, Function.iterate_succ_apply']
          show (((p.after m calls).step m).1.voices.get c).Swings _
          rw [voice_step hp hb, voice_begun_of_going (h.after calls) hgoing]
          exact (ih.readRow _ c hrow).update m c
      | setRepeat repeats => exact ih
      | jump order => exact ih
      | halt => exact ih

/-- From the frame on which a note starts, the vibrato moves by one on each frame, and it has been
restarted before the first of them. -/
theorem swings_of_started (h : Reachable m p) {note : Nat} {q : Pitch .tone} {calls : List Call}
    (hstarted : p.noteStarted? m c = some note)
    (hpitch : ((p.step m).1.voices.get c).pitch = some q)
    (hrows : ∀ r ∈ (p.step m).1.rowsRead m c calls, r.keepsVibrato = true)
    (hgoing : ((p.step m).1.after m calls).isHalted = false) :
    (∃ w : Vibrato, q.vibrato = w.restart.step) ∧
      (((p.step m).1.after m calls).voices.get c).Swings
        (Vibrato.step^[calls.count .step] q.vibrato) := by
  -- a run that goes on has gone on behind its first frame
  have hstarts : (p.step m).1.isHalted = false := by
    rw [← Bool.not_eq_true] at hgoing ⊢
    exact fun hhalted => hgoing (after_of_halted hhalted calls).1
  obtain ⟨hw, hswings⟩ : (∃ w : Vibrato, q.vibrato = w.restart.step) ∧
      ((p.step m).1.voices.get c).Swings q.vibrato := by
    obtain ⟨hp, hb⟩ := isHalted_step_eq_false.mp hstarts
    rw [voice_step hp hb] at hpitch ⊢
    refine Voice.exists_swings_update ?_ hstarted hpitch
    rw [voice_begun_of_going h.inRange hstarts]
    exact (h.requested c).readRow _ _ _
  exact ⟨hw, swings_after h.inRange.step hswings calls hrows hgoing⟩

/-- **What a delay of a vibrato holds back.**  A note starts on a tone channel, on which the vibrato
is on.  As long as no row changes note or vibrato of the channel and the note sounds, every frame
writes one frequency, in which the vibrato counts for nothing before the last frame of its delay, and
for its depth from there on: first above the note, and then below it and above it in turn.  Frames
are counted from the start of the note, and the first of them is already one of the delay. -/
theorem vibrato_held_back (h : Reachable m p) (htone : c.isNoise = false) {note : Nat}
    {q : Pitch .tone} {calls : List Call} (hstarted : p.noteStarted? m c = some note)
    (hpitch : ((p.step m).1.voices.get c).pitch = some q) (hon : q.vibrato.isOn = true)
    (hfirst : (calls ++ [Call.step]).head? = some .step)
    (hrows : ∀ r ∈ (p.rowsRead m c (calls ++ [.step])).tail, r.keepsVibrato = true)
    (hgoing : (p.after m (calls ++ [.step])).isHalted = false)
    (hplaying : (p.after m (calls ++ [.step])).isPlaying c = true) :
    let n := calls.count .step
    let v := q.vibrato
    let offset : Int :=
      if n + 1 < v.delay then 0
      else if n + 1 = v.delay then v.depth
      else if (n - v.delay) / (v.dwell + 1) % 2 = 0 then -v.depth
      else v.depth
    let before := p.after m calls
    let voice := (p.after m (calls ++ [.step])).voices.get c
    (offset = 0 ↔ n + 1 < v.delay) ∧
      ∃ q', voice.pitch = some q' ∧
        q'.frequency =
          PitchKind.tone.clampFrequency (q'.base + q'.tuning + q'.instrumentPitch + offset) ∧
        frequencies c (before.step m).2 =
          [if (before.obeyed? m c).isSome then voice.program.bend q'.frequency else q'.frequency] := by
  intro n v offset before voice
  -- the frame on which the note starts, and the calls behind it
  obtain ⟨rest, hcalls⟩ : ∃ rest, calls ++ [.step] = Call.step :: rest :=
    ⟨_, List.eq_cons_of_mem_head? hfirst⟩
  have hcount : rest.count .step = n := by
    have htotal := congrArg (List.count Call.step) hcalls
    rw [List.count_append, List.count_singleton_self, List.count_cons_self] at htotal
    omega
  have hafter : p.after m (calls ++ [.step]) = (p.step m).1.after m rest := by
    rw [hcalls]
    rfl
  have hrest : ∀ r ∈ (p.step m).1.rowsRead m c rest, r.keepsVibrato = true := by
    rw [hcalls] at hrows
    exact hrows
  -- the vibrato behind that frame, and where it is at the end
  obtain ⟨⟨w, hw⟩, hend⟩ : (∃ w : Vibrato, v = w.restart.step) ∧
      voice.Swings (Vibrato.step^[n] v) := by
    show _ ∧ ((p.after m (calls ++ [.step])).voices.get c).Swings _
    rw [← hcount]
    rw [hafter] at hgoing ⊢
    exact swings_of_started h hstarted hpitch hrest hgoing
  have hfits : voice.Fits c := (h.after (calls ++ [.step])).fits c
  obtain ⟨q', hq'⟩ : ∃ q', voice.pitch = some q' := by
    rw [← Option.isSome_iff_exists, hfits.pitch, htone]
    rfl
  have hoffset : q'.vibrato.offset = offset := by
    rw [hend.vibrato hplaying q' hq']
    exact Vibrato.offset_run_of_started hw hon n
  have hdepth : v.depth ≠ 0 :=
    ((h.serve .step).pitch c q hpitch).consistent.swings.isOn_iff.mp hon
  refine ⟨?_, q', hq', ?_, ?_⟩
  · exact Vibrato.heldBack_eq_zero_iff hdepth
  · rw [← hoffset]
    rfl
  · have hvoice : voice = (before.step m).1.voices.get c :=
      congrArg (fun p => p.voices.get c) (after_concat p m calls .step)
    have hfrequency : voice.frequency = q'.frequency := by rw [Voice.frequency, hq']
    rw [after_concat] at hgoing hplaying
    have hwritten := frequencies_of_going (h.after calls) hgoing c
    rw [if_pos ⟨htone, hplaying⟩] at hwritten
    rw [← hfrequency, hvoice]
    exact hwritten

end Player

/-- A module of one frame per row.  The first row starts a note with a vibrato that is held back, and
the second one tunes the channel. -/
def delayedModule (delay : UInt8) : Module where
  song := ({ Song.new "" with speed := .fastest }.setRow .ch1 0 0
      (((Row.empty.withNote (.on 0)).withEffect ⟨.pitch .vibrato, 0x02⟩).withEffect
        ⟨.pitch .vibratoDelay, delay⟩)).setRow .ch1 0 1
      (Row.empty.withEffect ⟨.pitch .tuning, 0x81⟩)
  instruments := Table.empty
  waveforms := Table.empty

/-- A delay of three frames holds the vibrato back for two of them: the third frame is above the note,
whatever else its row asks for. -/
theorem vibrato_held_back_delayedModule :
    let m := delayedModule 3
    let p := Player.atPosition m.song ⟨0, 0⟩
    Player.Reachable m p ∧ p.noteStarted? m .ch1 = some 0 ∧
      (∃ q, ((p.after m [.step, .step]).voices.get .ch1).pitch = some q ∧
        frequencies .ch1 ((p.after m [.step]).step m).2 =
          [PitchKind.tone.clampFrequency (q.base + q.tuning + q.instrumentPitch + 0)]) ∧
      ∃ q, ((p.after m [.step, .setRepeat true, .step, .step]).voices.get .ch1).pitch = some q ∧
        frequencies .ch1 ((p.after m [.step, .setRepeat true, .step]).step m).2 =
          [PitchKind.tone.clampFrequency (q.base + q.tuning + q.instrumentPitch + 2)] := by
  intro m p
  have hp : Player.Reachable m p := .start (rfl : Player.start m ⟨0, 0⟩ = .ok p)
  have hstarted : p.noteStarted? m .ch1 = some 0 := by decide +kernel
  obtain ⟨q, hpitch⟩ : ∃ q, ((p.step m).1.voices.get .ch1).pitch = some q :=
    Option.isSome_iff_exists.mp (by decide +kernel)
  have hvibrato : q.vibrato = ⟨true, 3, 2, 0, 2, 0x02⟩ := by
    have hstart : ((p.step m).1.voices.get .ch1).pitch.map Pitch.vibrato =
        some ⟨true, 3, 2, 0, 2, 0x02⟩ := by decide +kernel
    rw [hpitch] at hstart
    exact Option.some.inj hstart
  have hon : q.vibrato.isOn = true := by rw [hvibrato]
  obtain ⟨-, q₁, hq₁, hfrequency₁, hwritten₁⟩ :=
    @Player.vibrato_held_back _ _ _ hp rfl _ _ [.step] hstarted hpitch hon rfl
      (by decide +kernel) (by decide +kernel) (by decide +kernel)
  obtain ⟨-, q₂, hq₂, hfrequency₂, hwritten₂⟩ :=
    @Player.vibrato_held_back _ _ _ hp rfl _ _ [.step, .setRepeat true, .step] hstarted hpitch hon
      rfl (by decide +kernel) (by decide +kernel) (by decide +kernel)
  rw [if_neg (by decide +kernel), hfrequency₁, hvibrato] at hwritten₁
  rw [if_neg (by decide +kernel), hfrequency₂, hvibrato] at hwritten₂
  exact ⟨hp, hstarted, ⟨q₁, hq₁, hwritten₁⟩, q₂, hq₂, hwritten₂⟩

/-- A delay of one frame holds nothing back: the frame on which the note starts is above it. -/
theorem vibrato_heard_at_once_delayedModule :
    let m := delayedModule 1
    let p := Player.atPosition m.song ⟨0, 0⟩
    Player.Reachable m p ∧ p.noteStarted? m .ch1 = some 0 ∧
      ∃ q, ((p.step m).1.voices.get .ch1).pitch = some q ∧ q.vibrato.isOn = true ∧
        q.vibrato.delay = 1 ∧ q.base + q.tuning + q.instrumentPitch = 0x2C ∧
        q.vibrato.offset = 2 ∧ frequencies .ch1 (p.step m).2 = [0x2E] := by
  intro m p
  refine ⟨.start (rfl : Player.start m ⟨0, 0⟩ = .ok p), by decide +kernel, ?_⟩
  obtain ⟨q, hpitch⟩ : ∃ q, ((p.step m).1.voices.get .ch1).pitch = some q :=
    Option.isSome_iff_exists.mp (by decide +kernel)
  have hall : ∀ q ∈ ((p.step m).1.voices.get .ch1).pitch, q.vibrato.isOn = true ∧
      q.vibrato.delay = 1 ∧ q.base + q.tuning + q.instrumentPitch = 0x2C ∧
      q.vibrato.offset = 2 := by decide +kernel
  obtain ⟨hon, hdelay, hbare, hoffset⟩ := hall q hpitch
  exact ⟨q, hpitch, hon, hdelay, hbare, hoffset, by decide +kernel⟩

end Chiptune
