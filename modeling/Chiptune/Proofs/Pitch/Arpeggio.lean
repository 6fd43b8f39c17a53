import Chiptune.Proofs.Pitch.Override

/-! # Arpeggios

An arpeggio sounds the note of the pitch and two notes above it in turn, one frame each.  Its
parameter names these notes; it begins with the note itself whenever a parameter or a note takes
hold.

* `chordParams` are the parameters that some calls let take hold, and `exists_chordParam` says that
  the last one names the notes of an arpeggio, however long ago it was.
* `motion_run_of_arpeggio` follows an arpeggio through frames on which the arpeggio sequence has no
  value.
* `arpeggio_cycles` states both for every run, and what becomes of a pitch whose arpeggio ends. -/

namespace Chiptune

/-- The parameter of changes that begin an arpeggio; one of zero ends it. -/
def PitchParams.chordParam? (changes : PitchParams) : Option UInt8 :=
  match changes.modulation with
  | some (.arpeggio param) => if param = 0 then none else some param
  | _ => none

namespace Pitch

variable {kind : PitchKind} {p : Pitch kind} {first second : Nat}

/-! ## Where an arpeggio comes from -/

/-- The parameters of arpeggios that some calls let take hold, from the first to the last. -/
def chordParams (p : Pitch kind) : List PitchCall → List UInt8
  | [] => []
  | call :: calls =>
      ((p.changes? call).bind PitchParams.chordParam?).toList ++ (p.serve call).chordParams calls

/-- The parameters of some calls come before those of the calls behind them. -/
theorem chordParams_append (p : Pitch kind) (calls calls' : List PitchCall) :
    p.chordParams (calls ++ calls') =
      p.chordParams calls ++ (p.after calls).chordParams calls' := by
  induction calls generalizing p with
  | nil => rfl
  | cons call calls ih => rw [List.cons_append, chordParams, chordParams, ih, List.append_assoc]; rfl

/-- The last parameter behind one more call: that of the call, if it has one. -/
theorem getLast?_chordParams_concat (p : Pitch kind) (calls : List PitchCall) (call : PitchCall) :
    (p.chordParams (calls ++ [call])).getLast? =
      (((p.after calls).changes? call).bind PitchParams.chordParam?).or
        (p.chordParams calls).getLast? := by
  rw [chordParams_append, chordParams, chordParams, List.append_nil, List.getLast?_append]
  cases ((p.after calls).changes? call).bind PitchParams.chordParam? <;> rfl

/-- Beginning a chord anew does not change the mode. -/
theorem mode_rechorded (p : Pitch kind) (changes : PitchParams) :
    (p.rechorded changes).mode = p.mode := by
  unfold rechorded
  split
  · obtain ⟨_, _, hchord⟩ := p.exists_restartChord_eq
    rw [hchord]
  · rfl

/-- Only a parameter begins an arpeggio. -/
theorem mode_modulate_eq_arpeggio {m : Modulation}
    (h : (p.modulate m).mode = .arpeggio first second) :
    ∃ param ≠ 0, m = .arpeggio param ∧ first = param.toNat / 16 ∧ second = param.toNat % 16 := by
  cases m with
  | arpeggio param =>
      rw [modulate.eq_def] at h
      dsimp only at h
      split at h
      · cases h
      · next hparam =>
        obtain ⟨rfl, rfl⟩ := PitchMode.arpeggio.inj h
        exact ⟨param, hparam, rfl, rfl, rfl⟩
  | pitchSlide direction param | portamento param =>
      rw [modulate.eq_def] at h
      dsimp only at h
      split at h <;> cases h
  | noteSlide direction param => cases h

/-- Taking up a note begins no arpeggio. -/
theorem mode_of_placed {changes : PitchParams}
    (h : (p.placed changes).mode = .arpeggio first second) : p.mode = .arpeggio first second := by
  unfold placed placeNote at h
  split at h
  · dsimp only at h
    split at h
    · cases h
    · exact h
  · exact h

/-- Starting a note begins no arpeggio. -/
theorem mode_of_started {changes : PitchParams}
    (h : (p.started changes).mode = .arpeggio first second) : p.mode = .arpeggio first second := by
  unfold started startNote turnTo at h
  split at h
  · dsimp only at h
    split at h
    · cases h
    · exact h
  · exact h

/-- An arpeggio behind changes that take hold is one that they begin, or one that was in force. -/
theorem mode_commit_eq_arpeggio {changes : PitchParams}
    (h : (p.commit changes).mode = .arpeggio first second) :
    (∃ param, changes.chordParam? = some param ∧ first = param.toNat / 16 ∧
        second = param.toNat % 16) ∨
      changes.chordParam? = none ∧ p.mode = .arpeggio first second := by
  rw [commit_eq, mode_rechorded] at h
  have hmodulated : ((p.placed changes).modulated changes).mode = .arpeggio first second :=
    mode_of_started (p := ((p.placed changes).modulated changes).configure changes) h
  rw [modulated] at hmodulated
  rw [PitchParams.chordParam?]
  cases hmodulation : changes.modulation with
  | none =>
      rw [hmodulation] at hmodulated
      exact .inr ⟨rfl, mode_of_placed hmodulated⟩
  | some m =>
      rw [hmodulation] at hmodulated
      obtain ⟨param, hparam, rfl, hdigits⟩ := mode_modulate_eq_arpeggio hmodulated
      exact .inl ⟨param, if_neg hparam, hdigits⟩

/-- A frame keeps the mode or ends it. -/
theorem mode_step (p : Pitch kind) : p.step.mode = p.mode ∨ p.step.mode = .rest := by
  cases hlead : (Sequence.Cursor.advance p.arpeggioSequence).1 with
  | some offset => exact .inl (congrArg Motion.mode (motion_step_of_led hlead))
  | none =>
      have hmode : p.step.mode = p.stepMode.mode :=
        congrArg Motion.mode (motion_step_of_silent hlead)
      rw [hmode]
      unfold stepMode
      split
      · exact .inl rfl
      · dsimp only
        split
        · exact .inr rfl
        · exact .inl rfl
      · exact .inl rfl

/-- An arpeggio behind a call is one that the call begins, or one that was in force. -/
theorem mode_serve_eq_arpeggio {call : PitchCall}
    (h : (p.serve call).mode = .arpeggio first second) :
    (∃ param, (p.changes? call).bind PitchParams.chordParam? = some param ∧
        first = param.toNat / 16 ∧ second = param.toNat % 16) ∨
      (p.changes? call).bind PitchParams.chordParam? = none ∧ p.mode = .arpeggio first second := by
  cases call with
  | stage changes => exact .inr ⟨rfl, h⟩
  | stageEffect effect =>
      exact .inr ⟨rfl, (congrArg Pitch.mode (p.bare_stageEffect effect)).symm.trans h⟩
  | apply => exact mode_commit_eq_arpeggio (p := { p with staged := {} }) h
  | commit changes => exact mode_commit_eq_arpeggio h
  | step =>
      rcases p.mode_step with hmode | hmode
      · exact .inr ⟨rfl, hmode.symm.trans h⟩
      · cases hmode.symm.trans h
  | reset => cases h

/-- **The last parameter names the notes of an arpeggio**: its digits are the distances from the
note. -/
theorem exists_chordParam (calls : List PitchCall)
    (h : ((new : Pitch kind).after calls).mode = .arpeggio first second) :
    ∃ param, ((new : Pitch kind).chordParams calls).getLast? = some param ∧
      first = param.toNat / 16 ∧ second = param.toNat % 16 := by
  induction calls using List.reverseRecOn with
  | nil => cases h
  | append_singleton calls call ih =>
      rw [after_append] at h
      rw [getLast?_chordParams_concat]
      rcases mode_serve_eq_arpeggio h with ⟨param, hparam, hdigits⟩ | ⟨hparam, hmode⟩
      · exact ⟨param, by rw [hparam]; rfl, hdigits⟩
      · rw [hparam]
        exact ih hmode

/-! ## Frames of an arpeggio -/

/-- Changes with a parameter or a note begin the chord with the note itself. -/
theorem chordIndex_commit {changes : PitchParams}
    (hmode : (p.commit changes).mode = .arpeggio first second)
    (hbegins : changes.chordParam?.isSome ∨ (playable? kind changes).isSome) :
    (p.commit changes).chordIndex = 0 := by
  have hasks : ((playable? kind changes).isSome || changes.modulation.isSome) = true := by
    rcases hbegins with hparam | hnote
    · unfold PitchParams.chordParam? at hparam
      cases hmodulation : changes.modulation with
      | none => rw [hmodulation] at hparam; cases hparam
      | some m => exact Bool.or_true _
    · rw [hnote]
      exact Bool.true_or _
  rw [commit_eq, mode_rechorded] at hmode
  rw [commit_eq, rechorded, if_pos hasks]
  unfold restartChord
  rw [hmode]

/-- On each frame of an arpeggio, the next note of the chord sounds. -/
theorem motion_step_of_arpeggio (hsilent : p.IsSilent) (hmode : p.mode = .arpeggio first second) :
    p.step.motion =
      ⟨.arpeggio first second, p.chord.get p.chordIndex, p.chord, p.chordIndex + 1⟩ := by
  rw [motion_step_of_silent hsilent]
  unfold stepMode
  rw [hmode]
  rfl

/-- **An arpeggio goes around in its chord.** -/
theorem motion_run_of_arpeggio (hsilent : p.IsSilent) (hmode : p.mode = .arpeggio first second)
    (hindex : p.chordIndex = 0) (n : Nat) :
    (step^[n + 1] p).motion =
      ⟨.arpeggio first second, p.chord.get (Fin.ofNat 3 n), p.chord, Fin.ofNat 3 (n + 1)⟩ := by
  induction n with
  | zero =>
      rw [Function.iterate_one, motion_step_of_arpeggio hsilent hmode]
      simp only [hindex]
      rfl
  -- the place in the chord goes around, and nothing else of the motion changes
  | succ n ih =>
      have hmode' : (step^[n + 1] p).mode = .arpeggio first second := congrArg Motion.mode ih
      have hchord : (step^[n + 1] p).chord = p.chord := congrArg Motion.chord ih
      have hplace : (step^[n + 1] p).chordIndex = Fin.ofNat 3 (n + 1) :=
        congrArg Motion.chordIndex ih
      have hnext : (Fin.ofNat 3 (n + 1)) + 1 = Fin.ofNat 3 (n + 2) := by
        rw [Fin.ext_iff, Fin.val_add]
        exact Nat.mod_add_mod ..
      rw [Function.iterate_succ_apply', motion_step_of_arpeggio (hsilent.run _) hmode']
      simp only [hchord, hplace, hnext]

/-- The notes of a chord, by how often it has gone on from its first note. -/
theorem get_chord (f g h n : Nat) :
    #v[f, g, h].get (Fin.ofNat 3 n) = if n % 3 = 0 then f else if n % 3 = 1 then g else h := by
  have hlt := Nat.mod_lt n (by decide : 0 < 3)
  have hplace (i : Fin 3) (hi : n % 3 = i) : Fin.ofNat 3 n = i := Fin.ext hi
  obtain hn | hn | hn : n % 3 = 0 ∨ n % 3 = 1 ∨ n % 3 = 2 := by omega
  · simp only [hplace 0 hn, hn]
    rfl
  · simp only [hplace 1 hn, hn]
    rfl
  · simp only [hplace 2 hn, hn]
    rfl

/-! ## Pitches at rest -/

/-- A parameter of zero ends whatever modulation there was. -/
theorem mode_commit_of_zero {changes : PitchParams}
    (h : changes.modulation = some (.arpeggio 0)) (p : Pitch kind) :
    (p.commit changes).mode = .rest := by
  have hstarted (p : Pitch kind) (h : p.mode = .rest) : (p.started changes).mode = .rest := by
    unfold started startNote turnTo
    split
    · rw [h]
    · exact h
  rw [commit_eq, mode_rechorded]
  refine hstarted _ ?_
  show ((p.placed changes).modulated changes).mode = .rest
  rw [modulated, h]
  rfl

/-- A pitch at rest stays at rest. -/
theorem mode_run_of_rest (h : p.mode = .rest) (n : Nat) : (step^[n] p).mode = .rest := by
  induction n with
  | zero => exact h
  | succ n ih =>
      rw [Function.iterate_succ_apply']
      exact (mode_step _).elim (fun hsame => hsame.trans ih) id

/-- On a frame without a value of the arpeggio sequence, a pitch at rest holds its base frequency. -/
theorem base_step_of_rest (hsilent : p.IsSilent) (h : p.mode = .rest) : p.step.base = p.base := by
  have hbase : p.step.base = p.stepMode.base := congrArg Motion.base (motion_step_of_silent hsilent)
  rw [hbase]
  unfold stepMode
  rw [h]

/-- Without such values, it does so for ever. -/
theorem base_run_of_rest (hsilent : p.IsSilent) (h : p.mode = .rest) (n : Nat) :
    (step^[n] p).base = p.base := by
  induction n with
  | zero => rfl
  | succ n ih =>
      rw [Function.iterate_succ_apply',
        base_step_of_rest (hsilent.run n) (mode_run_of_rest h n), ih]

/-! ## Runs -/

/-- **Arpeggios go around in three.**  From the start, behind any calls, some changes take hold.

If they carry a parameter other than zero or a note, and leave an arpeggio, then the digits of the
last such parameter name its two upper notes; and on the frames that follow, as long as the arpeggio
sequence has no values, the note, the first and the second note above it sound in turn, neither of
them beyond the last note of the channel.

A parameter of zero ends any modulation for good, and every frame without a value of the arpeggio
sequence holds the base frequency. -/
theorem arpeggio_cycles (calls : List PitchCall) {call : PitchCall} {changes : PitchParams}
    (hcall : ((new : Pitch kind).after calls).changes? call = some changes) :
    let q := ((new : Pitch kind).after calls).serve call
    (∀ first second, q.mode = .arpeggio first second →
      changes.chordParam?.isSome ∨ (playable? kind changes).isSome → q.IsSilent →
        (∃ param, ((new : Pitch kind).chordParams (calls ++ [call])).getLast? = some param ∧
          first = param.toNat / 16 ∧ second = param.toNat % 16) ∧
        ∀ frames : List PitchCall, (∀ call ∈ frames, call.isQuiet = true) →
          1 ≤ frames.count .step →
            (q.after frames).base =
              if frames.count .step % 3 = 1 then kind.frequency q.note
              else if frames.count .step % 3 = 2 then
                kind.frequency (min (q.note + first) kind.topNote)
              else kind.frequency (min (q.note + second) kind.topNote)) ∧
    (changes.modulation = some (.arpeggio 0) →
      q.mode = .rest ∧
        ∀ frames : List PitchCall, (∀ call ∈ frames, call.isQuiet = true) →
          (q.after frames).mode = .rest ∧
            ((q.after frames).IsSilent → (q.after frames).step.base = (q.after frames).base) ∧
            (q.IsSilent → (q.after frames).base = q.base)) := by
  intro q
  obtain ⟨staged, hserve⟩ := exists_serve_eq hcall
  change q = _ at hserve
  refine ⟨fun first second hmode hbegins hsilent => ⟨?_, fun frames hquiet hsome => ?_⟩,
    fun hzero => ?_⟩
  · refine exists_chordParam (calls ++ [call]) ?_
    rw [after_append]
    exact hmode
  · -- consistency gives the chord, and these changes its place
    have hreached : q.Reachable := Reachable.serve ⟨calls, rfl⟩ call
    have hchord := hreached.consistent.chorded first second hmode
    have hindex : q.chordIndex = 0 := by
      rw [hserve] at hmode ⊢
      exact chordIndex_commit hmode hbegins
    obtain ⟨n, hn⟩ := Nat.exists_eq_add_of_le' hsome
    have hbase : (q.after frames).base = (step^[n + 1] q).base := by
      rw [← hn]
      exact (congrArg Pitch.base (bare_after_eq_run hquiet q) :)
    have hnow : (step^[n + 1] q).base = q.chord.get (Fin.ofNat 3 n) :=
      congrArg Motion.base (motion_run_of_arpeggio hsilent hmode hindex n)
    rw [hbase, hnow, hn]
    simp only [hchord]
    rw [get_chord]
    exact if_congr (by omega) rfl (if_congr (by omega) rfl rfl)
  · have hrest : q.mode = .rest := by rw [hserve]; exact mode_commit_of_zero hzero _
    refine ⟨hrest, fun frames hquiet => ?_⟩
    have hrun := bare_after_eq_run hquiet q
    have hmode : (q.after frames).mode = .rest :=
      (congrArg Pitch.mode hrun :).trans (mode_run_of_rest hrest _)
    refine ⟨hmode, fun hsilent => base_step_of_rest hsilent hmode, fun hsilent => ?_⟩
    exact (congrArg Pitch.base hrun :).trans (base_run_of_rest hsilent hrest _)

/-- Calls that begin an arpeggio and stage another note for it. -/
def arpeggioCalls : List PitchCall :=
  [.commit { note := some 24, modulation := some (.arpeggio 0x47) }, .step, .step,
    .stage { note := some 78 }]

/-- The arpeggio goes on with the new note, whose third note is beyond the last one of the channel; a
parameter of zero leaves the pitch at the note that sounded last. -/
theorem arpeggio_cycles_arpeggioCalls :
    (((new : Pitch .tone).after arpeggioCalls).serve .apply).mode = .arpeggio 4 7 ∧
      ((((new : Pitch .tone).after arpeggioCalls).serve .apply).after
        [.step, .step, .stage { note := some 0 }]).base = PitchKind.tone.frequency 82 ∧
      ((((new : Pitch .tone).after arpeggioCalls).serve .apply).after
        (.replicate 6 .step)).base = PitchKind.tone.frequency 83 ∧
      ((((new : Pitch .tone).after arpeggioCalls).serve
        (.commit { modulation := some (.arpeggio 0) })).after
          (.replicate 6 .step)).base = PitchKind.tone.frequency 28 := by
  have hmode : (((new : Pitch .tone).after arpeggioCalls).serve .apply).mode = .arpeggio 4 7 := by
    decide +kernel
  obtain ⟨hcycle, -⟩ :=
    @arpeggio_cycles .tone arpeggioCalls .apply ((new : Pitch .tone).after arpeggioCalls).staged rfl
  have hsilent : (((new : Pitch .tone).after arpeggioCalls).serve .apply).IsSilent := by
    unfold IsSilent
    decide +kernel
  obtain ⟨-, hframes⟩ := hcycle 4 7 hmode (.inr (by decide +kernel)) hsilent
  obtain ⟨-, hend⟩ :=
    @arpeggio_cycles .tone arpeggioCalls (.commit { modulation := some (.arpeggio 0) })
      { modulation := some (.arpeggio 0) } rfl
  obtain ⟨-, hheld⟩ := hend rfl
  obtain ⟨-, -, hbase⟩ := hheld (.replicate 6 .step) (by decide)
  refine ⟨hmode, ?_, ?_, ?_⟩
  · exact hframes _ (by decide) (by decide)
  · exact hframes _ (by decide) (by decide)
  · exact (hbase (by unfold IsSilent; decide +kernel)).trans (by decide +kernel)

end Pitch
end Chiptune
