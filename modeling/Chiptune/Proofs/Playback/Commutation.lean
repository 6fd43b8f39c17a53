import Chiptune.Proofs.Playback.Alike
import Chiptune.Proofs.Playback.Halting
import Chiptune.Proofs.Score.Exchange

/-! # Effects that commute

A row is obeyed from its first effect to its last, and every effect changes the state at once: that
of the voice, that of the transport, or the changes of pitch that are staged.  Effects that may be
exchanged change different parts of it, so that a player cannot tell which one came first.

* `PitchEffect.overlay_params_comm`, `Voice.obey_comm` and `Transport.obey_comm` are about two
  effects, `Effect.writesOn_comm` about their writes.
* `Voice.readRow_reorders` is a row of a channel, `Player.readLine_reorders` a line of a song.
* `Module.plays_swapColumns` is a whole run. -/

namespace Chiptune

/-! ## Two effects -/

/-- Effects that stage different parameters are staged in either order. -/
theorem PitchEffect.overlay_params_comm {a b : PitchEffect} (h : a.parameter ≠ b.parameter)
    (x y : UInt8) :
    (a.params x).overlay (b.params y) = (b.params y).overlay (a.params x) := by
  cases a <;> cases b <;> first | rfl | exact absurd rfl h

/-- A pitch on which two effects are staged. -/
theorem Pitch.stageEffect_comm {a b : Effect} (hab : a.Commutes b) (p : Pitch .tone) :
    (p.stageEffect a).stageEffect b = (p.stageEffect b).stageEffect a := by
  have hindependent := hab.independent
  unfold stageEffect
  cases ha : a.kind with
  | pitch effect =>
      cases hb : b.kind with
      | pitch effect' =>
          rw [ha, hb] at hindependent
          dsimp only [stage]
          rw [PitchParams.overlay_assoc, PitchParams.overlay_assoc,
            PitchEffect.overlay_params_comm hindependent]
      | _ => rfl
  | _ => rfl

namespace Effect

variable {a b : Effect}

/-- Of two effects that may be exchanged, one has no writes. -/
theorem Commutes.writesOn_eq_nil (hab : a.Commutes b) (waves : Table Waveform) (c : Channel) :
    a.writesOn waves c = [] ∨ b.writesOn waves c = [] := by
  have hindependent := hab.independent
  cases ha : a.kind with
  | track effect =>
      refine .inr ?_
      cases hb : b.kind with
      | track effect' =>
          rw [ha, hb] at hindependent
          cases hindependent
      | _ => rw [writesOn, hb]
  | _ => exact .inl (by rw [writesOn, ha])

/-- Two effects that may be exchanged have the same writes in the same order. -/
theorem writesOn_comm (hab : a.Commutes b) (waves : Table Waveform) (c : Channel) :
    a.writesOn waves c ++ b.writesOn waves c = b.writesOn waves c ++ a.writesOn waves c := by
  obtain ha | hb := hab.writesOn_eq_nil waves c
  · rw [ha, List.nil_append, List.append_nil]
  · rw [hb, List.nil_append, List.append_nil]

/-- Of two effects that may be exchanged, one is not on the position or the speed. -/
theorem Commutes.isPattern_eq_false (hab : a.Commutes b) :
    a.isPattern = false ∨ b.isPattern = false := by
  have hindependent := hab.independent
  cases ha : a.kind with
  | pattern effect =>
      refine .inr ?_
      cases hb : b.kind with
      | pattern effect' =>
          rw [ha, hb] at hindependent
          cases hindependent
      | _ => rw [isPattern, hb]
  | _ => exact .inl (by rw [isPattern, ha])

end Effect

/-- The transport obeys two effects that may be exchanged in either order. -/
theorem Transport.obey_comm {a b : Effect} (hab : a.Commutes b) (size : Extent) (t : Transport) :
    (t.obey size a).obey size b = (t.obey size b).obey size a := by
  obtain ha | hb := hab.isPattern_eq_false
  · rw [t.obey_of_not_isPattern size ha, obey_of_not_isPattern _ size ha]
  · rw [t.obey_of_not_isPattern size hb, obey_of_not_isPattern _ size hb]

/-! ## Voices -/

namespace Voice

variable {a b : Effect} {es es' : List Effect} {r r' : Row}

/-- An effect on the settings or the note does not read the pitch. -/
theorem obeyTrack_pitch (v : Voice) (waves : Table Waveform) (c : Channel) (param : UInt8)
    (effect : TrackEffect) (f : Option (Pitch .tone) → Option (Pitch .tone)) :
    (obeyTrack { v with pitch := f v.pitch } waves c param effect).1 =
      { (v.obeyTrack waves c param effect).1 with
        pitch := f (v.obeyTrack waves c param effect).1.pitch } := by
  cases effect with
  | setPanning =>
      simp only [obeyTrack]
      split <;> rfl
  | _ => rfl

/-- **A voice obeys two effects that may be exchanged in either order.** -/
theorem obey_comm (hab : a.Commutes b) (v : Voice) (waves : Table Waveform) (c : Channel) :
    ((v.obey waves c a).1.obey waves c b).1 = ((v.obey waves c b).1.obey waves c a).1 := by
  have hindependent := hab.independent
  have hstage (v : Voice) : (v.pitch.map fun p => p.stageEffect a).map (fun p => p.stageEffect b) =
      (v.pitch.map fun p => p.stageEffect b).map fun p => p.stageEffect a := by
    rw [Option.map_map, Option.map_map]
    exact congrArg (Option.map · v.pitch) (funext fun p => p.stageEffect_comm hab)
  unfold obey
  -- two effects on one part of the voice are both on the pitch, where they are staged
  cases ha : a.kind with
  | pattern effect => rfl
  | track effect =>
      cases hb : b.kind with
      | pattern effect' => rfl
      | track effect' =>
          rw [ha, hb] at hindependent
          cases hindependent
      | pitch effect' => exact (v.obeyTrack_pitch waves c a.param effect _).symm
  | pitch effect =>
      cases hb : b.kind with
      | pattern effect' => rfl
      | track effect' => exact v.obeyTrack_pitch waves c b.param effect' _
      | pitch effect' =>
          dsimp only
          rw [hstage]

/-- A voice that has obeyed some effects has obeyed one after the other. -/
theorem obeyAll_eq_foldl (v : Voice) (waves : Table Waveform) (c : Channel) (es : List Effect) :
    (obeyAll waves c es v).1 = es.foldl (fun v e => (v.obey waves c e).1) v := by
  induction es generalizing v with
  | nil => rfl
  | cons e es ih => exact ih (v.obey waves c e).1

/-- Effects are obeyed alike in either order. -/
theorem obeyAll_reorders (h : Reorders es es') (v : Voice) (waves : Table Waveform) (c : Channel) :
    obeyAll waves c es' v = obeyAll waves c es v := by
  refine Prod.ext ?_ ?_
  · rw [obeyAll_eq_foldl, obeyAll_eq_foldl]
    exact h.foldl_eq (fun v _ _ hab => v.obey_comm hab waves c) v
  · rw [writes_obeyAll, writes_obeyAll]
    exact h.flatMap_eq fun _ _ hab => Effect.writesOn_comm hab waves c

/-- Rows end alike with their effects in either order. -/
theorem finishRow_reorders (h : r.Reorders r') (v : Voice) : v.finishRow r' = v.finishRow r := by
  simp only [finishRow, select, request, h.instrument, h.note, h.noteDelay, h.startsNote,
    h.takesHoldAtOnce]

/-- **Rows are read alike with their effects in either order.** -/
theorem readRow_reorders (h : r.Reorders r') (v : Voice) (waves : Table Waveform) (c : Channel) :
    v.readRow waves c r' = v.readRow waves c r := by
  rw [readRow, readRow, obeyAll_reorders h.obeyed, h.halts]
  dsimp only
  rw [finishRow_reorders h]

end Voice

/-! ## Players -/

/-- Lines are read alike with their effects in either order. -/
theorem Player.readLine_reorders {l l' : Line} (h : l.Reorders l') (p : Player) (m : Module) :
    p.readLine m l' = p.readLine m l :=
  readLine_congr h.halts h.reads (fun c => Voice.readRow_reorders (h c) _ m.waveforms c)
    (h.effects.foldl_eq (fun t _ _ hab => t.obey_comm hab m.song.extent) p.transport)

namespace Module

/-- **Effects of different kinds commute.**  A module with two such effects in neighbouring columns
of a cell is played like the one where they have changed places. -/
theorem plays_swapColumns {m : Module} {c : Channel} {id row : Nat} {i : Fin 2} {a b : Effect}
    (ha : (m.song.cell c id row).columns.get i.castSucc = some a)
    (hb : (m.song.cell c id row).columns.get i.succ = some b) (hab : a.Commutes b) :
    m.PlaysAs (m.swapColumns c id row i) := by
  have hreads : m.ReadsAs (m.swapColumns c id row i) :=
    { extent := rfl
      speed := rfl
      instruments := rfl
      waveforms := rfl
      line := fun p _ _ => p.readLine_reorders (Song.line_swapColumns ha hb hab _) m }
  exact hreads.playsAs

end Module

/-- A module whose first row has a vibrato before an envelope and a delay of the note. -/
def crossedModule : Module :=
  .ofSong ((Song.new "").setRow .ch1 0 0
    ((((Row.empty.withNote (.on 0)).withEffect ⟨.pitch .vibrato, 0x44⟩).withEffect
      ⟨.track .setEnvelope, 0xF3⟩).withEffect ⟨.track .delayedNote, 1⟩))

/-- The vibrato may as well stand behind the envelope: the module is another one, and three frames
have the same writes. -/
theorem plays_crossedModule :
    let p := Player.atPosition crossedModule.song ⟨0, 0⟩
    let m := crossedModule.swapColumns .ch1 0 0 0
    m ≠ crossedModule ∧
      p.writes crossedModule [.step, .step, .step] ≠ [] ∧
      p.writes m [.step, .step, .step] = p.writes crossedModule [.step, .step, .step] := by
  intro p m
  have hab : Effect.Commutes ⟨.pitch .vibrato, 0x44⟩ ⟨.track .setEnvelope, 0xF3⟩ :=
    ⟨trivial, rfl, rfl⟩
  have hplays : crossedModule.PlaysAs m :=
    Module.plays_swapColumns (by decide +kernel) (by decide +kernel) hab
  refine ⟨by decide +kernel, by decide +kernel, ?_⟩
  exact hplays.writes ⟨0, 0⟩ p _ rfl

end Chiptune
