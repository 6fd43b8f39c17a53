import Chiptune.Proofs.Playback.Voices

/-! # The panning of a voice

A voice is heard as its settings say while a note sounds, and not at all otherwise.  Three things
change the outputs on which it is heard: a panning effect, the start of a note and its end.

* `Row.pannings` lists what a row asks for, and `Voice.panning_readRow` says what becomes of it.
* `Voice.settings_update` and `Voice.output_update` say what a frame does.
* `Voice.Panned` says on which outputs a voice is heard, and holds in all runs. -/

namespace Chiptune

/-- The panning that an effect asks for, if its parameter stands for one. -/
def Effect.panning? (e : Effect) : Option Panning :=
  match e.kind with
  | .track .setPanning => Panning.ofParam? e.param
  | _ => none

/-- The pannings that the effects of a row ask for, as far as the row is obeyed. -/
def Row.pannings (r : Row) : List Panning :=
  r.obeyed.filterMap Effect.panning?

namespace Voice

variable {m : Module} {v : Voice} {c : Channel}

/-! ### Reading a row -/

/-- What an effect does to the panning of a voice: the settings take it up at once, and a voice that
is playing is heard on the new outputs. -/
theorem panning_obey (v : Voice) (waves : Table Waveform) (c : Channel) (e : Effect) :
    (v.obey waves c e).1.isPlaying = v.isPlaying ∧
      (v.obey waves c e).1.settings.panning = e.panning?.getD v.settings.panning ∧
      (v.obey waves c e).1.output =
        if v.isPlaying then e.panning?.getD v.output else v.output := by
  obtain ⟨kind, param⟩ := e
  rcases kind with effect | effect | effect
  · exact ⟨rfl, rfl, (ite_self _).symm⟩
  · cases effect with
    | setPanning =>
        simp only [obey, obeyTrack, Effect.panning?]
        cases Panning.ofParam? param with
        | none => exact ⟨rfl, rfl, (ite_self _).symm⟩
        | some panning => exact ⟨rfl, rfl, rfl⟩
    | _ => exact ⟨rfl, rfl, (ite_self _).symm⟩
  · exact ⟨rfl, rfl, (ite_self _).symm⟩

/-- What some effects do to the panning of a voice: the last one that asks counts. -/
theorem panning_obeyAll (waves : Table Waveform) (c : Channel) (es : List Effect) (v : Voice) :
    (obeyAll waves c es v).1.isPlaying = v.isPlaying ∧
      (obeyAll waves c es v).1.settings.panning =
        (es.filterMap Effect.panning?).getLast?.getD v.settings.panning ∧
      (obeyAll waves c es v).1.output =
        if v.isPlaying then (es.filterMap Effect.panning?).getLast?.getD v.output
        else v.output := by
  induction es generalizing v with
  | nil => exact ⟨rfl, rfl, (ite_self _).symm⟩
  | cons e es ih =>
      obtain ⟨hplaying, hsettings, houtput⟩ := panning_obey v waves c e
      -- the first effect counts only if no later one sets the panning
      have hlast (p : Panning) : ((e :: es).filterMap Effect.panning?).getLast?.getD p =
          (es.filterMap Effect.panning?).getLast?.getD (e.panning?.getD p) := by
        rw [List.filterMap_cons]
        cases e.panning? with
        | none => rfl
        | some q =>
            dsimp only
            rw [List.getLast?_cons, Option.getD_some, Option.getD_some]
      obtain ⟨ihplaying, ihsettings, ihoutput⟩ := ih (v.obey waves c e).1
      rw [hlast, hlast]
      refine ⟨ihplaying.trans hplaying, ?_, ?_⟩
      · rw [← hsettings]
        exact ihsettings
      · show (obeyAll waves c es (v.obey waves c e).1).1.output = _
        rw [ihoutput, hplaying, houtput]
        cases v.isPlaying <;> rfl

/-- The end of a row does not touch the panning of a voice. -/
theorem panning_finishRow (v : Voice) (r : Row) :
    (v.finishRow r).isPlaying = v.isPlaying ∧ (v.finishRow r).settings = v.settings ∧
      (v.finishRow r).output = v.output := by
  -- a request may change what the gate waits for, but not whether it is open
  have hrequest : ((v.select r).request r).isPlaying = v.isPlaying ∧
      ((v.select r).request r).settings = v.settings ∧
      ((v.select r).request r).output = v.output := by
    unfold request
    split
    · split
      · refine ⟨?_, rfl, rfl⟩
        show (v.gate.requestNote _ _).isOpen = _
        unfold NoteGate.requestNote
        split
        · rfl
        · split <;> rfl
      · exact ⟨rfl, rfl, rfl⟩
    · exact ⟨rfl, rfl, rfl⟩
    · exact ⟨rfl, rfl, rfl⟩
  unfold finishRow
  split
  · exact hrequest
  · exact hrequest

/-- The pannings of a row on which a voice is heard at once, which it is only while it plays. -/
def rowPannings (v : Voice) (r : Row) : List Panning :=
  if v.isPlaying then r.pannings else []

/-- What a row does to the panning of a voice: it neither starts nor ends a note, and the last
panning that it asks for counts. -/
theorem panning_readRow (v : Voice) (waves : Table Waveform) (c : Channel) (r : Row) :
    (v.readRow waves c r).1.isPlaying = v.isPlaying ∧
      (v.readRow waves c r).1.settings.panning =
        r.pannings.getLast?.getD v.settings.panning ∧
      (v.readRow waves c r).1.output = (v.rowPannings r).getLast?.getD v.output := by
  have hlast : (v.rowPannings r).getLast?.getD v.output =
      if v.isPlaying then r.pannings.getLast?.getD v.output else v.output := by
    unfold rowPannings
    split <;> rfl
  have hobeyed := panning_obeyAll waves c r.obeyed v
  rw [hlast]
  unfold readRow
  split
  next v' ws heq =>
    rw [heq] at hobeyed
    -- a row that halts is left unfinished
    split
    · exact hobeyed
    · obtain ⟨hplaying, hsettings, houtput⟩ := panning_finishRow v' r
      rw [hplaying, hsettings, houtput]
      exact hobeyed

/-! ### Updating -/

/-- Binding an instrument touches neither the settings nor the outputs. -/
theorem panning_bound (v : Voice) (m : Module) (started : Option Nat) :
    (v.bound m started).settings = v.settings ∧ (v.bound m started).output = v.output := by
  unfold bound bindInstrument
  split
  · split
    · split <;> exact ⟨rfl, rfl⟩
    · exact ⟨rfl, rfl⟩
  · exact ⟨rfl, rfl⟩

/-- An update does not touch the settings. -/
theorem settings_update (v : Voice) (m : Module) (c : Channel) :
    (v.update m c).1.settings = v.settings := by
  cases h : v.gated.isPlaying with
  | true =>
      rw [update_of_open m c h]
      exact (panning_bound v.gated m v.gate.step.2).1
  | false =>
      rw [update_of_closed m c h]
      rfl

/-- The pannings that a frame gives to a voice: that of its settings if a note starts, and silence
if one ends. -/
def framePannings (v : Voice) : List Panning :=
  if v.gated.isPlaying then
    if v.gate.step.2.isSome then [v.settings.panning] else []
  else if v.isPlaying then [Panning.off] else []

/-- The outputs on which a voice is heard: those of its settings while a note sounds, and none
otherwise. -/
def Panned (v : Voice) : Prop :=
  v.output = if v.isPlaying then v.settings.panning else Panning.off

/-- Behind an update a voice is heard as the frame says. -/
theorem output_update (h : v.Panned) (m : Module) (c : Channel) :
    (v.update m c).1.output = v.framePannings.getLast?.getD v.output := by
  unfold framePannings
  cases hopen : v.gated.isPlaying with
  | true =>
      obtain ⟨hsettings, houtput⟩ := panning_bound v.gated m v.gate.step.2
      rw [update_of_open m c hopen, if_pos rfl]
      show (if v.gate.step.2.isSome then (v.gated.bound m v.gate.step.2).settings.panning
        else (v.gated.bound m v.gate.step.2).output) = _
      rw [hsettings, houtput]
      split <;> rfl
  | false =>
      rw [update_of_closed m c hopen, if_neg Bool.false_ne_true]
      unfold Panned at h
      cases hplaying : v.isPlaying with
      | true => rfl
      | false =>
          -- without a note before, the voice was silent already
          rw [hplaying, if_neg Bool.false_ne_true] at h
          rw [if_neg Bool.false_ne_true]
          exact h.symm

/-! ### In all runs -/

/-- A new voice is silent, and its outputs are off. -/
theorem panned_new (c : Channel) : (new c).Panned := rfl

/-- A row changes settings and outputs alike. -/
theorem Panned.readRow (h : v.Panned) (waves : Table Waveform) (c : Channel) (r : Row) :
    (v.readRow waves c r).1.Panned := by
  obtain ⟨hplaying, hsettings, houtput⟩ := panning_readRow v waves c r
  unfold Panned at h ⊢
  rw [houtput, hsettings, hplaying, rowPannings, h]
  cases v.isPlaying <;> rfl

/-- A note that sounds without starting has sounded before. -/
theorem isPlaying_of_gated (h : v.gated.isPlaying = true) (hstarted : v.gate.step.2 = none) :
    v.isPlaying = true := by
  have hopen : ((v.gate.isOpen || v.gate.due?.isSome) && !v.gate.cutIsDue) = true := h
  have hdue : (if v.gate.cutIsDue then none else v.gate.due?) = none := hstarted
  cases hcut : v.gate.cutIsDue with
  | true =>
      rw [hcut, Bool.not_true, Bool.and_false] at hopen
      cases hopen
  | false =>
      rw [hcut, if_neg Bool.false_ne_true] at hdue
      rw [hdue, hcut, Option.isSome_none, Bool.or_false, Bool.not_false, Bool.and_true] at hopen
      exact hopen

/-- A frame changes the outputs with the note. -/
theorem Panned.update (h : v.Panned) (m : Module) (c : Channel) : (v.update m c).1.Panned := by
  have houtput := output_update h m c
  unfold Panned
  rw [houtput, isPlaying_update, settings_update, framePannings]
  -- a note that starts or ends switches the outputs, and any other frame leaves them
  cases hopen : v.gated.isPlaying with
  | true =>
      rw [if_pos rfl, if_pos rfl]
      cases hstarted : v.gate.step.2 with
      | some note => rfl
      | none =>
          unfold Panned at h
          rw [isPlaying_of_gated hopen hstarted, if_pos rfl] at h
          exact h
  | false =>
      rw [if_neg Bool.false_ne_true, if_neg Bool.false_ne_true]
      unfold Panned at h
      cases hplaying : v.isPlaying with
      | true => rfl
      | false =>
          rw [hplaying, if_neg Bool.false_ne_true] at h
          exact h

end Voice

namespace Player

variable {m : Module} {p : Player}

/-- In all runs, voices are heard as their settings say while a note sounds. -/
theorem Reachable.panned (h : Reachable m p) (c : Channel) : (p.voices.get c).Panned :=
  h.voice (P := fun _ v => v.Panned) Voice.panned_new
    (fun c _ r hv => hv.readRow m.waveforms c r) (fun c _ hv => hv.update m c) c

/-- A voice with a note is heard as its settings say. -/
theorem Reachable.output_of_playing (h : Reachable m p) {c : Channel}
    (hplaying : p.isPlaying c = true) :
    (p.voices.get c).output = (p.voices.get c).settings.panning :=
  (h.panned c).trans (if_pos hplaying)

/-- A voice without a note is not heard. -/
theorem Reachable.output_of_silent (h : Reachable m p) {c : Channel}
    (hsilent : p.isPlaying c = false) : (p.voices.get c).output = Panning.off :=
  (h.panned c).trans (if_neg (Bool.not_eq_true _ ▸ hsilent))

/-- Voices are heard as their settings say when the row of a frame has been read, too. -/
theorem Reachable.panned_begun (h : Reachable m p) (c : Channel) :
    ((p.begun m).voices.get c).Panned := by
  rw [voice_begun]
  split
  · exact (h.panned c).readRow _ _ _
  · exact h.panned c

end Player
end Chiptune
