import Chiptune.Proofs.Playback.Alike
import Chiptune.Proofs.Score.Erasure

/-! # What rows hold in vain

A song can be rid of everything that playback ignores, or of any part of it: a player cannot tell
the two songs apart.  Its whole state stays the same, so that not only the writes of a run are.

* `Voice.obey_of_isInert` and `Transport.obey_of_isInert`: nobody obeys an inert effect.
* `Voice.readRow_erase` is a row of a channel, `Player.readLine_erase` a line of a song.
* `Player.readsAs_erase` says that the two songs are read alike, `plays_erased` what that is for a
  whole run. -/

namespace Chiptune

/-- The transport does not obey an inert effect, whatever its channel. -/
theorem Transport.obey_of_isInert (t : Transport) {size : Extent} {c : Channel} {e : Effect}
    (h : e.isInert size c = true) : t.obey size e = t := by
  obtain ⟨kind, param⟩ := e
  cases kind with
  | pattern effect =>
      cases effect with
      | goto =>
          have hout : size.orders ≤ param.toNat := by simpa [Effect.isInert] using h
          exact if_neg (Nat.not_lt.mpr hout)
      | skip =>
          have hout : size.rows ≤ param.toNat := by simpa [Effect.isInert] using h
          exact if_neg (Nat.not_lt.mpr hout)
      | setTempo =>
          have hout : param.toNat < 0x10 ∨ 0xF0 < param.toNat := by
            simpa [Effect.isInert] using h
          have hspeed : Speed.ofRaw? param.toNat = none := by
            rw [Speed.ofRaw?, dif_neg (by omega)]
          rw [obey]
          dsimp only
          rw [hspeed]
      | halt => rfl
      | sfx => rfl
  | track effect => rfl
  | pitch effect => rfl

/-! ## Voices -/

namespace Voice

variable {v : Voice} {waves : Table Waveform} {size : Extent} {c : Channel}

/-- A panning that no parameter stands for is refused. -/
theorem ofParam?_eq_none {param : UInt8}
    (h : ([0x00, 0x01, 0x10, 0x11] : List UInt8).contains param = false) :
    Panning.ofParam? param = none := by
  simp only [List.contains_eq_mem, List.mem_cons, List.not_mem_nil, or_false,
    decide_eq_false_iff_not, not_or] at h
  obtain ⟨h₁, h₂, h₃, h₄⟩ := h
  rw [Panning.ofParam?, if_neg h₁, if_neg h₂, if_neg h₃, if_neg h₄]

/-- A channel without a pitch leaves it alone. -/
theorem map_pitch_of_none (h : v.pitch = none) (f : Pitch .tone → Pitch .tone) :
    { v with pitch := v.pitch.map f } = v := by
  rw [h]
  cases v
  cases h
  rfl

/-- The noise channel has no pitch. -/
theorem Fits.pitch_eq_none (h : Fits .ch4 v) : v.pitch = none :=
  Option.isNone_iff_eq_none.mp (Option.isSome_eq_false_iff.mp h.pitch)

/-- A voice does not obey an effect that is inert on its channel. -/
theorem obey_of_isInert (h : Fits c v) {e : Effect} (he : e.isInert size c = true) :
    v.obey waves c e = (v, []) := by
  obtain ⟨kind, param⟩ := e
  cases kind with
  | pattern effect => rfl
  | track effect =>
      -- these effects are inert by their parameter or on their channel
      cases effect with
      | setPanning =>
          have hout : ([0x00, 0x01, 0x10, 0x11] : List UInt8).contains param = false := by
            simpa [Effect.isInert] using he
          show v.obeyTrack waves c param .setPanning = _
          rw [obeyTrack, ofParam?_eq_none hout]
      | setSweep =>
          have hc : ¬c = .ch1 := by simpa [Effect.isInert] using he
          show v.obeyTrack waves c param .setSweep = _
          rw [obeyTrack, if_neg hc]
      | lock => rfl
      | _ => cases he
  | pitch effect =>
      obtain rfl : c = .ch4 := by simpa [Effect.isInert] using he
      exact congrArg (·, []) (map_pitch_of_none h.pitch_eq_none _)

/-- Erasing inert effects does not change what a voice obeys. -/
theorem obeyAll_of_erases {es es' : List Effect}
    (hes : Erases (fun e => e.isInert size c = true) es es') (h : Fits c v) :
    obeyAll waves c es' v = obeyAll waves c es v := by
  -- the effects that are kept change the voice, which still fits its channel
  induction hes generalizing v with
  | nil => rfl
  | keep e _ ih =>
      rw [obeyAll, obeyAll]
      dsimp only
      rw [ih (h.obey waves c e)]
  | drop he _ ih =>
      rw [obeyAll, obey_of_isInert h he, ih h]
      rfl

/-- Obeying effects keeps a voice fit. -/
theorem Fits.obeyAll (h : Fits c v) (waves : Table Waveform) (es : List Effect) :
    Fits c (Voice.obeyAll waves c es v).1 :=
  obeyAll_induction (fun _ e hv => hv.obey waves c e) h es

/-- Of the notes, those that were erased lie behind the last one. -/
theorem note_erase (r : Row) (size : Extent) (c : Channel) (selection : RowSelection) :
    (r.erase size c selection).note = r.note ∨
      (r.erase size c selection).note = .none ∧ ∃ n, r.note = .on n ∧ ¬n ≤ Note.last := by
  rw [Row.erase]
  dsimp only
  split
  · next hnote =>
    obtain ⟨-, hnote⟩ := Bool.and_eq_true_iff.mp hnote
    refine .inr ⟨rfl, ?_⟩
    cases hr : r.note with
    | on n =>
        rw [hr, Note.isUnplayable, decide_eq_true_eq] at hnote
        exact ⟨n, rfl, Nat.not_le.mpr hnote⟩
    | none => rw [hr] at hnote; cases hnote
    | cut => rw [hr] at hnote; cases hnote
  · exact .inl rfl

/-- A note behind the last one does not start. -/
theorem startsNote_erase (r : Row) (size : Extent) (c : Channel) (selection : RowSelection) :
    (r.erase size c selection).startsNote = r.startsNote := by
  rw [Row.startsNote, Row.startsNote]
  obtain hnote | ⟨hnote, n, hr, hn⟩ := note_erase r size c selection
  · rw [hnote]
  · rw [hnote, hr]
    exact (decide_eq_false hn).symm

/-- A note behind the last one is not requested. -/
theorem request_erase (v : Voice) (r : Row) (size : Extent) (c : Channel)
    (selection : RowSelection) : v.request (r.erase size c selection) = v.request r := by
  have hdelay : (r.erase size c selection).noteDelay = r.noteDelay := by
    refine (r.erases_effects size c selection).foldl_eq (fun delay e he => if_neg ?_) 0
    intro hkind
    rw [Effect.isInert, hkind] at he
    cases he
  rw [request, request, hdelay]
  obtain hnote | ⟨hnote, n, hr, hn⟩ := note_erase r size c selection
  · rw [hnote]
  · rw [hnote, hr]
    exact (if_neg hn).symm

/-- A row ends alike with the parts that were erased or without. -/
theorem finishRow_erase (h : Fits c v) (r : Row) (selection : RowSelection) :
    v.finishRow (r.erase size c selection) = v.finishRow r := by
  have hselect : v.select (r.erase size c selection) = v.select r := rfl
  have hrequested : (v.select r).request (r.erase size c selection) = (v.select r).request r :=
    request_erase _ r size c selection
  rw [finishRow, finishRow, hselect, startsNote_erase, hrequested]
  by_cases hc : c = .ch4
  · -- there is no pitch on which changes could take hold
    subst hc
    have hnone : ((v.select r).request r).pitch = none := by
      obtain ⟨gate, -, hgate⟩ := (v.select r).request_eq r
      rw [hgate]
      exact h.pitch_eq_none
    rw [map_pitch_of_none hnone, ite_self, ite_self]
  · have hholds : (r.erase size c selection).takesHoldAtOnce = r.takesHoldAtOnce := by
      refine (r.erases_effects size c selection).any_eq fun e he => ?_
      cases hkind : e.kind with
      | pitch effect =>
          rw [Effect.isInert, hkind] at he
          exact absurd (eq_of_beq he) hc
      | _ => rw [Effect.takesHoldAtOnce, hkind]
    rw [hholds]

/-- **A row is read alike with the parts that were erased or without.** -/
theorem readRow_erase (h : Fits c v) (r : Row) (selection : RowSelection) :
    v.readRow waves c (r.erase size c selection) = v.readRow waves c r := by
  rw [readRow, readRow, obeyAll_of_erases (r.erases_obeyed size c selection) h, r.halts_erase]
  dsimp only
  rw [finishRow_erase (h.obeyAll waves r.obeyed)]

end Voice

/-! ## Players -/

namespace Player

variable {m : Module} {p : Player}

/-- A line is read alike with the parts that were erased or without. -/
theorem readLine_erase (hfits : ∀ c, (p.voices.get c).Fits c) {l l' : Line}
    (hl : Line.ErasesTo m.song.extent l l') (selection : Selection) :
    p.readLine (m.erase selection) l' = p.readLine m l := by
  -- each voice reads its own row, but the transport obeys the effects of all of them
  refine readLine_congr hl.halts hl.reads (fun c => ?_) ?_
  · obtain ⟨parts, hrow⟩ := hl c
    rw [hrow]
    exact Voice.readRow_erase (hfits c) (l.get c) parts
  · exact hl.effects.foldl_eq (fun t _ ⟨_, he⟩ => t.obey_of_isInert he) _

/-- **A song of which parts were erased is read alike.** -/
theorem readsAs_erase (m : Module) (selection : Selection) : m.ReadsAs (m.erase selection) where
  extent := rfl
  speed := rfl
  instruments := rfl
  waveforms := rfl
  line := fun _ _ hfits => readLine_erase hfits (m.song.line_erase selection _) selection

/-- A call is served alike in a song of which parts were erased. -/
theorem Reachable.serve_erase (h : Reachable m p) (selection : Selection) (call : Call) :
    p.serve (m.erase selection) call = p.serve m call :=
  h.serve_alike (readsAs_erase m selection) call

/-- A run through a song of which parts were erased leads to the same player. -/
theorem Reachable.after_erase (h : Reachable m p) (selection : Selection) (calls : List Call) :
    p.after (m.erase selection) calls = p.after m calls :=
  h.after_alike (readsAs_erase m selection) calls

/-- A run through a song of which parts were erased has the same writes. -/
theorem Reachable.writes_erase (h : Reachable m p) (selection : Selection) (calls : List Call) :
    p.writes (m.erase selection) calls = p.writes m calls :=
  h.writes_alike (readsAs_erase m selection) calls

/-- **What a song holds in vain does not matter.**  A module and the same without any choice of
parts that are ignored refuse the same starts, and from any other start the same calls lead to the
same player, report and writes; so does every single call. -/
theorem plays_erased (m : Module) (selection : Selection) (position : Position) :
    Player.start (m.erase selection) position = Player.start m position ∧
      ∀ p, Player.start m position = .ok p → ∀ calls,
        p.after (m.erase selection) calls = p.after m calls ∧
          p.writes (m.erase selection) calls = p.writes m calls ∧
          ∀ call, (p.after (m.erase selection) calls).serve (m.erase selection) call =
            (p.after m calls).serve m call := by
  refine ⟨rfl, ?_⟩
  intro p hp calls
  have hreached : Reachable m p := .start hp
  have hafter := hreached.after_erase selection calls
  refine ⟨hafter, hreached.writes_erase selection calls, ?_⟩
  intro call
  rw [hafter]
  exact (hreached.after calls).serve_erase selection call

end Player

/-- A module of one frame per row with parts that are ignored: a move to an order that is not there, a
panning that no parameter stands for, a note behind the last one and a slide of the noise channel. -/
def inertModule : Module :=
  .ofSong ((({ Song.new "" with speed := .fastest }.setRow .ch1 0 0
    (((Row.empty.withNote (.on 0)).withEffect ⟨.pattern .goto, 2⟩).withEffect
      ⟨.track .setPanning, 2⟩)).setRow .ch2 0 0 (Row.empty.withNote (.on 90))).setRow .ch4 0 0
    ((Row.empty.withNote (.on 10)).withEffect ⟨.pitch .slideUp, 1⟩))

/-- Its first line holds something in vain on three channels, and without that two frames have the
same writes. -/
theorem plays_inertModule :
    let everything : Selection := fun _ _ _ => ⟨true, fun _ => true⟩
    let p := Player.atPosition inertModule.song ⟨0, 0⟩
    let erased := inertModule.erase everything
    erased ≠ inertModule ∧
      (erased.song.cell .ch1 0 0).effects = [] ∧
      (erased.song.cell .ch2 0 0).note = .none ∧
      (erased.song.cell .ch4 0 0).effects = [] ∧
      p.writes inertModule [.step, .step] ≠ [] ∧
      p.writes erased [.step, .step] = p.writes inertModule [.step, .step] := by
  intro everything p erased
  have hp : Player.start inertModule ⟨0, 0⟩ = .ok p := rfl
  obtain ⟨-, hruns⟩ := Player.plays_erased inertModule everything ⟨0, 0⟩
  refine ⟨?_, ?_, ?_, ?_, ?_, (hruns p hp [.step, .step]).2.1⟩ <;> decide +kernel

end Chiptune
