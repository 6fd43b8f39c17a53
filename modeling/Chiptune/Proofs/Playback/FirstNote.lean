import Chiptune.Proofs.Playback.Solo

/-! # The first note of a solo

A solo has no effects, so that its rows are played in the order of the song.  The first row with a
note that is read from the start is therefore the first one of the song, and an instrument that is
named there is selected before any note starts.

* `Song.Features` says that the first row with a note names an instrument, and no row another one.
* `before_rowAfter`: from one row to the next, no row of a solo is left out.
* `introduces_of_features` says that such a song introduces its instrument in all runs. -/

namespace Chiptune

/-- A position comes before another one in the order of the song. -/
def Position.Before (q p : Position) : Prop :=
  q.order < p.order ∨ q.order = p.order ∧ q.row < p.row

/-- The first row of a channel that starts a note names an instrument, and no row names another
one. -/
structure Song.Features (s : Song) (c : Channel) (id : Nat) : Prop where
  /-- No row names another instrument. -/
  only : ∀ position, position.Inside s.extent → (s.row position c).NamesOnly id
  /-- The first row with a note names the instrument. -/
  first : ∀ position, position.Inside s.extent → (s.row position c).startsNote = true →
    (∀ q, q.Inside s.extent → q.Before position → (s.row q c).startsNote = false) →
    (s.row position c).instrument = some id

namespace Song

variable {s : Song} {c : Channel} {q r : Position}

/-- A line of a solo asks for no move. -/
theorem Solo.lastMove?_eq (h : s.Solo c) (hr : r.Inside s.extent) :
    lastMove? s.extent (s.line r).allEffects = none := by
  have hnone : (s.line r).allEffects = [] := by
    refine List.flatMap_eq_nil_iff.mpr ?_
    intro d _
    exact (h.isPlain hr d).effects
  rw [hnone]
  rfl

/-- **From one row of a solo to the next, none is left out**, unless the song starts anew. -/
theorem Solo.before_rowAfter (h : s.Solo c) (hr : r.Inside s.extent) (hq : q.Inside s.extent)
    (hbefore : q.Before (s.rowAfter false r)) : q.Before r ∨ q = r := by
  have hsame (horder : q.order = r.order) (hrow : q.row ≤ r.row) : q.Before r ∨ q = r := by
    obtain hlt | heq := Nat.lt_or_eq_of_le hrow
    · exact .inl (.inr ⟨horder, hlt⟩)
    · exact .inr (Position.ext horder heq)
  have hqrow := hq.2
  rw [rowAfter, h.lastMove?_eq hr] at hbefore
  simp only [Bool.false_eq_true, if_false] at hbefore
  split at hbefore
  · next hend =>
    -- the next order follows, or else the first one, which no row comes before
    obtain hlast | hnext : r.order + 1 = s.extent.orders ∨ r.order + 1 < s.extent.orders := by
      have := hr.1
      omega
    · rw [hlast, Nat.mod_self] at hbefore
      obtain hlt | ⟨-, hlt⟩ := hbefore <;> exact absurd hlt (Nat.not_lt_zero _)
    · rw [Nat.mod_eq_of_lt hnext] at hbefore
      obtain hlt | ⟨-, hlt⟩ := hbefore
      · obtain hlt | heq := Nat.lt_or_eq_of_le (Nat.le_of_lt_succ hlt)
        · exact .inl (.inl hlt)
        · exact hsame heq (by omega)
      · exact absurd hlt (Nat.not_lt_zero _)
  · obtain hlt | ⟨heq, hlt⟩ := hbefore
    · exact .inl (.inl hlt)
    · exact hsame heq (Nat.le_of_lt_succ hlt)

end Song

namespace Player

variable {m : Module} {p : Player} {c : Channel} {id : Nat}

/-- Every row that is read in a solo is one of the song, or empty. -/
theorem InSolo.mem_rowsRead (hsolo : m.song.Solo c) (h : p.InSolo m c) (frames : Nat) {r : Row}
    (hr : r ∈ p.rowsRead m c (List.replicate frames .step)) :
    r = Row.empty ∨ ∃ position, position.Inside m.song.extent ∧ r = m.song.row position c := by
  induction frames generalizing p with
  | zero => cases hr
  | succ frames ih =>
      have hserved : (p.serve m .step).1.InSolo m c := h.serve hsolo nofun
      obtain rfl | hr := List.mem_cons.mp hr
      · -- only the first frame of a row reads one
        cases hfirst : p.transport.clock.isFirst with
        | true =>
            have hinside := h.inRange.transport.enterRow.within.position
            refine .inr ⟨_, hinside, ?_⟩
            rw [rowRead, rowStart?_step h.going hfirst hinside]
            rfl
        | false =>
            refine .inl ?_
            rw [rowRead, rowStart?_step_eq_none (by rw [hfirst, Bool.and_false])]
            rfl
      · exact ih hserved hr

/-- A solo introduces its instrument from any row on, if no row before that one starts a note. -/
theorem InSolo.introduces (hsolo : m.song.Solo c) (hfeatures : m.song.Features c id)
    {n : Navigator} (h : p.InSolo m c) (hguides : n.Guides m.song p) (hrepeats : n.repeats = false)
    (hbefore : ∀ q, q.Inside m.song.extent → q.Before (n.next m.song) →
      (m.song.row q c).startsNote = false) (frames : Nat) :
    Introduces id (p.rowsRead m c (List.replicate frames .step)) := by
  induction frames generalizing p n with
  | zero => trivial
  | succ frames ih =>
      have hserved : (p.serve m .step).1.InSolo m c := h.serve hsolo (by decide)
      show Introduces id (p.rowRead m c :: (p.step m).1.rowsRead m c (List.replicate frames .step))
      cases hfirst : p.transport.clock.isFirst with
      | true =>
          -- the navigator finds the row, and goes on to the one behind it
          obtain ⟨hposition, hinside⟩ :=
            Transport.position_enterRow_of_fits (hguides.fits h.going) hguides.repeats_eq hfirst
          obtain ⟨hrow, hguides'⟩ := Navigator.guides_first hguides h.going hfirst
          have hread : p.rowRead m c = m.song.row (n.next m.song) c := by
            rw [rowRead, hrow]
            rfl
          rw [Introduces, hread]
          split
          next hstarts =>
            refine ⟨hfeatures.first _ hinside hstarts hbefore, ?_⟩
            intro r hr
            obtain rfl | ⟨position, hin, rfl⟩ := hserved.mem_rowsRead hsolo frames hr
            · intro id' hnone
              cases hnone
            · exact hfeatures.only position hin
          next hstarts =>
            have hstopped := hguides.isStopped_eq.trans h.going
            rw [Navigator.serve_step_of_over m.song hstopped] at hguides'
            refine ih hserved hguides' hrepeats ?_
            intro q hq hqbefore
            rw [Navigator.next, hrepeats] at hqbefore
            obtain hq' | rfl := hsolo.before_rowAfter hinside hq hqbefore
            · exact hbefore q hq hq'
            · exact Bool.not_eq_true _ ▸ hstarts
      | false =>
          have hread : p.rowRead m c = Row.empty := by
            rw [rowRead, rowStart?_step_eq_none (by rw [hfirst, Bool.and_false])]
            rfl
          rw [hread]
          exact ih hserved (Navigator.guides_later hguides h.going hfirst).2 hrepeats hbefore

/-- **From the start of the song, a solo introduces the instrument of its first note.** -/
theorem introduces_of_features (hsolo : m.song.Solo c) (hfeatures : m.song.Features c id)
    (h : Player.start m ⟨0, 0⟩ = .ok p) (frames : Nat) :
    Introduces id (p.rowsRead m c (List.replicate frames .step)) := by
  refine (inSolo_start h c).introduces hsolo hfeatures (Navigator.guides_start h) rfl ?_ frames
  rintro q - (hlt | ⟨-, hlt⟩) <;> exact absurd hlt (Nat.not_lt_zero _)

/-- So it does behind some frames with one more of them. -/
theorem introduces_concat_of_features (hsolo : m.song.Solo c) (hfeatures : m.song.Features c id)
    (h : Player.start m ⟨0, 0⟩ = .ok p) (frames : Nat) :
    Introduces id (p.rowsRead m c (List.replicate frames .step ++ [.step])) := by
  rw [← List.replicate_succ']
  exact introduces_of_features hsolo hfeatures h (frames + 1)

end Player

/-- Frames do not stop playback by a call. -/
theorem Call.halt_not_mem_frames (frames : Nat) : halt ∉ List.replicate frames step :=
  fun hmem => nomatch List.eq_of_mem_replicate hmem

end Chiptune
