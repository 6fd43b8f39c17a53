import Chiptune.Score.Song

/-! # Cells

A cell is a row of a track.  This file says which cells there are behind each way of changing a song
through a track, whether that was there before or is made on the way.

* `Track.row_modify` and `Track.row_of_size_le` are about the rows of one track.
* `Song.track?_ensureTrack` and `Song.track?_modifyTrack` are about the tracks of a song.
* `Song.cell_modifyTrack` is about its cells, and `Song.cell_setRow` and `Song.cell_modifyRow`
  follow from it. -/

namespace Chiptune

namespace Track

/-- Behind its end, a track is empty. -/
theorem row_of_size_le {t : Track} {i : Nat} (h : t.size ≤ i) : t.row i = Row.empty := by
  rw [row, row?, Array.getElem?_eq_none h]
  rfl

/-- A changed row is read back where the track is long enough. -/
theorem row_modify (t : Track) (i j : Nat) (f : Row → Row) :
    (t.modify i f).row j = if i = j ∧ i < t.size then f (t.row i) else t.row j := by
  simp only [row, row?, modify, size, Array.getElem?_modify]
  by_cases hj : i = j
  · subst hj
    by_cases hi : i < t.rows.size <;> simp [hi]
  · simp [hj]

end Track

namespace Song

/-- A row of a track, which is empty where there is no such track. -/
def cell (s : Song) (c : Channel) (id i : Nat) : Row :=
  match s.track? c id with
  | some t => t.row i
  | none => Row.empty

/-- The row of a channel at a position is that of the track that the order names. -/
theorem row_eq (s : Song) (p : Position) (c : Channel) :
    s.row p c =
      match s.order[p.order]? with
      | some entry => s.cell c (entry.get c) p.row
      | none => Row.empty := by
  rw [row, pattern?]
  cases s.order[p.order]? with
  | none => rfl
  | some entry =>
      rw [Option.map_some]
      dsimp only
      rw [Pattern.row, PerChannel.get_ofFn]
      rfl

/-- Making a track fills the places up to it with blank ones, as far as they are free. -/
theorem track?_ensureTrack (s : Song) (c : Channel) (id : Nat) (d : Channel) (id' : Nat) :
    (s.ensureTrack c id).track? d id' =
      if d = c ∧ id' ≤ id then some ((s.track? d id').getD (.blank s.rowsPerPattern))
      else s.track? d id' := by
  by_cases hd : d = c
  · subst hd
    simp only [track?, ensureTrack, PerChannel.get_set_self, Array.getElem?_append,
      Array.getElem?_replicate, true_and]
    by_cases hthere : id' < (s.tracks.get d).size
    · rw [if_pos hthere, Array.getElem?_eq_getElem hthere, Option.getD_some, ite_self]
    · rw [if_neg hthere, Array.getElem?_eq_none (Nat.not_lt.mp hthere), Option.getD_none]
      by_cases hid : id' ≤ id
      · rw [if_pos hid, if_pos (by omega)]
      · rw [if_neg hid, if_neg (by omega)]
  · rw [if_neg fun h => hd h.1, track?, track?, ensureTrack, PerChannel.get_set_of_ne _ _ hd]

/-- Changing a track makes it first, and leaves the others alone. -/
theorem track?_modifyTrack (s : Song) (c : Channel) (id : Nat) (f : Track → Track) (d : Channel)
    (id' : Nat) :
    (s.modifyTrack c id f).track? d id' =
      if d = c ∧ id' = id then some (f ((s.track? c id).getD (.blank s.rowsPerPattern)))
      else (s.ensureTrack c id).track? d id' := by
  -- the track with the number is changed on its channel, and all others stay
  by_cases hd : d = c
  · subst hd
    have htrack : (s.modifyTrack d id f).track? d id' =
        if id = id' then ((s.ensureTrack d id).track? d id').map f
        else (s.ensureTrack d id).track? d id' := by
      rw [track?, modifyTrack]
      dsimp only
      rw [PerChannel.get_set_self, Array.getElem?_modify]
      rfl
    rw [htrack]
    by_cases hid : id' = id
    · subst hid
      rw [if_pos rfl, if_pos ⟨rfl, rfl⟩, track?_ensureTrack, if_pos ⟨rfl, Nat.le_refl _⟩,
        Option.map_some]
    · rw [if_neg (Ne.symm hid), if_neg fun h => hid h.2]
  · rw [if_neg fun h => hd h.1, track?, modifyTrack]
    dsimp only
    rw [PerChannel.get_set_of_ne _ _ hd, track?]

/-- A track that is there, or the blank one that is made in its place, has the same cells. -/
theorem row_getD_blank (s : Song) (c : Channel) (id i : Nat) :
    ((s.track? c id).getD (.blank s.rowsPerPattern)).row i = s.cell c id i := by
  rw [cell]
  cases s.track? c id with
  | none => exact Track.row_blank _ _
  | some t => rfl

/-- Changing a track leaves the cells of the others alone, and making it those of its own. -/
theorem cell_modifyTrack (s : Song) (c : Channel) (id : Nat) (f : Track → Track) (d : Channel)
    (id' i : Nat) :
    (s.modifyTrack c id f).cell d id' i =
      if d = c ∧ id' = id then (f ((s.track? c id).getD (.blank s.rowsPerPattern))).row i
      else s.cell d id' i := by
  rw [cell, track?_modifyTrack]
  by_cases hthis : d = c ∧ id' = id
  · rw [if_pos hthis, if_pos hthis]
  · rw [if_neg hthis, if_neg hthis, track?_ensureTrack]
    -- another track is as before, or it was made on the way and is blank
    by_cases hbefore : d = c ∧ id' ≤ id
    · rw [if_pos hbefore]
      exact s.row_getD_blank d id' i
    · rw [if_neg hbefore]
      rfl

/-- Replacing a row leaves the cells of the channel alone, but for the one that it replaces. -/
theorem cell_setRow (s : Song) (c : Channel) (id i id' i' : Nat) (r : Row) :
    (s.setRow c id i r).cell c id' i' = s.cell c id' i' ∨
      id = id' ∧ i = i' ∧ (s.setRow c id i r).cell c id' i' = r := by
  rw [setRow, cell_modifyTrack]
  by_cases hid : id' = id
  · subst hid
    rw [if_pos ⟨rfl, rfl⟩, Track.row_set]
    split
    · next h => exact .inr ⟨rfl, h.1, rfl⟩
    · exact .inl (s.row_getD_blank c id' i')
  · exact .inl (if_neg fun h => hid h.2)

/-- Changing a row leaves all cells alone, but for the one that it changes. -/
theorem cell_modifyRow (s : Song) (c : Channel) (id i : Nat) (f : Row → Row) (d : Channel)
    (id' i' : Nat) :
    (s.modifyRow c id i f).cell d id' i' = s.cell d id' i' ∨
      (d = c ∧ id' = id ∧ i' = i) ∧ (s.modifyRow c id i f).cell d id' i' = f (s.cell d id' i') := by
  rw [modifyRow, cell_modifyTrack]
  by_cases hthis : d = c ∧ id' = id
  · obtain ⟨rfl, rfl⟩ := hthis
    rw [if_pos ⟨rfl, rfl⟩, Track.row_modify]
    split
    · next h =>
      obtain ⟨rfl, -⟩ := h
      exact .inr ⟨⟨rfl, rfl, rfl⟩, congrArg f (s.row_getD_blank d id' i)⟩
    · exact .inl (s.row_getD_blank d id' i')
  · exact .inl (if_neg hthis)

end Song
end Chiptune
