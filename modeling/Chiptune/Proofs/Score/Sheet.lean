import Chiptune.Proofs.Score.Cells

/-! # Songs as sheets of cells

However a song is edited, it holds one row for every channel, track and place of the track.  A sheet
says which: it forgets which tracks were made, and when, and how long they were at that time.

* `SongEdit` makes the edits data; `Song.attempt` carries one out, or refuses it, and `Song.edited`
  is the song behind a list of them.
* `Sheet.refusal?` says which edits are refused, and `Sheet.carryOut` what the others do to a sheet.
* `Song.Shows` ties a song to a sheet, and `Song.Answers` says that an edit is answered as by one.
  `Song.Shows.modifyTrack` and `Song.Shows.resize` are the edits that reach tracks,
  `Song.Shows.edit` is any edit, and `Song.Shows.edited` a list of them.
* `Song.holds_sheet` reads the sheet of an edited song off its patterns. -/

namespace Chiptune

/-! ## Edits -/

/-- An edit of a track that is there already. -/
inductive TrackEdit where
  /-- Replace a row. -/
  | set (i : Nat) (r : Row)
  /-- Change a row. -/
  | modify (i : Nat) (f : Row → Row)

namespace TrackEdit

/-- The track behind an edit. -/
def apply (t : Track) : TrackEdit → Track
  | set i r => t.set i r
  | modify i f => t.modify i f

/-- The place of the row that is edited. -/
def index : TrackEdit → Nat
  | set i _ => i
  | modify i _ => i

/-- What becomes of the row that is edited. -/
def change : TrackEdit → Row → Row
  | set _ r => fun _ => r
  | modify _ f => f

end TrackEdit

/-- An edit of a song. -/
inductive SongEdit where
  /-- Set the speed at the start. -/
  | setSpeed (raw : Nat)
  /-- Set the speed at the start from a tempo. -/
  | setTempo (tempo : Nat)
  /-- Set the number of rows of a pattern. -/
  | setRowsPerPattern (rows : Nat)
  /-- Append an entry to the order list. -/
  | pushOrder (entry : PerChannel Nat)
  /-- Replace an entry of the order list. -/
  | setOrder (i : Nat) (entry : PerChannel Nat)
  /-- Replace the whole order list. -/
  | setOrderList (entries : Array (PerChannel Nat))
  /-- Replace a row of a track. -/
  | setRow (c : Channel) (id i : Nat) (r : Row)
  /-- Take a track and edit it. -/
  | editTrack (c : Channel) (id : Nat) (edits : List TrackEdit)

namespace Song

/-- The song behind an edit, unless it is refused. -/
def edit (s : Song) : SongEdit → Except EditError Song
  | .setSpeed raw => s.setSpeed raw
  | .setTempo tempo => .ok (s.setTempo tempo)
  | .setRowsPerPattern rows => s.setRowsPerPattern rows
  | .pushOrder entry => s.pushOrder entry
  | .setOrder i entry => s.setOrder i entry
  | .setOrderList entries => s.setOrderList entries
  | .setRow c id i r => .ok (s.setRow c id i r)
  | .editTrack c id edits => .ok (s.modifyTrack c id fun t => edits.foldl TrackEdit.apply t)

/-- The song that a caller has behind an edit, and the refusal if there was one. -/
def attempt (s : Song) (e : SongEdit) : Song × Option EditError :=
  match s.edit e with
  | .ok s' => (s', none)
  | .error refusal => (s, some refusal)

/-- The song behind some edits, of which some may have been refused. -/
def edited (s : Song) (edits : List SongEdit) : Song :=
  edits.foldl (fun s e => (s.attempt e).1) s

end Song

/-! ## Sheets -/

/-- The rows of a song by channel, track and place, and the tracks that are played. -/
structure Sheet where
  /-- The number of rows of a pattern. -/
  rows : Nat
  /-- The track of each channel, for every entry of the order list. -/
  order : List (PerChannel Nat)
  /-- The row of a channel, in a track, at a place. -/
  cell : Channel → Nat → Nat → Row

namespace Sheet

/-- The sheet of a song to which nothing was done. -/
def blank : Sheet where
  rows := 64
  order := [PerChannel.replicate 0]
  cell := fun _ _ _ => Row.empty

/-- Change a cell; those behind the last row cannot be reached. -/
def write (s : Sheet) (c : Channel) (id i : Nat) (f : Row → Row) : Sheet :=
  { s with
    cell := fun c' id' i' =>
      if (c' = c ∧ id' = id ∧ i' = i) ∧ i < s.rows then f (s.cell c id i) else s.cell c' id' i' }

/-- Change cells of one track, one after the other. -/
def writeAll (s : Sheet) (c : Channel) (id : Nat) (edits : List TrackEdit) : Sheet :=
  edits.foldl (fun s e => s.write c id e.index e.change) s

/-- Erase the cells of all tracks from a row on. -/
def eraseFrom (s : Sheet) (row : Nat) : Sheet :=
  { s with cell := fun c id i => if row ≤ i then Row.empty else s.cell c id i }

/-- Why an edit is refused, if it is. -/
def refusal? (s : Sheet) : SongEdit → Option EditError
  | .setSpeed raw => if 0x10 ≤ raw ∧ raw ≤ 0xF0 then none else some (.speedOutOfRange raw)
  | .setRowsPerPattern rows =>
      if 1 ≤ rows ∧ rows ≤ 256 then none else some (.rowCountOutOfRange rows)
  | .pushOrder _ => if s.order.length < 256 then none else some .orderFull
  | .setOrder i _ => if i < s.order.length then none else some (.orderIndexOutOfRange i)
  | .setOrderList entries =>
      if entries.size = 0 then some (.orderIndexOutOfRange 0)
      else if entries.size ≤ 256 then none
      else some .orderFull
  | .setTempo _ | .setRow .. | .editTrack .. => none

/-- The sheet behind an edit that is not refused.  Only writing and shortening change any cell. -/
def carryOut (s : Sheet) : SongEdit → Sheet
  | .setSpeed _ | .setTempo _ => s
  | .setRowsPerPattern rows => { (if rows < s.rows then s.eraseFrom rows else s) with rows }
  | .pushOrder entry => { s with order := s.order ++ [entry] }
  | .setOrder i entry => { s with order := s.order.set i entry }
  | .setOrderList entries => { s with order := entries.toList }
  | .setRow c id i r => s.write c id i fun _ => r
  | .editTrack c id edits => s.writeAll c id edits

/-- The sheet behind an edit; one that is refused does nothing. -/
def edit (s : Sheet) (e : SongEdit) : Sheet :=
  match s.refusal? e with
  | none => s.carryOut e
  | some _ => s

/-- The sheet behind some edits. -/
def edited (s : Sheet) (edits : List SongEdit) : Sheet :=
  edits.foldl edit s

/-! ### Sheets that differ in one track -/

/-- Sheets that differ in the cells of one track at most. -/
structure SameOff (c : Channel) (id : Nat) (s s' : Sheet) : Prop where
  /-- The patterns have the same number of rows. -/
  rows : s'.rows = s.rows
  /-- The order lists are equal. -/
  order : s'.order = s.order
  /-- The other tracks have the same cells. -/
  cell : ∀ c' id', ¬(c' = c ∧ id' = id) → s'.cell c' id' = s.cell c' id'

variable {c : Channel} {id : Nat}

/-- Changing a cell leaves the other tracks alone. -/
theorem sameOff_write (s : Sheet) (c : Channel) (id i : Nat) (f : Row → Row) :
    SameOff c id s (s.write c id i f) where
  rows := rfl
  order := rfl
  cell := by
    intro c' id' hne
    funext i'
    exact if_neg fun h => hne ⟨h.1.1, h.1.2.1⟩

/-- So does changing several cells of one track. -/
theorem sameOff_writeAll (s : Sheet) (c : Channel) (id : Nat) (edits : List TrackEdit) :
    SameOff c id s (s.writeAll c id edits) := by
  induction edits generalizing s with
  | nil => exact ⟨rfl, rfl, fun _ _ _ => rfl⟩
  | cons e edits ih =>
      have hfirst := s.sameOff_write c id e.index e.change
      have hrest := ih (s.write c id e.index e.change)
      exact
        { rows := hrest.rows.trans hfirst.rows
          order := hrest.order.trans hfirst.order
          cell := fun c' id' hne => (hrest.cell c' id' hne).trans (hfirst.cell c' id' hne) }

end Sheet

/-! ## Tracks -/

namespace Track

/-- An edit of a track changes the row at its place, and no other one. -/
theorem row_apply (t : Track) (e : TrackEdit) (i : Nat) :
    (e.apply t).row i =
      if e.index = i ∧ e.index < t.size then e.change (t.row e.index) else t.row i := by
  cases e with
  | set j r => exact t.row_set j i r
  | modify j f => exact t.row_modify j i f

/-- An edit never changes the size of a track. -/
theorem size_apply (t : Track) (e : TrackEdit) : (e.apply t).size = t.size := by
  cases e with
  | set i r => exact t.size_set i r
  | modify i f => exact t.size_modify i f

/-- A track holds the cells of a track of a sheet, in as many rows. -/
structure Shows (t : Track) (sheet : Sheet) (c : Channel) (id : Nat) : Prop where
  /-- The track has as many rows as every pattern. -/
  size : t.size = sheet.rows
  /-- The rows of the track are the cells. -/
  row : ∀ i, t.row i = sheet.cell c id i

variable {t : Track} {sheet sheet' : Sheet} {c d : Channel} {id id' : Nat}

/-- A blank track shows cells that are all empty. -/
theorem shows_blank (h : ∀ i, sheet.cell c id i = Row.empty) :
    (blank sheet.rows).Shows sheet c id where
  size := size_blank sheet.rows
  row := fun i => (row_blank sheet.rows i).trans (h i).symm

namespace Shows

/-- Edits of another track do not matter. -/
theorem congr (h : t.Shows sheet d id') (hsame : sheet.SameOff c id sheet')
    (hne : ¬(d = c ∧ id' = id)) : t.Shows sheet' d id' where
  size := h.size.trans hsame.rows.symm
  row := fun i => (h.row i).trans (congrFun (hsame.cell d id' hne) i).symm

/-- An edit of a track writes to a cell of it. -/
theorem apply (h : t.Shows sheet c id) (e : TrackEdit) :
    (e.apply t).Shows (sheet.write c id e.index e.change) c id where
  size := (t.size_apply e).trans h.size
  row := by
    intro i
    have hcell : (sheet.write c id e.index e.change).cell c id i =
        if (c = c ∧ id = id ∧ i = e.index) ∧ e.index < sheet.rows then
          e.change (sheet.cell c id e.index)
        else sheet.cell c id i := rfl
    rw [row_apply, hcell, h.row, h.row, h.size]
    simp only [true_and, eq_comm (a := i)]

/-- Some edits of a track write to cells of it. -/
theorem applyAll (h : t.Shows sheet c id) (edits : List TrackEdit) :
    (edits.foldl TrackEdit.apply t).Shows (sheet.writeAll c id edits) c id := by
  induction edits generalizing t sheet with
  | nil => exact h
  | cons e edits ih => exact ih (h.apply e)

/-- A track that is resized loses the cells behind its new end. -/
theorem resize (h : t.Shows sheet c id) (rows : Nat) :
    (t.resize rows).Shows (sheet.carryOut (.setRowsPerPattern rows)) c id where
  size := t.size_resize rows
  row := by
    intro i
    rw [row_resize]
    by_cases hshorter : rows < sheet.rows
    · have hcell : (sheet.carryOut (.setRowsPerPattern rows)).cell c id i =
          if rows ≤ i then Row.empty else sheet.cell c id i := by
        simp only [Sheet.carryOut, if_pos hshorter, Sheet.eraseFrom]
      rw [hcell, ← h.row]
      by_cases hi : i < rows
      · rw [if_pos hi, if_neg (Nat.not_le.mpr hi)]
      · rw [if_neg hi, if_pos (Nat.not_lt.mp hi)]
    · -- rows that are gained are empty, and so are the cells behind the old end
      have hcell : (sheet.carryOut (.setRowsPerPattern rows)).cell c id i = sheet.cell c id i := by
        simp only [Sheet.carryOut, if_neg hshorter]
      rw [hcell, ← h.row]
      by_cases hi : i < rows
      · rw [if_pos hi]
      · have hbehind : t.size ≤ i := by
          rw [h.size]
          omega
        rw [if_neg hi, row_of_size_le hbehind]

end Shows
end Track

/-! ## Songs -/

namespace Song

variable {s : Song} {sheet sheet' : Sheet} {c : Channel} {id : Nat}

/-- A song holds the cells of a sheet: its tracks show them, all in the rows of a pattern, and where
there is no track there is nothing to show. -/
structure Shows (s : Song) (sheet : Sheet) : Prop where
  /-- The patterns have the same number of rows. -/
  rows : s.rowsPerPattern = sheet.rows
  /-- The order lists are equal. -/
  order : s.order.toList = sheet.order
  /-- Every track shows its cells. -/
  track : ∀ c id t, s.track? c id = some t → t.Shows sheet c id
  /-- The cells of the other tracks are empty. -/
  missing : ∀ c id, s.track? c id = none → ∀ i, sheet.cell c id i = Row.empty

/-- An edit of a song is answered as a sheet says: it is refused for that reason, or it leaves a song
that shows the sheet. -/
def Answers (result : Except EditError Song) (refusal? : Option EditError) (sheet : Sheet) : Prop :=
  match refusal? with
  | none => ∃ s', result = .ok s' ∧ s'.Shows sheet
  | some refusal => result = .error refusal

/-- A new song shows a blank sheet. -/
theorem shows_new (title : String) : (Song.new title).Shows Sheet.blank where
  rows := rfl
  order := rfl
  track := by
    intro c id t ht
    have hnone : (Song.new title).track? c id = none := by
      rw [track?, Song.new, PerChannel.get_replicate]
      rfl
    rw [hnone] at ht
    cases ht
  missing := fun _ _ _ _ => rfl

namespace Shows

/-- The cells of a sheet are those of the tracks. -/
theorem cell_eq (h : s.Shows sheet) (c : Channel) (id i : Nat) :
    s.cell c id i = sheet.cell c id i := by
  rw [Song.cell]
  cases ht : s.track? c id with
  | none => exact (h.missing c id ht i).symm
  | some t => exact (h.track c id t ht).row i

/-- A track that is there, or the blank one that is made in its place, shows its cells. -/
theorem getD_blank (h : s.Shows sheet) (c : Channel) (id : Nat) :
    ((s.track? c id).getD (.blank s.rowsPerPattern)).Shows sheet c id := by
  cases ht : s.track? c id with
  | none =>
      rw [Option.getD_none, h.rows]
      exact Track.shows_blank (h.missing c id ht)
  | some t => exact h.track c id t ht

/-- **An edit of a track** writes to cells of it.  Making the track, and those before it, does not
change any cell. -/
theorem modifyTrack (h : s.Shows sheet) {f : Track → Track} (hsame : sheet.SameOff c id sheet')
    (hf : ∀ t : Track, t.Shows sheet c id → (f t).Shows sheet' c id) :
    (s.modifyTrack c id f).Shows sheet' where
  rows := h.rows.trans hsame.rows.symm
  order := h.order.trans hsame.order.symm
  track := by
    intro d id' t ht
    rw [track?_modifyTrack] at ht
    split at ht
    · next hthis =>
      obtain ⟨rfl, rfl⟩ := hthis
      obtain rfl := Option.some.inj ht
      exact hf _ (h.getD_blank d id')
    · next hother =>
      -- any other track is as before, or blank where it was missing
      refine Track.Shows.congr ?_ hsame hother
      rw [track?_ensureTrack] at ht
      split at ht
      · obtain rfl := Option.some.inj ht
        exact h.getD_blank d id'
      · exact h.track d id' t ht
  missing := by
    intro d id' ht i
    rw [track?_modifyTrack] at ht
    split at ht
    · cases ht
    · next hother =>
      rw [track?_ensureTrack] at ht
      split at ht
      · cases ht
      · rw [hsame.cell d id' hother]
        exact h.missing d id' ht i

/-- **Changing the number of rows** erases the cells behind the new end. -/
theorem resize (h : s.Shows sheet) {rows : Nat} (hrows : 1 ≤ rows ∧ rows ≤ 256) :
    ∃ s', s.setRowsPerPattern rows = .ok s' ∧
      s'.Shows (sheet.carryOut (.setRowsPerPattern rows)) := by
  refine ⟨_, dif_pos hrows, ?_⟩
  -- every track is resized
  have htrack (c : Channel) (id : Nat) :
      ((s.tracks.map fun ts => ts.map fun t => t.resize rows).get c)[id]? =
        (s.track? c id).map fun t => t.resize rows := by
    rw [PerChannel.get_map, Array.getElem?_map]
    rfl
  refine { rows := rfl, order := ?_, track := ?_, missing := ?_ }
  · show s.order.toList = (if rows < sheet.rows then sheet.eraseFrom rows else sheet).order
    rw [h.order, apply_ite Sheet.order]
    exact (ite_self _).symm
  · intro c id t ht
    obtain ⟨t₀, ht₀, rfl⟩ := Option.map_eq_some_iff.mp ((htrack c id).symm.trans ht)
    exact (h.track c id t₀ ht₀).resize rows
  · intro c id ht i
    have hcell := h.missing c id (Option.map_eq_none_iff.mp ((htrack c id).symm.trans ht)) i
    show (if rows < sheet.rows then sheet.eraseFrom rows else sheet).cell c id i = Row.empty
    split
    · show (if rows ≤ i then Row.empty else sheet.cell c id i) = Row.empty
      rw [hcell, ite_self]
    · exact hcell

/-- Another order list leaves the cells alone. -/
theorem setOrderList (h : s.Shows sheet) (entries : Array (PerChannel Nat))
    (hpos : 0 < entries.size) (hle : entries.size ≤ 256) :
    ∃ s', s.setOrderList entries = .ok s' ∧ s'.Shows { sheet with order := entries.toList } := by
  refine ⟨{ s with order := entries, order_pos := hpos, order_le := hle }, ?_, ?_⟩
  · rw [Song.setOrderList, dif_pos hpos, dif_pos hle]
  · exact
      { rows := h.rows
        order := rfl
        track := fun c id t ht => ⟨(h.track c id t ht).size, (h.track c id t ht).row⟩
        missing := h.missing }

/-- The order list of a sheet is as long as that of the song. -/
theorem length_order (h : s.Shows sheet) : sheet.order.length = s.order.size := by
  rw [← h.order, Array.length_toList]

/-- An edit that a check decides is answered as the sheet says. -/
theorem answers_of_check {check : Prop} [Decidable check] {result : Except EditError Song}
    {refusal : EditError} (hok : check → ∃ s', result = .ok s' ∧ s'.Shows sheet)
    (herror : ¬check → result = .error refusal) :
    Answers result (if check then none else some refusal) sheet := by
  by_cases hcheck : check
  · rw [if_pos hcheck]
    exact hok hcheck
  · rw [if_neg hcheck]
    exact herror hcheck

/-- An entry is added unless the order list is full. -/
theorem answers_pushOrder (h : s.Shows sheet) (entry : PerChannel Nat) :
    Answers (s.pushOrder entry) (if sheet.order.length < 256 then none else some .orderFull)
      { sheet with order := sheet.order ++ [entry] } := by
  rw [h.length_order]
  refine answers_of_check (fun hlength => ?_) fun hfull => ?_
  · have hpushed := h.setOrderList (s.order.push entry)
      (by simp) (by rw [Array.size_push]; exact hlength)
    rwa [Array.toList_push, h.order] at hpushed
  · show s.setOrderList (s.order.push entry) = _
    rw [Song.setOrderList, dif_pos (by simp), dif_neg (by rw [Array.size_push]; exact hfull)]

/-- An entry is replaced if it is there. -/
theorem answers_setOrder (h : s.Shows sheet) (i : Nat) (entry : PerChannel Nat) :
    Answers (s.setOrder i entry)
      (if i < sheet.order.length then none else some (.orderIndexOutOfRange i))
      { sheet with order := sheet.order.set i entry } := by
  rw [h.length_order]
  refine answers_of_check (fun hi => ?_) fun hi => if_neg hi
  have hset := h.setOrderList (s.order.setIfInBounds i entry)
    (by rw [Array.size_setIfInBounds]; exact s.order_pos)
    (by rw [Array.size_setIfInBounds]; exact s.order_le)
  rw [Array.toList_setIfInBounds, h.order] at hset
  obtain ⟨s', hs', hshows⟩ := hset
  exact ⟨s', (if_pos hi).trans hs', hshows⟩

/-- The order list is replaced by one that is neither empty nor too long. -/
theorem answers_setOrderList (h : s.Shows sheet) (entries : Array (PerChannel Nat)) :
    Answers (s.setOrderList entries)
      (if entries.size = 0 then some (.orderIndexOutOfRange 0)
        else if entries.size ≤ 256 then none else some .orderFull)
      { sheet with order := entries.toList } := by
  by_cases hempty : entries.size = 0
  · rw [if_pos hempty]
    exact dif_neg (by omega)
  · have hpos : 0 < entries.size := Nat.pos_of_ne_zero hempty
    rw [if_neg hempty]
    refine answers_of_check (h.setOrderList entries hpos) fun hlong => ?_
    rw [Song.setOrderList, dif_pos hpos, dif_neg hlong]

/-- **An edit is answered as the sheet says**: it is refused for the same reason, or it does to the
song what it does to the sheet. -/
theorem edit (h : s.Shows sheet) (e : SongEdit) :
    Answers (s.edit e) (sheet.refusal? e) (sheet.carryOut e) := by
  -- the sheet makes the checks of the song, and edits without one are carried out in any case
  cases e with
  | setSpeed raw =>
      refine answers_of_check
        (fun hraw => ⟨{ s with speed := ⟨raw, hraw.1, hraw.2⟩ }, ?_, { h with }⟩) fun hraw => ?_
      · show s.setSpeed raw = _
        rw [Song.setSpeed, Speed.ofRaw, Speed.ofRaw?, dif_pos hraw]
        rfl
      · show s.setSpeed raw = _
        rw [Song.setSpeed, Speed.ofRaw, Speed.ofRaw?, dif_neg hraw]
        rfl
  | setTempo tempo => exact ⟨_, rfl, { h with }⟩
  | setRowsPerPattern rows => exact answers_of_check h.resize fun hrows => dif_neg hrows
  | pushOrder entry => exact h.answers_pushOrder entry
  | setOrder i entry => exact h.answers_setOrder i entry
  | setOrderList entries => exact h.answers_setOrderList entries
  | setRow c id i r =>
      exact ⟨_, rfl, h.modifyTrack (sheet.sameOff_write c id i fun _ => r) fun t ht =>
        ht.apply (.set i r)⟩
  | editTrack c id edits =>
      exact ⟨_, rfl, h.modifyTrack (sheet.sameOff_writeAll c id edits) fun t ht =>
        ht.applyAll edits⟩

/-- Behind an edit, a song shows the sheet behind it, and the caller is told of the same refusal. -/
theorem attempt (h : s.Shows sheet) (e : SongEdit) :
    (s.attempt e).1.Shows (sheet.edit e) ∧ (s.attempt e).2 = sheet.refusal? e := by
  have hedit := h.edit e
  rw [Song.attempt, Sheet.edit]
  unfold Answers at hedit
  cases hrefusal : sheet.refusal? e with
  | none =>
      rw [hrefusal] at hedit
      obtain ⟨s', hs', hshows⟩ := hedit
      rw [hs']
      exact ⟨hshows, rfl⟩
  | some refusal =>
      rw [hrefusal] at hedit
      rw [hedit]
      exact ⟨h, rfl⟩

/-- Behind some edits, a song shows the sheet behind them. -/
theorem edited (h : s.Shows sheet) (edits : List SongEdit) :
    (s.edited edits).Shows (sheet.edited edits) := by
  induction edits generalizing s sheet with
  | nil => exact h
  | cons e edits ih => exact ih (h.attempt e).1

/-- The cells behind the last row of a pattern are empty. -/
theorem cell_of_rows_le (h : s.Shows sheet) {i : Nat} (hi : s.rowsPerPattern ≤ i) (c : Channel)
    (id : Nat) : sheet.cell c id i = Row.empty := by
  cases ht : s.track? c id with
  | none => exact h.missing c id ht i
  | some t =>
      have htrack := h.track c id t ht
      rw [← htrack.row, Track.row_of_size_le]
      rw [htrack.size, ← h.rows]
      exact hi

/-- The pattern of an order has the cells of the tracks that the order names. -/
theorem exists_pattern (h : s.Shows sheet) {o : Nat} {entry : PerChannel Nat}
    (ho : s.order[o]? = some entry) :
    ∃ p, s.pattern? o = some p ∧ p.rows = s.rowsPerPattern ∧
      ∀ c i, p.row c i = sheet.cell c (entry.get c) i := by
  refine ⟨{ rows := s.rowsPerPattern,
            tracks := PerChannel.ofFn fun c => s.track? c (entry.get c) }, ?_, rfl, ?_⟩
  · rw [pattern?, ho, Option.map_some]
  · intro c i
    rw [Pattern.row, PerChannel.get_ofFn]
    exact h.cell_eq c (entry.get c) i

end Shows

/-- A refused edit leaves a song as it is. -/
theorem attempt_of_refused {e : SongEdit} {refusal : EditError}
    (h : (s.attempt e).2 = some refusal) : (s.attempt e).1 = s := by
  rw [attempt] at h ⊢
  cases hedit : s.edit e with
  | ok s' =>
      rw [hedit] at h
      cases h
  | error _ => rfl

/-- **A song is a sheet of cells.**  Behind any edits of a new song, its sizes and its speed are in
range, and all its tracks have the rows of a pattern.  Every edit is answered as the sheet says, and
one that is refused leaves the song as it is.  The patterns hold the cells of the sheet that is
edited alike; those behind the last row and those of tracks that were never made are empty. -/
theorem holds_sheet (title : String) (edits : List SongEdit) :
    let s := (Song.new title).edited edits
    let sheet := Sheet.blank.edited edits
    ((1 ≤ s.orderCount ∧ s.orderCount ≤ 256) ∧
        (1 ≤ s.rowsPerPattern ∧ s.rowsPerPattern ≤ 256) ∧
        (0x10 ≤ s.speed.raw ∧ s.speed.raw ≤ 0xF0) ∧
        ∀ c id t, s.track? c id = some t → t.size = s.rowsPerPattern) ∧
      (∀ e, (s.attempt e).2 = sheet.refusal? e ∧
        ∀ refusal, (s.attempt e).2 = some refusal → (s.attempt e).1 = s) ∧
      (s.rowsPerPattern = sheet.rows ∧ s.order.toList = sheet.order) ∧
      (∀ o entry, s.order[o]? = some entry →
        ∃ p, s.pattern? o = some p ∧ p.rows = s.rowsPerPattern ∧
          ∀ c i, p.row c i = sheet.cell c (entry.get c) i) ∧
      ∀ c id i, s.rowsPerPattern ≤ i ∨ s.track? c id = none →
        sheet.cell c id i = Row.empty := by
  intro s sheet
  -- the song shows the sheet behind all edits, and the rest is read off that
  have hshows : s.Shows sheet := (shows_new title).edited edits
  have hspeed : 0x10 ≤ s.speed.raw ∧ s.speed.raw ≤ 0xF0 := ⟨s.speed.le_raw, s.speed.raw_le⟩
  refine ⟨⟨⟨s.order_pos, s.order_le⟩, ⟨s.rows_pos, s.rows_le⟩, hspeed, ?_⟩, ?_,
    ⟨hshows.rows, hshows.order⟩, ?_, ?_⟩
  · intro c id t ht
    rw [(hshows.track c id t ht).size, hshows.rows]
  · intro e
    exact ⟨(hshows.attempt e).2, fun _ => attempt_of_refused⟩
  · intro o entry ho
    exact hshows.exists_pattern ho
  · rintro c id i (hi | hmissing)
    · exact hshows.cell_of_rows_le hi c id
    · exact hshows.missing c id hmissing i

/-- Edits that write a row, cut it off and make room for it again, write other rows of the same
track inside and outside of its length, and append an order that names the track. -/
def croppingEdits : List SongEdit :=
  [.setRow .ch1 1 10 (Row.empty.withNote (.on 0)), .setRowsPerPattern 8, .setRowsPerPattern 16,
    .editTrack .ch1 1 [.set 3 (Row.empty.withNote (.on 5)), .set 16 (Row.empty.withNote (.on 7)),
      .modify 3 fun r => r.withInstrument 2],
    .setOrderList #[], .pushOrder ⟨1, 1, 0, 0⟩]

/-- The row that was cut off stays erased, the one behind the end was never written, and the refused
order list has changed nothing. -/
theorem holds_sheet_croppingEdits :
    let s := (Song.new "").edited croppingEdits
    s.orderCount = 2 ∧ s.rowsPerPattern = 16 ∧
      (s.attempt (.setOrderList #[])).2 = some (.orderIndexOutOfRange 0) ∧
      (s.attempt (.setOrderList #[])).1 = s ∧
      ∃ p, s.pattern? 1 = some p ∧
        p.row .ch1 3 = (Row.empty.withNote (.on 5)).withInstrument 2 ∧
        p.row .ch1 10 = Row.empty ∧ p.row .ch1 16 = Row.empty ∧ p.row .ch2 3 = Row.empty := by
  intro s
  obtain ⟨-, hattempt, ⟨hrows, horder⟩, hpatterns, hempty⟩ := holds_sheet "" croppingEdits
  have hcount : s.orderCount = 2 := by
    rw [orderCount, ← Array.length_toList, horder]
    rfl
  obtain ⟨hrefusal, hunchanged⟩ := hattempt (.setOrderList #[])
  have hentry : s.order[1]? = some ⟨1, 1, 0, 0⟩ := by
    rw [← Array.getElem?_toList, horder]
    rfl
  obtain ⟨p, hp, -, hcell⟩ := hpatterns 1 _ hentry
  refine ⟨hcount, hrows, hrefusal, hunchanged _ hrefusal, p, hp, ?_, ?_, ?_, ?_⟩
  · exact hcell .ch1 3
  · exact hcell .ch1 10
  · rw [hcell]
    exact hempty .ch1 1 16 (.inl (Nat.le_of_eq hrows))
  · exact hcell .ch2 3

end Song
end Chiptune
