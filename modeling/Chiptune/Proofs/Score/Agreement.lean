import Chiptune.Module
import Chiptune.Proofs.Score.Cells

/-! # Modules that agree off one channel

Two modules may differ in the notes of one channel and still steer playback alike, if the rows of
that channel carry the same effects on position and speed in the same columns.

* `Row.halts_congr` and `Row.patternEffects_congr`: those effects decide whether a row stops playback
  and what the transport obeys of it.
* `Line.AgreeOff`, `Song.AgreeOff` and `Module.AgreeOff` relate lines, songs and modules that agree
  off a channel; `Song.AgreeOff.line` leads from songs to lines.
* `Song.AgreeOff.setRow`: replacing a row by one with the same columns of such effects keeps a
  song in agreement with itself. -/

namespace Chiptune

/-! ## Rows -/

/-- Whether an effect is on the position or the speed of playback. -/
def Effect.isPattern (e : Effect) : Bool :=
  match e.kind with
  | .pattern _ => true
  | _ => false

/-- A halt is an effect on the position. -/
theorem Effect.isPattern_of_isHalt {e : Effect} (h : e.isHalt = true) : e.isPattern = true := by
  rw [isHalt, beq_iff_eq] at h
  rw [isPattern, h]

namespace Row

variable {r r' : Row}

/-- The columns of a row, of which only the effects on position and speed are kept. -/
def patternColumns (r : Row) : Vector (Option Effect) 3 :=
  r.columns.map fun column => column.filter Effect.isPattern

/-- The effects of a row on position and speed stand in these columns. -/
theorem filter_effects (r : Row) :
    r.effects.filter Effect.isPattern = r.patternColumns.toList.filterMap id := by
  rw [effects, patternColumns, Vector.toList_map, List.filter_filterMap, List.filterMap_map]
  rfl

/-- Rows with the same such columns stop playback alike. -/
theorem halts_congr (h : r.patternColumns = r'.patternColumns) : r.halts = r'.halts := by
  have hhalts (r : Row) : r.halts = (r.effects.filter Effect.isPattern).any Effect.isHalt := by
    have hboth (e : Effect) : (e.isPattern && e.isHalt) = e.isHalt := by
      cases he : e.isHalt with
      | true => rw [Effect.isPattern_of_isHalt he, Bool.true_and]
      | false => rw [Bool.and_false]
    rw [halts, List.any_filter]
    simp only [hboth]
  rw [hhalts, hhalts, filter_effects, filter_effects, h]

/-- The effects on position and speed that are obeyed of a row. -/
def patternEffects (r : Row) : List Effect :=
  r.obeyed.filter Effect.isPattern

/-- Rows with the same such columns are obeyed alike, as far as position and speed go. -/
theorem patternEffects_congr (h : r.patternColumns = r'.patternColumns) :
    r.patternEffects = r'.patternEffects := by
  -- a halt ends both lists at the same place, since it is kept among the effects
  have hobeyed (r : Row) : r.patternEffects =
      (r.effects.filter Effect.isPattern).takeWhile fun e => !e.isHalt := by
    have hstop (e : Effect) : (!e.isPattern || !e.isHalt) = !e.isHalt := by
      cases he : e.isHalt with
      | true => rw [Effect.isPattern_of_isHalt he, Bool.not_true, Bool.or_false]
      | false => rw [Bool.not_false, Bool.or_true]
    rw [patternEffects, obeyed, List.takeWhile_filter]
    simp only [hstop]
  rw [hobeyed, hobeyed, filter_effects, filter_effects, h]

end Row

/-! ## Lines -/

namespace Line

variable {d : Channel} {l l' : Line}

/-- Lines that agree off a channel, on which they still have the same effects on position and speed
in the same columns. -/
structure AgreeOff (d : Channel) (l l' : Line) : Prop where
  /-- The other channels have the same rows. -/
  rows : ∀ c, c ≠ d → l.get c = l'.get c
  /-- The rows of the channel have the same columns. -/
  columns : (l.get d).patternColumns = (l'.get d).patternColumns

/-- On all channels, the effects on position and speed are the same. -/
theorem AgreeOff.patternColumns (h : AgreeOff d l l') (c : Channel) :
    (l.get c).patternColumns = (l'.get c).patternColumns := by
  by_cases hc : c = d
  · rw [hc]
    exact h.columns
  · rw [h.rows c hc]

/-- Rows that agree halt alike. -/
theorem AgreeOff.halts_row (h : AgreeOff d l l') (c : Channel) :
    (l.get c).halts = (l'.get c).halts :=
  Row.halts_congr (h.patternColumns c)

/-- Lines that agree halt alike. -/
theorem AgreeOff.halts (h : AgreeOff d l l') : l.halts = l'.halts := by
  simp only [Line.halts, h.halts_row]

/-- The channels behind a halt are skipped in either line. -/
theorem AgreeOff.reads (h : AgreeOff d l l') (c : Channel) : l.reads c = l'.reads c := by
  simp only [Line.reads, h.halts_row]

/-- The transport obeys the same effects of both lines. -/
theorem AgreeOff.patternEffects (h : AgreeOff d l l') :
    l.effects.filter Effect.isPattern = l'.effects.filter Effect.isPattern := by
  have hrow (c : Channel) : (l.get c).patternEffects = (l'.get c).patternEffects :=
    Row.patternEffects_congr (h.patternColumns c)
  have hreads : l.reads = l'.reads := funext h.reads
  rw [effects, effects, List.filter_flatMap, List.filter_flatMap, hreads]
  exact congrArg (fun f => (Channel.all.filter l'.reads).flatMap f) (funext hrow)

end Line

/-! ## Songs -/

namespace Song

variable {d : Channel} {s s' : Song}

/-- Songs of the same size and speed that agree off a channel, on which their cells still have the
same effects on position and speed in the same columns. -/
structure AgreeOff (d : Channel) (s s' : Song) : Prop where
  /-- The order lists are equal. -/
  order : s.order = s'.order
  /-- The patterns have the same number of rows. -/
  rowsPerPattern : s.rowsPerPattern = s'.rowsPerPattern
  /-- The speeds at the start are equal. -/
  speed : s.speed = s'.speed
  /-- The other channels have the same tracks. -/
  tracks : ∀ c, c ≠ d → s.tracks.get c = s'.tracks.get c
  /-- The cells of the channel have the same columns. -/
  columns : ∀ id i, (s.cell d id i).patternColumns = (s'.cell d id i).patternColumns

/-- Songs that agree off a channel have the same size. -/
theorem AgreeOff.extent (h : AgreeOff d s s') : s.extent = s'.extent := by
  have horders : s.orderCount = s'.orderCount := by rw [orderCount, h.order, orderCount]
  simp only [Song.extent, horders, h.rowsPerPattern]

/-- Songs that agree off a channel have lines that do. -/
theorem AgreeOff.line (h : AgreeOff d s s') (p : Position) :
    Line.AgreeOff d (s.line p) (s'.line p) := by
  constructor
  · intro c hc
    have hcell (id i : Nat) : s.cell c id i = s'.cell c id i := by
      rw [cell, track?, h.tracks c hc, cell, track?]
    rw [Song.line, Song.line, PerChannel.get_ofFn, PerChannel.get_ofFn, row_eq, row_eq, h.order]
    simp only [hcell]
  · rw [Song.line, Song.line, PerChannel.get_ofFn, PerChannel.get_ofFn, row_eq, row_eq, h.order]
    cases s'.order[p.order]? with
    | none => rfl
    | some entry => exact h.columns (entry.get d) p.row

/-! ### Replacing a row -/

/-- **A row may be replaced by one with the same columns of effects on position and speed**: the
song agrees with the old one off the channel. -/
theorem AgreeOff.setRow (s : Song) {id i : Nat} {r : Row}
    (h : r.patternColumns = (s.cell d id i).patternColumns) :
    AgreeOff d (s.setRow d id i r) s where
  order := rfl
  rowsPerPattern := rfl
  speed := rfl
  tracks := by
    intro c hc
    rw [Song.setRow, modifyTrack]
    dsimp only
    rw [PerChannel.get_set_of_ne _ _ hc, ensureTrack]
    dsimp only
    rw [PerChannel.get_set_of_ne _ _ hc]
  columns := by
    intro id' i'
    obtain hsame | ⟨rfl, rfl, hrow⟩ := cell_setRow s d id i id' i' r
    · rw [hsame]
    · rw [hrow]
      exact h

end Song

/-! ## Modules -/

/-- Modules with the same instruments and waveforms whose songs agree off a channel. -/
structure Module.AgreeOff (d : Channel) (m m' : Module) : Prop where
  /-- The songs agree off the channel. -/
  song : m.song.AgreeOff d m'.song
  /-- The instruments are equal. -/
  instruments : m.instruments = m'.instruments
  /-- The waveforms are equal. -/
  waveforms : m.waveforms = m'.waveforms

end Chiptune
