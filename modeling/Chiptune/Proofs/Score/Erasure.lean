import Mathlib.Data.List.Basic
import Chiptune.Proofs.Score.Agreement
import Chiptune.Proofs.Score.ReadingOrder

/-! # Erasing what playback ignores

Some of what a row can hold asks for nothing: effects with a parameter that is out of range, effects
that their channel does not have, reserved effects, and notes behind the last one.  This file erases
any choice of them from a song.

* `Effect.isInert` and `Note.isUnplayable` say what is ignored.
* `Row.erase`, `Song.erase` and `Module.erase` erase those of the chosen parts that are, and
  `Song.line_erase` leads from songs to lines.
* `Erases` relates the effects before and behind; `Erases.foldl_eq`, `Erases.any_eq` and
  `Erases.takeWhile` say what cannot tell them apart, `Row.erases_effects` and
  `Line.ErasesTo.effects` where they are found. -/

namespace Chiptune

/-! ## What is ignored -/

/-- Whether an effect on a channel is ignored in a song of some size. -/
def Effect.isInert (size : Extent) (c : Channel) (e : Effect) : Bool :=
  match e.kind with
  | .pattern .goto => size.orders ≤ e.param.toNat
  | .pattern .skip => size.rows ≤ e.param.toNat
  | .pattern .setTempo => e.param.toNat < 0x10 || 0xF0 < e.param.toNat
  | .pattern .sfx => true
  | .track .setPanning => !([0x00, 0x01, 0x10, 0x11] : List UInt8).contains e.param
  | .track .setSweep => c != .ch1
  | .track .lock => true
  | .pitch _ => c == .ch4
  | _ => false

/-- What is ignored does not stop playback. -/
theorem Effect.isHalt_of_isInert {size : Extent} {c : Channel} {e : Effect}
    (h : e.isInert size c = true) : e.isHalt = false := by
  obtain ⟨kind, param⟩ := e
  cases kind with
  | pattern effect =>
      cases effect with
      | halt => cases h
      | _ => rfl
  | _ => rfl

/-- Whether a note lies behind the last one. -/
def Note.isUnplayable : Note → Bool
  | .on n => last < n
  | _ => false

/-! ## Lists of effects -/

/-- Some effects and the same without some that are inert. -/
inductive Erases (inert : Effect → Prop) : List Effect → List Effect → Prop where
  /-- There are no effects. -/
  | nil : Erases inert [] []
  /-- An effect is kept. -/
  | keep (e : Effect) {es es' : List Effect} :
      Erases inert es es' → Erases inert (e :: es) (e :: es')
  /-- An inert effect is erased. -/
  | drop {e : Effect} {es es' : List Effect} :
      inert e → Erases inert es es' → Erases inert (e :: es) es'

namespace Erases

variable {inert : Effect → Prop} {es es' : List Effect}

/-- Nothing need be erased. -/
theorem refl (es : List Effect) : Erases inert es es := by
  induction es with
  | nil => exact .nil
  | cons e es ih => exact .keep e ih

/-- Effects are erased on either side of a seam. -/
theorem append {fs fs' : List Effect} (h : Erases inert es es') (h' : Erases inert fs fs') :
    Erases inert (es ++ fs) (es' ++ fs') := by
  induction h with
  | nil => exact h'
  | keep e _ ih => exact .keep e ih
  | drop he _ ih => exact .drop he ih

/-- Effects are erased from lists that stand one behind the other. -/
theorem flatMap {α : Type} {xs : List α} {f g : α → List Effect}
    (h : ∀ x ∈ xs, Erases inert (f x) (g x)) : Erases inert (xs.flatMap f) (xs.flatMap g) := by
  induction xs with
  | nil => exact .nil
  | cons x xs ih =>
      rw [List.flatMap_cons, List.flatMap_cons]
      exact (h x (List.mem_cons_self ..)).append (ih fun y hy => h y (List.mem_cons_of_mem _ hy))

/-- What is erased as inert may be called inert more widely. -/
theorem mono {inert' : Effect → Prop} (hinert : ∀ e, inert e → inert' e) (h : Erases inert es es') :
    Erases inert' es es' := by
  induction h with
  | nil => exact .nil
  | keep e _ ih => exact .keep e ih
  | drop he _ ih => exact .drop (hinert _ he) ih

/-- What ends at no inert effect ends at the same one. -/
theorem takeWhile {q : Effect → Bool} (hq : ∀ e, inert e → q e = true) (h : Erases inert es es') :
    Erases inert (es.takeWhile q) (es'.takeWhile q) := by
  induction h with
  | nil => exact .nil
  | keep e _ ih =>
      cases he : q e with
      | true =>
          rw [List.takeWhile_cons_of_pos he, List.takeWhile_cons_of_pos he]
          exact .keep e ih
      | false =>
          have he' : ¬q e = true := by rw [he]; exact Bool.false_ne_true
          rw [List.takeWhile_cons_of_neg he', List.takeWhile_cons_of_neg he']
          exact .nil
  | drop he _ ih =>
      rw [List.takeWhile_cons_of_pos (hq _ he)]
      exact .drop he ih

/-- What holds of no inert effect holds of one of the effects all the same. -/
theorem any_eq {q : Effect → Bool} (hq : ∀ e, inert e → q e = false) (h : Erases inert es es') :
    es'.any q = es.any q := by
  induction h with
  | nil => rfl
  | keep e _ ih => rw [List.any_cons, List.any_cons, ih]
  | drop he _ ih => rw [List.any_cons, hq _ he, ih, Bool.false_or]

/-- What no inert effect changes is changed alike. -/
theorem foldl_eq {σ : Type} {f : σ → Effect → σ} (hf : ∀ s e, inert e → f s e = s)
    (h : Erases inert es es') (s : σ) : es'.foldl f s = es.foldl f s := by
  induction h generalizing s with
  | nil => rfl
  | keep e _ ih => exact ih _
  | drop he _ ih => rw [List.foldl_cons, hf _ _ he, ih]

end Erases

/-! ## Rows -/

/-- The parts of a row that are chosen to be erased. -/
structure RowSelection where
  /-- Whether the note is chosen. -/
  note : Bool
  /-- Which columns are chosen. -/
  column : Fin 3 → Bool

namespace Row

variable {size : Extent} {c : Channel}

/-- Erase those of the chosen parts of a row that are ignored on its channel. -/
def erase (r : Row) (size : Extent) (c : Channel) (selection : RowSelection) : Row :=
  { r with
    note := if selection.note && r.note.isUnplayable then .none else r.note
    columns := Vector.ofFn fun i =>
      if selection.column i then (r.columns.get i).filter fun e => !e.isInert size c
      else r.columns.get i }

/-- There is nothing to erase from an empty row. -/
@[simp] theorem erase_empty (size : Extent) (c : Channel) (selection : RowSelection) :
    empty.erase size c selection = empty := by
  have hnote : (if selection.note && Note.none.isUnplayable then Note.none else Note.none) =
      Note.none := ite_self _
  have hcolumns : (Vector.ofFn fun i : Fin 3 =>
      if selection.column i then (empty.columns.get i).filter fun e => !e.isInert size c
      else empty.columns.get i) = empty.columns := by
    refine Vector.ext fun i hi => ?_
    have hempty : empty.columns[i] = none := Vector.getElem_replicate hi
    rw [Vector.getElem_ofFn]
    show (if selection.column ⟨i, hi⟩ then (empty.columns[i]).filter _ else empty.columns[i]) = _
    rw [hempty, Option.filter_none, ite_self]
  rw [erase, hcolumns]
  exact congrArg (fun note => { empty with note }) hnote

/-- Erasing parts of a row erases inert effects. -/
theorem erases_effects (r : Row) (size : Extent) (c : Channel) (selection : RowSelection) :
    Erases (fun e => e.isInert size c = true) r.effects (r.erase size c selection).effects := by
  rw [effects_eq, effects_eq]
  refine .flatMap fun i _ => ?_
  have hcolumn : (r.erase size c selection).columns.get i =
      if selection.column i then (r.columns.get i).filter fun e => !e.isInert size c
      else r.columns.get i :=
    Vector.getElem_ofFn i.isLt
  rw [hcolumn]
  -- a column that was not chosen keeps its effect, and so does one whose effect is not inert
  split
  · cases r.columns.get i with
    | none => exact .nil
    | some e =>
        cases he : e.isInert size c with
        | true =>
            rw [Option.filter_some_neg (by simp [he])]
            exact .drop he .nil
        | false =>
            rw [Option.filter_some_pos (by simp [he])]
            exact .refl _
  · exact .refl _

/-- A row stops playback with the parts that were erased or without. -/
theorem halts_erase (r : Row) (size : Extent) (c : Channel) (selection : RowSelection) :
    (r.erase size c selection).halts = r.halts :=
  (r.erases_effects size c selection).any_eq fun _ he => Effect.isHalt_of_isInert he

/-- Inert effects are erased from those that are obeyed of a row. -/
theorem erases_obeyed (r : Row) (size : Extent) (c : Channel) (selection : RowSelection) :
    Erases (fun e => e.isInert size c = true) r.obeyed (r.erase size c selection).obeyed :=
  (r.erases_effects size c selection).takeWhile fun e he => by
    rw [Effect.isHalt_of_isInert he, Bool.not_false]

end Row

/-! ## Lines -/

namespace Line

variable {size : Extent} {l l' : Line}

/-- Lines of which the second is the first without some parts that are ignored. -/
def ErasesTo (size : Extent) (l l' : Line) : Prop :=
  ∀ c, ∃ selection, l'.get c = (l.get c).erase size c selection

/-- A halt is never inert, so that a row keeps it. -/
theorem ErasesTo.halts_row (h : ErasesTo size l l') (c : Channel) :
    (l'.get c).halts = (l.get c).halts := by
  obtain ⟨selection, hrow⟩ := h c
  rw [hrow, Row.halts_erase]

/-- A line halts as before. -/
theorem ErasesTo.halts (h : ErasesTo size l l') : l'.halts = l.halts := by
  simp only [Line.halts, h.halts_row]

/-- The channels behind a halt are skipped as before. -/
theorem ErasesTo.reads (h : ErasesTo size l l') (c : Channel) : l'.reads c = l.reads c := by
  simp only [Line.reads, h.halts_row]

/-- What is erased of the effects that are obeyed is inert on some channel. -/
theorem ErasesTo.effects (h : ErasesTo size l l') :
    Erases (fun e => ∃ c, e.isInert size c = true) l.effects l'.effects := by
  have hreads : l'.reads = l.reads := funext h.reads
  rw [Line.effects, Line.effects, hreads]
  refine .flatMap fun c _ => ?_
  obtain ⟨selection, hrow⟩ := h c
  rw [hrow]
  exact ((l.get c).erases_obeyed size c selection).mono fun e he => ⟨c, he⟩

end Line

/-! ## Songs -/

/-- The parts of all rows that are chosen to be erased, by channel, track and row. -/
abbrev Selection := Channel → Nat → Nat → RowSelection

namespace Song

/-- Erase those of the chosen parts of a song that are ignored. -/
def erase (s : Song) (selection : Selection) : Song :=
  { s with
    tracks := PerChannel.ofFn fun c => (s.tracks.get c).mapIdx fun id t =>
      ⟨t.rows.mapIdx fun i r => r.erase s.extent c (selection c id i)⟩ }

/-- A cell of the song behind is the one before, of which parts were erased. -/
theorem cell_erase (s : Song) (selection : Selection) (c : Channel) (id i : Nat) :
    (s.erase selection).cell c id i = (s.cell c id i).erase s.extent c (selection c id i) := by
  have htrack : (s.erase selection).track? c id = (s.track? c id).map fun t =>
      ⟨t.rows.mapIdx fun i r => r.erase s.extent c (selection c id i)⟩ := by
    rw [track?, erase]
    dsimp only
    rw [PerChannel.get_ofFn, Array.getElem?_mapIdx]
    rfl
  rw [cell, htrack, cell]
  cases s.track? c id with
  | none => exact (Row.erase_empty _ _ _).symm
  | some t =>
      rw [Option.map_some]
      dsimp only
      rw [Track.row, Track.row?, Array.getElem?_mapIdx, Track.row, Track.row?]
      cases t.rows[i]? with
      | none => exact (Row.erase_empty _ _ _).symm
      | some r => rfl

/-- **A line of the song behind is one before, of which parts were erased.** -/
theorem line_erase (s : Song) (selection : Selection) (p : Position) :
    Line.ErasesTo s.extent (s.line p) ((s.erase selection).line p) := by
  intro c
  have horder : (s.erase selection).order = s.order := rfl
  rw [line, line, PerChannel.get_ofFn, PerChannel.get_ofFn, row_eq, row_eq, horder]
  cases s.order[p.order]? with
  -- behind the orders both lines are empty, and nothing needs to be chosen
  | none => exact ⟨⟨false, fun _ => false⟩, (Row.erase_empty _ _ _).symm⟩
  | some entry => exact ⟨_, s.cell_erase selection c (entry.get c) p.row⟩

end Song

/-- Erase those of the chosen parts of the song of a module that are ignored. -/
def Module.erase (m : Module) (selection : Selection) : Module :=
  { m with song := m.song.erase selection }

end Chiptune
