import Chiptune.Module
import Chiptune.Proofs.Score.Cells
import Chiptune.Proofs.Score.ReadingOrder

/-! # Exchanging the effects of neighbouring columns

Two effects of different kinds may stand in either order.  This file exchanges the effects of two
neighbouring columns in one cell of a song, and follows the exchange to the lines that are read.

* `Effect.Commutes` says which effects may be exchanged.
* `Reorders` relates the effects before and behind; `Reorders.foldl_eq`, `Reorders.any_eq`,
  `Reorders.flatMap_eq` and `Reorders.takeWhile` say what cannot tell them apart.
* `Row.reorders_swapColumns` and `Song.line_swapColumns` say where such effects are found. -/

namespace Chiptune

/-! ## Effects that may be exchanged -/

/-- The parameters of a pitch that effects stage. -/
inductive PitchParameter where
  /-- The slide or the chord, of which there is one at a time. -/
  | modulation
  /-- Duration and depth of the vibrato. -/
  | vibrato
  /-- The delay of the vibrato. -/
  | vibratoDelay
  /-- The tuning. -/
  | tuning
  deriving DecidableEq, Repr

/-- The parameter that an effect stages. -/
def PitchEffect.parameter : PitchEffect → PitchParameter
  | arpeggio | slideUp | slideDown | portamento | noteSlideUp | noteSlideDown => .modulation
  | vibrato => .vibrato
  | vibratoDelay => .vibratoDelay
  | tuning => .tuning

/-- Kinds of which one does not touch what the other one acts on: they are of different classes, or
they are both on the pitch and stage different parameters. -/
def EffectKind.Independent : EffectKind → EffectKind → Prop
  | pattern _, pattern _ => False
  | track _, track _ => False
  | pitch a, pitch b => a.parameter ≠ b.parameter
  | _, _ => True

namespace Effect

/-- Effects that may be exchanged.  What stands behind a halt is not obeyed, so that a halt may not
be. -/
structure Commutes (a b : Effect) : Prop where
  /-- The kinds are independent. -/
  independent : a.kind.Independent b.kind
  /-- The first effect does not stop playback. -/
  left : a.isHalt = false
  /-- Neither does the second. -/
  right : b.isHalt = false

end Effect

/-! ## Lists of effects -/

/-- Some effects and the same with some neighbours exchanged. -/
inductive Reorders : List Effect → List Effect → Prop where
  /-- There are no effects. -/
  | nil : Reorders [] []
  /-- An effect keeps its place. -/
  | keep (e : Effect) {es es' : List Effect} : Reorders es es' → Reorders (e :: es) (e :: es')
  /-- Two effects are exchanged. -/
  | swap {a b : Effect} {es es' : List Effect} :
      a.Commutes b → Reorders es es' → Reorders (a :: b :: es) (b :: a :: es')

namespace Reorders

variable {es es' fs fs' : List Effect}

/-- Effects in their own order are a reordering. -/
theorem refl (es : List Effect) : Reorders es es := by
  induction es with
  | nil => exact .nil
  | cons e es ih => exact .keep e ih

/-- Effects are exchanged on either side of a seam. -/
theorem append (h : Reorders es es') (h' : Reorders fs fs') :
    Reorders (es ++ fs) (es' ++ fs') := by
  induction h with
  | nil => exact h'
  | keep e _ ih => exact .keep e ih
  | swap hab _ ih => exact .swap hab ih

/-- Effects are exchanged within lists that stand one behind the other. -/
theorem flatMap {α : Type} {xs : List α} {f g : α → List Effect}
    (h : ∀ x ∈ xs, Reorders (f x) (g x)) : Reorders (xs.flatMap f) (xs.flatMap g) := by
  induction xs with
  | nil => exact .nil
  | cons x xs ih =>
      rw [List.flatMap_cons, List.flatMap_cons]
      exact (h x (List.mem_cons_self ..)).append (ih fun y hy => h y (List.mem_cons_of_mem _ hy))

/-- What ends at a halt ends at the same one. -/
theorem takeWhile (h : Reorders es es') :
    Reorders (es.takeWhile fun e => !e.isHalt) (es'.takeWhile fun e => !e.isHalt) := by
  have hpos {e : Effect} (he : e.isHalt = false) (es : List Effect) :
      (e :: es).takeWhile (fun e => !e.isHalt) = e :: es.takeWhile fun e => !e.isHalt :=
    List.takeWhile_cons_of_pos (by rw [he, Bool.not_false])
  induction h with
  | nil => exact .nil
  | @keep e es es' _ ih =>
      cases he : e.isHalt with
      | false =>
          rw [hpos he, hpos he]
          exact .keep e ih
      | true =>
          have hneg (es : List Effect) : (e :: es).takeWhile (fun e => !e.isHalt) = [] :=
            List.takeWhile_cons_of_neg (by rw [he]; exact Bool.false_ne_true)
          rw [hneg, hneg]
          exact .nil
  | swap hab _ ih =>
      rw [hpos hab.left, hpos hab.right, hpos hab.right, hpos hab.left]
      exact .swap hab ih

/-- What holds of one of the effects does so in either order. -/
theorem any_eq (h : Reorders es es') (q : Effect → Bool) : es'.any q = es.any q := by
  induction h with
  | nil => rfl
  | keep e _ ih => rw [List.any_cons, List.any_cons, ih]
  | swap _ _ ih =>
      simp only [List.any_cons, ih]
      exact Bool.or_left_comm ..

/-- What two effects that may be exchanged do in either order is done alike. -/
theorem foldl_eq {σ : Type} {f : σ → Effect → σ}
    (hf : ∀ s a b, a.Commutes b → f (f s a) b = f (f s b) a) (h : Reorders es es') (s : σ) :
    es'.foldl f s = es.foldl f s := by
  induction h generalizing s with
  | nil => rfl
  | keep e _ ih => exact ih _
  | swap hab _ ih =>
      rw [List.foldl_cons, List.foldl_cons, ← hf s _ _ hab]
      exact ih _

/-- Lists that two effects yield in either order are yielded alike. -/
theorem flatMap_eq {α : Type} {f : Effect → List α}
    (hf : ∀ a b, a.Commutes b → f a ++ f b = f b ++ f a) (h : Reorders es es') :
    es'.flatMap f = es.flatMap f := by
  induction h with
  | nil => rfl
  | keep e _ ih => rw [List.flatMap_cons, List.flatMap_cons, ih]
  | swap hab _ ih =>
      simp only [List.flatMap_cons, ih]
      rw [← List.append_assoc, ← List.append_assoc, hf _ _ hab]

end Reorders

/-! ## Rows -/

namespace Row

/-- The row with the effects of a column and of the next one exchanged. -/
def swapColumns (r : Row) (i : Fin 2) : Row :=
  { r with columns := r.columns.swap i (i + 1) (by omega) (by omega) }

/-- Rows that differ in the order of effects that may be exchanged. -/
structure Reorders (r r' : Row) : Prop where
  /-- The notes are equal. -/
  note : r'.note = r.note
  /-- The instruments are equal. -/
  instrument : r'.instrument = r.instrument
  /-- The effects are the same but for their order. -/
  effects : Chiptune.Reorders r.effects r'.effects

/-- The effects of a row, column by column. -/
theorem effects_eq_columns (r : Row) :
    r.effects =
      (r.columns.get 0).toList ++ ((r.columns.get 1).toList ++ (r.columns.get 2).toList) := by
  rw [effects_eq, show List.finRange 3 = [0, 1, 2] by decide]
  simp only [List.flatMap_cons, List.flatMap_nil, List.append_nil]

/-- Exchanging two columns reorders a row if their effects may be exchanged. -/
theorem reorders_swapColumns {r : Row} {i : Fin 2} {a b : Effect}
    (ha : r.columns.get i.castSucc = some a) (hb : r.columns.get i.succ = some b)
    (hab : a.Commutes b) : r.Reorders (r.swapColumns i) where
  note := rfl
  instrument := rfl
  effects := by
    -- the two columns are exchanged, and the third one stays
    have hleft : (r.swapColumns i).columns.get i.castSucc = some b :=
      (Vector.getElem_swap_left ..).trans hb
    have hright : (r.swapColumns i).columns.get i.succ = some a :=
      (Vector.getElem_swap_right ..).trans ha
    have hother (j : Fin 3) (hj : j.val ≠ i.val ∧ j.val ≠ i.val + 1) :
        (r.swapColumns i).columns.get j = r.columns.get j := by
      show (r.columns.swap i.val (i.val + 1) (by omega) (by omega))[j.val] = r.columns[j.val]
      exact Vector.getElem_swap_of_ne hj.1 hj.2
    rw [effects_eq_columns, effects_eq_columns]
    obtain rfl | rfl : i = 0 ∨ i = 1 := by omega
    · rw [Fin.castSucc_zero] at ha hleft
      rw [Fin.succ_zero_eq_one] at hb hright
      rw [ha, hb, hleft, hright, hother 2 (by decide)]
      exact .swap hab (.refl _)
    · rw [Fin.castSucc_one] at ha hleft
      rw [Fin.succ_one_eq_two] at hb hright
      rw [ha, hb, hleft, hright, hother 0 (by decide)]
      exact (Chiptune.Reorders.refl _).append (.swap hab .nil)

variable {r r' : Row}

/-- A row reorders to itself. -/
theorem Reorders.refl (r : Row) : r.Reorders r :=
  ⟨rfl, rfl, .refl _⟩

namespace Reorders

/-- A halt is one in any column. -/
theorem halts (h : r.Reorders r') : r'.halts = r.halts :=
  h.effects.any_eq _

/-- The effects that are obeyed are the same but for their order. -/
theorem obeyed (h : r.Reorders r') : Chiptune.Reorders r.obeyed r'.obeyed :=
  h.effects.takeWhile

/-- Changes take hold at once by the kinds of the effects, in whatever order. -/
theorem takesHoldAtOnce (h : r.Reorders r') : r'.takesHoldAtOnce = r.takesHoldAtOnce :=
  h.effects.any_eq _

/-- Effects do not decide whether a row starts a note. -/
theorem startsNote (h : r.Reorders r') : r'.startsNote = r.startsNote := by
  rw [Row.startsNote, Row.startsNote, h.note]

/-- Two delays of a note are not exchanged, so that the last one stays the last. -/
theorem noteDelay (h : r.Reorders r') : r'.noteDelay = r.noteDelay := by
  refine h.effects.foldl_eq ?_ 0
  intro delay a b hab
  by_cases ha : a.kind = .track .delayedNote
  · have hb : ¬b.kind = .track .delayedNote := by
      intro hb
      have hindependent := hab.independent
      rw [ha, hb] at hindependent
      exact hindependent
    simp only [if_pos ha, if_neg hb]
  · simp only [if_neg ha]

end Reorders
end Row

/-! ## Lines -/

namespace Line

variable {l l' : Line}

/-- Lines whose rows differ in the order of effects that may be exchanged. -/
def Reorders (l l' : Line) : Prop :=
  ∀ c, (l.get c).Reorders (l'.get c)

namespace Reorders

/-- A line halts if one of its rows does, which no order of effects changes. -/
theorem halts (h : l.Reorders l') : l'.halts = l.halts := by
  simp only [Line.halts, (h _).halts]

/-- The channels behind a halt are skipped in either line. -/
theorem reads (h : l.Reorders l') (c : Channel) : l'.reads c = l.reads c := by
  simp only [Line.reads, (h _).halts]

/-- The effects that are obeyed of a line are the same but for their order. -/
theorem effects (h : l.Reorders l') : Chiptune.Reorders l.effects l'.effects := by
  have hreads : l'.reads = l.reads := funext h.reads
  rw [Line.effects, Line.effects, hreads]
  exact .flatMap fun c _ => (h c).obeyed

end Reorders
end Line

/-! ## Songs -/

namespace Song

/-- The song with the effects of a column and of the next one exchanged, in one cell. -/
def swapColumns (s : Song) (c : Channel) (id row : Nat) (i : Fin 2) : Song :=
  s.modifyRow c id row fun r => r.swapColumns i

/-- **A line of the song behind reorders one before.** -/
theorem line_swapColumns {s : Song} {c : Channel} {id row : Nat} {i : Fin 2} {a b : Effect}
    (ha : (s.cell c id row).columns.get i.castSucc = some a)
    (hb : (s.cell c id row).columns.get i.succ = some b) (hab : a.Commutes b) (p : Position) :
    (s.line p).Reorders ((s.swapColumns c id row i).line p) := by
  intro d
  have horder : (s.swapColumns c id row i).order = s.order := rfl
  rw [line, line, PerChannel.get_ofFn, PerChannel.get_ofFn, row_eq, row_eq, horder]
  cases s.order[p.order]? with
  | none => exact .refl _
  | some entry =>
      obtain hsame | ⟨⟨rfl, hid, hrow⟩, hcell⟩ :=
        s.cell_modifyRow c id row (fun r => r.swapColumns i) d (entry.get d) p.row
      · rw [swapColumns]
        dsimp only
        rw [hsame]
        exact .refl _
      · rw [swapColumns]
        dsimp only
        rw [hcell, hid, hrow]
        exact Row.reorders_swapColumns ha hb hab

end Song

/-- The module with the effects of a column and of the next one exchanged, in one cell. -/
def Module.swapColumns (m : Module) (c : Channel) (id row : Nat) (i : Fin 2) : Module :=
  { m with song := m.song.swapColumns c id row i }

end Chiptune
