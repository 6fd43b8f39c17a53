import Mathlib.Data.List.FinRange
import Mathlib.Data.List.TakeWhile
import Chiptune.Score.Line

/-! # The order in which a line is read

The columns of a line are read channel by channel, and from left to right.  A line that stops
playback does so in the first column that says so: the columns before it are read, and no others.

* `Column.before` lists the columns before another one; `Column.before_eq` sorts them by channel.
* `Line.HaltsIn` names the column that stops playback, which `Line.halts_iff` finds.
* `Line.HaltsIn.reads` and `Line.HaltsIn.obeyed` say what is read of the rows of each channel. -/

namespace Chiptune

/-! ## Columns -/

/-- A column of a line. -/
structure Column where
  /-- The channel of the row. -/
  channel : Channel
  /-- The column of the row. -/
  index : Fin 3
  deriving DecidableEq, Repr

namespace Column

/-- All columns of a line, in the order in which they are read. -/
def all : List Column :=
  Channel.all.flatMap fun c => (List.finRange 3).map (mk c)

/-- Every column is listed. -/
@[simp] theorem mem_all (a : Column) : a ∈ all :=
  List.mem_flatMap.mpr ⟨a.channel, a.channel.mem_all, List.mem_map.mpr ⟨a.index, by simp, rfl⟩⟩

/-- The columns that are read before another one. -/
def before (a : Column) : List Column :=
  all.takeWhile fun b => b != a

/-- The columns of the row of a channel that are read before another one. -/
def indicesBefore (a : Column) (c : Channel) : List (Fin 3) :=
  (List.finRange 3).filter fun i => c.index < a.channel.index || c == a.channel && i < a.index

/-- The columns before another one stand channel by channel. -/
theorem before_eq (a : Column) :
    a.before = Channel.all.flatMap fun c => (a.indicesBefore c).map (mk c) := by
  obtain ⟨c, i⟩ := a
  cases c <;> revert i <;> decide

/-- A column is read before another one if its channel comes first, or if it stands further left in
the same row. -/
theorem mem_before {a b : Column} :
    b ∈ a.before ↔
      b.channel.index < a.channel.index ∨ b.channel = a.channel ∧ b.index < a.index := by
  obtain ⟨c, i⟩ := b
  rw [before_eq]
  simp [indicesBefore]

/-- The indices that come before a column on a channel are those of the columns before it. -/
theorem mem_indicesBefore {a : Column} {c : Channel} {i : Fin 3} :
    i ∈ a.indicesBefore c ↔ mk c i ∈ a.before := by
  rw [mem_before]
  simp [indicesBefore]

end Column

/-- The position of a channel is its own. -/
theorem Channel.index_inj {b c : Channel} : b.index = c.index ↔ b = c := by
  cases b <;> cases c <;> decide

/-- The channels that are processed before another one have lower positions. -/
theorem Channel.mem_takeWhile_all {b c : Channel} :
    b ∈ all.takeWhile (fun d => d != c) ↔ b.index < c.index := by
  cases b <;> cases c <;> decide

/-! ## Rows -/

namespace Row

/-- The effects of a row stand in its columns. -/
theorem effects_eq (r : Row) :
    r.effects = (List.finRange 3).flatMap fun i => (r.columns.get i).toList := by
  have hcolumns : r.columns.toList = (List.finRange 3).map r.columns.get := by
    apply List.ext_getElem <;> simp [Vector.get]
  rw [effects, hcolumns, List.filterMap_map, List.filterMap_eq_flatMap_toList]
  rfl

/-- A row stops playback exactly if one of its columns does. -/
theorem halts_iff (r : Row) :
    r.halts = true ↔ ∃ i : Fin 3, (r.columns.get i).any Effect.isHalt := by
  rw [halts, effects_eq]
  simp [List.any_flatMap, Option.any_eq_true]

end Row

/-! ## Lines -/

namespace Line

/-- The effect in a column, if there is one. -/
def effect? (l : Line) (a : Column) : Option Effect :=
  (l.get a.channel).columns[a.index]

/-- The effects of a channel that are read before a column. -/
def effectsBefore (l : Line) (a : Column) (c : Channel) : List Effect :=
  (a.indicesBefore c).flatMap fun i => (l.effect? ⟨c, i⟩).toList

/-- A line stops playback in a column and not before. -/
structure HaltsIn (l : Line) (a : Column) : Prop where
  /-- The column stops playback. -/
  halts : (l.effect? a).any Effect.isHalt = true
  /-- No column before does. -/
  first : ∀ b ∈ a.before, (l.effect? b).any Effect.isHalt = false

variable {l : Line} {a : Column}

/-- What is gathered from the effects before a column is gathered channel by channel. -/
theorem flatMap_effectsBefore {α : Type} (l : Line) (a : Column) (f : Channel → Effect → List α) :
    (Channel.all.flatMap fun c => (l.effectsBefore a c).flatMap (f c)) =
      a.before.flatMap fun b => (l.effect? b).toList.flatMap (f b.channel) := by
  rw [Column.before_eq, List.flatMap_assoc]
  refine congrArg (Channel.all.flatMap ·) (funext fun c => ?_)
  rw [effectsBefore, List.flatMap_assoc, List.flatMap_map]

/-- **A line that stops playback does so in some column.** -/
theorem halts_iff (l : Line) : l.halts = true ↔ ∃ a, l.HaltsIn a := by
  constructor
  · intro h
    obtain ⟨c, -, hrow⟩ := List.any_eq_true.mp h
    obtain ⟨i, hi⟩ := (l.get c).halts_iff.mp hrow
    have hsome : (Column.all.find? fun b => (l.effect? b).any Effect.isHalt).isSome :=
      List.find?_isSome.mpr ⟨⟨c, i⟩, Column.mem_all _, hi⟩
    obtain ⟨a, ha⟩ := Option.isSome_iff_exists.mp hsome
    obtain ⟨hhalts, before, behind, hall, hfirst⟩ := List.find?_eq_some_iff_append.mp ha
    -- the columns that stand before the first halt are those that are read before it
    have hbefore : a.before = before := by
      have hne : ∀ b ∈ before, (b != a) = true := by
        rintro b hb
        rw [bne_iff_ne]
        rintro rfl
        have hnot := hfirst b hb
        rw [hhalts] at hnot
        cases hnot
      rw [Column.before, hall, List.takeWhile_append_of_pos hne]
      simp
    refine ⟨a, hhalts, ?_⟩
    rw [hbefore]
    intro b hb
    simpa using hfirst b hb
  · rintro ⟨a, h⟩
    exact List.any_eq_true.mpr
      ⟨a.channel, a.channel.mem_all, (l.get a.channel).halts_iff.mpr ⟨a.index, h.halts⟩⟩

namespace HaltsIn

/-- The rows of the channels before the column do not stop playback. -/
theorem halts_of_lt (h : l.HaltsIn a) {c : Channel} (hc : c.index < a.channel.index) :
    (l.get c).halts = false := by
  rw [Bool.eq_false_iff]
  intro hrow
  obtain ⟨i, hi⟩ := (l.get c).halts_iff.mp hrow
  have hfirst : ((l.get c).columns.get i).any Effect.isHalt = false :=
    h.first ⟨c, i⟩ (Column.mem_before.mpr (.inl hc))
  rw [hi] at hfirst
  cases hfirst

/-- The row with the column stops playback. -/
theorem halts_self (h : l.HaltsIn a) : (l.get a.channel).halts = true :=
  (l.get a.channel).halts_iff.mpr ⟨a.index, h.halts⟩

/-- The row of a channel is read exactly if its channel does not come behind the column. -/
theorem reads (h : l.HaltsIn a) (c : Channel) : l.reads c = decide (c.index ≤ a.channel.index) := by
  by_cases hc : c.index ≤ a.channel.index
  · rw [decide_eq_true hc, Line.reads, List.all_eq_true]
    intro d hd
    have hlt := Channel.mem_takeWhile_all.mp hd
    rw [h.halts_of_lt (Nat.lt_of_lt_of_le hlt hc), Bool.not_false]
  · rw [decide_eq_false hc, Line.reads, List.all_eq_false]
    refine ⟨a.channel, Channel.mem_takeWhile_all.mpr (Nat.lt_of_not_le hc), ?_⟩
    rw [h.halts_self]
    exact Bool.false_ne_true

/-- No effect before the column stops playback. -/
theorem isHalt_of_mem (h : l.HaltsIn a) {c : Channel} {e : Effect} (he : e ∈ l.effectsBefore a c) :
    e.isHalt = false := by
  obtain ⟨i, hi, he⟩ := List.mem_flatMap.mp he
  have hfirst := h.first ⟨c, i⟩ (Column.mem_indicesBefore.mp hi)
  rw [Option.mem_toList.mp he] at hfirst
  exact hfirst

/-- A row before the column is obeyed as a whole. -/
theorem obeyed_of_lt (h : l.HaltsIn a) {c : Channel} (hc : c.index < a.channel.index) :
    (l.get c).obeyed = l.effectsBefore a c := by
  have hindices : a.indicesBefore c = List.finRange 3 := by
    refine List.filter_eq_self.mpr fun i _ => ?_
    rw [decide_eq_true hc, Bool.true_or]
  have heffects : (l.get c).effects = l.effectsBefore a c := by
    rw [Row.effects_eq, effectsBefore, hindices]
    rfl
  rw [Row.obeyed, heffects]
  refine List.takeWhile_eq_self_iff.mpr ?_
  intro e he
  rw [h.isHalt_of_mem he, Bool.not_false]

/-- The row with the column is obeyed up to it. -/
theorem obeyed_self (h : l.HaltsIn a) : (l.get a.channel).obeyed = l.effectsBefore a a.channel := by
  obtain ⟨e, he, hhalt⟩ := (Option.any_eq_true _ _).mp h.halts
  have hcolumn : (l.get a.channel).columns.get a.index = some e := he
  have hsplit : ∀ i : Fin 3, List.finRange 3 =
      (List.finRange 3).filter (fun j => j < i) ++
        i :: (List.finRange 3).filter fun j => i < j := by decide
  have hindices : a.indicesBefore a.channel = (List.finRange 3).filter fun j => j < a.index := by
    simp [Column.indicesBefore]
  have hbefore : ((List.finRange 3).filter fun j => j < a.index).flatMap
      (fun j => ((l.get a.channel).columns.get j).toList) = l.effectsBefore a a.channel := by
    rw [effectsBefore, hindices]
    rfl
  rw [Row.obeyed, Row.effects_eq, hsplit a.index, List.flatMap_append, List.flatMap_cons, hbefore,
    hcolumn, List.takeWhile_append_of_pos]
  · -- the column itself ends what is obeyed
    rw [Option.toList_some, List.singleton_append, List.takeWhile_cons_of_neg, List.append_nil]
    simp [hhalt]
  · intro e he
    rw [h.isHalt_of_mem he, Bool.not_false]

/-- Of a row that is read, the effects before the column are obeyed. -/
theorem obeyed (h : l.HaltsIn a) {c : Channel} (hc : c.index ≤ a.channel.index) :
    (l.get c).obeyed = l.effectsBefore a c := by
  obtain hlt | heq := Nat.lt_or_eq_of_le hc
  · exact h.obeyed_of_lt hlt
  · obtain rfl := Channel.index_inj.mp heq
    exact h.obeyed_self

/-- Nothing is read behind the column. -/
theorem effectsBefore_of_gt (l : Line) {c : Channel} (hc : a.channel.index < c.index) :
    l.effectsBefore a c = [] := by
  have hindices : a.indicesBefore c = [] := by
    refine List.filter_eq_nil_iff.mpr fun i _ => ?_
    have hne : c ≠ a.channel := by
      rintro rfl
      exact Nat.lt_irrefl _ hc
    simp [hne, Nat.not_lt.mpr (Nat.le_of_lt hc)]
  rw [effectsBefore, hindices]
  rfl

end HaltsIn
end Line
end Chiptune
