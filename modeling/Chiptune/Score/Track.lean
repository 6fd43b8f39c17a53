import Chiptune.Score.Row

/-! # Tracks

A track is a column of rows for one channel.  `row_set`, `row_resize` and `row_blank` say what each
operation does to the row at a position; positions behind the end read as empty. -/

namespace Chiptune

/-- A column of rows. -/
structure Track where
  /-- The rows from the first to the last. -/
  rows : Array Row
  deriving DecidableEq, Repr

namespace Track

/-- The track of some number of empty rows. -/
def blank (size : Nat) : Track :=
  ⟨Array.replicate size Row.empty⟩

instance : Inhabited Track := ⟨blank 0⟩

/-- The number of rows. -/
def size (t : Track) : Nat :=
  t.rows.size

/-- The row at a position, if the track is that long. -/
def row? (t : Track) (i : Nat) : Option Row :=
  t.rows[i]?

/-- The row at a position; behind the end it is empty. -/
def row (t : Track) (i : Nat) : Row :=
  (t.row? i).getD Row.empty

/-- Change the row at a position; a position behind the end is ignored. -/
def modify (t : Track) (i : Nat) (f : Row → Row) : Track :=
  ⟨t.rows.modify i f⟩

/-- Replace the row at a position; a position behind the end is ignored. -/
def set (t : Track) (i : Nat) (r : Row) : Track :=
  ⟨t.rows.setIfInBounds i r⟩

/-- Cut a track off, or extend it by empty rows. -/
def resize (t : Track) (size : Nat) : Track :=
  ⟨Array.ofFn fun i : Fin size => t.row i⟩

/-- The rows that carry anything, with their positions. -/
def occupied (t : Track) : List (Nat × Row) :=
  (List.range t.size).filterMap fun i =>
    let r := t.row i
    if r.isEmpty then none else some (i, r)

/-- A blank track has the size that is asked for. -/
@[simp] theorem size_blank (n : Nat) : (blank n).size = n := by
  simp [blank, size]

/-- Setting a row keeps the size. -/
@[simp] theorem size_set (t : Track) (i : Nat) (r : Row) : (t.set i r).size = t.size := by
  simp [set, size]

/-- Changing a row keeps the size. -/
@[simp] theorem size_modify (t : Track) (i : Nat) (f : Row → Row) :
    (t.modify i f).size = t.size := by
  simp [modify, size]

/-- A resized track has the new size, be it cut or filled up. -/
@[simp] theorem size_resize (t : Track) (n : Nat) : (t.resize n).size = n := by
  simp [resize, size]

/-- Every row of a blank track is empty. -/
@[simp] theorem row_blank (n i : Nat) : (blank n).row i = Row.empty := by
  simp only [row, row?, blank, Array.getElem?_replicate]
  split <;> rfl

/-- A replaced row is read back where the track is long enough. -/
theorem row_set (t : Track) (i j : Nat) (r : Row) :
    (t.set i r).row j = if i = j ∧ i < t.size then r else t.row j := by
  simp only [row, row?, set, size, Array.getElem?_setIfInBounds]
  by_cases h : i = j
  · subst h
    by_cases hi : i < t.rows.size <;> simp [hi]
  · simp [h]

/-- Resizing keeps the rows before the new end and erases the others. -/
theorem row_resize (t : Track) (n i : Nat) :
    (t.resize n).row i = if i < n then t.row i else Row.empty := by
  by_cases h : i < n <;> simp [resize, row, row?, h]

end Track
end Chiptune
