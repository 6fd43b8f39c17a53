import Chiptune.EditError

/-! # Tables

A table holds values under identifiers below 64.  Its slots go up to the highest identifier under
which a value was ever stored, so an identifier without a value has an empty slot or none at all;
`get?_grow` says that this makes no difference.  `get?_insert`, `get?_remove` and `get?_modify` say
what each operation does to the value of an identifier. -/

namespace Chiptune

/-- The number of identifiers. -/
def Table.capacity : Nat := 64

/-- Values by identifier. -/
structure Table (α : Type u) where
  /-- The slots in the order of the identifiers, of which some may be empty. -/
  slots : List (Option α)
  /-- No slot is out of range. -/
  length_le : slots.length ≤ Table.capacity
  deriving DecidableEq, Repr

namespace Table

/-- The table without values. -/
def empty : Table α :=
  ⟨[], Nat.zero_le capacity⟩

instance : Inhabited (Table α) := ⟨empty⟩

/-- The value of an identifier. -/
def get? (t : Table α) (id : Nat) : Option α :=
  t.slots[id]?.join

/-! ## Slots -/

/-- Fill or empty a slot that is there. -/
def setSlot (t : Table α) (id : Nat) (slot : Option α) : Table α :=
  ⟨t.slots.set id slot, Nat.le_trans (Nat.le_of_eq List.length_set) t.length_le⟩

/-- Add empty slots up to an identifier. -/
def grow (t : Table α) {id : Nat} (h : id < capacity) : Table α where
  slots :=
    if t.slots.length ≤ id then t.slots ++ List.replicate (id + 1 - t.slots.length) none
    else t.slots
  length_le := by
    have hlength := t.length_le
    split
    · rw [List.length_append, List.length_replicate]
      omega
    · exact hlength

/-- A slot that is there is read back, and the others stay. -/
theorem get?_setSlot {t : Table α} {id : Nat} (h : id < t.slots.length) (slot : Option α)
    (j : Nat) : (t.setSlot id slot).get? j = if id = j then slot else t.get? j := by
  show (t.slots.set id slot)[j]?.join = _
  by_cases hj : id = j
  · subst hj
    rw [List.getElem?_set_self h, if_pos rfl, Option.join_some]
  · rw [List.getElem?_set_ne hj, if_neg hj, get?]

/-- An identifier without a slot has no value. -/
theorem get?_of_length_le {t : Table α} {id : Nat} (h : t.slots.length ≤ id) :
    t.get? id = none := by
  rw [get?, List.getElem?_eq_none h, Option.join_none]

/-- An identifier with a value has a slot. -/
theorem lt_length_of_get? {t : Table α} {id : Nat} {a : α} (h : t.get? id = some a) :
    id < t.slots.length := by
  refine Nat.lt_of_not_le fun hle => ?_
  rw [get?_of_length_le hle] at h
  cases h

/-- The slots of a table that has grown reach up to the identifier. -/
theorem lt_length_grow (t : Table α) {id : Nat} (h : id < capacity) :
    id < (t.grow h).slots.length := by
  show id < (if _ then _ else _ : List (Option α)).length
  split
  · rw [List.length_append, List.length_replicate]
    omega
  · omega

/-- An empty slot reads like a missing one. -/
@[simp] theorem get?_grow (t : Table α) {id : Nat} (h : id < capacity) (j : Nat) :
    (t.grow h).get? j = t.get? j := by
  show (if _ then _ else _ : List (Option α))[j]?.join = _
  split
  · rcases Nat.lt_or_ge j t.slots.length with hj | hj
    · rw [List.getElem?_append_left hj, get?]
    · rw [List.getElem?_append_right hj, get?_of_length_le hj, List.getElem?_replicate]
      split <;> rfl
  · rfl

/-! ## Operations -/

/-- Store a value under an identifier; the result comes with the value that was there before. -/
def insert (t : Table α) (id : Nat) (a : α) : Except EditError (Option α × Table α) :=
  if h : id < capacity then
    have hslot := t.lt_length_grow h
    .ok ((t.grow h).slots[id], (t.grow h).setSlot id (some a))
  else .error (.tableIdOutOfRange id)

/-- The table of some values; identifiers out of range are ignored, and later values win. -/
def ofList (entries : List (Nat × α)) : Table α :=
  entries.foldl (fun t (id, a) =>
    match t.insert id a with
    | .ok (_, t') => t'
    | .error _ => t) empty

/-- Remove the value of an identifier; the result comes with the value that was there. -/
def remove (t : Table α) (id : Nat) : Option α × Table α :=
  (t.get? id, t.setSlot id none)

/-- Change the value of an identifier, if there is one. -/
def modify (t : Table α) (id : Nat) (f : α → α) : Table α :=
  match t.get? id with
  | some a => t.setSlot id (some (f a))
  | none => t

/-- The values with their identifiers, by ascending identifier. -/
def entries (t : Table α) : List (Nat × α) :=
  t.slots.zipIdx.filterMap fun (slot, id) => slot.map fun a => (id, a)

/-- The number of values. -/
def size (t : Table α) : Nat :=
  t.slots.countP Option.isSome

/-- Whether there are no values. -/
def isEmpty (t : Table α) : Bool :=
  t.size == 0

/-- The lowest identifier without a value. -/
def nextFree? (t : Table α) : Option Nat :=
  (List.range capacity).find? fun id => (t.get? id).isNone

/-- The empty table has no values. -/
@[simp] theorem get?_empty (id : Nat) : (empty : Table α).get? id = none := rfl

/-- A stored value is read back, the others stay, and the value before it is handed out. -/
theorem get?_insert {t t' : Table α} {id : Nat} {a : α} {old : Option α}
    (h : t.insert id a = .ok (old, t')) (j : Nat) :
    old = t.get? id ∧ t'.get? j = if id = j then some a else t.get? j := by
  rw [insert] at h
  split at h
  · next hid =>
      have hslot := t.lt_length_grow hid
      obtain ⟨rfl, rfl⟩ := Prod.mk.inj (Except.ok.inj h)
      constructor
      · rw [← t.get?_grow hid id, get?, List.getElem?_eq_getElem hslot, Option.join_some]
      · rw [get?_setSlot hslot, get?_grow]
  · cases h

/-- A removed value is gone and the others stay. -/
theorem get?_remove (t : Table α) (id j : Nat) :
    (t.remove id).2.get? j = if id = j then none else t.get? j := by
  show (t.setSlot id none).get? j = _
  rcases Nat.lt_or_ge id t.slots.length with hid | hid
  · exact get?_setSlot hid none j
  · have hkept : (t.setSlot id none).get? j = t.get? j := by
      show (t.slots.set id none)[j]?.join = _
      rw [List.set_eq_of_length_le hid, get?]
    rw [hkept]
    split
    · next hj => rw [← hj, get?_of_length_le hid]
    · rfl

/-- A changed value is read back and the others stay. -/
theorem get?_modify (t : Table α) (id j : Nat) (f : α → α) :
    (t.modify id f).get? j = if id = j then (t.get? id).map f else t.get? j := by
  rw [modify]
  cases hget : t.get? id with
  | some a => exact get?_setSlot (lt_length_of_get? hget) (some (f a)) j
  | none =>
      show t.get? j = _
      split
      · next hj => rw [← hj, hget, Option.map_none]
      · rfl

end Table
end Chiptune
