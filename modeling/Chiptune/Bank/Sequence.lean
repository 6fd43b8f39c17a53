import Chiptune.EditError

/-! # Sequences

A sequence is a list of bytes that are read one per frame.  Behind its last value it goes on at its
loop, if it has one, and yields nothing otherwise.  A cursor is a place in a sequence. -/

namespace Chiptune

/-- A list of per-frame values with an optional loop. -/
@[ext]
structure Sequence where
  /-- The values in order. -/
  values : List UInt8
  /-- The position at which the sequence goes on behind its end. -/
  loop : Option Nat
  /-- A sequence has at most 256 values. -/
  length_le : values.length ≤ 256
  /-- The loop starts within the sequence. -/
  loop_lt : ∀ i ∈ loop, i < values.length
  deriving DecidableEq, Repr

namespace Sequence

/-- The sequence without values. -/
def empty : Sequence where
  values := []
  loop := none
  length_le := Nat.zero_le _
  loop_lt := nofun

instance : Inhabited Sequence := ⟨empty⟩

/-- The sequence of some bytes, refused if there are too many or if the loop starts behind them. -/
def ofBytes (values : List UInt8) (loop : Option Nat) : Except EditError Sequence :=
  if length_le : values.length ≤ 256 then
    match loop with
    | none => .ok { values, loop := none, length_le, loop_lt := nofun }
    | some i =>
        if h : i < values.length then
          .ok { values, loop := some i, length_le, loop_lt := fun _ hj => Option.some.inj hj ▸ h }
        else .error (.loopIndexOutOfRange i values.length)
  else .error (.sequenceTooLong values.length)

/-- The sequence of some signed offsets. -/
def ofSigned (values : List Int8) (loop : Option Nat) : Except EditError Sequence :=
  ofBytes (values.map Int8.toUInt8) loop

/-- The number of values. -/
def length (s : Sequence) : Nat :=
  s.values.length

/-- Whether there are no values. -/
def isEmpty (s : Sequence) : Bool :=
  s.values.isEmpty

/-- A place in a sequence, from which its values are read. -/
structure Cursor where
  /-- The sequence that is read. -/
  sequence : Sequence
  /-- The position of the next value, or the length behind the last. -/
  index : Nat
  deriving DecidableEq, Repr

/-- The cursor at the first value. -/
def cursor (s : Sequence) : Cursor :=
  { sequence := s, index := 0 }

/-- The cursor at the first value of a sequence that has values. -/
def cursor? (s : Sequence) : Option Cursor :=
  if s.isEmpty then none else some s.cursor

namespace Cursor

/-- Return to the first value. -/
def restart (c : Cursor) : Cursor :=
  { c with index := 0 }

/-- The position that is read next: behind the end it is the loop. -/
def position? (c : Cursor) : Option Nat :=
  if c.index < c.sequence.length then some c.index else c.sequence.loop

/-- The next value, if there is one, and the cursor behind it. -/
def next (c : Cursor) : Option UInt8 × Cursor :=
  match c.position? with
  | some i => (c.sequence.values[i]?, { c with index := i + 1 })
  | none => (none, c)

/-- The next value of a cursor that may be absent, and the cursor behind it. -/
def advance : Option Cursor → Option UInt8 × Option Cursor
  | some c => (c.next.1, some c.next.2)
  | none => (none, none)

/-- A cursor restarts within its own sequence. -/
@[simp] theorem sequence_restart (c : Cursor) : c.restart.sequence = c.sequence := rfl

/-- Reading does not change the sequence that is read. -/
@[simp] theorem sequence_next (c : Cursor) : c.next.2.sequence = c.sequence := by
  rw [next]
  split <;> rfl

end Cursor
end Sequence
end Chiptune
