import Mathlib.Logic.Function.Iterate
import Chiptune.Proofs.Checked.Modulation

/-! # Readings of a sequence

A cursor reads the values of its sequence in order.  Behind the last one it goes around in the loop,
if there is one, and reads nothing for ever otherwise.

* `Sequence.place?` and `Sequence.value?` are the position and the value that a reading is about.
* `position?_run` says that a cursor moves along these positions, and `next_run` that it yields these
  values.
* `Cursor.behind` are the readings of a cursor that may be absent, and `advance_behind` is `next_run`
  for them. -/

namespace Chiptune

namespace Sequence

variable {s : Sequence}

/-- The position of a reading: the readings behind the end go around in the loop. -/
def place? (s : Sequence) (n : Nat) : Option Nat :=
  if n < s.length then some n
  else s.loop.map fun start => start + (n - s.length) % (s.length - start)

/-- The value of a reading. -/
def value? (s : Sequence) (n : Nat) : Option UInt8 :=
  (s.place? n).bind fun i => s.values[i]?

/-- The loop starts within the sequence. -/
theorem loop_lt_length {start : Nat} (h : s.loop = some start) : start < s.length :=
  s.loop_lt start h

/-- Behind the last value, the loop starts. -/
theorem place?_length (s : Sequence) : s.place? s.length = s.loop := by
  rw [place?, if_neg (Nat.lt_irrefl _), Nat.sub_self]
  simp only [Nat.zero_mod, Nat.add_zero, Option.map_id']

/-- Once there is nothing left to read, there never is again. -/
theorem place?_of_none {n k : Nat} (h : s.place? n = none) (hk : n ≤ k) : s.place? k = none := by
  unfold place? at h ⊢
  split at h
  · cases h
  · rw [Option.map_eq_none_iff] at h
    rw [if_neg (by omega), h]
    rfl

/-- Counting on in a round leads to its start from its end. -/
theorem succ_mod_of_pos {d : Nat} (hd : 0 < d) (n : Nat) :
    (n + 1) % d = if n % d + 1 = d then 0 else n % d + 1 := by
  rw [← Nat.mod_add_mod]
  have hlt := Nat.mod_lt n hd
  split
  · next hend => rw [hend, Nat.mod_self]
  · exact Nat.mod_eq_of_lt (by omega)

/-- From one reading to the next, the position moves on by one, or else to the loop. -/
theorem place?_succ {n i : Nat} (h : s.place? n = some i) :
    s.place? (n + 1) = if i + 1 < s.length then some (i + 1) else s.loop := by
  rw [place?] at h
  split at h
  · next hn =>
    obtain rfl := Option.some.inj h
    rcases Nat.lt_or_ge (n + 1) s.length with hnext | hend
    · rw [if_pos hnext, place?, if_pos hnext]
    · -- the last value has been read
      have hlast : n + 1 = s.length := by omega
      rw [if_neg (Nat.not_lt.mpr hend), hlast, place?_length]
  · next hn =>
    obtain ⟨start, hloop, rfl⟩ := Option.map_eq_some_iff.mp h
    have hstart := loop_lt_length hloop
    have hround : 0 < s.length - start := by omega
    have hlt := Nat.mod_lt (n - s.length) hround
    have hcount : n + 1 - s.length = (n - s.length) + 1 := by omega
    rw [place?, if_neg (by omega), hloop, Option.map_some, hcount, succ_mod_of_pos hround]
    -- the round ends where the sequence does
    split
    · next hend => rw [if_neg (by omega), Nat.add_zero]
    · next hgoing => rw [if_pos (by omega), Nat.add_assoc]

namespace Cursor

/-- Reading a value moves the cursor behind it. -/
theorem next_of_position {c : Cursor} {i : Nat} (h : c.position? = some i) :
    c.next = (c.sequence.values[i]?, { c with index := i + 1 }) := by
  rw [next, h]

/-- A cursor without a position stays. -/
theorem next_of_no_position {c : Cursor} (h : c.position? = none) : c.next = (none, c) := by
  rw [next, h]

/-- What a cursor yields is at its position. -/
theorem fst_next (c : Cursor) :
    c.next.1 = c.position?.bind fun i => c.sequence.values[i]? := by
  rw [next]
  cases c.position? <;> rfl

/-- The sequence stays the same through all readings. -/
theorem sequence_run (c : Cursor) (n : Nat) : ((fun c => c.next.2)^[n] c).sequence = c.sequence := by
  induction n with
  | zero => rfl
  | succ n ih => rw [Function.iterate_succ_apply', sequence_next, ih]

/-- **A cursor moves along the positions of its readings.** -/
theorem position?_run (s : Sequence) (n : Nat) :
    ((fun c => c.next.2)^[n] s.cursor).position? = s.place? n := by
  induction n with
  | zero =>
      rw [place?]
      cases hloop : s.loop with
      | none => exact if_congr Iff.rfl rfl hloop
      | some start =>
          -- a sequence with a loop has values
          have hlength : 0 < s.length := Nat.zero_lt_of_lt (loop_lt_length hloop)
          rw [if_pos hlength]
          exact if_pos hlength
  | succ n ih =>
      have hsequence := sequence_run s.cursor n
      rw [Function.iterate_succ_apply']
      generalize (fun c : Cursor => c.next.2)^[n] s.cursor = c at ih hsequence
      cases hplace : s.place? n with
      | none =>
          rw [next_of_no_position (ih.trans hplace), ih, hplace,
            place?_of_none hplace (Nat.le_succ n)]
      | some i =>
          rw [next_of_position (ih.trans hplace), place?_succ hplace, position?]
          dsimp only
          rw [hsequence]
          rfl

/-- **A cursor yields the values of its readings.** -/
theorem next_run (s : Sequence) (n : Nat) :
    ((fun c => c.next.2)^[n] s.cursor).next.1 = s.value? n := by
  rw [fst_next, position?_run, sequence_run]
  rfl

/-! ### Cursors that may be absent -/

/-- A cursor behind some readings. -/
def behind (c? : Option Cursor) (n : Nat) : Option Cursor :=
  (fun c? => (advance c?).2)^[n] c?

/-- One more reading leads one further. -/
theorem behind_succ (c? : Option Cursor) (n : Nat) :
    behind c? (n + 1) = (advance (behind c? n)).2 :=
  Function.iterate_succ_apply' ..

/-- The readings of a cursor that is there. -/
theorem behind_some (c : Cursor) (n : Nat) :
    behind (some c) n = some ((fun c => c.next.2)^[n] c) := by
  induction n with
  | zero => rfl
  | succ n ih =>
      rw [behind_succ, ih, Function.iterate_succ_apply']
      rfl

/-- Whether a cursor, if there is one, stands at the first value. -/
def AtStart (c? : Option Cursor) : Prop :=
  c?.map restart = c?

/-- A cursor that restarts reads its first value next, and one that is absent has none. -/
theorem atStart_restart (c? : Option Cursor) : AtStart (c?.map restart) := by
  cases c? <;> rfl

/-- **From the start of a sequence, its readings are yielded one after the other.** -/
theorem advance_behind {c? : Option Cursor} (h : AtStart c?) (n : Nat) :
    (advance (behind c? n)).1 = c?.bind fun c => c.sequence.value? n := by
  cases c? with
  | none =>
      have hnone : behind none n = none := Function.iterate_fixed rfl n
      rw [hnone]
      rfl
  | some c =>
      have hstart : c = c.sequence.cursor := (Option.some.inj h).symm
      rw [behind_some, hstart]
      exact next_run c.sequence n

end Cursor
end Sequence
end Chiptune
