import Chiptune.Proofs.Bank.Readings
import Mathlib.Data.List.Induction

/-! # What a sequence yields

A sequence stands for a stream of values, finite or not.  Its cursor can be read and sent back to
the first value at any time, and what it yields next depends only on how often it was read since.

* `Sequence.ofBytes_eq_ok` says which sequences are accepted.
* `Sequence.IsStream` says which stream some values and a loop describe, and `isStream_value?` that
  the readings of a sequence are this stream.
* `Sequence.Cursor.after` is a cursor behind some calls, `Cursor.readings` counts how often it was
  read since it was last sent back, and `after_eq_run` says that nothing else matters. -/

namespace Chiptune

namespace Sequence

variable {s : Sequence} {values : List UInt8} {loop : Option Nat}

/-! ## Acceptance -/

/-- The sequence of some bytes has these bytes and this loop. -/
theorem ofBytes_eq_ok : ofBytes values loop = .ok s ↔ s.values = values ∧ s.loop = loop := by
  constructor
  · intro h
    rw [ofBytes] at h
    split at h
    · cases loop with
      | none =>
          obtain rfl := Except.ok.inj h
          exact ⟨rfl, rfl⟩
      | some start =>
          dsimp only at h
          split at h
          · obtain rfl := Except.ok.inj h
            exact ⟨rfl, rfl⟩
          · cases h
    · cases h
  · rintro ⟨rfl, rfl⟩
    rw [ofBytes, dif_pos s.length_le]
    obtain ⟨values, loop, length_le, loop_lt⟩ := s
    cases loop with
    | none => rfl
    | some start => exact dif_pos (loop_lt start rfl)

/-- Bytes and a loop are accepted if there are not too many and the loop starts within them. -/
theorem exists_ofBytes_eq_ok :
    (∃ s, ofBytes values loop = .ok s) ↔
      values.length ≤ 256 ∧ ∀ start ∈ loop, start < values.length := by
  constructor
  · rintro ⟨s, hs⟩
    obtain ⟨rfl, rfl⟩ := ofBytes_eq_ok.mp hs
    exact ⟨s.length_le, s.loop_lt⟩
  · rintro ⟨length_le, loop_lt⟩
    exact ⟨⟨values, loop, length_le, loop_lt⟩, ofBytes_eq_ok.mpr ⟨rfl, rfl⟩⟩

/-! ## Streams -/

/-- The stream of some values with a loop: first the values in order, then those from the start of
the loop on, over and over.  Without a loop, nothing follows the values. -/
structure IsStream (values : List UInt8) (loop : Option Nat) (stream : Nat → Option UInt8) :
    Prop where
  /-- The values come first. -/
  of_lt : ∀ (n : Nat) (h : n < values.length), stream n = some values[n]
  /-- Behind them, the loop goes around. -/
  of_loop : ∀ n start, values.length ≤ n → loop = some start →
    ∃ h : start + (n - values.length) % (values.length - start) < values.length,
      stream n = some (values.get ⟨_, h⟩)
  /-- Without a loop there is nothing for ever. -/
  of_end : ∀ n, values.length ≤ n → loop = none → stream n = none

/-- **The readings of a sequence are the stream of its values and its loop.** -/
theorem isStream_value? (s : Sequence) : IsStream s.values s.loop s.value? where
  of_lt n h := by
    have hplace : s.place? n = some n := if_pos h
    rw [value?, hplace, Option.bind_some, List.getElem?_eq_getElem h]
  of_loop n start hn hloop := by
    have hstart : start < s.values.length := loop_lt_length hloop
    have hbehind : ¬n < s.length := Nat.not_lt.mpr hn
    -- behind the end, the places go around from the loop on
    have hround := Nat.mod_lt (n - s.values.length) (Nat.sub_pos_of_lt hstart)
    have hplace : s.place? n =
        some (start + (n - s.values.length) % (s.values.length - start)) := by
      rw [place?, if_neg hbehind, hloop]
      rfl
    refine ⟨by omega, ?_⟩
    rw [value?, hplace, Option.bind_some, List.get_eq_getElem]
    exact List.getElem?_eq_getElem _
  of_end n hn hloop := by
    have hbehind : ¬n < s.length := Nat.not_lt.mpr hn
    have hplace : s.place? n = none := by
      rw [place?, if_neg hbehind, hloop]
      rfl
    rw [value?, hplace]
    rfl

/-! ## Cursors that are read and sent back -/

namespace Cursor

/-- What a caller asks of a cursor. -/
inductive Call where
  /-- Read a value. -/
  | next
  /-- Return to the first value. -/
  | restart
  deriving DecidableEq, Repr

/-- The cursor behind a call. -/
def serve (c : Cursor) : Call → Cursor
  | .next => c.next.2
  | .restart => c.restart

/-- The cursor behind some calls. -/
def after (c : Cursor) (calls : List Call) : Cursor :=
  calls.foldl serve c

/-- How often some calls read a value since they last returned to the first one. -/
def readings (calls : List Call) : Nat :=
  calls.foldl (fun n call => if call = .next then n + 1 else 0) 0

/-- The cursor behind some calls and one more. -/
theorem after_concat (c : Cursor) (calls : List Call) (call : Call) :
    c.after (calls ++ [call]) = (c.after calls).serve call :=
  List.foldl_append

/-- A value that is read counts. -/
@[simp] theorem readings_concat_next (calls : List Call) :
    readings (calls ++ [.next]) = readings calls + 1 :=
  List.foldl_append

/-- A restart begins the count anew. -/
@[simp] theorem readings_concat_restart (calls : List Call) :
    readings (calls ++ [.restart]) = 0 :=
  List.foldl_append

/-- **Only the readings since the last return matter.** -/
theorem after_eq_run (s : Sequence) (calls : List Call) :
    s.cursor.after calls = (fun c => c.next.2)^[readings calls] s.cursor := by
  induction calls using List.reverseRecOn with
  | nil => rfl
  | append_singleton calls call ih =>
      rw [after_concat, ih]
      cases call with
      | next =>
          rw [readings_concat_next, Function.iterate_succ_apply']
          rfl
      | restart =>
          -- the readings before have not changed the sequence
          have hsequence := sequence_run s.cursor (readings calls)
          generalize (fun c : Cursor => c.next.2)^[readings calls] s.cursor = c at hsequence
          rw [readings_concat_restart, serve, restart, hsequence]
          rfl

end Cursor

/-- A sequence yields the stream of some values and a loop, from the start again whenever it is sent
back there. -/
def Streams (s : Sequence) (values : List UInt8) (loop : Option Nat) : Prop :=
  ∃ stream, IsStream values loop stream ∧
    ∀ calls : List Cursor.Call,
      (s.cursor.after calls).next.1 = stream (Cursor.readings calls)

/-- Every sequence yields the stream of its values. -/
theorem streams_values (s : Sequence) : s.Streams s.values s.loop := by
  refine ⟨s.value?, s.isStream_value?, ?_⟩
  intro calls
  rw [Cursor.after_eq_run, Cursor.next_run]

/-- **What is accepted as a sequence, and what it yields.**  Values are accepted exactly if there
are at most 256 of them and the loop, if there is one, starts at one of them.  A cursor then yields
the values in order and goes around in the loop behind them, or yields nothing more for ever;
however often it was read, a return to the first value starts this stream again. -/
theorem accepted_sequences_stream (loop : Option Nat) :
    (∀ values : List UInt8,
      ((∃ s, ofBytes values loop = .ok s) ↔
        values.length ≤ 256 ∧ ∀ start ∈ loop, start < values.length) ∧
      ∀ s, ofBytes values loop = .ok s → s.Streams values loop) ∧
    ∀ values : List Int8,
      ((∃ s, ofSigned values loop = .ok s) ↔
        values.length ≤ 256 ∧ ∀ start ∈ loop, start < values.length) ∧
      ∀ s, ofSigned values loop = .ok s → s.Streams (values.map Int8.toUInt8) loop := by
  have hstreams (values : List UInt8) (s : Sequence) (hs : ofBytes values loop = .ok s) :
      s.Streams values loop := by
    obtain ⟨rfl, rfl⟩ := ofBytes_eq_ok.mp hs
    exact s.streams_values
  refine ⟨fun values => ⟨exists_ofBytes_eq_ok, hstreams values⟩, ?_⟩
  intro values
  refine ⟨?_, hstreams (values.map Int8.toUInt8)⟩
  rw [← List.length_map Int8.toUInt8]
  exact exists_ofBytes_eq_ok

/-- Three values of which the last two are repeated. -/
def loopingSequence : Sequence :=
  ⟨[7, 8, 9], some 1, by decide, by decide⟩

/-- Four readings go around in the loop, and a return leads back to the first value. -/
theorem accepted_loopingSequence :
    ofBytes [7, 8, 9] (some 1) = .ok loopingSequence ∧ loopingSequence.Streams [7, 8, 9] (some 1) ∧
      (loopingSequence.cursor.after [.next, .next, .next, .next]).next.1 = some 9 ∧
      (loopingSequence.cursor.after [.next, .next, .next, .next, .restart]).next.1 = some 7 := by
  have haccepted : ofBytes [7, 8, 9] (some 1) = .ok loopingSequence := rfl
  obtain ⟨hbytes, -⟩ := accepted_sequences_stream (some 1)
  exact ⟨haccepted, (hbytes [7, 8, 9]).2 loopingSequence haccepted, rfl, rfl⟩

end Sequence
end Chiptune
