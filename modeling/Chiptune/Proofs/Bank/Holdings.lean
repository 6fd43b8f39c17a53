import Chiptune.Bank.Table
import Mathlib.Data.List.Induction
import Mathlib.Data.Set.Card
import Mathlib.Order.Bounds.Defs

/-! # What a table holds

A table is filled, emptied and changed by a list of calls.  What it holds behind them can be told
from the calls alone: under every identifier the value that was stored there last, unless the
identifier was cleared since.

* `Table.after` is a table behind some calls, and `get?_serve` says what one of them does to the
  value of an identifier.
* `Table.Holds` says of some calls that they leave a value under an identifier, and `get?_after`
  that the table behind them has it there.
* `mem_entries`, `size_eq_ncard` and `nextFree?_eq_some` read the listing, the count and the search
  for a free identifier off the values. -/

namespace Chiptune

universe u

/-- What a caller asks of a table. -/
inductive TableCall (α : Type u) where
  /-- Store a value under an identifier. -/
  | insert (id : Nat) (a : α)
  /-- Remove the value of an identifier. -/
  | remove (id : Nat)
  /-- Change the value of an identifier, if there is one. -/
  | modify (id : Nat) (f : α → α)

namespace TableCall

variable {α : Type u}

/-- The identifier that a call is about. -/
def target : TableCall α → Nat
  | insert id _ => id
  | remove id => id
  | modify id _ => id

/-- What a call makes of the value of its identifier. -/
def change : TableCall α → Option α → Option α
  | insert id a, before => if id < Table.capacity then some a else before
  | remove _, _ => none
  | modify _ f, before => before.map f

/-- There is a value behind a call exactly if the call inserts it or changes another one into it. -/
theorem change_eq_some {call : TableCall α} {before : Option α} {a : α}
    (hbefore : Table.capacity ≤ call.target → before = none) :
    call.change before = some a ↔
      call = .insert call.target a ∧ call.target < Table.capacity ∨
        ∃ f b, call = .modify call.target f ∧ before = some b ∧ f b = a := by
  cases call with
  | insert id b =>
      rw [change]
      split
      · next hlt => simp [target, hlt]
      · next hle => simp [target, hle, hbefore (Nat.le_of_not_lt hle)]
  | remove id => simp [change, target]
  | modify id f => simp [change, target]

end TableCall

namespace Table

variable {α : Type u} {t : Table α} {calls : List (TableCall α)} {call : TableCall α}

/-! ## One call -/

/-- Serve a call.  The answer is the value that was there before; a call that is refused leaves the
table as it is. -/
def serve (t : Table α) : TableCall α → Table α × Except EditError (Option α)
  | .insert id a =>
      match t.insert id a with
      | .ok (before, t') => (t', .ok before)
      | .error e => (t, .error e)
  | .remove id =>
      let (before, t') := t.remove id
      (t', .ok before)
  | .modify id f => (t.modify id f, .ok (t.get? id))

/-- Identifiers out of range have no value. -/
theorem get?_of_le {id : Nat} (h : capacity ≤ id) : t.get? id = none :=
  get?_of_length_le (t.length_le.trans h)

/-- An identifier with a value is in range. -/
theorem lt_capacity_of_get? {id : Nat} {a : α} (h : t.get? id = some a) : id < capacity :=
  (lt_length_of_get? h).trans_le t.length_le

/-- An insertion under an identifier out of range is refused. -/
theorem insert_of_le {id : Nat} (h : capacity ≤ id) (a : α) :
    t.insert id a = .error (.tableIdOutOfRange id) :=
  dif_neg (Nat.not_lt.mpr h)

/-- Any other insertion hands out the value that it replaces. -/
theorem exists_insert_of_lt {id : Nat} (h : id < capacity) (a : α) :
    ∃ t', t.insert id a = .ok (t.get? id, t') := by
  have hslot := t.lt_length_grow h
  have hinsert : t.insert id a = .ok ((t.grow h).slots[id], (t.grow h).setSlot id (some a)) :=
    dif_pos h
  exact ⟨_, hinsert.trans (by rw [← (get?_insert hinsert id).1])⟩

/-- An insertion answers with the value that it replaces, or with its refusal. -/
theorem answer_insert (t : Table α) (id : Nat) (a : α) :
    (t.serve (.insert id a)).2 =
      if id < capacity then .ok (t.get? id) else .error (.tableIdOutOfRange id) := by
  rw [serve]
  rcases Nat.lt_or_ge id capacity with hlt | hle
  · obtain ⟨t', hinsert⟩ := t.exists_insert_of_lt hlt a
    rw [hinsert, if_pos hlt]
  · rw [insert_of_le hle, if_neg (Nat.not_lt.mpr hle)]

/-- A call changes the value of its identifier and no other. -/
theorem get?_serve (t : Table α) (call : TableCall α) (j : Nat) :
    (t.serve call).1.get? j =
      if call.target = j then call.change (t.get? j) else t.get? j := by
  cases call with
  | insert id a =>
      show (t.serve (.insert id a)).1.get? j =
        if id = j then (if id < capacity then some a else t.get? j) else t.get? j
      rw [serve]
      rcases Nat.lt_or_ge id capacity with hlt | hle
      · obtain ⟨t', hinsert⟩ := t.exists_insert_of_lt hlt a
        rw [hinsert, if_pos hlt]
        exact (get?_insert hinsert j).2
      · rw [insert_of_le hle, if_neg (Nat.not_lt.mpr hle), ite_self]
  | remove id => exact t.get?_remove id j
  | modify id f =>
      refine (t.get?_modify id j f).trans ?_
      by_cases h : id = j
      · rw [h]
        rfl
      · exact (if_neg h).trans (if_neg h).symm

/-! ## Runs -/

/-- The table behind some calls. -/
def after (t : Table α) (calls : List (TableCall α)) : Table α :=
  calls.foldl (fun t call => (t.serve call).1) t

/-- The table behind some calls and one more. -/
theorem after_concat (t : Table α) (calls : List (TableCall α)) (call : TableCall α) :
    t.after (calls ++ [call]) = ((t.after calls).serve call).1 :=
  List.foldl_append

/-- Some calls leave a value under an identifier: it was inserted there, or another value was
changed into it, and no later call is about the identifier. -/
inductive Holds : List (TableCall α) → Nat → α → Prop where
  /-- The value was inserted. -/
  | inserted {calls behind : List (TableCall α)} {id : Nat} {a : α} :
      id < capacity → (∀ call ∈ behind, call.target ≠ id) →
        Holds (calls ++ .insert id a :: behind) id a
  /-- A value that was held before was changed into it. -/
  | modified {calls behind : List (TableCall α)} {id : Nat} {b : α} (f : α → α) :
      Holds calls id b → (∀ call ∈ behind, call.target ≠ id) →
        Holds (calls ++ .modify id f :: behind) id (f b)

/-- One of some calls is the last one, or it stands among those before. -/
theorem concat_eq_append_cons {before behind : List (TableCall α)} {stored : TableCall α}
    (h : calls ++ [call] = before ++ stored :: behind) :
    behind = [] ∧ calls = before ∧ call = stored ∨
      ∃ between, behind = between ++ [call] ∧ calls = before ++ stored :: between := by
  obtain rfl | ⟨between, last, rfl⟩ := behind.eq_nil_or_concat
  · exact .inl ⟨rfl, List.append_singleton_inj.mp h⟩
  · rw [List.concat_eq_append, ← List.cons_append, ← List.append_assoc] at h
    obtain ⟨rfl, rfl⟩ := List.append_singleton_inj.mp h
    exact .inr ⟨between, List.concat_eq_append, rfl⟩

/-- Calls about other identifiers leave a value where it is. -/
theorem Holds.concat {id : Nat} {a : α} (h : Holds calls id a) (hne : call.target ≠ id) :
    Holds (calls ++ [call]) id a := by
  have hall {behind : List (TableCall α)} (hbehind : ∀ call ∈ behind, call.target ≠ id) :
      ∀ call' ∈ behind ++ [call], call'.target ≠ id :=
    List.forall_mem_append.mpr ⟨hbehind, List.forall_mem_singleton.mpr hne⟩
  cases h with
  | inserted hlt hbehind =>
      rw [List.append_assoc, List.cons_append]
      exact .inserted hlt (hall hbehind)
  | modified f hbefore hbehind =>
      rw [List.append_assoc, List.cons_append]
      exact .modified f hbefore (hall hbehind)

/-- The last call has stored a value, or it was held before and the last call is about another
identifier. -/
theorem holds_concat {id : Nat} {a : α} :
    Holds (calls ++ [call]) id a ↔
      Holds calls id a ∧ call.target ≠ id ∨ call = .insert id a ∧ id < capacity ∨
        ∃ f b, call = .modify id f ∧ Holds calls id b ∧ f b = a := by
  constructor
  · generalize hcalls : calls ++ [call] = all
    intro h
    -- the call that has stored the value is the last one, or it stands among the others
    cases h with
    | inserted hlt hbehind =>
        obtain ⟨rfl, -, rfl⟩ | ⟨between, rfl, rfl⟩ := concat_eq_append_cons hcalls
        · exact .inr (.inl ⟨rfl, hlt⟩)
        · obtain ⟨hbetween, hlast⟩ := List.forall_mem_append.mp hbehind
          exact .inl ⟨.inserted hlt hbetween, hlast call List.mem_cons_self⟩
    | modified f hbefore hbehind =>
        obtain ⟨rfl, rfl, rfl⟩ | ⟨between, rfl, rfl⟩ := concat_eq_append_cons hcalls
        · exact .inr (.inr ⟨f, _, rfl, hbefore, rfl⟩)
        · obtain ⟨hbetween, hlast⟩ := List.forall_mem_append.mp hbehind
          exact .inl ⟨.modified f hbefore hbetween, hlast call List.mem_cons_self⟩
  · rintro (⟨h, hne⟩ | ⟨rfl, hlt⟩ | ⟨f, b, rfl, h, rfl⟩)
    · exact h.concat hne
    · exact .inserted hlt (List.forall_mem_nil _)
    · exact .modified f h (List.forall_mem_nil _)

/-- Without calls, nothing is held. -/
theorem not_holds_nil (id : Nat) (a : α) : ¬Holds [] id a := by
  generalize hcalls : ([] : List (TableCall α)) = calls
  intro h
  cases h <;> exact List.append_ne_nil_of_right_ne_nil _ (List.cons_ne_nil _ _) hcalls.symm

/-- **The table behind some calls has the values that they leave.** -/
theorem get?_after {id : Nat} {a : α} :
    ((empty : Table α).after calls).get? id = some a ↔ Holds calls id a := by
  induction calls using List.reverseRecOn generalizing a with
  | nil =>
      refine iff_of_false ?_ (not_holds_nil id a)
      rw [after, List.foldl_nil, get?_empty]
      exact Option.some_ne_none a ∘ Eq.symm
  | append_singleton calls call ih =>
      rw [after_concat, get?_serve, holds_concat]
      -- a call changes what is held at its own number only
      by_cases htarget : call.target = id
      · subst htarget
        rw [if_pos rfl, TableCall.change_eq_some get?_of_le]
        simp only [ih, ne_eq, not_true, and_false, false_or]
      · rw [if_neg htarget, ih]
        constructor
        · intro h
          exact .inl ⟨h, htarget⟩
        · rintro (⟨h, -⟩ | ⟨rfl, -⟩ | ⟨f, b, rfl, -⟩)
          · exact h
          · exact absurd rfl htarget
          · exact absurd rfl htarget

/-! ## Listing, counting and searching -/

/-- The listing has every value with its identifier. -/
theorem mem_entries {id : Nat} {a : α} : (id, a) ∈ t.entries ↔ t.get? id = some a := by
  rw [entries, List.mem_filterMap, get?, Option.join_eq_some_iff,
    ← List.mk_mem_zipIdx_iff_getElem?]
  constructor
  · rintro ⟨⟨slot, j⟩, hmem, hslot⟩
    obtain ⟨b, rfl, heq⟩ := Option.map_eq_some_iff.mp hslot
    obtain ⟨rfl, rfl⟩ := Prod.mk.inj heq
    exact hmem
  · intro hmem
    exact ⟨_, hmem, rfl⟩

/-- The listing goes up from one identifier to the next. -/
theorem pairwise_entries (t : Table α) :
    (t.entries.map Prod.fst).Pairwise (fun id id' => id < id') := by
  have hslots : t.slots.zipIdx.Pairwise (fun p q => p.2 < q.2) := by
    rw [← List.pairwise_map, List.zipIdx_map_snd]
    exact List.pairwise_lt_range'
  rw [List.pairwise_map]
  refine hslots.filterMap _ ?_
  intro p q hlt e he e' he'
  obtain ⟨a, -, rfl⟩ := Option.map_eq_some_iff.mp he
  obtain ⟨a', -, rfl⟩ := Option.map_eq_some_iff.mp he'
  exact hlt

/-- The count is the length of the listing. -/
theorem length_entries (t : Table α) : t.entries.length = t.size := by
  rw [entries, List.length_filterMap_eq_countP, size]
  simp only [Option.isSome_map]
  conv_rhs => rw [← List.zipIdx_map_fst 0 t.slots, List.countP_map]
  rfl

/-- The count is that of the identifiers with a value. -/
theorem size_eq_ncard (t : Table α) : t.size = {id | ∃ a, t.get? id = some a}.ncard := by
  have hids : {id | ∃ a, t.get? id = some a} = ((t.entries.map Prod.fst).toFinset : Set Nat) := by
    ext id
    simp [mem_entries]
  rw [hids, Set.ncard_coe_finset, List.toFinset_card_of_nodup t.pairwise_entries.nodup,
    List.length_map, length_entries]

/-- A table is empty if no identifier has a value. -/
theorem isEmpty_iff : t.isEmpty = true ↔ ∀ id a, t.get? id ≠ some a := by
  rw [isEmpty, beq_iff_eq, ← length_entries, List.length_eq_zero_iff,
    List.eq_nil_iff_forall_not_mem, Prod.forall]
  simp only [mem_entries, ne_eq]

/-- The search finds the lowest identifier in range without a value. -/
theorem nextFree?_eq_some {id : Nat} :
    t.nextFree? = some id ↔ IsLeast {id | id < capacity ∧ t.get? id = none} id := by
  rw [nextFree?, List.find?_range_eq_some]
  constructor
  · rintro ⟨hfree, hrange, hbefore⟩
    refine ⟨⟨List.mem_range.mp hrange, Option.isNone_iff_eq_none.mp hfree⟩, ?_⟩
    rintro j ⟨-, hj⟩
    -- a smaller number that is free would have been found first
    by_contra hlt
    have hfull := hbefore j (Nat.lt_of_not_le hlt)
    rw [hj] at hfull
    cases hfull
  · rintro ⟨⟨hlt, hfree⟩, hleast⟩
    refine ⟨Option.isNone_iff_eq_none.mpr hfree, List.mem_range.mpr hlt, ?_⟩
    intro j hj
    have hfull : t.get? j ≠ none := by
      intro hnone
      exact Nat.not_le.mpr hj (hleast ⟨hj.trans hlt, hnone⟩)
    rw [Option.isNone_eq_false_iff.mpr (Option.isSome_iff_ne_none.mpr hfull)]
    rfl

/-- The search fails if every identifier in range has a value. -/
theorem nextFree?_eq_none : t.nextFree? = none ↔ ∀ id < capacity, ∃ a, t.get? id = some a := by
  rw [nextFree?, List.find?_range_eq_none]
  simp [Option.isSome_iff_exists]

/-- **A table is the finite map that the calls describe.**  Behind any calls to the empty table, the
value of an identifier is the one that they leave there.  An insertion answers with the value that
it replaces, or is refused out of range and changes nothing, and a removal answers with the value
that it removes.  The listing has every value once, by ascending identifier; the count, the test for
emptiness and the search for the lowest free identifier agree with it. -/
theorem holds_what_was_stored (calls : List (TableCall α)) :
    let t := (empty : Table α).after calls
    let held := {id | ∃ a, Holds calls id a}
    (∀ id a, t.get? id = some a ↔ Holds calls id a) ∧
      (∀ id a, (t.serve (.insert id a)).2 =
        if id < capacity then .ok (t.get? id) else .error (.tableIdOutOfRange id)) ∧
      (∀ id a, capacity ≤ id → (t.serve (.insert id a)).1 = t) ∧
      (∀ id, (t.serve (.remove id)).2 = .ok (t.get? id)) ∧
      (t.entries.map Prod.fst).Pairwise (fun id id' => id < id') ∧
      (∀ id a, (id, a) ∈ t.entries ↔ Holds calls id a) ∧
      held ⊆ {id | id < capacity} ∧ t.size = held.ncard ∧ (t.isEmpty = true ↔ held = ∅) ∧
      (∀ id, t.nextFree? = some id ↔ IsLeast {id | id < capacity ∧ id ∉ held} id) ∧
      (t.nextFree? = none ↔ {id | id < capacity} ⊆ held) := by
  intro t held
  -- all else is read off the lookups
  have hget (id : Nat) (a : α) : t.get? id = some a ↔ Holds calls id a := get?_after
  have hheld : held = {id | ∃ a, t.get? id = some a} := by
    simp only [hget]
    rfl
  have hfree (id : Nat) : id ∉ held ↔ t.get? id = none := by
    rw [hheld, Set.mem_ofPred_eq, Option.eq_none_iff_forall_ne_some, not_exists]
  refine ⟨hget, t.answer_insert, ?_, fun _ => rfl, t.pairwise_entries, ?_, ?_, ?_, ?_, ?_, ?_⟩
  · intro id a hle
    rw [serve, insert_of_le hle]
  · intro id a
    rw [mem_entries, hget]
  · rw [hheld]
    rintro id ⟨a, ha⟩
    exact lt_capacity_of_get? ha
  · rw [hheld, size_eq_ncard]
  · rw [hheld, isEmpty_iff, Set.eq_empty_iff_forall_notMem]
    simp only [Set.mem_ofPred_eq, not_exists, ne_eq]
  · simp only [nextFree?_eq_some, hfree, implies_true]
  · rw [nextFree?_eq_none, hheld]
    rfl

/-- Two values of which one is changed and the other one removed, and one that is refused. -/
def holedCalls : List (TableCall Nat) :=
  [.insert 0 10, .insert 2 30, .insert 64 50, .modify 2 (· + 1), .remove 0]

/-- They leave a value behind a free identifier. -/
theorem holds_holedCalls :
    let t := (empty : Table Nat).after holedCalls
    Holds holedCalls 2 31 ∧ t.entries = [(2, 31)] ∧ t.nextFree? = some 0 ∧
      capacity ≤ 64 ∧ (t.serve (.insert 64 50)).1 = t := by
  intro t
  obtain ⟨hget, -, hrefused, -⟩ := holds_what_was_stored holedCalls
  exact ⟨(hget 2 31).mp (by decide), by decide, by decide, by decide,
    hrefused 64 50 (by decide)⟩

end Table
end Chiptune
