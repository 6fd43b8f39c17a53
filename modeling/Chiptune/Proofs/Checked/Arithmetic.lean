import Mathlib.Algebra.Group.Int.Defs
import Mathlib.Algebra.Group.Nat.Defs

/-! # Checked arithmetic

Playback is defined on numbers without bound, and reads places that are there by construction.  A
driver of the sound chip keeps its numbers in a few bits, in which a sum may not fit, and a place
that it reads may be missing.  A checked computation does what the driver does and ends in a fault
where the driver would go wrong.

* `unsigned` and `signed` keep a number in some bits, `word` in those of a length or an index.
* `quotient` and `remainder` divide, `place` numbers a place, `read` takes what stands at one, and
  `behind` what stands behind one.
* `unsigned_eq`, `signed_eq`, `quotient_eq`, `remainder_eq`, `place_eq`, `read_eq` and `behind_eq`
  say when there is no fault. -/

namespace Chiptune

/-- What goes wrong in a checked computation. -/
inductive Fault where
  /-- A number does not fit the bits that it is kept in. -/
  | overflow
  /-- A number is divided by zero. -/
  | divisionByZero
  /-- A place lies outside of what is read. -/
  | outOfRange
  deriving DecidableEq, Repr

/-- A computation that may end in a fault. -/
abbrev Checked (α : Type) : Type := Except Fault α

namespace Checked

variable {α β : Type} {bits : Nat}

/-- Behind a result, a computation goes on with it. -/
@[simp] theorem ok_bind (a : α) (f : α → Checked β) :
    ((Except.ok a : Checked α) >>= f) = f a := rfl

/-- A plain value is a result without a fault. -/
@[simp] theorem pure_eq (a : α) : (pure a : Checked α) = .ok a := rfl

/-- A result without a fault is mapped as it is. -/
@[simp] theorem map_ok (f : α → β) (a : α) : f <$> (Except.ok a : Checked α) = .ok (f a) := rfl

/-! ## Numbers -/

/-- A number that is kept in some bits without a sign. -/
def unsigned (bits : Nat) (value : Int) : Checked Nat :=
  if 0 ≤ value ∧ value < 2 ^ bits then .ok value.toNat else .error .overflow

/-- A number that is kept in some bits, one of which is the sign. -/
def signed (bits : Nat) (value : Int) : Checked Int :=
  if -2 ^ (bits - 1) ≤ value ∧ value < 2 ^ (bits - 1) then .ok value else .error .overflow

/-- A length or an index, which is kept in a word; the narrowest words have sixteen bits. -/
def word (value : Int) : Checked Nat :=
  unsigned 16 value

/-- A byte that is shifted to the left, by less than its width. -/
def shiftLeft (b : UInt8) (amount : Nat) : Checked UInt8 :=
  if amount < 8 then .ok (b <<< UInt8.ofNat amount) else .error .overflow

/-- The quotient of a division. -/
def quotient (a b : Nat) : Checked Nat :=
  if b = 0 then .error .divisionByZero else .ok (a / b)

/-- The remainder of a division. -/
def remainder (a b : Nat) : Checked Nat :=
  if b = 0 then .error .divisionByZero else .ok (a % b)

/-- A natural number that fits the bits is kept in them. -/
theorem unsigned_eq {value : Int} {n : Nat} (hn : value = n) (h : n < 2 ^ bits) :
    unsigned bits value = .ok n := by
  subst hn
  rw [unsigned, if_pos ⟨Int.natCast_nonneg n, by exact_mod_cast h⟩, Int.toNat_natCast]

/-- A number without a sign overflows exactly if it is negative or too large. -/
theorem unsigned_eq_error_iff {value : Int} {fault : Fault} :
    unsigned bits value = .error fault ↔ fault = .overflow ∧ ¬(0 ≤ value ∧ value < 2 ^ bits) := by
  unfold unsigned
  split
  · next h =>
    constructor
    · rintro ⟨⟩
    · rintro ⟨-, hout⟩
      exact absurd h hout
  · next h =>
    constructor
    · intro hf
      exact ⟨(Except.error.inj hf).symm, h⟩
    · rintro ⟨rfl, -⟩
      rfl

/-- A number between the bounds of the bits is kept in them. -/
theorem signed_eq {value : Int} (h : -2 ^ (bits - 1) ≤ value) (h' : value < 2 ^ (bits - 1)) :
    signed bits value = .ok value :=
  if_pos ⟨h, h'⟩

/-- A number with a sign overflows exactly if it is too small or too large. -/
theorem signed_eq_error_iff {value : Int} {fault : Fault} :
    signed bits value = .error fault ↔
      fault = .overflow ∧ ¬(-2 ^ (bits - 1) ≤ value ∧ value < 2 ^ (bits - 1)) := by
  unfold signed
  split
  · next h =>
    constructor
    · rintro ⟨⟩
    · rintro ⟨-, hout⟩
      exact absurd h hout
  · next h =>
    constructor
    · intro hf
      exact ⟨(Except.error.inj hf).symm, h⟩
    · rintro ⟨rfl, -⟩
      rfl

/-- A natural number that fits sixteen bits is a word. -/
theorem word_eq {value : Int} {n : Nat} (hn : value = n) (h : n < 2 ^ 16) : word value = .ok n :=
  unsigned_eq hn h

/-- A shift by less than eight loses bits, but is no fault. -/
theorem shiftLeft_eq {b : UInt8} {amount : Nat} (h : amount < 8) :
    shiftLeft b amount = .ok (b <<< UInt8.ofNat amount) :=
  if_pos h

/-- A divisor that is positive divides. -/
theorem quotient_eq {a b : Nat} (h : 0 < b) : quotient a b = .ok (a / b) :=
  if_neg (Nat.ne_of_gt h)

/-- A divisor that is positive leaves a remainder. -/
theorem remainder_eq {a b : Nat} (h : 0 < b) : remainder a b = .ok (a % b) :=
  if_neg (Nat.ne_of_gt h)

/-! ## Places -/

/-- An index as one of so many places. -/
def place (size index : Nat) : Checked (Fin size) :=
  if h : index < size then .ok ⟨index, h⟩ else .error .outOfRange

/-- What stands at a place. -/
def read (a? : Option α) : Checked α :=
  match a? with
  | some a => .ok a
  | none => .error .outOfRange

/-- What stands behind a place, which may be the end. -/
def behind (xs : List α) (place : Nat) : Checked (List α) :=
  if place ≤ xs.length then .ok (xs.drop place) else .error .outOfRange

/-- An index below the number of places is a place. -/
theorem place_eq {size : Nat} (i : Fin size) : place size i.val = .ok i :=
  dif_pos i.isLt

/-- What stands at a place can be read. -/
theorem read_eq {a? : Option α} {a : α} (h : a? = some a) : read a? = .ok a := by
  rw [h, read]

/-- The bytes behind a place can be read as far as the end. -/
theorem behind_eq {xs : List α} {place : Nat} (h : place ≤ xs.length) :
    behind xs place = .ok (xs.drop place) :=
  if_pos h

/-- Computations without a fault on each of some values have none together. -/
theorem mapM_option {f : α → Checked β} {g : α → β} {a? : Option α}
    (h : ∀ a ∈ a?, f a = .ok (g a)) : a?.mapM f = .ok (a?.map g) := by
  cases a? with
  | none => rfl
  | some a => rw [Option.mapM_some, h a rfl, map_ok, Option.map_some]

end Checked
end Chiptune
