import Mathlib.Data.List.Basic
import Chiptune.Text.Numeral

/-! # Reading numerals

A numeral ends where its digits do, so it is read back from the front of a text that goes on with
anything but a digit.  Its leading zeros add nothing to it.

* `Numeral.read` takes the digits off the front of a text, and `read_chars` says that it finds the
  number that was written.
* `isDigit_of_mem_chars` and `exists_chars_eq_cons` say that a numeral consists of digits and that it
  has one. -/

namespace Chiptune
namespace Numeral

variable {base : Nat}

/-! ### Digits -/

/-- A number has a digit. -/
theorem digits_ne_nil (base n : Nat) : digits base n ≠ [] := by
  rw [digits]
  split
  · exact List.append_ne_nil_of_right_ne_nil _ (List.cons_ne_nil _ _)
  · exact List.cons_ne_nil _ _

/-- The digits of a number are below the base. -/
theorem lt_of_mem_digits (hbase : 1 < base) (n : Nat) : ∀ d ∈ digits base n, d < base := by
  induction n using Nat.strongRecOn with
  | _ n ih =>
    rw [digits]
    split
    · next h =>
      intro d hd
      rcases List.mem_append.mp hd with hd | hd
      · exact ih (n / base) (Nat.div_lt_self (by omega) hbase) d hd
      · obtain rfl := List.mem_singleton.mp hd
        exact Nat.mod_lt n (by omega)
    · next h =>
      intro d hd
      obtain rfl := List.mem_singleton.mp hd
      omega

/-- Leading zeros add nothing. -/
theorem ofDigits_zeros (base k : Nat) (ds : List Nat) :
    ofDigits base (List.replicate k 0 ++ ds) = ofDigits base ds := by
  induction k with
  | zero => rfl
  | succ k ih =>
      rw [← ih, List.replicate_succ, List.cons_append, ofDigits, List.foldl_cons, Nat.zero_mul]
      rfl

/-! ### Digit characters -/

/-- Whether a character is a digit of some base, in either case. -/
def isDigit (base : Nat) (c : Char) : Bool :=
  (digitValue? c).any (· < base)

/-- The digits of a numeral with its leading zeros. -/
def paddedDigits (base width n : Nat) : List Nat :=
  List.replicate (width - (digits base n).length) 0 ++ digits base n

/-- A numeral is spelled digit by digit. -/
theorem chars_eq (base width n : Nat) :
    chars base width n = (paddedDigits base width n).map digitChar := by
  rw [chars, paddedDigits, List.map_append, List.map_replicate, List.length_map]
  rfl

/-- Leading zeros are digits of any base, like those behind them. -/
theorem lt_of_mem_paddedDigits (hbase : 1 < base) (width n : Nat) :
    ∀ d ∈ paddedDigits base width n, d < base := by
  intro d hd
  rcases List.mem_append.mp hd with hd | hd
  · obtain rfl := List.eq_of_mem_replicate hd
    omega
  · exact lt_of_mem_digits hbase n d hd

/-- A numeral consists of digits. -/
theorem isDigit_of_mem_chars (hbase : 1 < base) (hle : base ≤ 16) {width n : Nat} {c : Char}
    (hc : c ∈ chars base width n) : isDigit base c = true := by
  rw [chars_eq] at hc
  obtain ⟨d, hd, rfl⟩ := List.mem_map.mp hc
  have hlt := lt_of_mem_paddedDigits hbase width n d hd
  rw [isDigit, digitValue?_digitChar (by omega), Option.any_some]
  exact decide_eq_true hlt

/-- A numeral begins with a digit. -/
theorem exists_chars_eq_cons (hbase : 1 < base) (hle : base ≤ 16) (width n : Nat) :
    ∃ c cs, chars base width n = c :: cs ∧ isDigit base c = true := by
  have hne : chars base width n ≠ [] := by
    rw [chars]
    exact List.append_ne_nil_of_right_ne_nil _ (List.map_eq_nil_iff.not.mpr (digits_ne_nil _ _))
  obtain ⟨c, cs, hcs⟩ := List.exists_cons_of_ne_nil hne
  exact ⟨c, cs, hcs, isDigit_of_mem_chars hbase hle (hcs ▸ List.mem_cons_self ..)⟩

/-! ### Reading -/

/-- Read the number that the digits at the front of a text stand for; the rest of the text is what
follows them. -/
def read (base : Nat) (cs : List Char) : Nat × List Char :=
  (ofDigits base ((cs.takeWhile (isDigit base)).filterMap digitValue?),
    cs.dropWhile (isDigit base))

/-- **A numeral is read back**, whatever its width, if no digit follows it. -/
theorem read_chars (hbase : 1 < base) (hle : base ≤ 16) (width n : Nat) {rest : List Char}
    (hrest : rest.head?.any (isDigit base) = false) :
    read base (chars base width n ++ rest) = (n, rest) := by
  have hdigits : ∀ c ∈ chars base width n, isDigit base c = true :=
    fun c hc => isDigit_of_mem_chars hbase hle hc
  have hends : rest.takeWhile (isDigit base) = [] ∧ rest.dropWhile (isDigit base) = rest := by
    cases rest with
    | nil => exact ⟨rfl, rfl⟩
    | cons c cs =>
        have hc : ¬isDigit base c = true := by
          rw [show isDigit base c = false from hrest]
          exact Bool.false_ne_true
        exact ⟨List.takeWhile_cons_of_neg hc, List.dropWhile_cons_of_neg hc⟩
  have hvalues : (chars base width n).filterMap digitValue? = paddedDigits base width n := by
    rw [chars_eq, List.filterMap_map]
    refine (List.filterMap_congr fun d hd => ?_).trans List.filterMap_some
    exact digitValue?_digitChar (by have := lt_of_mem_paddedDigits hbase width n d hd; omega)
  rw [read, List.takeWhile_append_of_pos hdigits, List.dropWhile_append_of_pos hdigits, hends.1,
    hends.2, List.append_nil, hvalues, paddedDigits, ofDigits_zeros, ofDigits_digits]

/-- A numeral at the end of a text is read back. -/
theorem read_chars_end (hbase : 1 < base) (hle : base ≤ 16) (width n : Nat) :
    read base (chars base width n) = (n, []) := by
  rw [← List.append_nil (chars base width n), read_chars hbase hle width n rfl]

end Numeral
end Chiptune
