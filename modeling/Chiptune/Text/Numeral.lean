/-! # Numerals with a least width

Numbers written in a base of at most sixteen, with upper-case digits and leading zeros up to a least
width.  `ofDigits_digits` says that the digits stand for the number they were taken from, and
`digitValue?_digitChar` that each digit character reads back as its value. -/

namespace Chiptune
namespace Numeral

/-! ### Digits -/

/-- The digits of a number, most significant first; zero has the single digit zero. -/
def digits (base n : Nat) : List Nat :=
  if 1 < base ∧ base ≤ n then digits base (n / base) ++ [n % base] else [n]
termination_by n
decreasing_by exact Nat.div_lt_self (by omega) (by omega)

/-- The number that a list of digits stands for, most significant first. -/
def ofDigits (base : Nat) (ds : List Nat) : Nat :=
  ds.foldl (fun acc d => acc * base + d) 0

/-- A further digit shifts the number before it by one place. -/
theorem ofDigits_concat (base : Nat) (ds : List Nat) (d : Nat) :
    ofDigits base (ds ++ [d]) = ofDigits base ds * base + d := by
  simp [ofDigits]

/-- The digits of a number stand for that number. -/
theorem ofDigits_digits (base n : Nat) : ofDigits base (digits base n) = n := by
  induction n using Nat.strongRecOn with
  | _ n ih =>
    rw [digits]
    split
    · next h =>
      rw [ofDigits_concat, ih (n / base) (Nat.div_lt_self (by omega) h.1)]
      exact Nat.div_add_mod' n base
    · simp [ofDigits]

/-! ### Digit characters -/

/-- The sixteen digit characters in the order of their values. -/
def digitChars : List Char :=
  ['0', '1', '2', '3', '4', '5', '6', '7', '8', '9', 'A', 'B', 'C', 'D', 'E', 'F']

/-- The upper-case character of a digit below sixteen. -/
def digitChar (d : Nat) : Char :=
  digitChars.getD d '0'

/-- The value of a hexadecimal digit in either case; other characters have none. -/
def digitValue? (c : Char) : Option Nat :=
  digitChars.idxOf? c.toUpper

/-- A digit below sixteen is read back from its character. -/
theorem digitValue?_digitChar {d : Nat} (h : d < 16) : digitValue? (digitChar d) = some d := by
  have all : ∀ i : Fin 16, digitValue? (digitChar i) = some i.val := by decide
  exact all ⟨d, h⟩

/-- The number that some decimal digits stand for; there must be at least one, and nothing else. -/
def readDecimal? (cs : List Char) : Option Nat :=
  if cs.isEmpty then none
  else (cs.mapM fun c => (digitValue? c).filter fun d => d < 10).map (ofDigits 10)

/-! ### Texts -/

/-- The characters of a numeral, with leading zeros up to the least width. -/
def chars (base width n : Nat) : List Char :=
  let ds := (digits base n).map digitChar
  List.replicate (width - ds.length) '0' ++ ds

/-- The upper-case hexadecimal numeral of at least `width` digits. -/
def hex (width n : Nat) : String :=
  String.ofList (chars 16 width n)

/-- The decimal numeral of at least `width` digits. -/
def decimal (width n : Nat) : String :=
  String.ofList (chars 10 width n)

/-- The two hexadecimal digits of a byte. -/
def byte (b : UInt8) : String :=
  hex 2 b.toNat

end Numeral
end Chiptune
