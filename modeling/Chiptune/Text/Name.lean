/-! # Names of bounded size

Titles and names keep whole characters while they fit a fixed number of UTF-8 bytes.
`fitting_append` and `size_fitting_le` say that what is kept is a leading part within the bound. -/

namespace Chiptune
namespace Name

/-- The number of UTF-8 bytes that a stored name may take. -/
def capacity : Nat := 32

/-- The number of UTF-8 bytes of a list of characters. -/
def size : List Char → Nat
  | [] => 0
  | c :: cs => c.utf8Size + size cs

/-- No characters take no bytes. -/
@[simp] theorem size_nil : size [] = 0 := rfl

/-- The bytes of a character are added to those of the others. -/
@[simp] theorem size_cons (c : Char) (cs : List Char) : size (c :: cs) = c.utf8Size + size cs := rfl

/-- The leading characters that fit `room` bytes; the first that does not fit ends the list. -/
def fitting (room : Nat) : List Char → List Char
  | [] => []
  | c :: cs => if c.utf8Size ≤ room then c :: fitting (room - c.utf8Size) cs else []

/-- Of no characters, all fit. -/
@[simp] theorem fitting_nil (room : Nat) : fitting room [] = [] := rfl

/-- What fits is a leading part of the characters. -/
theorem fitting_append (room : Nat) (cs : List Char) : ∃ rest, fitting room cs ++ rest = cs := by
  induction cs generalizing room with
  | nil => exact ⟨[], rfl⟩
  | cons c cs ih =>
    rw [fitting]
    split
    · obtain ⟨rest, h⟩ := ih (room - c.utf8Size)
      exact ⟨rest, congrArg (c :: ·) h⟩
    · exact ⟨c :: cs, rfl⟩

/-- What fits takes no more than the room. -/
theorem size_fitting_le (room : Nat) (cs : List Char) : size (fitting room cs) ≤ room := by
  induction cs generalizing room with
  | nil => exact Nat.zero_le room
  | cons c cs ih =>
    rw [fitting]
    split
    · next h =>
      have := ih (room - c.utf8Size)
      rw [size_cons]
      omega
    · exact Nat.zero_le room

/-- A text cut to the longest leading part that a stored name may hold. -/
def truncate (text : String) : String :=
  String.ofList (fitting capacity text.toList)

end Name
end Chiptune
