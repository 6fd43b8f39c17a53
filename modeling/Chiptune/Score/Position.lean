/-! # Positions

A position is a place in a song: an entry of the order list and a row of its pattern.  The extent of
a song says which positions it has.  `startOf_inside` and `following_inside` say that moves by
orders stay inside. -/

namespace Chiptune

/-- A place in a song. -/
@[ext]
structure Position where
  /-- The entry of the order list. -/
  order : Nat
  /-- The row of its pattern. -/
  row : Nat
  deriving DecidableEq, Repr

/-- The size of a song: how many orders it has, and how many rows each. -/
@[ext]
structure Extent where
  /-- The number of entries of the order list. -/
  orders : Nat
  /-- The number of rows of a pattern. -/
  rows : Nat
  /-- There is an order to start from. -/
  orders_pos : 0 < orders
  /-- Orders are counted by a byte. -/
  orders_le : orders ≤ 256
  /-- A pattern has a row. -/
  rows_pos : 0 < rows
  /-- A pattern has at most 256 rows. -/
  rows_le : rows ≤ 256
  deriving Repr

/-- Whether a position lies inside an extent. -/
def Position.Inside (p : Position) (size : Extent) : Prop :=
  p.order < size.orders ∧ p.row < size.rows

instance (p : Position) (size : Extent) : Decidable (p.Inside size) :=
  inferInstanceAs (Decidable (_ ∧ _))

namespace Extent

/-- The first row of an order; orders behind the last take the last one. -/
def startOf (size : Extent) (order : Nat) : Position :=
  ⟨min order (size.orders - 1), 0⟩

/-- A row of the order behind another, which is the first behind the last; rows behind the last take
the last one. -/
def following (size : Extent) (order row : Nat) : Position :=
  ⟨(order + 1) % size.orders, min row (size.rows - 1)⟩

/-- The start of an order lies inside. -/
theorem startOf_inside (size : Extent) (order : Nat) : (size.startOf order).Inside size :=
  ⟨by have := size.orders_pos; simp only [startOf]; omega, size.rows_pos⟩

/-- A row of a following order lies inside. -/
theorem following_inside (size : Extent) (order row : Nat) :
    (size.following order row).Inside size :=
  ⟨Nat.mod_lt _ size.orders_pos, by have := size.rows_pos; simp only [following]; omega⟩

end Extent
end Chiptune
