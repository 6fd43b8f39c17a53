/-! # Program commands

An instrument program is a string of bytes that holds one command per frame.  A command begins with
a control byte, an extended byte, or a control byte followed by an extended one; the operands that
they announce come behind them.

* The extended byte has its highest bit set when it stands first.  Bits 6 and 5 announce a coarse
  and a fine tuning, bit 4 sets the panning to bits 3 and 2.
* The control byte has its highest bit clear.  Bit 6 starts the channel anew, bits 5 and 4 announce
  the two auxiliary bytes, bit 3 sets the timbre to bits 2 and 1, bit 0 announces an extended byte.

A byte of zero is a command that does nothing.  `length_of_read` says that reading a command always
consumes bytes, so that a program has finitely many of them. -/

namespace Chiptune

/-- What an instrument program does in one frame. -/
structure Command where
  /-- Whether the channel starts anew. -/
  retrigger : Bool := false
  /-- The first auxiliary byte. -/
  aux1 : Option UInt8 := none
  /-- The second auxiliary byte. -/
  aux2 : Option UInt8 := none
  /-- The timbre, of which two bits count. -/
  settings : Option UInt8 := none
  /-- The coarse tuning. -/
  tune : Option Int8 := none
  /-- The fine tuning, in steps of sixteen. -/
  fine : Option Int8 := none
  /-- The panning, of which two bits count. -/
  panning : Option UInt8 := none
  deriving DecidableEq, Repr

namespace Command

instance : Inhabited Command := ⟨{}⟩

/-- Whether a byte has a bit of a mask. -/
def has (b mask : UInt8) : Bool :=
  b &&& mask != 0

/-! ### Reading -/

/-- Read an operand if it is announced. -/
def readOperand (announced : Bool) (bytes : List UInt8) : Option (Option UInt8 × List UInt8) :=
  if announced then
    match bytes with
    | b :: rest => some (some b, rest)
    | [] => none
  else some (none, bytes)

/-- Read the operands behind a control byte and an extended byte; zero stands for a missing one. -/
def readOperands (control extended : UInt8) (bytes : List UInt8) :
    Option (Command × List UInt8) := do
  let (aux1, bytes) ← readOperand (has control 0x20) bytes
  let (aux2, bytes) ← readOperand (has control 0x10) bytes
  let (tune, bytes) ← readOperand (has extended 0x40) bytes
  let (fine, bytes) ← readOperand (has extended 0x20) bytes
  let command := {
    retrigger := has control 0x40
    aux1
    aux2
    settings := if has control 0x08 then some (control >>> 1 &&& 3) else none
    tune := tune.map UInt8.toInt8
    fine := fine.map UInt8.toInt8
    panning := if has extended 0x10 then some (extended >>> 2 &&& 3) else none }
  return (command, bytes)

/-- Read the command at the start of some bytes; the result comes with the bytes behind it.  There
is none if the bytes end before the command does. -/
def read : List UInt8 → Option (Command × List UInt8)
  | [] => none
  | header :: bytes =>
      -- an extended byte without a control byte
      if has header 0x80 then readOperands 0 header bytes
      else if has header 0x01 then
        match bytes with
        | extended :: rest => readOperands header extended rest
        | [] => none
      else readOperands header 0 bytes

/-- The command at the start of some bytes, and its length. -/
def decode (bytes : List UInt8) : Option (Command × Nat) :=
  (read bytes).map fun (c, rest) => (c, bytes.length - rest.length)

/-- Reading an operand does not add bytes. -/
theorem length_of_readOperand {announced : Bool} {bytes rest : List UInt8} {o : Option UInt8}
    (h : readOperand announced bytes = some (o, rest)) : rest.length ≤ bytes.length := by
  unfold readOperand at h
  split at h
  · split at h
    · obtain ⟨-, rfl⟩ := Prod.mk.inj (Option.some.inj h)
      exact Nat.le_succ _
    · exact absurd h nofun
  · obtain ⟨-, rfl⟩ := Prod.mk.inj (Option.some.inj h)
    exact Nat.le_refl _

/-- Reading operands does not add bytes. -/
theorem length_of_readOperands {control extended : UInt8} {bytes rest : List UInt8} {c : Command}
    (h : readOperands control extended bytes = some (c, rest)) : rest.length ≤ bytes.length := by
  simp only [readOperands, Option.bind_eq_bind, Option.bind_eq_some_iff] at h
  obtain ⟨⟨_, _⟩, h₁, ⟨_, _⟩, h₂, ⟨_, _⟩, h₃, ⟨_, _⟩, h₄, h⟩ := h
  obtain ⟨-, rfl⟩ := Prod.mk.inj (Option.some.inj h)
  have l₁ := length_of_readOperand h₁
  have l₂ := length_of_readOperand h₂
  have l₃ := length_of_readOperand h₃
  have l₄ := length_of_readOperand h₄
  exact Nat.le_trans l₄ (Nat.le_trans l₃ (Nat.le_trans l₂ l₁))

/-- Reading a command consumes at least one byte. -/
theorem length_of_read {bytes rest : List UInt8} {c : Command} (h : read bytes = some (c, rest)) :
    rest.length < bytes.length := by
  rw [read.eq_def] at h
  split at h
  · exact absurd h nofun
  · split at h
    · exact Nat.lt_succ_of_le (length_of_readOperands h)
    · split at h
      · split at h
        · exact Nat.lt_succ_of_lt (Nat.lt_succ_of_le (length_of_readOperands h))
        · exact absurd h nofun
      · exact Nat.lt_succ_of_le (length_of_readOperands h)

/-- All commands from the start of some bytes on, each with its length; what is left behind them
does not hold a whole command. -/
def decodeAll (bytes : List UInt8) : List (Command × Nat) :=
  match _h : read bytes with
  | some (c, rest) => (c, bytes.length - rest.length) :: decodeAll rest
  | none => []
termination_by bytes.length
decreasing_by exact length_of_read _h

/-! ### Writing -/

/-- Whether a command needs a control byte. -/
def needsControl (c : Command) : Bool :=
  c.retrigger || c.aux1.isSome || c.aux2.isSome || c.settings.isSome

/-- Whether a command needs an extended byte. -/
def needsExtended (c : Command) : Bool :=
  c.tune.isSome || c.fine.isSome || c.panning.isSome

/-- The bits of a value whose two lowest bits are set at some place, behind a bit that says so. -/
def field (flag shift : UInt8) : Option UInt8 → UInt8
  | some value => flag ||| (value &&& 3) <<< shift
  | none => 0

/-- A bit that is set on a condition. -/
def flag (bit : UInt8) (isSet : Bool) : UInt8 :=
  if isSet then bit else 0

/-- The control byte of a command. -/
def controlByte (c : Command) : UInt8 :=
  flag 0x40 c.retrigger ||| flag 0x20 c.aux1.isSome ||| flag 0x10 c.aux2.isSome |||
    field 0x08 1 c.settings ||| flag 0x01 c.needsExtended

/-- The extended byte of a command. -/
def extendedByte (c : Command) : UInt8 :=
  0x80 ||| flag 0x40 c.tune.isSome ||| flag 0x20 c.fine.isSome ||| field 0x10 2 c.panning

/-- The header bytes of a command. -/
def header (c : Command) : List UInt8 :=
  if c.needsControl then
    c.controlByte :: if c.needsExtended then [c.extendedByte] else []
  else if c.needsExtended then [c.extendedByte]
  else [0]

/-- The shortest bytes of a command. -/
def encode (c : Command) : List UInt8 :=
  c.header ++ c.aux1.toList ++ c.aux2.toList ++ (c.tune.map Int8.toUInt8).toList ++
    (c.fine.map Int8.toUInt8).toList

end Command
end Chiptune
