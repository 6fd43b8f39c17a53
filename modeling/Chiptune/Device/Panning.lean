import Chiptune.Channel

/-! # Panning

Each channel is switched on and off on the left and on the right output.  The device keeps these
switches in one byte, with the left outputs in its high half; `bits_and_mask` says that the bits of
a channel stay within its mask. -/

namespace Chiptune

/-- The outputs on which a channel is heard. -/
@[ext]
structure Panning where
  /-- Whether the channel is heard on the left. -/
  left : Bool
  /-- Whether the channel is heard on the right. -/
  right : Bool
  deriving DecidableEq, Repr

/-- The bit of a channel on the right output. -/
def Channel.outputBit : Channel → UInt8
  | ch1 => 0x01
  | ch2 => 0x02
  | ch3 => 0x04
  | ch4 => 0x08

/-- The bits of a channel on both outputs. -/
def Channel.outputMask (c : Channel) : UInt8 :=
  c.outputBit <<< 4 ||| c.outputBit

namespace Panning

/-- Heard on neither output. -/
def off : Panning := ⟨false, false⟩

/-- Heard on both outputs. -/
def both : Panning := ⟨true, true⟩

instance : Inhabited Panning := ⟨both⟩

/-- The panning that the two lowest bits of a byte stand for: bit one is left, bit zero right. -/
def ofByte (b : UInt8) : Panning :=
  ⟨b &&& 2 != 0, b &&& 1 != 0⟩

/-- The left output goes by bit one of a byte, the right one by bit zero. -/
theorem ofByte_eq (b : UInt8) : ofByte b = ⟨b.toNat.testBit 1, b.toNat.testBit 0⟩ := by
  have hall : ∀ i : Fin 0x100,
      ofByte (UInt8.ofNat i.val) = ⟨i.val.testBit 1, i.val.testBit 0⟩ := by
    decide +kernel
  have hb := hall ⟨b.toNat, b.toNat_lt⟩
  rwa [UInt8.ofNat_toNat] at hb

/-- The byte that stands for a panning. -/
def toByte (p : Panning) : UInt8 :=
  (if p.left then 2 else 0) ||| (if p.right then 1 else 0)

/-- A panning is read back from its byte. -/
@[simp] theorem ofByte_toByte (p : Panning) : ofByte p.toByte = p := by
  rcases p with ⟨_ | _, _ | _⟩ <;> rfl

/-- The panning that the parameter of an effect asks for: each half of it must be zero or one. -/
def ofParam? (param : UInt8) : Option Panning :=
  if param = 0x00 then some off
  else if param = 0x01 then some ⟨false, true⟩
  else if param = 0x10 then some ⟨true, false⟩
  else if param = 0x11 then some both
  else none

/-- The bits that hear a channel on some outputs. -/
def bits (p : Panning) (c : Channel) : UInt8 :=
  (if p.left then c.outputBit <<< 4 else 0) ||| (if p.right then c.outputBit else 0)

/-- The bits of a channel lie within its mask. -/
theorem bits_and_mask (p : Panning) (c : Channel) : p.bits c &&& c.outputMask = p.bits c := by
  rcases p with ⟨_ | _, _ | _⟩ <;> cases c <;> rfl

/-- The bits of a channel lie outside the masks of the others. -/
theorem bits_and_mask_of_ne (p : Panning) {c d : Channel} (h : c ≠ d) :
    p.bits c &&& d.outputMask = 0 := by
  rcases p with ⟨_ | _, _ | _⟩ <;> cases c <;> cases d <;> first | rfl | exact absurd rfl h

end Panning
end Chiptune
