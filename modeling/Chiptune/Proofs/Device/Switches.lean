import Chiptune.Device.Write

/-! # The output switches of the device

The device keeps the output switches of all channels in one byte.  A write replaces the whole byte,
or the two bits of one channel, or leaves the byte alone.  This file follows the byte through some
writes, channel by channel.

* `Panning.replaceIn` puts the bits of a channel into a byte; `replaceIn_and_self` and
  `replaceIn_and_of_ne` say which bits change.
* `eq_of_and_outputMask`: the bits of the four channels make up the byte.
* `switched_and_outputMask`: behind some writes, a channel has the bits of the last write that gives
  it any.
* `outputEnables` lists the bytes that some writes put in place of all switches, and `lastMask` is
  the last of them. -/

namespace Chiptune

/-! ## The bits of a channel -/

/-- A mask of the union of some bits is the union of the masked bits. -/
theorem or_and_mask (a b mask : UInt8) : (a ||| b) &&& mask = a &&& mask ||| b &&& mask := by
  rw [← UInt8.toBitVec_inj]
  exact BitVec.and_or_distrib_right

/-- Bytes in which all channels have the same bits are equal. -/
theorem eq_of_and_outputMask {a b : UInt8}
    (h : ∀ c : Channel, a &&& c.outputMask = b &&& c.outputMask) : a = b := by
  -- the four masks cover the byte
  have hall (x : UInt8) : x =
      (x &&& Channel.ch1.outputMask ||| x &&& Channel.ch2.outputMask) |||
        (x &&& Channel.ch3.outputMask ||| x &&& Channel.ch4.outputMask) := by
    rw [← UInt8.toBitVec_inj]
    simp only [UInt8.toBitVec_or, UInt8.toBitVec_and, ← BitVec.and_or_distrib_left]
    exact BitVec.and_allOnes.symm
  rw [hall a, hall b, h, h, h, h]

namespace Panning

/-- Put the bits of a channel into a byte of switches, in place of those that it has there. -/
def replaceIn (p : Panning) (c : Channel) (mask : UInt8) : UInt8 :=
  mask &&& ~~~c.outputMask ||| p.bits c

/-- The bits of a channel that were put into a byte are read back. -/
theorem replaceIn_and_self (p : Panning) (c : Channel) (mask : UInt8) :
    p.replaceIn c mask &&& c.outputMask = p.bits c := by
  rw [replaceIn, or_and_mask, UInt8.and_assoc, UInt8.not_and_self, UInt8.and_zero, UInt8.zero_or,
    bits_and_mask]

/-- Putting the bits of a channel into a byte leaves those of the others alone. -/
theorem replaceIn_and_of_ne (p : Panning) {c d : Channel} (mask : UInt8) (h : c ≠ d) :
    p.replaceIn c mask &&& d.outputMask = mask &&& d.outputMask := by
  have hmask : ~~~c.outputMask &&& d.outputMask = d.outputMask := by
    cases c <;> cases d <;> first | rfl | exact absurd rfl h
  rw [replaceIn, or_and_mask, UInt8.and_assoc, hmask, bits_and_mask_of_ne p h, UInt8.or_zero]

/-- A panning is known by the bits of a channel. -/
theorem bits_inj {p q : Panning} {c : Channel} : p.bits c = q.bits c ↔ p = q := by
  constructor
  · rcases p with ⟨_ | _, _ | _⟩ <;> rcases q with ⟨_ | _, _ | _⟩ <;> cases c <;> first
      | exact fun _ => rfl
      | exact fun h => absurd h (by decide)
  · rintro rfl
    rfl

/-- A channel that is off has no bits. -/
@[simp] theorem bits_off (c : Channel) : off.bits c = 0 := by
  cases c <;> rfl

end Panning

/-! ## Following the switches -/

namespace DeviceWrite

/-- The output switches of the device behind a write. -/
def switch (mask : UInt8) : DeviceWrite → UInt8
  | outputEnable mask' => mask'
  | channelOutput c p => p.replaceIn c mask
  | _ => mask

/-- The output switches of the device behind some writes. -/
def switched (mask : UInt8) (ws : List DeviceWrite) : UInt8 :=
  ws.foldl switch mask

/-- The bits that a write gives to a channel, if it switches its outputs. -/
def switchBits? (c : Channel) : DeviceWrite → Option UInt8
  | outputEnable mask => some (mask &&& c.outputMask)
  | channelOutput d p => if d = c then some (p.bits c) else none
  | _ => none

/-- The bits that some writes give to a channel, one after the other. -/
def switchBits (c : Channel) (ws : List DeviceWrite) : List UInt8 :=
  ws.filterMap (switchBits? c)

/-- The first write's bits stand before those of the others. -/
theorem switchBits_cons (c : Channel) (w : DeviceWrite) (ws : List DeviceWrite) :
    switchBits c (w :: ws) = (switchBits? c w).toList ++ switchBits c ws := by
  rw [switchBits, List.filterMap_cons]
  cases switchBits? c w <;> rfl

/-- The bits that a channel is given are gathered list by list. -/
@[simp] theorem switchBits_append (c : Channel) (ws ws' : List DeviceWrite) :
    switchBits c (ws ++ ws') = switchBits c ws ++ switchBits c ws' :=
  List.filterMap_append ..

/-- The bits that lists of writes, one behind the other, give to a channel. -/
theorem switchBits_flatMap {α : Type} (c : Channel) (xs : List α) (f : α → List DeviceWrite) :
    switchBits c (xs.flatMap f) = xs.flatMap fun x => switchBits c (f x) :=
  List.filterMap_flatMap ..

/-- A write sets the bits of a channel as it says, or leaves them alone. -/
theorem switch_and_outputMask (mask : UInt8) (w : DeviceWrite) (c : Channel) :
    switch mask w &&& c.outputMask = (switchBits? c w).getD (mask &&& c.outputMask) := by
  cases w with
  | outputEnable mask' => rfl
  | channelOutput d p =>
      rw [switch, switchBits?]
      by_cases h : d = c
      · rw [if_pos h, h, Panning.replaceIn_and_self, Option.getD_some]
      · rw [if_neg h, Panning.replaceIn_and_of_ne p mask h, Option.getD_none]
  | register address value => rfl
  | restart d => rfl
  | frequency d value => rfl

/-- **Behind some writes, a channel has the bits of the last write that gives it any**, and those
that it had before if none does. -/
theorem switched_and_outputMask (mask : UInt8) (ws : List DeviceWrite) (c : Channel) :
    switched mask ws &&& c.outputMask =
      (switchBits c ws).getLast?.getD (mask &&& c.outputMask) := by
  induction ws generalizing mask with
  | nil => rfl
  | cons w ws ih =>
      rw [switched, List.foldl_cons, ← switched, ih, switch_and_outputMask, switchBits_cons,
        List.getLast?_append, Option.getD_or]
      cases switchBits? c w <;> rfl

/-! ## Writes of all switches -/

/-- The byte that a write puts in place of all switches, if it does. -/
def outputEnable? : DeviceWrite → Option UInt8
  | outputEnable mask => some mask
  | _ => none

/-- The bytes that some writes put in place of all switches, one after the other. -/
def outputEnables (ws : List DeviceWrite) : List UInt8 :=
  ws.filterMap outputEnable?

/-- The last byte that some writes put in place of all switches, which are off at first. -/
def lastMask (ws : List DeviceWrite) : UInt8 :=
  (outputEnables ws).getLast?.getD 0

/-- The bytes that replace all switches are gathered list by list. -/
@[simp] theorem outputEnables_append (ws ws' : List DeviceWrite) :
    outputEnables (ws ++ ws') = outputEnables ws ++ outputEnables ws' :=
  List.filterMap_append ..

end DeviceWrite
end Chiptune
