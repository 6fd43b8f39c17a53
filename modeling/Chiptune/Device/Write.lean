import Chiptune.Device.Panning
import Chiptune.Text.Numeral

/-! # Device writes

Everything that playback does to the sound chip is a list of writes.  A register belongs to the
channel in whose block of five it lies; the registers behind these blocks are shared. -/

namespace Chiptune

namespace Register

/-- The sweep of the first channel, and the first register of all. -/
def nr10 : Nat := 0xFF10

/-- The switch of the wave channel. -/
def nr30 : Nat := 0xFF1A

/-- The output level of the wave channel. -/
def nr32 : Nat := 0xFF1C

/-- The noise polynomial. -/
def nr43 : Nat := 0xFF22

/-- The switches of all outputs. -/
def nr51 : Nat := 0xFF25

/-- The first byte of wave memory. -/
def waveRam : Nat := 0xFF30

/-- The number of registers of a channel. -/
def perChannel : Nat := 5

/-- The value that switches the wave channel on. -/
def waveOn : UInt8 := 0x80

/-- The channel in whose block a register lies. -/
def channel? (address : Nat) : Option Channel :=
  if address < nr10 then none else Channel.ofIndex? ((address - nr10) / perChannel)

end Register

/-- One thing done to the sound chip. -/
inductive DeviceWrite where
  /-- Write a byte to a register. -/
  | register (address : Nat) (value : UInt8)
  /-- Start a channel anew. -/
  | restart (channel : Channel)
  /-- Set the frequency of a channel. -/
  | frequency (channel : Channel) (value : Nat)
  /-- Set the output switches of all channels. -/
  | outputEnable (mask : UInt8)
  /-- Set the output switches of one channel. -/
  | channelOutput (channel : Channel) (panning : Panning)
  deriving DecidableEq, Repr

namespace DeviceWrite

open Numeral in
/-- The text of a write, as traces list it. -/
def text : DeviceWrite → String
  | register address value => "reg  " ++ hex 4 address ++ " <- " ++ byte value
  | restart c => "trig " ++ c.name
  | frequency c value => "freq " ++ c.name ++ " <- " ++ hex 3 value
  | outputEnable mask => "pan  " ++ byte mask
  | channelOutput c p =>
      "out  " ++ c.name ++ (if p.left then " L" else " -") ++ (if p.right then "R" else "-")

/-- The channel that a write is about; the switches of all outputs belong to none. -/
def channel? : DeviceWrite → Option Channel
  | register address _ => Register.channel? address
  | restart c => some c
  | frequency c _ => some c
  | outputEnable _ => none
  | channelOutput c _ => some c

/-- The writes that are about a channel. -/
def forChannel (c : Channel) (ws : List DeviceWrite) : List DeviceWrite :=
  ws.filter fun w => w.channel? = some c

/-- The frequency that a write sets on a channel. -/
def frequencyOn? (c : Channel) : DeviceWrite → Option Nat
  | frequency d value => if d = c then some value else none
  | _ => none

/-- The frequencies that some writes set on a channel. -/
def frequencies (c : Channel) (ws : List DeviceWrite) : List Nat :=
  ws.filterMap (frequencyOn? c)

/-- No writes reach no channel. -/
@[simp] theorem forChannel_nil (c : Channel) : forChannel c [] = [] := rfl

/-- The writes of a channel are filtered list by list. -/
@[simp] theorem forChannel_append (c : Channel) (ws ws' : List DeviceWrite) :
    forChannel c (ws ++ ws') = forChannel c ws ++ forChannel c ws' :=
  List.filter_append ..

/-- No writes set no frequency. -/
@[simp] theorem frequencies_nil (c : Channel) : frequencies c [] = [] := rfl

/-- The frequencies of a channel are gathered list by list. -/
@[simp] theorem frequencies_append (c : Channel) (ws ws' : List DeviceWrite) :
    frequencies c (ws ++ ws') = frequencies c ws ++ frequencies c ws' :=
  List.filterMap_append ..

end DeviceWrite
end Chiptune
