import Chiptune.Bank.Table
import Chiptune.Bank.Waveform
import Chiptune.Device.Write

/-! # Register layout

The channels differ in the registers that they have.  A layout says where the block of a channel
starts and what the bytes of an instrument program mean on it; the writes of envelopes, timbres and
waveforms follow from it. -/

namespace Chiptune

/-- What the first auxiliary byte of a program command sets. -/
inductive FirstAux where
  /-- The frequency sweep. -/
  | sweep
  /-- The noise polynomial. -/
  | noise
  /-- Nothing. -/
  | unused
  deriving DecidableEq, Repr

/-- What the second auxiliary byte of a program command sets. -/
inductive SecondAux where
  /-- The volume envelope. -/
  | envelope
  /-- The waveform, by its identifier. -/
  | waveform
  deriving DecidableEq, Repr

/-- What the timbre of a channel sets. -/
inductive TimbreUse where
  /-- The duty of a pulse. -/
  | duty
  /-- The output level of the wave. -/
  | outputLevel
  /-- No register of its own. -/
  | unused
  deriving DecidableEq, Repr

/-- The registers of a channel and the meaning of program bytes on it. -/
structure Layout where
  /-- The address of the first register. -/
  base : Nat
  /-- The use of the first auxiliary byte. -/
  firstAux : FirstAux
  /-- The use of the second auxiliary byte. -/
  secondAux : SecondAux
  /-- The use of the timbre. -/
  timbre : TimbreUse
  deriving DecidableEq, Repr

namespace Layout

/-- The register of the sweep, or of the switch of the wave channel. -/
def nrx0 (l : Layout) : Nat := l.base

/-- The register of duty and length. -/
def nrx1 (l : Layout) : Nat := l.base + 1

/-- The register of the envelope, or of the output level of the wave channel. -/
def nrx2 (l : Layout) : Nat := l.base + 2

/-- The register of the low frequency byte, or of the noise polynomial. -/
def nrx3 (l : Layout) : Nat := l.base + 3

end Layout

/-- The output level register of the wave channel for a level: mute, a quarter, a half, full. -/
def waveLevel (level : UInt8) : UInt8 :=
  match (level &&& 3).toNat with
  | 0 => 0x00
  | 1 => 0x60
  | 2 => 0x40
  | _ => 0x20

/-- The duty bits of a timbre. -/
def dutyBits (timbre : UInt8) : UInt8 :=
  (timbre &&& 3) <<< 6

/-- The step width bit of a noise timbre. -/
def stepWidth (timbre : UInt8) : UInt8 :=
  if timbre = 0 then 0 else 8

/-- The writes that load a waveform: the wave channel is switched off, wave memory is filled, and
the channel is switched on again. -/
def Waveform.loadWrites (w : Waveform) : List DeviceWrite :=
  .register Register.nr30 0 ::
    w.bytes.toList.zipIdx.map (fun (b, i) => .register (Register.waveRam + i) b) ++
    [.register Register.nr30 Register.waveOn]

namespace Channel

/-- The layout of each channel. -/
def layout : Channel → Layout
  | ch1 => ⟨0xFF10, .sweep, .envelope, .duty⟩
  | ch2 => ⟨0xFF15, .unused, .envelope, .duty⟩
  | ch3 => ⟨0xFF1A, .unused, .waveform, .outputLevel⟩
  | ch4 => ⟨0xFF1F, .noise, .envelope, .unused⟩

/-- Whether an envelope changes the volume, so that a note has to start the channel anew. -/
def envelopeSlopes (c : Channel) (envelope : UInt8) : Bool :=
  c != ch3 && envelope &&& 7 != 0

/-- The writes that set an envelope; on the wave channel they load the waveform of that identifier,
if there is one. -/
def envelopeWrites (c : Channel) (waves : Table Waveform) (envelope : UInt8) : List DeviceWrite :=
  match c.layout.secondAux with
  | .envelope => [.register c.layout.nrx2 envelope]
  | .waveform =>
      match waves.get? envelope.toNat with
      | some w => w.loadWrites
      | none => []

/-- The writes that set a timbre; that of the noise channel goes with its notes. -/
def timbreWrites (c : Channel) (timbre : UInt8) : List DeviceWrite :=
  match c.layout.timbre with
  | .duty => [.register c.layout.nrx1 (dutyBits timbre)]
  | .outputLevel => [.register c.layout.nrx2 (waveLevel timbre)]
  | .unused => []

/-- The writes of the first auxiliary byte of a program command. -/
def firstAuxWrites (c : Channel) (value : UInt8) : List DeviceWrite :=
  match c.layout.firstAux with
  | .sweep => [.register c.layout.nrx0 value]
  | .noise => [.register c.layout.nrx3 value]
  | .unused => []

end Channel
end Chiptune
