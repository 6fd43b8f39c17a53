import Chiptune.EditError
import Chiptune.Text.Name

/-! # Waveforms

The wave channel plays 32 samples of four bits, held in 16 bytes with the earlier sample in the high
half.  A waveform is written as one hexadecimal digit per sample. -/

namespace Chiptune

/-- The samples of the wave channel. -/
structure Waveform where
  /-- The name, within the size of a stored name. -/
  name : String
  /-- The samples, two to a byte. -/
  bytes : Vector UInt8 16
  deriving DecidableEq, Repr

namespace Waveform

/-- The number of samples. -/
def sampleCount : Nat := 32

/-- The byte of two samples. -/
def pack (high low : Nat) : UInt8 :=
  UInt8.ofNat (high * 16 + low)

/-- The waveform of some bytes. -/
def new (name : String) (bytes : Vector UInt8 16) : Waveform where
  name := Name.truncate name
  bytes

/-- The waveform of some samples. -/
def ofSamples (name : String) (samples : Vector Nat 32) : Waveform :=
  new name (Vector.ofFn fun i => pack samples[2 * i.val] samples[2 * i.val + 1])

/-- Read a waveform from one hexadecimal digit per sample, in either case. -/
def ofHex (name digits : String) : Except EditError Waveform :=
  match digits.toList.mapM Numeral.digitValue? with
  | some samples =>
      if h : samples.toArray.size = 32 then .ok (ofSamples name ⟨samples.toArray, h⟩)
      else .error .invalidWaveform
  | none => .error .invalidWaveform

/-- The sample at a position, which is taken around the waveform. -/
def sample (w : Waveform) (i : Nat) : UInt8 :=
  let byte := w.bytes.get ⟨(i / 2) % 16, Nat.mod_lt _ (by decide)⟩
  if i % 2 = 0 then byte >>> 4 else byte &&& 0xF

end Waveform
end Chiptune
