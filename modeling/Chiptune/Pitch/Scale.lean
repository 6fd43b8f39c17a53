import Chiptune.Score.Note

/-! # Scales

Tone channels take an eleven-bit period value for each note, noise channels a polynomial byte.
Pitch on the noise channel is counted in quarters of a semitone, so that it can be bent like that of
a tone.  `frequency_le` says that no note exceeds the range of its channel. -/

namespace Chiptune

/-- The register values of the tones from C-2 to B-8. -/
def toneTable : Vector Nat 84 := #v[
  0x02C, 0x09D, 0x107, 0x16B, 0x1C9, 0x223, 0x277, 0x2C7, 0x312, 0x358, 0x39B, 0x3DA,
  0x416, 0x44E, 0x483, 0x4B5, 0x4E5, 0x511, 0x53B, 0x563, 0x589, 0x5AC, 0x5CE, 0x5ED,
  0x60B, 0x627, 0x642, 0x65B, 0x672, 0x689, 0x69E, 0x6B2, 0x6C4, 0x6D6, 0x6E7, 0x6F7,
  0x706, 0x714, 0x721, 0x72D, 0x739, 0x744, 0x74F, 0x759, 0x762, 0x76B, 0x773, 0x77B,
  0x783, 0x78A, 0x790, 0x797, 0x79D, 0x7A2, 0x7A7, 0x7AC, 0x7B1, 0x7B6, 0x7BA, 0x7BE,
  0x7C1, 0x7C5, 0x7C8, 0x7CB, 0x7CE, 0x7D1, 0x7D4, 0x7D6, 0x7D9, 0x7DB, 0x7DD, 0x7DF,
  0x7E1, 0x7E2, 0x7E4, 0x7E6, 0x7E7, 0x7E9, 0x7EA, 0x7EB, 0x7EC, 0x7ED, 0x7EE, 0x7EF]

/-- The polynomial bytes of the noise notes from C-2 to B-6. -/
def noiseTable : Vector UInt8 60 := #v[
  0xD7, 0xD6, 0xD5, 0xD4, 0xC7, 0xC6, 0xC5, 0xC4, 0xB7, 0xB6, 0xB5, 0xB4,
  0xA7, 0xA6, 0xA5, 0xA4, 0x97, 0x96, 0x95, 0x94, 0x87, 0x86, 0x85, 0x84,
  0x77, 0x76, 0x75, 0x74, 0x67, 0x66, 0x65, 0x64, 0x57, 0x56, 0x55, 0x54,
  0x47, 0x46, 0x45, 0x44, 0x37, 0x36, 0x35, 0x34, 0x27, 0x26, 0x25, 0x24,
  0x17, 0x16, 0x15, 0x14, 0x07, 0x06, 0x05, 0x04, 0x03, 0x02, 0x01, 0x00]

/-- The register value of a tone; notes behind the last take the last one. -/
def toneFrequency (note : Nat) : Nat :=
  toneTable.get ⟨min note 83, by omega⟩

/-- The polynomial byte of a noise note; notes behind the last take the last one. -/
def noiseRegister (note : Nat) : UInt8 :=
  noiseTable.get ⟨min note 59, by omega⟩

/-- The two ways in which channels are pitched. -/
inductive PitchKind where
  /-- The pulse channels and the wave channel. -/
  | tone
  /-- The noise channel. -/
  | noise
  deriving DecidableEq, Repr

namespace PitchKind

/-- The pitch units of a semitone on the noise channel. -/
def noiseUnits : Nat := 4

/-- The highest note. -/
def topNote : PitchKind → Nat
  | tone => Note.last
  | noise => Note.noiseLast

/-- The largest frequency value. -/
def maxFrequency : PitchKind → Nat
  | tone => 0x7FF
  | noise => Note.noiseLast * noiseUnits

/-- The frequency value of a note; notes above the highest take its value. -/
def frequency : PitchKind → Nat → Nat
  | tone, note => toneFrequency note
  | noise, note => min note Note.noiseLast * noiseUnits

/-- No note exceeds the largest frequency value. -/
theorem frequency_le (k : PitchKind) (note : Nat) : k.frequency note ≤ k.maxFrequency := by
  cases k with
  | tone =>
    have all : ∀ i : Fin 84, toneTable.get i ≤ 0x7FF := by decide
    exact all ⟨min note 83, by omega⟩
  | noise => exact Nat.mul_le_mul_right _ (Nat.min_le_right ..)

/-- A note number brought into the range of the channel. -/
def clampNote (k : PitchKind) (note : Int) : Nat :=
  min note.toNat k.topNote

/-- A frequency value brought into the range of the channel. -/
def clampFrequency (k : PitchKind) (value : Int) : Nat :=
  min value.toNat k.maxFrequency

end PitchKind

/-- The polynomial byte of a pitch on the noise channel, which is that of its semitone. -/
def noiseRegisterOfPitch (pitch : Nat) : UInt8 :=
  noiseRegister (pitch / PitchKind.noiseUnits)

end Chiptune
