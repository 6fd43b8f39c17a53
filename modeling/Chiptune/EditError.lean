import Chiptune.Text.Numeral

/-! # Refused changes

The causes for which the data of a module refuses a value, and their wording. -/

namespace Chiptune

/-- Why a value is refused while a module is being built. -/
inductive EditError where
  /-- A raw speed lies outside the playable range. -/
  | speedOutOfRange (raw : Nat)
  /-- A pattern cannot have this many rows. -/
  | rowCountOutOfRange (rows : Nat)
  /-- The order list holds as many entries as it can. -/
  | orderFull
  /-- The order list has no entry at this position. -/
  | orderIndexOutOfRange (index : Nat)
  /-- A sequence has too many values. -/
  | sequenceTooLong (length : Nat)
  /-- The loop of a sequence starts behind its last value. -/
  | loopIndexOutOfRange (index length : Nat)
  /-- An instrument program has too many bytes. -/
  | programTooLong (length : Nat)
  /-- A table has no place for this identifier. -/
  | tableIdOutOfRange (id : Nat)
  /-- The text of a waveform is not made of exactly 32 hexadecimal digits. -/
  | invalidWaveform
  deriving DecidableEq, Repr

namespace EditError

open Numeral in
/-- The wording of a refusal. -/
def message : EditError → String
  | speedOutOfRange raw => "speed 0x" ++ hex 2 raw ++ " outside 0x10..=0xF0"
  | rowCountOutOfRange rows => "row count " ++ decimal 1 rows ++ " outside 1..=256"
  | orderFull => "order list is full"
  | orderIndexOutOfRange index => "order index " ++ decimal 1 index ++ " out of range"
  | sequenceTooLong length => "sequence of " ++ decimal 1 length ++ " values exceeds 256"
  | loopIndexOutOfRange index length =>
      "loop index " ++ decimal 1 index ++ " outside sequence of length " ++ decimal 1 length
  | programTooLong length => "program of " ++ decimal 1 length ++ " bytes exceeds 256"
  | tableIdOutOfRange id => "table id " ++ decimal 1 id ++ " out of range"
  | invalidWaveform => "waveform must be 32 hex digits"

end EditError
end Chiptune
