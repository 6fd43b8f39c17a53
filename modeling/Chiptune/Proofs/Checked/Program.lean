import Chiptune.Program.Runner
import Chiptune.Proofs.Checked.Arithmetic

/-! # Checked programs

A program is read from a place within its bytes, and the place moves behind each command that is
obeyed.  The commands write to registers whose addresses are counted from the first one of the
channel, and bend the frequency.

* `Command.checkedDecode_eq` says that a command is read and measured without a fault.
* `ProgramRunner.InRange` is the range of a place, and `InRange.step` says that a step keeps it.
* `ProgramRunner.checkedStep_eq` says that a step has no fault. -/

namespace Chiptune

open Checked

/-! ## Registers -/

/-- The address of a register, counted from the first one of its channel. -/
def Layout.checkedRegister (l : Layout) (offset : Nat) : Checked Nat :=
  unsigned 16 (l.base + offset)

/-- The registers of a channel have addresses. -/
theorem Channel.checkedRegister_eq (c : Channel) {offset : Nat} (h : offset < Register.perChannel) :
    c.layout.checkedRegister offset = .ok (c.layout.base + offset) := by
  have hbase : c.layout.base ≤ 0xFF1F := by cases c <;> decide
  have hcount : Register.perChannel = 5 := rfl
  exact unsigned_eq (by omega) (by omega)

/-- The writes that fill memory from an address on; the address behind each byte is counted. -/
def checkedFill (address : Nat) : List UInt8 → Checked (List DeviceWrite)
  | [] => .ok []
  | b :: bytes => do
      let next ← unsigned 16 (address + 1)
      let writes ← checkedFill next bytes
      return .register address b :: writes

/-- Memory is filled without a fault as far as addresses go. -/
theorem checkedFill_eq (start : Nat) (bytes : List UInt8) (i : Nat)
    (h : start + i + bytes.length < 2 ^ 16) :
    checkedFill (start + i) bytes =
      .ok ((bytes.zipIdx i).map fun (b, i) => .register (start + i) b) := by
  induction bytes generalizing i with
  | nil => rfl
  | cons b bytes ih =>
      rw [List.length_cons] at h
      have hnext : unsigned 16 ((start + i : Nat) + 1) = .ok (start + (i + 1)) :=
        unsigned_eq (by omega) (by omega)
      rw [checkedFill, hnext, ok_bind, ih (i + 1) (by omega)]
      rfl

/-- The writes that load a waveform. -/
def Waveform.checkedLoadWrites (w : Waveform) : Checked (List DeviceWrite) := do
  let memory ← checkedFill Register.waveRam w.bytes.toList
  return .register Register.nr30 0 :: memory ++ [.register Register.nr30 Register.waveOn]

/-- Loading a waveform counts sixteen addresses from the start of wave memory, all of which fit. -/
theorem Waveform.checkedLoadWrites_eq (w : Waveform) : w.checkedLoadWrites = .ok w.loadWrites := by
  have hlength : w.bytes.toList.length = 16 := w.bytes.length_toList
  have hfill := checkedFill_eq Register.waveRam w.bytes.toList 0 (by rw [hlength]; decide)
  rw [checkedLoadWrites, show checkedFill Register.waveRam w.bytes.toList = _ from hfill]
  rfl

/-- The output levels of the wave channel, by their numbers. -/
def waveLevels : List UInt8 := [0x00, 0x60, 0x40, 0x20]

namespace Channel

/-- The writes that set an envelope or load a waveform. -/
def checkedEnvelopeWrites (c : Channel) (waves : Table Waveform) (envelope : UInt8) :
    Checked (List DeviceWrite) :=
  match c.layout.secondAux with
  | .envelope => do
      let address ← c.layout.checkedRegister 2
      return [.register address envelope]
  | .waveform =>
      match waves.get? envelope.toNat with
      | some w => w.checkedLoadWrites
      | none => .ok []

/-- An envelope has a register on every channel but the third, where its byte may name a waveform.
-/
theorem checkedEnvelopeWrites_eq (c : Channel) (waves : Table Waveform) (envelope : UInt8) :
    c.checkedEnvelopeWrites waves envelope = .ok (c.envelopeWrites waves envelope) := by
  rw [checkedEnvelopeWrites, envelopeWrites]
  cases c.layout.secondAux with
  | envelope =>
      dsimp only
      rw [checkedRegister_eq c (by decide)]
      rfl
  | waveform =>
      cases waves.get? envelope.toNat with
      | some w => exact w.checkedLoadWrites_eq
      | none => rfl

/-- The writes that set a timbre; an output level is looked up. -/
def checkedTimbreWrites (c : Channel) (timbre : UInt8) : Checked (List DeviceWrite) :=
  match c.layout.timbre with
  | .duty => do
      let address ← c.layout.checkedRegister 1
      let bits ← shiftLeft (timbre &&& 3) 6
      return [.register address bits]
  | .outputLevel => do
      let address ← c.layout.checkedRegister 2
      let level ← read waveLevels[(timbre &&& 3).toNat]?
      return [.register address level]
  | .unused => .ok []

/-- Every output level is in the list. -/
theorem read_waveLevels (timbre : UInt8) :
    read waveLevels[(timbre &&& 3).toNat]? = .ok (waveLevel timbre) := by
  have hlevel : (timbre &&& 3).toNat < 4 :=
    Nat.lt_succ_of_le (UInt8.toNat_and timbre 3 ▸ Nat.and_le_right)
  unfold waveLevel
  generalize (timbre &&& 3).toNat = level at hlevel
  match level with
  | 0 | 1 | 2 | 3 => rfl

/-- Duty bits are shifted within a byte, and every output level is in the list. -/
theorem checkedTimbreWrites_eq (c : Channel) (timbre : UInt8) :
    c.checkedTimbreWrites timbre = .ok (c.timbreWrites timbre) := by
  rw [checkedTimbreWrites, timbreWrites]
  cases c.layout.timbre with
  | duty =>
      dsimp only
      rw [checkedRegister_eq c (by decide), ok_bind, shiftLeft_eq (by decide)]
      rfl
  | outputLevel =>
      dsimp only
      rw [checkedRegister_eq c (by decide), ok_bind, read_waveLevels]
      rfl
  | unused => rfl

/-- The writes of the first auxiliary byte of a command. -/
def checkedFirstAuxWrites (c : Channel) (value : UInt8) : Checked (List DeviceWrite) :=
  match c.layout.firstAux with
  | .sweep => do
      let address ← c.layout.checkedRegister 0
      return [.register address value]
  | .noise => do
      let address ← c.layout.checkedRegister 3
      return [.register address value]
  | .unused => .ok []

/-- The register of a sweep or of the noise polynomial has an address. -/
theorem checkedFirstAuxWrites_eq (c : Channel) (value : UInt8) :
    c.checkedFirstAuxWrites value = .ok (c.firstAuxWrites value) := by
  rw [checkedFirstAuxWrites, firstAuxWrites]
  cases c.layout.firstAux with
  | sweep | noise =>
      dsimp only
      rw [checkedRegister_eq c (by decide)]
      rfl
  | unused => rfl

end Channel

/-! ## Commands -/

namespace Command

/-- Read an operand if it is announced, and count its byte. -/
def checkedOperand (announced : Bool) (bytes : List UInt8) (count : Nat) :
    OptionT Checked (Option UInt8 × List UInt8 × Nat) :=
  if announced then
    match bytes with
    | b :: rest => do
        let count ← OptionT.lift (word (count + 1))
        return (some b, rest, count)
    | [] => failure
  else return (none, bytes, count)

/-- Read the operands behind a control byte and an extended byte, and count their bytes. -/
def checkedOperands (control extended : UInt8) (bytes : List UInt8) (count : Nat) :
    OptionT Checked (Command × Nat) := do
  let (aux1, bytes, count) ← checkedOperand (has control 0x20) bytes count
  let (aux2, bytes, count) ← checkedOperand (has control 0x10) bytes count
  let (tune, bytes, count) ← checkedOperand (has extended 0x40) bytes count
  let (fine, _, count) ← checkedOperand (has extended 0x20) bytes count
  let command := {
    retrigger := has control 0x40
    aux1
    aux2
    settings := if has control 0x08 then some (control >>> 1 &&& 3) else none
    tune := tune.map UInt8.toInt8
    fine := fine.map UInt8.toInt8
    panning := if has extended 0x10 then some (extended >>> 2 &&& 3) else none }
  return (command, count)

/-- Read the command at the start of some bytes, and count its bytes. -/
def checkedDecode : List UInt8 → OptionT Checked (Command × Nat)
  | [] => failure
  | header :: bytes =>
      if has header 0x80 then checkedOperands 0 header bytes 1
      else if has header 0x01 then
        match bytes with
        | extended :: rest => do
            let count ← OptionT.lift (word (1 + 1))
            checkedOperands header extended rest count
        | [] => failure
      else checkedOperands header 0 bytes 1

/-- Reading goes on behind what was read without a fault. -/
theorem bind_of_ok {α β γ δ : Type} {a? : Option α} {f : α → γ} {g : γ → OptionT Checked β}
    {k : α → Option δ} {result : δ → β} {x : OptionT Checked γ}
    (hx : x = OptionT.mk (.ok (a?.map f)))
    (h : ∀ a, a? = some a → g (f a) = OptionT.mk (.ok ((k a).map result))) :
    (x >>= g) = OptionT.mk (.ok ((a?.bind k).map result)) := by
  subst hx
  cases a? with
  | none => rfl
  | some a => exact h a rfl

/-- The count of an operand is what it takes off the bytes. -/
theorem checkedOperand_eq (announced : Bool) {bytes : List UInt8} {count total : Nat}
    (hcount : count + bytes.length = total) (htotal : total < 2 ^ 16) :
    checkedOperand announced bytes count =
      OptionT.mk (.ok ((readOperand announced bytes).map fun (o, rest) =>
        (o, rest, total - rest.length))) := by
  subst hcount
  rw [checkedOperand.eq_def, readOperand.eq_def]
  -- only an operand that is announced takes a byte
  cases announced with
  | false =>
      rw [if_neg Bool.false_ne_true, if_neg Bool.false_ne_true, Option.map_some]
      dsimp only
      rw [Nat.add_sub_cancel]
      rfl
  | true =>
      cases bytes with
      | nil => rfl
      | cons b rest =>
          rw [List.length_cons] at htotal
          show (OptionT.lift (word (count + 1)) >>= fun count => pure (some b, rest, count)) =
            OptionT.mk (.ok (some (some b, rest, count + (rest.length + 1) - rest.length)))
          rw [word_eq (n := count + 1) (by omega) (by omega),
            show count + (rest.length + 1) - rest.length = count + 1 by omega]
          rfl

/-- The count of some operands is what they take off the bytes. -/
theorem checkedOperands_eq (control extended : UInt8) {bytes : List UInt8} {count total : Nat}
    (hcount : count + bytes.length = total) (htotal : total < 2 ^ 16) :
    checkedOperands control extended bytes count =
      OptionT.mk (.ok ((readOperands control extended bytes).map fun (c, rest) =>
        (c, total - rest.length))) := by
  -- behind every operand, the count and the bytes that are left make up the total
  rw [checkedOperands, readOperands]
  refine bind_of_ok (checkedOperand_eq _ hcount htotal) ?_
  rintro ⟨aux1, bytes₁⟩ h₁
  have hlength₁ := length_of_readOperand h₁
  refine bind_of_ok (checkedOperand_eq _ (by omega) htotal) ?_
  rintro ⟨aux2, bytes₂⟩ h₂
  have hlength₂ := length_of_readOperand h₂
  refine bind_of_ok (checkedOperand_eq _ (by omega) htotal) ?_
  rintro ⟨tune, bytes₃⟩ h₃
  have hlength₃ := length_of_readOperand h₃
  refine bind_of_ok (checkedOperand_eq _ (by omega) htotal) ?_
  rintro ⟨fine, bytes₄⟩ h₄
  rfl

/-- **A command is read and measured without a fault.** -/
theorem checkedDecode_eq {bytes : List UInt8} (h : bytes.length < 2 ^ 16) :
    checkedDecode bytes = OptionT.mk (.ok (decode bytes)) := by
  rw [checkedDecode.eq_def, decode, read.eq_def]
  cases bytes with
  | nil => rfl
  | cons header bytes =>
      rw [List.length_cons] at h
      dsimp only
      split
      -- an extended byte, a control byte with an extended one, a control byte
      · exact checkedOperands_eq _ _ (Nat.add_comm ..) h
      · split
        · cases bytes with
          | nil => rfl
          | cons extended rest =>
              rw [List.length_cons] at h
              dsimp only
              rw [show word (1 + 1) = .ok 2 from word_eq rfl (by decide)]
              exact checkedOperands_eq _ _ (by simp only [List.length_cons]; omega) h
        · exact checkedOperands_eq _ _ (Nat.add_comm ..) h

end Command

/-! ## Runners -/

namespace ProgramRunner

variable {r : ProgramRunner}

/-- The range of a runner: it stands within its program, which is not too long. -/
structure InRange (r : ProgramRunner) : Prop where
  length_le : r.program.length ≤ Instrument.maxProgramLength
  position_le : r.position ≤ r.program.length

/-- A new runner stands at the start of an empty program. -/
theorem inRange_new (c : Channel) : (new c).InRange where
  length_le := Nat.zero_le _
  position_le := Nat.le_refl _

/-- A program that is too long is not loaded, so that what is loaded is in range. -/
theorem inRange_setProgram (r : ProgramRunner) (program : List UInt8) :
    (r.setProgram program).InRange := by
  rw [setProgram, load]
  split
  · next h => exact { length_le := h, position_le := Nat.zero_le _ }
  · exact inRange_new _

/-- A command that is left ends within the program. -/
theorem InRange.position_add_le (h : r.InRange) {c : Command} {length : Nat}
    (hnext : r.next? = some (c, length)) : r.position + length ≤ r.program.length := by
  obtain ⟨⟨c', rest⟩, -, hc⟩ := Option.map_eq_some_iff.mp hnext
  obtain ⟨-, rfl⟩ := Prod.mk.inj hc
  have hposition := h.position_le
  rw [List.length_drop]
  omega

/-- A step leads to the end of a whole command at most. -/
theorem InRange.step (h : r.InRange) (waves : Table Waveform) (frequency : Nat) :
    (r.step waves frequency).1.InRange := by
  unfold ProgramRunner.step
  split
  · split
    · next c length hnext =>
      exact { length_le := h.length_le, position_le := h.position_add_le hnext }
    · exact { h with }
  · exact h

/-! ### Checked commands -/

/-- The command that is obeyed next, read from the bytes behind the place. -/
def checkedNext? (r : ProgramRunner) : Checked (Option (Command × Nat)) := do
  let bytes ← behind r.program r.position
  (Command.checkedDecode bytes).run

/-- The next command is read without a fault, since at most 256 bytes are left of a program. -/
theorem checkedNext?_eq (h : r.InRange) : r.checkedNext? = .ok r.next? := by
  have hlength := h.length_le
  have hmax : Instrument.maxProgramLength = 256 := rfl
  rw [checkedNext?, behind_eq h.position_le, ok_bind,
    Command.checkedDecode_eq (by rw [List.length_drop]; omega)]
  rfl

/-- Run on if a whole command is left, and stop otherwise. -/
def checkedSettle (r : ProgramRunner) : Checked ProgramRunner := do
  let next? ← r.checkedNext?
  return { r with isRunning := next?.isSome }

/-- Whether a runner in its range runs on is found out without a fault. -/
theorem checkedSettle_eq (h : r.InRange) : r.checkedSettle = .ok r.settle := by
  rw [checkedSettle, checkedNext?_eq h]
  rfl

/-- Replace the program and start it. -/
def checkedSetProgram (r : ProgramRunner) (program : List UInt8) : Checked ProgramRunner :=
  if program.length ≤ Instrument.maxProgramLength then
    checkedSettle { channel := r.channel, program }
  else checkedSettle (new r.channel)

/-- Any program is loaded without a fault, be it too long or not. -/
theorem checkedSetProgram_eq (r : ProgramRunner) (program : List UInt8) :
    r.checkedSetProgram program = .ok (r.setProgram program) := by
  rw [checkedSetProgram, setProgram, load]
  split
  · next h => exact checkedSettle_eq { length_le := h, position_le := Nat.zero_le _ }
  · exact checkedSettle_eq (inRange_new _)

/-! ### Checked writes -/

/-- A frequency bent by the tunings, added up in 32 bits. -/
def checkedBend (r : ProgramRunner) (frequency : Nat) : Checked Nat := do
  let tuned ← signed 32 (frequency + r.coarse.toInt)
  let fine ← signed 32 (r.fine.toInt * 16)
  let bent ← signed 32 (tuned + fine)
  return PitchKind.tone.clampFrequency bent

/-- A frequency of eleven bits and two signed bytes add up within 32 bits. -/
theorem checkedBend_eq (r : ProgramRunner) {frequency : Nat} (h : frequency ≤ 0x7FF) :
    r.checkedBend frequency = .ok (r.bend frequency) := by
  have hcoarse := r.coarse.le_toInt
  have hcoarse' := r.coarse.toInt_lt
  have hfine := r.fine.le_toInt
  have hfine' := r.fine.toInt_lt
  rw [checkedBend, signed_eq (by omega) (by omega), ok_bind, signed_eq (by omega) (by omega),
    ok_bind, signed_eq (by omega) (by omega)]
  rfl

/-- The writes that an operand asks for, if it is there. -/
def checkedOperandWrites {α : Type} (a? : Option α) (f : α → Checked (List DeviceWrite)) :
    Checked (List DeviceWrite) :=
  match a? with
  | some a => f a
  | none => .ok []

/-- Writes that are computed without a fault for each operand are so for one that may be missing. -/
theorem checkedOperandWrites_eq {α : Type} (a? : Option α) {f : α → Checked (List DeviceWrite)}
    {g : α → List DeviceWrite} (h : ∀ a, f a = .ok (g a)) :
    checkedOperandWrites a? f = .ok (a?.toList.flatMap g) := by
  cases a? with
  | none => rfl
  | some a => rw [checkedOperandWrites, h, Option.toList_some, List.flatMap_singleton]

/-- The writes of a command up to its panning. -/
def checkedSettingWrites (channel : Channel) (waves : Table Waveform) (c : Command) :
    Checked (List DeviceWrite) := do
  let aux1 ← checkedOperandWrites c.aux1 channel.checkedFirstAuxWrites
  let aux2 ← checkedOperandWrites c.aux2 (channel.checkedEnvelopeWrites waves)
  let settings ← checkedOperandWrites c.settings channel.checkedTimbreWrites
  return aux1 ++ aux2 ++ settings ++
    c.panning.toList.map fun p => .channelOutput channel (.ofByte p)

/-- The settings of a command are written without a fault, one operand after the other. -/
theorem checkedSettingWrites_eq (channel : Channel) (waves : Table Waveform) (c : Command) :
    checkedSettingWrites channel waves c = .ok (settingWrites channel waves c) := by
  rw [checkedSettingWrites,
    checkedOperandWrites_eq c.aux1 channel.checkedFirstAuxWrites_eq, ok_bind,
    checkedOperandWrites_eq c.aux2 (channel.checkedEnvelopeWrites_eq waves), ok_bind,
    checkedOperandWrites_eq c.settings channel.checkedTimbreWrites_eq]
  rfl

/-- The writes that set the frequency, which the noise channel does not have. -/
def checkedFrequencyWrites (r : ProgramRunner) (frequency : Nat) : Checked (List DeviceWrite) :=
  if r.channel.isNoise then .ok []
  else do
    let value ← r.checkedBend frequency
    return [.frequency r.channel value]

/-- The frequency of a command is bent without a fault; the noise channel has none. -/
theorem checkedFrequencyWrites_eq (r : ProgramRunner) {frequency : Nat} (h : frequency ≤ 0x7FF) :
    r.checkedFrequencyWrites frequency = .ok (r.frequencyWrites frequency) := by
  rw [checkedFrequencyWrites, frequencyWrites]
  split
  · rfl
  · rw [r.checkedBend_eq h]
    rfl

/-- Obey one command, and stop when none is left.  The place is counted in a word. -/
def checkedStep (r : ProgramRunner) (waves : Table Waveform) (frequency : Nat) :
    Checked (ProgramRunner × List DeviceWrite) :=
  if r.isRunning then do
    match ← r.checkedNext? with
    | some (c, length) => do
        let position ← word (r.position + length)
        -- the writes see the tunings of the command
        let r := { r.advance c length with position }
        let settings ← checkedSettingWrites r.channel waves c
        let frequencies ← r.checkedFrequencyWrites frequency
        let settled ← r.checkedSettle
        return (settled,
          settings ++ frequencies ++ if c.retrigger then [.restart r.channel] else [])
    | none => return ({ r with isRunning := false }, [])
  else .ok (r, [])

/-- **A step of a runner in its range has no fault.** -/
theorem checkedStep_eq (h : r.InRange) (waves : Table Waveform) {frequency : Nat}
    (hfrequency : frequency ≤ 0x7FF) :
    r.checkedStep waves frequency = .ok (r.step waves frequency) := by
  rw [checkedStep, ProgramRunner.step]
  split
  · rw [checkedNext?_eq h, ok_bind]
    cases hnext : r.next? with
    | none => rfl
    | some next =>
        obtain ⟨c, length⟩ := next
        -- the command ends within the program, so that the place can be counted
        have hposition := h.position_add_le hnext
        have hlength := h.length_le
        have hmax : Instrument.maxProgramLength = 256 := rfl
        have hadvanced : (r.advance c length).InRange :=
          { length_le := h.length_le, position_le := hposition }
        dsimp only
        rw [word_eq (n := r.position + length) (by omega) (by omega), ok_bind]
        show (checkedSettingWrites r.channel waves c >>= fun settings =>
          (r.advance c length).checkedFrequencyWrites frequency >>= fun frequencies =>
            (r.advance c length).checkedSettle >>= fun settled =>
              pure (settled, settings ++ frequencies ++ _)) = _
        rw [checkedSettingWrites_eq, ok_bind, checkedFrequencyWrites_eq _ hfrequency, ok_bind,
          checkedSettle_eq hadvanced]
        rfl
  · rfl

end ProgramRunner
end Chiptune
