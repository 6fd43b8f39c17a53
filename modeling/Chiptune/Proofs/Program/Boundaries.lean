import Chiptune.Proofs.Program.Codec

/-! # Where commands end

The header of a command announces how many bytes the command has, so that a command can be told
from what follows it without a mark between them.  Bytes that end too early can always be completed
to a command.

* `Command.announcedBy_bounds`: a header announces at most six bytes.
* `Command.isSome_read` and `Command.decode_eq_none_iff` say that a command is read exactly where its
  announced bytes are there, and `Command.read_append_iff` that it does not depend on others.
* `Command.exists_decodeMany` takes commands off some bytes until none is left.
* `Command.decode_self_delimiting` puts this together. -/

namespace Chiptune
namespace Command

variable {c : Command} {control extended : UInt8} {bytes start rest : List UInt8} {length : Nat}

/-! ## Announced bytes -/

/-- A header announces one to six bytes. -/
theorem announcedBy_bounds (first second : UInt8) :
    1 ≤ announcedBy first second ∧ announcedBy first second ≤ 6 := by
  have hle (control extended : UInt8) : operandCount control extended ≤ 4 := by
    have h₁ := (has control 0x20).toNat_le
    have h₂ := (has control 0x10).toNat_le
    have h₃ := (has extended 0x40).toNat_le
    have h₄ := (has extended 0x20).toNat_le
    rw [operandCount]
    omega
  have hextended := hle 0 first
  have hboth := hle first second
  have hcontrol := hle first 0
  rw [announcedBy]
  split
  · omega
  · split <;> omega

/-- Zeros behind some bytes stand for what was missing. -/
theorem announced_append_zeros (bytes : List UInt8) (k : Nat) :
    announced (bytes ++ List.replicate k 0) = announced bytes := by
  match bytes, k with
  | [], 0 | [], 1 | [], k + 2 | [_], 0 | [_], k + 1 | _ :: _ :: _, k => rfl

/-! ## Reading -/

/-- An operand is read if its byte is there. -/
theorem exists_readOperand (announced : Bool) (bytes : List UInt8)
    (h : announced.toNat ≤ bytes.length) :
    ∃ o rest, readOperand announced bytes = some (o, rest) ∧
      bytes.length = announced.toNat + rest.length := by
  cases announced with
  | false => exact ⟨none, bytes, rfl, (Nat.zero_add _).symm⟩
  | true =>
      cases bytes with
      | nil => exact absurd h (by decide)
      | cons b rest => exact ⟨some b, rest, rfl, Nat.add_comm ..⟩

/-- Operands are read if their bytes are there. -/
theorem isSome_readOperands (h : operandCount control extended ≤ bytes.length) :
    (readOperands control extended bytes).isSome := by
  rw [operandCount] at h
  obtain ⟨aux1, bytes₁, h₁, hlength₁⟩ :=
    exists_readOperand (has control 0x20) bytes (by omega)
  obtain ⟨aux2, bytes₂, h₂, hlength₂⟩ :=
    exists_readOperand (has control 0x10) bytes₁ (by omega)
  obtain ⟨tune, bytes₃, h₃, hlength₃⟩ :=
    exists_readOperand (has extended 0x40) bytes₂ (by omega)
  obtain ⟨fine, bytes₄, h₄, hlength₄⟩ :=
    exists_readOperand (has extended 0x20) bytes₃ (by omega)
  simp [readOperands, h₁, h₂, h₃, h₄]

/-- **A command is read if the bytes that its header announces are there.** -/
theorem isSome_read (h : announced bytes ≤ bytes.length) : (read bytes).isSome := by
  cases bytes with
  | nil => exact absurd h (by decide)
  | cons header tail =>
      rw [announced, announcedBy, List.length_cons, List.headD_cons, List.tail_cons] at h
      rw [read.eq_def]
      dsimp only
      -- the header says which bytes are to follow, and all of them do
      split at h
      · rw [if_pos ‹_›]
        exact isSome_readOperands (by omega)
      · rw [if_neg ‹_›]
        split at h
        · rw [if_pos ‹_›]
          cases tail with
          | nil =>
              rw [List.length_nil] at h
              omega
          | cons extended rest =>
              rw [List.headD_cons, List.length_cons] at h
              exact isSome_readOperands (by omega)
        · rw [if_neg ‹_›]
          exact isSome_readOperands (by omega)

/-- What follows operands does not matter to them. -/
theorem readOperands_append_iff :
    readOperands control extended (start ++ rest) = some (c, rest) ↔
      readOperands control extended start = some (c, []) := by
  rw [readOperands_eq_some, readOperands_eq_some, List.append_nil, List.append_left_inj]

/-- **What follows a command does not matter to it.** -/
theorem read_append_iff : read (start ++ rest) = some (c, rest) ↔ read start = some (c, []) := by
  cases start with
  | nil =>
      constructor
      · intro h
        exact absurd (length_of_read h) (Nat.lt_irrefl _)
      · nofun
  | cons header start =>
      rw [List.cons_append]
      cases htag : has header 0x80 with
      | true => rw [read_extended htag, read_extended htag, readOperands_append_iff]
      | false =>
          cases hextended : has header 0x01 with
          | false =>
              rw [read_control htag hextended, read_control htag hextended,
                readOperands_append_iff]
          | true =>
              cases start with
              | cons extended start =>
                  rw [List.cons_append, read_both htag hextended, read_both htag hextended,
                    readOperands_append_iff]
              | nil =>
                  -- the extended byte is missing, and those that follow are not left over by it
                  constructor
                  · intro h
                    have hlength := length_of_read_eq h
                    rw [announced, announcedBy, List.headD_cons, if_neg (by simp [htag]),
                      if_pos hextended, List.nil_append, List.length_cons] at hlength
                    omega
                  · intro h
                    have hlength := length_of_read_eq h
                    rw [announced, announcedBy, List.headD_cons, if_neg (by simp [htag]),
                      if_pos hextended, List.length_singleton, List.length_nil] at hlength
                    omega

/-! ## Decoding -/

/-- **Bytes hold no command exactly if they end before it does.** -/
theorem decode_eq_none_iff : decode bytes = none ↔ bytes.length < announced bytes := by
  rw [decode, Option.map_eq_none_iff]
  constructor
  · intro h
    refine Nat.lt_of_not_le fun hle => ?_
    have := isSome_read hle
    rw [h] at this
    exact Bool.false_ne_true this
  · intro hlt
    cases h : read bytes with
    | none => rfl
    | some found =>
        have := length_of_read_eq h
        omega

/-- A command is decoded off any bytes that begin with its own. -/
theorem decode_of_take_eq {other : List UInt8} (h : decode bytes = some (c, length))
    (hother : other.take length = bytes.take length) : decode other = some (c, length) := by
  obtain ⟨start, rest, rfl, rfl, hread⟩ := decode_eq_some.mp h
  rw [List.take_left] at hother
  have hsplit : other = start ++ other.drop start.length := by
    conv_lhs => rw [← List.take_append_drop start.length other, hother]
  rw [hsplit]
  exact decode_eq_some.mpr ⟨start, _, rfl, rfl, read_append_iff.mpr (read_append_iff.mp hread)⟩

/-- More bytes do not change a command. -/
theorem decode_append (h : decode bytes = some (c, length)) (more : List UInt8) :
    decode (bytes ++ more) = some (c, length) :=
  decode_of_take_eq h (List.take_append_of_le_length (length_of_decode h).2)

/-- A part of a command is none. -/
theorem decode_of_shorter {part : List UInt8} (h : decode bytes = some (c, length))
    (hpart : part <+: bytes) (hlt : part.length < length) : decode part = none := by
  obtain ⟨more, rfl⟩ := hpart
  cases hfound : decode part with
  | none => rfl
  | some found =>
      have hle := (length_of_decode hfound).2
      have hsame := (decode_append hfound more).symm.trans h
      have hlength : found.2 = length := congrArg Prod.snd (Option.some.inj hsame)
      omega

/-- **Bytes that hold no command are the beginning of one.** -/
theorem exists_decode_append (h : decode bytes = none) :
    ∃ more c, more ≠ [] ∧ (bytes ++ more).length ≤ 6 ∧
      decode (bytes ++ more) = some (c, (bytes ++ more).length) := by
  have hlt := decode_eq_none_iff.mp h
  -- whatever is missing may be zero
  have hannounced := announced_append_zeros bytes (announced bytes - bytes.length)
  generalize hmore : List.replicate (announced bytes - bytes.length) (0 : UInt8) = more
    at hannounced
  have hlength : (bytes ++ more).length = announced bytes := by
    rw [List.length_append, ← hmore, List.length_replicate]
    omega
  have hsix : announced bytes ≤ 6 := (announcedBy_bounds _ _).2
  cases hwhole : decode (bytes ++ more) with
  | none =>
      have := decode_eq_none_iff.mp hwhole
      omega
  | some found =>
      have hfound := (length_of_decode hwhole).1
      refine ⟨more, found.1, ?_, by omega, ?_⟩
      · rintro rfl
        rw [List.append_nil] at hlength
        omega
      · rw [hlength, ← hannounced, ← hfound]
        exact hwhole

/-! ## Programs -/

/-- **The commands of some bytes are decoded one by one until none is left**, and there are no more
of them than bytes. -/
theorem exists_decodeMany (bytes : List UInt8) :
    ∃ rest, decodeMany (decodeAll bytes).length bytes = some (decodeAll bytes, rest) ∧
      decode rest = none ∧ (decodeAll bytes).length ≤ bytes.length := by
  induction hn : bytes.length using Nat.strongRecOn generalizing bytes with
  | _ n ih =>
    cases h : decode bytes with
    | none =>
        rw [decodeAll_of_decode_eq_none h]
        exact ⟨bytes, rfl, h, Nat.zero_le _⟩
    | some found =>
        obtain ⟨c, length⟩ := found
        obtain ⟨hannounced, hle⟩ := length_of_decode h
        -- a command takes a byte at least, so that the rest is shorter
        have hpos : 1 ≤ announced bytes := (announcedBy_bounds _ _).1
        have hdrop : (bytes.drop length).length = bytes.length - length := List.length_drop
        obtain ⟨rest, hmany, hrest, hcount⟩ := ih _ (by omega) (bytes.drop length) rfl
        refine ⟨rest, ?_, hrest, ?_⟩
        · rw [decodeAll_of_decode h, List.length_cons, decodeMany, h, Option.bind_eq_bind,
            Option.bind_some]
          dsimp only
          rw [hmany]
          rfl
        · rw [decodeAll_of_decode h, List.length_cons]
          omega

/-- **Commands delimit themselves.**  A command has one to six bytes, as many as its header
announces, and depends on no others.  No part of it is a command, and bytes that hold none are the
beginning of one.  So the commands of any bytes can be decoded one by one until none is left, and
there are no more of them than bytes. -/
theorem decode_self_delimiting (bytes : List UInt8) :
    (∀ (c : Command) (length : Nat), decode bytes = some (c, length) →
      length = announced bytes ∧ 1 ≤ length ∧ length ≤ min 6 bytes.length ∧
        (∀ other, other.take length = bytes.take length → decode other = some (c, length)) ∧
        (∀ more, decode (bytes ++ more) = some (c, length)) ∧
        ∀ part, part <+: bytes.take length → part ≠ bytes.take length → decode part = none) ∧
      (decode bytes = none → ∃ (more : List UInt8) (c : Command), more ≠ [] ∧
        (bytes ++ more).length ≤ 6 ∧ decode (bytes ++ more) = some (c, (bytes ++ more).length)) ∧
      ∃ cs rest, decodeAll bytes = cs ∧ decodeMany cs.length bytes = some (cs, rest) ∧
        decode rest = none ∧ cs.length ≤ bytes.length := by
  refine ⟨?_, exists_decode_append, ?_⟩
  · intro c length h
    obtain ⟨hannounced, hle⟩ := length_of_decode h
    have hbounds : 1 ≤ announced bytes ∧ announced bytes ≤ 6 := announcedBy_bounds _ _
    refine ⟨hannounced, by omega, by omega, fun other => decode_of_take_eq h, decode_append h, ?_⟩
    -- a part that is not the whole is shorter than what was announced
    intro part hpart hne
    refine decode_of_shorter h (hpart.trans (List.take_prefix ..)) ?_
    refine Nat.lt_of_not_le fun hge => hne (hpart.eq_of_length_le ?_)
    exact Nat.le_trans (List.length_take_le ..) hge
  · obtain ⟨rest, hmany, hrest, hcount⟩ := exists_decodeMany bytes
    exact ⟨_, rest, rfl, hmany, hrest, hcount⟩

/-- The longest command, which bends and restarts the channel, and its beginning. -/
theorem decode_self_delimiting_longest :
    decode [0x71, 0xE0, 1, 2, 3, 4, 0] =
        some ({ retrigger := true, aux1 := some 1, aux2 := some 2, tune := some 3,
                fine := some 4 }, 6) ∧
      decode [0x71, 0xE0, 1, 2, 3, 4] =
        some ({ retrigger := true, aux1 := some 1, aux2 := some 2, tune := some 3,
                fine := some 4 }, 6) ∧
      decode [0x71, 0xE0, 1] = none ∧
      ∃ (more : List UInt8) (c : Command), more ≠ [] ∧
        decode ([0x71, 0xE0, 1] ++ more) = some (c, ([0x71, 0xE0, 1] ++ more).length) := by
  have hwhole : decode [0x71, 0xE0, 1, 2, 3, 4, 0] =
      some ({ retrigger := true, aux1 := some 1, aux2 := some 2, tune := some 3,
              fine := some 4 }, 6) := by decide
  obtain ⟨-, -, -, hother, -, hpart⟩ := (decode_self_delimiting _).1 _ _ hwhole
  have hbeginning : decode [0x71, 0xE0, 1] = none := hpart _ (by decide) (by decide)
  obtain ⟨more, c, hne, -, hmore⟩ := (decode_self_delimiting [0x71, 0xE0, 1]).2.1 hbeginning
  exact ⟨hwhole, hother _ (by decide), hbeginning, more, c, hne, hmore⟩

end Command
end Chiptune
