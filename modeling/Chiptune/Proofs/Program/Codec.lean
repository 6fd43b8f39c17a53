import Mathlib.Data.Fintype.Option
import Chiptune.Program.Command

/-! # Commands and their bytes

A command that was written is read back, whatever bytes stand behind it, and its bytes are the
shortest that stand for it.  Both rest on one description of the bytes: a control byte and an
extended byte spell some parts of a command each, and the operands behind them are the others.

* `SpelledByControl` and `SpelledByExtended` say which parts of a command a header byte spells, and
  `operands` are the bytes behind the header.
* `readOperands_eq_some`: operands are read exactly where they stand behind bytes that spell them.
* `read_encode_append` and `length_encode_of_read` are the two directions for one command.
* `announced` counts the bytes that a header announces, and `length_of_read_eq` says that a command is
  read with as many.
* `decodeAll_of_decode` takes the commands of some bytes one by one, `decodeMany` some of them.
* `decode_encode_shortest` is the codec of whole programs. -/

namespace Chiptune
namespace Command

/-- A command of which only the bits that count are kept: two of the timbre and two of the
panning. -/
def reduced (c : Command) : Command :=
  { c with
    settings := c.settings.map fun value => value &&& 3
    panning := c.panning.map fun value => value &&& 3 }

/-- The bytes of a command behind its header. -/
def operands (c : Command) : List UInt8 :=
  c.aux1.toList ++ (c.aux2.toList ++ ((c.tune.map Int8.toUInt8).toList ++
    (c.fine.map Int8.toUInt8).toList))

/-- The bytes of a command are its header and its operands. -/
theorem encode_eq (c : Command) : c.encode = c.header ++ c.operands := by
  simp only [encode, operands, List.append_assoc]

/-! ## Header bytes -/

/-- A control byte tells whether the channel starts anew and which auxiliary bytes follow, and holds
the timbre. -/
structure SpelledByControl (control : UInt8) (c : Command) : Prop where
  /-- The bit of a new start. -/
  retrigger : c.retrigger = has control 0x40
  /-- The bit of the first auxiliary byte. -/
  aux1 : c.aux1.isSome = has control 0x20
  /-- The bit of the second auxiliary byte. -/
  aux2 : c.aux2.isSome = has control 0x10
  /-- The bits of the timbre. -/
  settings : c.settings = if has control 0x08 then some (control >>> 1 &&& 3) else none

/-- An extended byte tells which tunings follow, and holds the panning. -/
structure SpelledByExtended (extended : UInt8) (c : Command) : Prop where
  /-- The bit of the coarse tuning. -/
  tune : c.tune.isSome = has extended 0x40
  /-- The bit of the fine tuning. -/
  fine : c.fine.isSome = has extended 0x20
  /-- The bits of the panning. -/
  panning : c.panning = if has extended 0x10 then some (extended >>> 2 &&& 3) else none

/-- The byte of two bits, if there are any. -/
def ofTwoBits (bits : Option (Fin 4)) : Option UInt8 :=
  bits.map fun value => UInt8.ofNat value.val

/-- Of a value in a header byte, two bits are kept. -/
theorem exists_ofTwoBits (o : Option UInt8) :
    ∃ bits, o.map (fun value => value &&& 3) = ofTwoBits bits ∧
      ∀ flag shift, field flag shift o = field flag shift (ofTwoBits bits) := by
  cases o with
  | none => exact ⟨none, rfl, fun _ _ => rfl⟩
  | some value =>
      have hlt : (value &&& 3).toNat < 4 := by
        rw [UInt8.toNat_and]
        exact Nat.and_lt_two_pow (n := 2) _ (by decide)
      have hvalue : ofTwoBits (some ⟨(value &&& 3).toNat, hlt⟩) = some (value &&& 3) :=
        congrArg some UInt8.ofNat_toNat
      refine ⟨some ⟨(value &&& 3).toNat, hlt⟩, ?_, ?_⟩
      · rw [hvalue, Option.map_some]
      · intro flag shift
        rw [hvalue, field, field, UInt8.and_assoc, UInt8.and_self]

/-- The bits of a control byte, which has finitely many forms. -/
theorem bits_control : ∀ (retrigger aux1 aux2 extended : Bool) (settings : Option (Fin 4)),
    let byte := flag 0x40 retrigger ||| flag 0x20 aux1 ||| flag 0x10 aux2 |||
      field 0x08 1 (ofTwoBits settings) ||| flag 0x01 extended
    has byte 0x80 = false ∧ has byte 0x40 = retrigger ∧ has byte 0x20 = aux1 ∧
      has byte 0x10 = aux2 ∧ has byte 0x01 = extended ∧
      (if has byte 0x08 then some (byte >>> 1 &&& 3) else none) = ofTwoBits settings := by
  decide

/-- The bits of an extended byte. -/
theorem bits_extended : ∀ (tune fine : Bool) (panning : Option (Fin 4)),
    let byte := 0x80 ||| flag 0x40 tune ||| flag 0x20 fine ||| field 0x10 2 (ofTwoBits panning)
    has byte 0x80 = true ∧ has byte 0x40 = tune ∧ has byte 0x20 = fine ∧
      (if has byte 0x10 then some (byte >>> 2 &&& 3) else none) = ofTwoBits panning := by
  decide

/-- The control byte of a command spells it, and says whether an extended byte follows. -/
theorem spelled_controlByte (c : Command) :
    SpelledByControl c.controlByte c.reduced ∧ has c.controlByte 0x80 = false ∧
      has c.controlByte 0x01 = c.needsExtended := by
  obtain ⟨settings, hreduced, hfield⟩ := exists_ofTwoBits c.settings
  obtain ⟨htag, hretrigger, haux1, haux2, hextended, hsettings⟩ :=
    bits_control c.retrigger c.aux1.isSome c.aux2.isSome c.needsExtended settings
  unfold controlByte reduced
  rw [hreduced, hfield]
  exact ⟨⟨hretrigger.symm, haux1.symm, haux2.symm, hsettings.symm⟩, htag, hextended⟩

/-- The extended byte of a command spells it. -/
theorem spelled_extendedByte (c : Command) :
    SpelledByExtended c.extendedByte c.reduced ∧ has c.extendedByte 0x80 = true := by
  obtain ⟨panning, hreduced, hfield⟩ := exists_ofTwoBits c.panning
  obtain ⟨htag, htune, hfine, hpanning⟩ := bits_extended c.tune.isSome c.fine.isSome panning
  unfold extendedByte reduced
  rw [hreduced, hfield]
  exact ⟨⟨htune.symm, hfine.symm, hpanning.symm⟩, htag⟩

variable {c : Command} {control extended : UInt8} {bytes rest : List UInt8} {length : Nat}

/-- A missing header byte has no bits. -/
theorem has_zero (mask : UInt8) : has 0 mask = false := by
  simp [has]

/-- A missing control byte spells the commands that need none. -/
theorem spelledByControl_zero : SpelledByControl 0 c ↔ c.needsControl = false := by
  simp only [needsControl, Bool.or_eq_false_iff, and_assoc]
  constructor
  · rintro ⟨hretrigger, haux1, haux2, hsettings⟩
    rw [has_zero] at hretrigger haux1 haux2 hsettings
    exact ⟨hretrigger, haux1, haux2, congrArg Option.isSome hsettings⟩
  · rintro ⟨hretrigger, haux1, haux2, hsettings⟩
    refine ⟨?_, ?_, ?_, ?_⟩ <;> rw [has_zero]
    · exact hretrigger
    · exact haux1
    · exact haux2
    · exact Option.isNone_iff_eq_none.mp (Option.isSome_eq_false_iff.mp hsettings)

/-- A missing extended byte spells the commands that need none. -/
theorem spelledByExtended_zero : SpelledByExtended 0 c ↔ c.needsExtended = false := by
  simp only [needsExtended, Bool.or_eq_false_iff, and_assoc]
  constructor
  · rintro ⟨htune, hfine, hpanning⟩
    rw [has_zero] at htune hfine hpanning
    exact ⟨htune, hfine, congrArg Option.isSome hpanning⟩
  · rintro ⟨htune, hfine, hpanning⟩
    refine ⟨?_, ?_, ?_⟩ <;> rw [has_zero]
    · exact htune
    · exact hfine
    · exact Option.isNone_iff_eq_none.mp (Option.isSome_eq_false_iff.mp hpanning)

/-! ## One command -/

/-- An operand is read where it stands. -/
theorem readOperand_eq_some {announced : Bool} {o : Option UInt8} :
    readOperand announced bytes = some (o, rest) ↔
      o.isSome = announced ∧ bytes = o.toList ++ rest := by
  unfold readOperand
  cases announced with
  | true =>
      rw [if_pos rfl]
      cases bytes with
      | nil => cases o <;> simp
      | cons b bytes => cases o <;> simp [eq_comm]
  | false =>
      rw [if_neg Bool.false_ne_true]
      cases o <;> simp [eq_comm]

/-- **Operands are read where they stand** behind header bytes that spell the command. -/
theorem readOperands_eq_some :
    readOperands control extended bytes = some (c, rest) ↔
      SpelledByControl control c ∧ SpelledByExtended extended c ∧
        bytes = c.operands ++ rest := by
  simp only [readOperands, Option.bind_eq_bind, Option.bind_eq_some_iff, Prod.exists,
    readOperand_eq_some, Option.pure_def, Option.some.injEq, Prod.mk.injEq]
  -- the operands are read in the order in which they are spelled
  constructor
  · rintro ⟨aux1, _, ⟨haux1, rfl⟩, aux2, _, ⟨haux2, rfl⟩, tune, _, ⟨htune, rfl⟩, fine, _,
      ⟨hfine, rfl⟩, rfl, rfl⟩
    refine ⟨⟨rfl, haux1, haux2, rfl⟩, ⟨?_, ?_, rfl⟩, ?_⟩
    · rw [Option.isSome_map, htune]
    · rw [Option.isSome_map, hfine]
    · simp [operands, Function.comp_def]
  · rintro ⟨⟨hretrigger, haux1, haux2, hsettings⟩, ⟨htune, hfine, hpanning⟩, rfl⟩
    refine ⟨c.aux1, _, ⟨haux1, ?_⟩, c.aux2, _, ⟨haux2, rfl⟩, c.tune.map Int8.toUInt8, _,
      ⟨Option.isSome_map.trans htune, rfl⟩, c.fine.map Int8.toUInt8, _,
      ⟨Option.isSome_map.trans hfine, rfl⟩, ?_, rfl⟩
    · simp only [operands, List.append_assoc]
    · simp [← hretrigger, ← hsettings, ← hpanning, Function.comp_def]

/-- A command may begin with its extended byte. -/
theorem read_extended (h : has extended 0x80 = true) :
    read (extended :: bytes) = readOperands 0 extended bytes := by
  rw [read.eq_def]
  exact if_pos h

/-- A control byte may announce an extended byte. -/
theorem read_both (h : has control 0x80 = false) (h' : has control 0x01 = true) :
    read (control :: extended :: bytes) = readOperands control extended bytes := by
  rw [read, if_neg (by rw [h]; exact Bool.false_ne_true), if_pos h']

/-- A control byte may stand alone. -/
theorem read_control (h : has control 0x80 = false) (h' : has control 0x01 = false) :
    read (control :: bytes) = readOperands control 0 bytes := by
  rw [read.eq_def]
  dsimp only
  rw [if_neg (by rw [h]; exact Bool.false_ne_true), if_neg (by rw [h']; exact Bool.false_ne_true)]

/-- A control byte is needed for the operands alone, which are kept. -/
@[simp] theorem needsControl_reduced (c : Command) : c.reduced.needsControl = c.needsControl := by
  simp only [needsControl, reduced, Option.isSome_map]

/-- An extended byte is needed for the operands alone, which are kept. -/
@[simp] theorem needsExtended_reduced (c : Command) :
    c.reduced.needsExtended = c.needsExtended := by
  simp only [needsExtended, reduced, Option.isSome_map]

/-- **A written command is read back**, and what stands behind it is left. -/
theorem read_encode_append (c : Command) (rest : List UInt8) :
    read (c.encode ++ rest) = some (c.reduced, rest) := by
  obtain ⟨hcontrol, htag, hfollows⟩ := c.spelled_controlByte
  obtain ⟨hextended, htag'⟩ := c.spelled_extendedByte
  have hzero (h : c.needsControl = false) : SpelledByControl 0 c.reduced :=
    spelledByControl_zero.mpr (c.needsControl_reduced.trans h)
  have hzero' (h : c.needsExtended = false) : SpelledByExtended 0 c.reduced :=
    spelledByExtended_zero.mpr (c.needsExtended_reduced.trans h)
  rw [encode_eq, header]
  -- the bytes that are needed decide how the header is read
  cases hc : c.needsControl with
  | true =>
      rw [if_pos rfl]
      cases he : c.needsExtended with
      | true =>
          rw [if_pos rfl]
          refine (read_both htag (hfollows.trans he)).trans ?_
          exact readOperands_eq_some.mpr ⟨hcontrol, hextended, rfl⟩
      | false =>
          rw [if_neg Bool.false_ne_true]
          refine (read_control htag (hfollows.trans he)).trans ?_
          exact readOperands_eq_some.mpr ⟨hcontrol, hzero' he, rfl⟩
  | false =>
      rw [if_neg Bool.false_ne_true]
      cases he : c.needsExtended with
      | true =>
          rw [if_pos rfl]
          refine (read_extended htag').trans ?_
          exact readOperands_eq_some.mpr ⟨hzero hc, hextended, rfl⟩
      | false =>
          rw [if_neg Bool.false_ne_true]
          refine (read_control (has_zero _) (has_zero _)).trans ?_
          exact readOperands_eq_some.mpr ⟨hzero hc, hzero' he, rfl⟩

/-! ### Lengths -/

/-- A header has one byte, or two if the command needs both of them. -/
theorem length_header (c : Command) :
    c.header.length = if c.needsControl && c.needsExtended then 2 else 1 := by
  rw [header]
  cases c.needsControl <;> cases c.needsExtended <;> rfl

/-- A command has at most four operands. -/
theorem length_operands_le (c : Command) : c.operands.length ≤ 4 := by
  have hoption {α : Type} (o : Option α) : o.toList.length ≤ 1 := by
    cases o <;> simp
  have h₁ := hoption c.aux1
  have h₂ := hoption c.aux2
  have h₃ := hoption (c.tune.map Int8.toUInt8)
  have h₄ := hoption (c.fine.map Int8.toUInt8)
  simp only [operands, List.length_append]
  omega

/-- A command has one to six bytes. -/
theorem length_encode (c : Command) : 1 ≤ c.encode.length ∧ c.encode.length ≤ 6 := by
  have hoperands := c.length_operands_le
  rw [encode_eq, List.length_append, length_header]
  split <;> omega

/-- A value that was read off a header byte has two bits. -/
theorem map_and_three {o : Option UInt8} {announced : Bool} {value : UInt8}
    (h : o = if announced then some (value &&& 3) else none) : o.map (fun v => v &&& 3) = o := by
  rw [h]
  cases announced with
  | true => rw [if_pos rfl, Option.map_some, UInt8.and_assoc, UInt8.and_self]
  | false => rfl

/-- A command that header bytes spell has no bits but those that count. -/
theorem reduced_of_spelled (hcontrol : SpelledByControl control c)
    (hextended : SpelledByExtended extended c) : c.reduced = c := by
  rw [reduced, map_and_three hcontrol.settings, map_and_three hextended.panning]

/-- **A command is read with at least the bytes of which it is written**, and has no bits but those
that count. -/
theorem length_encode_of_read (h : read bytes = some (c, rest)) :
    c.reduced = c ∧ ∃ start, bytes = start ++ rest ∧ c.encode.length ≤ start.length := by
  have hone (hneeds : c.needsControl = false ∨ c.needsExtended = false) : c.header.length = 1 := by
    rw [length_header]
    obtain hneeds | hneeds := hneeds <;> simp [hneeds]
  rw [read.eq_def] at h
  split at h
  · cases h
  · next header bytes =>
    rw [encode_eq]
    split at h
    · -- an extended byte alone
      obtain ⟨hcontrol, hextended, rfl⟩ := readOperands_eq_some.mp h
      refine ⟨reduced_of_spelled hcontrol hextended, header :: c.operands, rfl, ?_⟩
      rw [List.length_append, hone (.inl (spelledByControl_zero.mp hcontrol)), List.length_cons]
      omega
    · split at h
      · split at h
        · next extended rest' =>
          obtain ⟨hcontrol, hextended, rfl⟩ := readOperands_eq_some.mp h
          refine ⟨reduced_of_spelled hcontrol hextended, header :: extended :: c.operands, rfl, ?_⟩
          rw [List.length_append, length_header, List.length_cons, List.length_cons]
          split <;> omega
        · cases h
      · -- a control byte alone
        obtain ⟨hcontrol, hextended, rfl⟩ := readOperands_eq_some.mp h
        refine ⟨reduced_of_spelled hcontrol hextended, header :: c.operands, rfl, ?_⟩
        rw [List.length_append, hone (.inr (spelledByExtended_zero.mp hextended)), List.length_cons]
        omega

/-! ### Announced bytes -/

/-- The number of operands that a control byte and an extended byte announce. -/
def operandCount (control extended : UInt8) : Nat :=
  (has control 0x20).toNat + (has control 0x10).toNat +
    (has extended 0x40).toNat + (has extended 0x20).toNat

/-- The number of bytes that a header announces, itself included.  It has one byte or two. -/
def announcedBy (first second : UInt8) : Nat :=
  if has first 0x80 then 1 + operandCount 0 first
  else if has first 0x01 then 2 + operandCount first second
  else 1 + operandCount first 0

/-- The number of bytes that the header at the start of some bytes announces.  A byte of the header
that is missing counts as zero. -/
def announced (bytes : List UInt8) : Nat :=
  announcedBy (bytes.headD 0) (bytes.tail.headD 0)

/-- Operands are read with the bytes that are announced. -/
theorem length_of_readOperands_eq (h : readOperands control extended bytes = some (c, rest)) :
    bytes.length = operandCount control extended + rest.length := by
  have hoption {α : Type} (o : Option α) : o.toList.length = o.isSome.toNat := by
    cases o <;> rfl
  obtain ⟨hcontrol, hextended, rfl⟩ := readOperands_eq_some.mp h
  simp only [operands, List.length_append, hoption, Option.isSome_map, hcontrol.aux1,
    hcontrol.aux2, hextended.tune, hextended.fine, operandCount]
  omega

/-- **A command is read with the bytes that its header announces.** -/
theorem length_of_read_eq (h : read bytes = some (c, rest)) :
    bytes.length = announced bytes + rest.length := by
  rw [read.eq_def] at h
  split at h
  · cases h
  · next header tail =>
    rw [announced, announcedBy, List.length_cons, List.headD_cons, List.tail_cons]
    -- the same bits of the header decide what is read and what is announced
    split at h
    · rw [if_pos ‹_›, length_of_readOperands_eq h]
      omega
    · rw [if_neg ‹_›]
      split at h
      · rw [if_pos ‹_›]
        split at h
        · rw [List.length_cons, length_of_readOperands_eq h, List.headD_cons]
          omega
        · cases h
      · rw [if_neg ‹_›, length_of_readOperands_eq h]
        omega

/-! ## Programs -/

/-- What `decode` finds, as a split of the bytes. -/
theorem decode_eq_some :
    decode bytes = some (c, length) ↔
      ∃ start rest, bytes = start ++ rest ∧ start.length = length ∧
        read bytes = some (c, rest) := by
  rw [decode, Option.map_eq_some_iff]
  constructor
  · rintro ⟨⟨c', rest⟩, hread, hc⟩
    obtain ⟨rfl, rfl⟩ := Prod.mk.inj hc
    obtain ⟨-, start, rfl, -⟩ := length_encode_of_read hread
    refine ⟨start, rest, rfl, ?_, hread⟩
    rw [List.length_append, Nat.add_sub_cancel]
  · rintro ⟨start, rest, rfl, rfl, hread⟩
    refine ⟨(c, rest), hread, ?_⟩
    dsimp only
    rw [List.length_append, Nat.add_sub_cancel]

/-- A written command is decoded with its length. -/
theorem decode_encode_append (c : Command) (rest : List UInt8) :
    decode (c.encode ++ rest) = some (c.reduced, c.encode.length) :=
  decode_eq_some.mpr ⟨c.encode, rest, rfl, rfl, c.read_encode_append rest⟩

/-- A command is decoded with the bytes that its header announces. -/
theorem length_of_decode (h : decode bytes = some (c, length)) :
    length = announced bytes ∧ length ≤ bytes.length := by
  obtain ⟨start, rest, rfl, rfl, hread⟩ := decode_eq_some.mp h
  have hlength := length_of_read_eq hread
  rw [List.length_append] at hlength ⊢
  omega

/-- The commands of some bytes are the first one and those behind its bytes. -/
theorem decodeAll_of_decode (h : decode bytes = some (c, length)) :
    decodeAll bytes = (c, length) :: decodeAll (bytes.drop length) := by
  obtain ⟨start, rest, rfl, rfl, hread⟩ := decode_eq_some.mp h
  rw [decodeAll.eq_def, List.drop_left]
  split
  · next c' rest' hread' =>
    obtain ⟨rfl, rfl⟩ := Prod.mk.inj (Option.some.inj (hread'.symm.trans hread))
    rw [List.length_append, Nat.add_sub_cancel]
  · next hread' => cases hread'.symm.trans hread

/-- Bytes that do not begin with a command have none. -/
theorem decodeAll_of_decode_eq_none (h : decode bytes = none) : decodeAll bytes = [] := by
  rw [decode, Option.map_eq_none_iff] at h
  rw [decodeAll.eq_def]
  split
  · next c rest hread => cases h.symm.trans hread
  · rfl

/-- Decode some number of commands one after the other; they come with the bytes behind them. -/
def decodeMany : Nat → List UInt8 → Option (List (Command × Nat) × List UInt8)
  | 0, bytes => some ([], bytes)
  | count + 1, bytes => do
      let (c, length) ← decode bytes
      let (cs, rest) ← decodeMany count (bytes.drop length)
      return ((c, length) :: cs, rest)

/-- **Programs are written in the shortest way and read back.**  A command has one to six bytes.
Behind each other, commands are read one by one with the lengths of their bytes, as far as their
bits count; then the bytes behind them are left, and their commands follow.  A command that was read
off any bytes has the length that its header announces, and is read off its own bytes, of which there
are no more. -/
theorem decode_encode_shortest :
    (∀ c : Command, 1 ≤ c.encode.length ∧ c.encode.length ≤ 6) ∧
      (∀ (cs : List Command) (rest : List UInt8),
        decodeMany cs.length (cs.flatMap encode ++ rest) =
            some (cs.map fun c => (c.reduced, c.encode.length), rest) ∧
          decodeAll (cs.flatMap encode ++ rest) =
            (cs.map fun c => (c.reduced, c.encode.length)) ++ decodeAll rest) ∧
      ∀ (bytes : List UInt8) (c : Command) (length : Nat), decode bytes = some (c, length) →
        length = announced bytes ∧ decode c.encode = some (c, c.encode.length) ∧
          c.encode.length ≤ length := by
  refine ⟨length_encode, ?_, ?_⟩
  · -- commands are read one by one
    intro cs rest
    induction cs with
    | nil => exact ⟨rfl, rfl⟩
    | cons c cs ih =>
        obtain ⟨hmany, hall⟩ := ih
        have hdecode := c.decode_encode_append (cs.flatMap encode ++ rest)
        rw [List.flatMap_cons, List.append_assoc]
        constructor
        · rw [List.length_cons, decodeMany, hdecode, Option.bind_eq_bind, Option.bind_some]
          dsimp only
          rw [List.drop_left, hmany]
          rfl
        · rw [decodeAll_of_decode hdecode, List.drop_left, hall]
          rfl
  · -- what was read is spelled by the bytes that it was read from
    intro bytes c length h
    have hannounced := (length_of_decode h).1
    obtain ⟨start, rest, rfl, rfl, hread⟩ := decode_eq_some.mp h
    obtain ⟨hreduced, start', hstart, hle⟩ := length_encode_of_read hread
    have hdecode := c.decode_encode_append []
    rw [List.append_nil, hreduced] at hdecode
    obtain rfl : start = start' := List.append_cancel_right hstart
    exact ⟨hannounced, hdecode, hle⟩

/-- A control byte that announces an extended byte without any bits spells a command with one byte
more than it needs. -/
theorem decode_encode_wordyBytes :
    decode [0x2F, 0x00, 0x35, 0x40] = some ({ aux1 := some 0x35, settings := some 3 }, 3) ∧
      3 = announced [0x2F, 0x00, 0x35, 0x40] ∧
      encode { aux1 := some 0x35, settings := some 3 } = [0x2E, 0x35] ∧
      decode [0x2E, 0x35] = some ({ aux1 := some 0x35, settings := some 3 }, 2) ∧ 2 ≤ 3 := by
  have hwordy : decode [0x2F, 0x00, 0x35, 0x40] =
      some ({ aux1 := some 0x35, settings := some 3 }, 3) := by decide
  obtain ⟨-, -, hshortest⟩ := decode_encode_shortest
  obtain ⟨hannounced, hdecode, hle⟩ := hshortest _ _ _ hwordy
  exact ⟨hwordy, hannounced, by decide, hdecode, hle⟩

end Command
end Chiptune
