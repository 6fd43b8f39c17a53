import Chiptune.Device.Layout
import Mathlib.Logic.Function.Basic

/-! # Wave memory

The wave channel plays sixteen bytes of memory and has a register that switches it on.  A waveform
is loaded by a block of writes: the switch is turned off, all bytes are written in order, and the
switch is turned on again.

* `Loads` are writes that reach wave memory by such blocks alone, and `InBlocks` forgets which
  waveforms they load; `InBlocks.append` and `InBlocks.flatMap` put them together.
* `stored` are the registers behind some writes; `Loads.stored_eq` and `Loads.isLoaded` say what is
  left of wave memory.
* `inBlocks_envelopeWrites`, `inBlocks_timbreWrites` and `inBlocks_firstAuxWrites` find the blocks
  among the settings of a channel. -/

namespace Chiptune

/-- A table has a value under some identifier. -/
def Table.Has {α : Type} (t : Table α) (a : α) : Prop :=
  ∃ id, t.get? id = some a

/-- Whether a register is the switch of the wave channel or a byte of wave memory. -/
def Register.isWave (address : Nat) : Bool :=
  address = nr30 || (waveRam ≤ address && address < waveRam + 16)

/-- The writes that load a waveform, one by one. -/
def Waveform.block (w : Waveform) : List DeviceWrite :=
  .register Register.nr30 0x00 ::
    (List.finRange 16).map (fun i => .register (Register.waveRam + i) (w.bytes.get i)) ++
    [.register Register.nr30 0x80]

namespace DeviceWrite

/-- Whether a write reaches the switch of the wave channel or a byte of wave memory. -/
def touchesWave : DeviceWrite → Bool
  | register address _ => Register.isWave address
  | _ => false

/-! ## Blocks -/

/-- Writes that load some waveforms one after the other, all of which are present.  Apart from that,
they do not reach wave memory. -/
inductive Loads (present : Waveform → Prop) : List Waveform → List DeviceWrite → Prop where
  /-- There are no writes. -/
  | nil : Loads present [] []
  /-- A write goes elsewhere. -/
  | other {write : DeviceWrite} {loaded : List Waveform} {ws : List DeviceWrite} :
      write.touchesWave = false → Loads present loaded ws → Loads present loaded (write :: ws)
  /-- A waveform is loaded. -/
  | load {wave : Waveform} {loaded : List Waveform} {ws : List DeviceWrite} :
      present wave → Loads present loaded ws → Loads present (wave :: loaded) (wave.block ++ ws)

/-- Writes that reach wave memory only by whole blocks. -/
def InBlocks (present : Waveform → Prop) (ws : List DeviceWrite) : Prop :=
  ∃ loaded, Loads present loaded ws

variable {present present' : Waveform → Prop} {loaded loaded' : List Waveform}
  {ws ws' : List DeviceWrite}

/-- Loads that stand one behind the other load the waveforms of both. -/
theorem Loads.append (h : Loads present loaded ws) (h' : Loads present loaded' ws') :
    Loads present (loaded ++ loaded') (ws ++ ws') := by
  induction h with
  | nil => exact h'
  | other hwrite _ ih => exact .other hwrite ih
  | load hwave _ ih =>
      rw [List.append_assoc]
      exact .load hwave ih

/-- Waveforms that are present stay loaded when more are present. -/
theorem Loads.mono (h : Loads present loaded ws) (hsub : ∀ w, present w → present' w) :
    Loads present' loaded ws := by
  induction h with
  | nil => exact .nil
  | other hwrite _ ih => exact .other hwrite ih
  | load hwave _ ih => exact .load (hsub _ hwave) ih

/-- No writes reach wave memory. -/
theorem inBlocks_nil : InBlocks present [] :=
  ⟨[], .nil⟩

/-- A write that goes elsewhere. -/
theorem inBlocks_singleton {write : DeviceWrite} (h : write.touchesWave = false) :
    InBlocks present [write] :=
  ⟨[], .other h .nil⟩

/-- Whole blocks may stand behind whole blocks. -/
theorem InBlocks.append (h : InBlocks present ws) (h' : InBlocks present ws') :
    InBlocks present (ws ++ ws') := by
  obtain ⟨loaded, h⟩ := h
  obtain ⟨loaded', h'⟩ := h'
  exact ⟨loaded ++ loaded', h.append h'⟩

/-- Writes in whole blocks for each of some values are so together. -/
theorem InBlocks.flatMap {α : Type} {xs : List α} {f : α → List DeviceWrite}
    (h : ∀ x ∈ xs, InBlocks present (f x)) : InBlocks present (xs.flatMap f) := by
  induction xs with
  | nil => exact inBlocks_nil
  | cons x xs ih =>
      rw [List.flatMap_cons]
      exact (h x (List.mem_cons_self ..)).append (ih fun y hy => h y (List.mem_cons_of_mem _ hy))

/-- More waveforms may be present. -/
theorem InBlocks.mono (h : InBlocks present ws) (hsub : ∀ w, present w → present' w) :
    InBlocks present' ws := by
  obtain ⟨loaded, h⟩ := h
  exact ⟨loaded, h.mono hsub⟩

/-- No waveform is loaded exactly if no write reaches wave memory. -/
theorem Loads.eq_nil_iff (h : Loads present loaded ws) :
    loaded = [] ↔ ∀ write ∈ ws, write.touchesWave = false := by
  induction h with
  | nil => exact iff_of_true rfl (List.forall_mem_nil _)
  | other hwrite _ ih =>
      rw [ih, List.forall_mem_cons, and_iff_right hwrite]
  | load hwave _ ih =>
      refine iff_of_false (List.cons_ne_nil _ _) fun hall => ?_
      -- the first write of a block turns the switch off
      exact absurd (hall _ (List.mem_cons_self ..)) (by decide)

/-! ## Registers -/

/-- A write changes the register that it names. -/
def store (r : Nat → UInt8) : DeviceWrite → Nat → UInt8
  | register address value => Function.update r address value
  | _ => r

/-- The registers behind some writes. -/
def stored (r : Nat → UInt8) (ws : List DeviceWrite) : Nat → UInt8 :=
  ws.foldl store r

/-- Registers change by one list of writes behind the other. -/
theorem stored_append (r : Nat → UInt8) (ws ws' : List DeviceWrite) :
    stored r (ws ++ ws') = stored (stored r ws) ws' :=
  List.foldl_append

/-- A write to a register changes that one. -/
theorem stored_register (r : Nat → UInt8) (address : Nat) (value : UInt8) :
    stored r [.register address value] = Function.update r address value := rfl

/-- A write leaves the registers alone that it does not name. -/
theorem store_of_ne {r : Nat → UInt8} {write : DeviceWrite} {address : Nat}
    (h : ∀ value, write ≠ .register address value) : store r write address = r address := by
  cases write with
  | register address' value =>
      refine Function.update_of_ne ?_ value r
      rintro rfl
      exact h value rfl
  | _ => rfl

/-- A register that no write names is left alone. -/
theorem stored_of_forall_not_mem {address : Nat} (h : ∀ value, .register address value ∉ ws)
    (r : Nat → UInt8) : stored r ws address = r address := by
  induction ws generalizing r with
  | nil => rfl
  | cons write ws ih =>
      have hrest := ih (fun value hmem => h value (List.mem_cons_of_mem _ hmem)) (store r write)
      refine hrest.trans (store_of_ne fun value hwrite => h value ?_)
      rw [hwrite]
      exact List.mem_cons_self ..

/-- A register to which all writes give the same value has it behind them. -/
theorem stored_of_mem {address : Nat} {value : UInt8} (hmem : .register address value ∈ ws)
    (hsame : ∀ value', .register address value' ∈ ws → value' = value) (r : Nat → UInt8) :
    stored r ws address = value := by
  induction ws generalizing r with
  | nil => cases hmem
  | cons write ws ih =>
      by_cases hrest : .register address value ∈ ws
      · exact ih hrest (fun value' h => hsame value' (List.mem_cons_of_mem _ h)) (store r write)
      · -- the first write is the only one
        obtain rfl : write = .register address value :=
          ((List.mem_cons.mp hmem).resolve_right hrest).symm
        have hnone : ∀ value', .register address value' ∉ ws := by
          intro value' h
          obtain rfl := hsame value' (List.mem_cons_of_mem _ h)
          exact hrest h
        exact (stored_of_forall_not_mem hnone _).trans (Function.update_self ..)

end DeviceWrite

open DeviceWrite

namespace Waveform

/-- Wave memory holds a waveform, and the wave channel is switched on. -/
structure IsLoaded (w : Waveform) (r : Nat → UInt8) : Prop where
  /-- The channel is switched on. -/
  switch : r Register.nr30 = 0x80
  /-- The bytes are those of the waveform. -/
  bytes : ∀ i : Fin 16, r (Register.waveRam + i) = w.bytes.get i

/-- A waveform is loaded by its block. -/
theorem loadWrites_eq (w : Waveform) : w.loadWrites = w.block := by
  unfold loadWrites block
  refine congrArg (fun bytes : List DeviceWrite => register Register.nr30 0x00 :: bytes ++
    [register Register.nr30 0x80]) ?_
  refine List.ext_getElem (by simp) fun i hi hi' => ?_
  simp [Vector.get]

/-- **Behind its block, a waveform is loaded.** -/
theorem isLoaded_block (w : Waveform) (r : Nat → UInt8) : w.IsLoaded (stored r w.block) where
  switch := by
    rw [block, stored_append, stored_register, Function.update_self]
  bytes := by
    intro i
    -- of the writes of the block, only one names this byte
    have hne : Register.waveRam + i.val ≠ Register.nr30 := by
      have hram : Register.waveRam = 0xFF30 := rfl
      have hswitch : Register.nr30 = 0xFF1A := rfl
      omega
    have hmem (value : UInt8) : .register (Register.waveRam + i) value ∈ w.block ↔
        value = w.bytes.get i := by
      simp only [block, List.cons_append, List.mem_cons, List.mem_append, List.mem_map,
        List.mem_finRange, List.not_mem_nil, register.injEq, hne, false_and, or_false, false_or,
        true_and, Nat.add_left_cancel_iff, Fin.val_inj]
      constructor
      · rintro ⟨j, rfl, rfl⟩
        rfl
      · rintro rfl
        exact ⟨i, rfl, rfl⟩
    exact stored_of_mem ((hmem _).mpr rfl) (fun value h => (hmem value).mp h) r

/-- A waveform stays loaded as long as the registers of wave memory do not change. -/
theorem IsLoaded.congr {w : Waveform} {r r' : Nat → UInt8} (h : w.IsLoaded r)
    (hsame : ∀ address, Register.isWave address = true → r' address = r address) :
    w.IsLoaded r' where
  switch := (hsame _ (by decide)).trans h.switch
  bytes := by
    intro i
    refine (hsame _ ?_).trans (h.bytes i)
    simp only [Register.isWave, Bool.or_eq_true, Bool.and_eq_true, decide_eq_true_eq]
    omega

end Waveform

namespace DeviceWrite

variable {present : Waveform → Prop} {loaded : List Waveform} {ws : List DeviceWrite}

/-- Writes that load no waveform leave wave memory alone. -/
theorem Loads.stored_eq (h : Loads present [] ws) (r : Nat → UInt8) {address : Nat}
    (haddress : Register.isWave address = true) : stored r ws address = r address := by
  refine stored_of_forall_not_mem (fun value hmem => ?_) r
  have htouches := h.eq_nil_iff.mp rfl _ hmem
  rw [touchesWave, haddress] at htouches
  cases htouches

/-- **Behind some writes, the last waveform that they load is loaded.** -/
theorem Loads.isLoaded (h : Loads present loaded ws) {wave : Waveform}
    (hwave : loaded.getLast? = some wave) (r : Nat → UInt8) : wave.IsLoaded (stored r ws) := by
  induction h generalizing r with
  | nil => cases hwave
  | @other write loaded ws _ _ ih => exact ih hwave (store r write)
  | @load first loaded ws _ hrest ih =>
      rw [stored_append]
      cases loaded with
      | nil =>
          obtain rfl := Option.some.inj hwave
          exact (first.isLoaded_block r).congr fun _ => hrest.stored_eq _
      | cons second loaded => exact ih hwave _

/-- Writes that keep wave memory whole.  They reach it by whole blocks of waveforms that are
present; behind them it holds the last of these, or it is as before if they load none. -/
def KeepsWaveWhole (present : Waveform → Prop) (ws : List DeviceWrite) : Prop :=
  ∃ loaded, Loads present loaded ws ∧
    (loaded = [] ↔ ∀ write ∈ ws, write.touchesWave = false) ∧
    ∀ r, match loaded.getLast? with
      | some wave => wave.IsLoaded (stored r ws)
      | none => ∀ address, Register.isWave address = true → stored r ws address = r address

/-- Writes that reach wave memory by whole blocks keep it whole. -/
theorem InBlocks.keepsWaveWhole (h : InBlocks present ws) : KeepsWaveWhole present ws := by
  obtain ⟨loaded, h⟩ := h
  refine ⟨loaded, h, h.eq_nil_iff, fun r => ?_⟩
  cases hlast : loaded.getLast? with
  | some wave => exact h.isLoaded hlast r
  | none =>
      obtain rfl := List.getLast?_eq_none_iff.mp hlast
      intro address haddress
      exact h.stored_eq r haddress

end DeviceWrite

/-! ## Settings -/

namespace Channel

/-- An envelope loads the waveform of the wave channel, if there is one. -/
theorem inBlocks_envelopeWrites (c : Channel) (waves : Table Waveform) (envelope : UInt8) :
    InBlocks waves.Has (c.envelopeWrites waves envelope) := by
  cases c with
  | ch1 | ch2 | ch4 => exact inBlocks_singleton rfl
  | ch3 =>
      simp only [envelopeWrites, layout]
      split
      · next w hw =>
        rw [w.loadWrites_eq, ← List.append_nil w.block]
        exact ⟨[w], .load ⟨envelope.toNat, hw⟩ .nil⟩
      · exact inBlocks_nil

/-- A timbre does not reach wave memory. -/
theorem inBlocks_timbreWrites {present : Waveform → Prop} (c : Channel) (timbre : UInt8) :
    InBlocks present (c.timbreWrites timbre) := by
  cases c with
  | ch1 | ch2 | ch3 => exact inBlocks_singleton rfl
  | ch4 => exact inBlocks_nil

/-- Neither does the first auxiliary byte of a command. -/
theorem inBlocks_firstAuxWrites {present : Waveform → Prop} (c : Channel) (value : UInt8) :
    InBlocks present (c.firstAuxWrites value) := by
  cases c with
  | ch1 | ch4 => exact inBlocks_singleton rfl
  | ch2 | ch3 => exact inBlocks_nil

/-- Nor does the register of a polynomial, whatever the channel. -/
theorem inBlocks_nrx3 {present : Waveform → Prop} (c : Channel) (value : UInt8) :
    InBlocks present [.register c.layout.nrx3 value] := by
  cases c <;> exact inBlocks_singleton rfl

end Channel
end Chiptune
