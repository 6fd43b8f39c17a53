import Chiptune.Device.Layout
import Chiptune.Proofs.Device.Switches

/-! # The channel that a write belongs to

A register belongs to the channel in whose block it lies, and wave memory to the wave channel.  The
byte of all switches belongs to no channel.

* `ownedBy` picks out the writes of a channel; lists that are `Owned` hold nothing else, and `Plain`
  ones leave the output switches alone as well.
* `plain_envelopeWrites`, `plain_timbreWrites` and `plain_firstAuxWrites` say that settings are
  written to registers of their channel. -/

namespace Chiptune

namespace Register

/-- The channel that a register belongs to, which for the sixteen bytes of wave memory is the wave
channel. -/
def owner? (address : Nat) : Option Channel :=
  if waveRam ≤ address ∧ address < waveRam + 16 then some .ch3 else channel? address

/-- A channel owns the registers of its block. -/
theorem owner?_base_add (c : Channel) {i : Nat} (h : i < perChannel) :
    owner? (c.layout.base + i) = some c := by
  have hcount : perChannel = 5 := rfl
  obtain rfl | rfl | rfl | rfl | rfl : i = 0 ∨ i = 1 ∨ i = 2 ∨ i = 3 ∨ i = 4 := by omega
  all_goals cases c <;> decide

/-- The wave channel owns wave memory. -/
theorem owner?_waveRam_add {i : Nat} (h : i < 16) : owner? (waveRam + i) = some .ch3 :=
  if_pos ⟨Nat.le_add_right _ _, Nat.add_lt_add_left h _⟩

end Register

namespace DeviceWrite

/-- The channel that a write belongs to. -/
def owner? : DeviceWrite → Option Channel
  | register address _ => Register.owner? address
  | restart c => some c
  | frequency c _ => some c
  | outputEnable _ => none
  | channelOutput c _ => some c

/-- The writes that belong to a channel. -/
def ownedBy (c : Channel) (ws : List DeviceWrite) : List DeviceWrite :=
  ws.filter fun w => w.owner? = some c

/-- The writes of a channel are filtered list by list. -/
@[simp] theorem ownedBy_append (c : Channel) (ws ws' : List DeviceWrite) :
    ownedBy c (ws ++ ws') = ownedBy c ws ++ ownedBy c ws' :=
  List.filter_append ..

/-- The writes of a channel in lists that stand one behind the other. -/
theorem ownedBy_flatMap {α : Type} (c : Channel) (xs : List α) (f : α → List DeviceWrite) :
    ownedBy c (xs.flatMap f) = xs.flatMap fun x => ownedBy c (f x) :=
  List.filter_flatMap ..

/-! ## Writes of one channel -/

/-- All writes of a list belong to a channel. -/
def Owned (c : Channel) (ws : List DeviceWrite) : Prop :=
  ∀ w ∈ ws, w.owner? = some c

/-- All writes of a list belong to a channel, and none of them switches an output. -/
def Plain (c : Channel) (ws : List DeviceWrite) : Prop :=
  ∀ w ∈ ws, w.owner? = some c ∧ ∀ d, w.switchBits? d = none

variable {c d : Channel} {ws ws' : List DeviceWrite}

/-- No writes belong to any channel that is asked for. -/
theorem owned_nil : Owned c [] :=
  List.forall_mem_nil _

/-- Writes of a channel may stand behind writes of the same channel. -/
theorem Owned.append (h : Owned c ws) (h' : Owned c ws') : Owned c (ws ++ ws') :=
  List.forall_mem_append.mpr ⟨h, h'⟩

/-- A list of writes of a channel keeps all of them. -/
theorem Owned.ownedBy_self (h : Owned c ws) : ownedBy c ws = ws :=
  List.filter_eq_self.mpr fun w hw => decide_eq_true (h w hw)

/-- A list of writes of a channel has none of another one. -/
theorem Owned.ownedBy_of_ne (h : Owned d ws) (hne : d ≠ c) : ownedBy c ws = [] := by
  refine List.filter_eq_nil_iff.mpr ?_
  intro w hw
  rw [decide_eq_true_eq, h w hw, Option.some.injEq]
  exact hne

/-- The writes of a channel leave the switches of the others alone. -/
theorem Owned.switchBits_of_ne (h : Owned d ws) (hne : d ≠ c) : switchBits c ws = [] := by
  refine List.filterMap_eq_nil_iff.mpr ?_
  intro w hw
  have howner := h w hw
  cases w with
  | outputEnable mask => cases howner
  | channelOutput e p =>
      cases howner
      exact if_neg hne
  | register address value => rfl
  | restart e => rfl
  | frequency e value => rfl

/-- The writes of a channel do not replace all switches. -/
theorem Owned.outputEnables_eq (h : Owned c ws) : outputEnables ws = [] := by
  refine List.filterMap_eq_nil_iff.mpr ?_
  intro w hw
  have howner := h w hw
  cases w with
  | outputEnable mask => cases howner
  | _ => rfl

/-- No writes switch no output. -/
theorem plain_nil : Plain c [] :=
  List.forall_mem_nil _

/-- Plain writes may stand behind plain writes of the same channel. -/
theorem Plain.append (h : Plain c ws) (h' : Plain c ws') : Plain c (ws ++ ws') :=
  List.forall_mem_append.mpr ⟨h, h'⟩

/-- Writes that are plain for each of some values are so together. -/
theorem Plain.flatMap {α : Type} {xs : List α} {f : α → List DeviceWrite}
    (h : ∀ x ∈ xs, Plain c (f x)) : Plain c (xs.flatMap f) := by
  intro w hw
  obtain ⟨x, hx, hw⟩ := List.mem_flatMap.mp hw
  exact h x hx w hw

/-- A write to a register of a channel is plain. -/
theorem plain_register {address : Nat} (value : UInt8) (h : Register.owner? address = some c) :
    Plain c [.register address value] :=
  List.forall_mem_singleton.mpr ⟨h, fun _ => rfl⟩

/-- A retrigger belongs to its channel and switches no output. -/
theorem plain_restart (c : Channel) : Plain c [.restart c] :=
  List.forall_mem_singleton.mpr ⟨rfl, fun _ => rfl⟩

/-- A frequency belongs to its channel and switches no output. -/
theorem plain_frequency (c : Channel) (value : Nat) : Plain c [.frequency c value] :=
  List.forall_mem_singleton.mpr ⟨rfl, fun _ => rfl⟩

/-- Plain writes belong to their channel. -/
theorem Plain.owned (h : Plain c ws) : Owned c ws :=
  fun w hw => (h w hw).1

/-- Plain writes give no channel any bits. -/
theorem Plain.switchBits_eq (h : Plain c ws) (d : Channel) : switchBits d ws = [] :=
  List.filterMap_eq_nil_iff.mpr fun w hw => (h w hw).2 d

/-- Switching the outputs of one channel belongs to it, though it is not plain. -/
theorem owned_channelOutput (c : Channel) (panning : Panning) :
    Owned c [.channelOutput c panning] :=
  List.forall_mem_singleton.mpr rfl

/-- Switching the outputs of a channel gives it the bits of the panning. -/
theorem switchBits_channelOutput (c : Channel) (panning : Panning) :
    switchBits c [.channelOutput c panning] = [panning.bits c] := by
  rw [switchBits_cons, switchBits?, if_pos rfl]
  rfl

end DeviceWrite

open DeviceWrite

/-! ## Settings -/

/-- A waveform is loaded through registers of the wave channel. -/
theorem Waveform.plain_loadWrites (w : Waveform) : Plain .ch3 w.loadWrites := by
  have hswitch (value : UInt8) : Plain .ch3 [.register Register.nr30 value] :=
    plain_register value (by decide)
  refine ((hswitch 0).append ?_).append (hswitch Register.waveOn)
  intro write hwrite
  obtain ⟨⟨b, i⟩, hi, rfl⟩ := List.mem_map.mp hwrite
  -- the sixteen bytes go to the sixteen places of wave memory
  have hlt : i < 16 := by
    have := List.snd_lt_of_mem_zipIdx hi
    rwa [w.bytes.length_toList] at this
  exact ⟨Register.owner?_waveRam_add hlt, fun _ => rfl⟩

namespace Channel

/-- An envelope is written to registers of its channel. -/
theorem plain_envelopeWrites (c : Channel) (waves : Table Waveform) (envelope : UInt8) :
    Plain c (c.envelopeWrites waves envelope) := by
  cases c with
  | ch1 | ch2 | ch4 => exact plain_register envelope (Register.owner?_base_add _ (by decide))
  | ch3 =>
      -- the wave channel loads the waveform, if there is one
      simp only [envelopeWrites, layout]
      split
      · next w _ => exact w.plain_loadWrites
      · exact plain_nil

/-- A timbre is written to a register of its channel. -/
theorem plain_timbreWrites (c : Channel) (timbre : UInt8) : Plain c (c.timbreWrites timbre) := by
  cases c with
  | ch1 | ch2 | ch3 => exact plain_register _ (Register.owner?_base_add _ (by decide))
  | ch4 => exact plain_nil

/-- The first auxiliary byte of a command is written to a register of its channel. -/
theorem plain_firstAuxWrites (c : Channel) (value : UInt8) : Plain c (c.firstAuxWrites value) := by
  cases c with
  | ch1 => exact plain_register value (Register.owner?_base_add .ch1 (i := 0) (by decide))
  | ch4 => exact plain_register value (Register.owner?_base_add .ch4 (by decide))
  | ch2 | ch3 => exact plain_nil

end Channel
end Chiptune
