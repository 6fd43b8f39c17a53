/-! # Sound channels

The sound chip has four channels: two pulse channels, one that plays a stored wave, and one that
plays noise.  A `PerChannel` family holds one value for each of them. -/

namespace Chiptune

/-- One of the four channels of the sound chip. -/
inductive Channel where
  /-- The pulse channel with a frequency sweep. -/
  | ch1
  /-- The pulse channel without a sweep. -/
  | ch2
  /-- The channel that plays wave memory. -/
  | ch3
  /-- The noise channel, which has no frequency register. -/
  | ch4
  deriving DecidableEq, Repr

namespace Channel

/-- All channels, in the order in which they are processed. -/
def all : List Channel := [ch1, ch2, ch3, ch4]

/-- Every channel is listed. -/
@[simp] theorem mem_all (c : Channel) : c ∈ all := by
  cases c <;> decide

/-- The position of a channel, from zero. -/
def index : Channel → Nat
  | ch1 => 0
  | ch2 => 1
  | ch3 => 2
  | ch4 => 3

/-- The channel at a position, if there is one. -/
def ofIndex? : Nat → Option Channel
  | 0 => some ch1
  | 1 => some ch2
  | 2 => some ch3
  | 3 => some ch4
  | _ => none

/-- A channel is found at its own position. -/
@[simp] theorem ofIndex?_index (c : Channel) : ofIndex? c.index = some c := by
  cases c <;> rfl

/-- Whether a channel plays noise rather than a tone. -/
def isNoise : Channel → Bool
  | ch4 => true
  | _ => false

/-- The name under which a channel is reported. -/
def name : Channel → String
  | ch1 => "CH1"
  | ch2 => "CH2"
  | ch3 => "CH3"
  | ch4 => "CH4"

end Channel

/-- One value for each channel. -/
@[ext]
structure PerChannel (α : Type u) where
  /-- The value of the first pulse channel. -/
  ch1 : α
  /-- The value of the second pulse channel. -/
  ch2 : α
  /-- The value of the wave channel. -/
  ch3 : α
  /-- The value of the noise channel. -/
  ch4 : α
  deriving DecidableEq, Repr

namespace PerChannel

/-- The family of the values of a function. -/
def ofFn (f : Channel → α) : PerChannel α :=
  ⟨f .ch1, f .ch2, f .ch3, f .ch4⟩

/-- The family with the same value everywhere. -/
def replicate (a : α) : PerChannel α :=
  ofFn fun _ => a

/-- The value of a channel. -/
def get (p : PerChannel α) : Channel → α
  | .ch1 => p.ch1
  | .ch2 => p.ch2
  | .ch3 => p.ch3
  | .ch4 => p.ch4

/-- Replace the value of a channel. -/
def set (p : PerChannel α) (c : Channel) (a : α) : PerChannel α :=
  match c with
  | .ch1 => { p with ch1 := a }
  | .ch2 => { p with ch2 := a }
  | .ch3 => { p with ch3 := a }
  | .ch4 => { p with ch4 := a }

/-- Apply a function to every value. -/
def map (f : α → β) (p : PerChannel α) : PerChannel β :=
  ofFn fun c => f (p.get c)

/-- The values in the order of the channels. -/
def toList (p : PerChannel α) : List α :=
  [p.ch1, p.ch2, p.ch3, p.ch4]

instance [Inhabited α] : Inhabited (PerChannel α) :=
  ⟨replicate default⟩

/-- A family has the value that was given for each channel. -/
@[simp] theorem get_ofFn (f : Channel → α) (c : Channel) : (ofFn f).get c = f c := by
  cases c <;> rfl

/-- A constant family has its value on each channel. -/
@[simp] theorem get_replicate (a : α) (c : Channel) : (replicate a).get c = a := by
  cases c <;> rfl

/-- A family is mapped channel by channel. -/
@[simp] theorem get_map (f : α → β) (p : PerChannel α) (c : Channel) :
    (p.map f).get c = f (p.get c) := by
  cases c <;> rfl

/-- A replaced value is read back. -/
@[simp] theorem get_set_self (p : PerChannel α) (c : Channel) (a : α) : (p.set c a).get c = a := by
  cases c <;> rfl

/-- Replacing the value of a channel leaves the others alone. -/
theorem get_set_of_ne (p : PerChannel α) {c d : Channel} (a : α) (h : d ≠ c) :
    (p.set c a).get d = p.get d := by
  cases c <;> cases d <;> first | rfl | exact absurd rfl h

/-- Families that agree on every channel are equal. -/
theorem ext_get {p q : PerChannel α} (h : ∀ c, p.get c = q.get c) : p = q :=
  PerChannel.ext (h .ch1) (h .ch2) (h .ch3) (h .ch4)

end PerChannel
end Chiptune
