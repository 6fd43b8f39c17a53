import Chiptune.Proofs.Checked.Arithmetic
import Chiptune.Score.Speed

/-! # Tempos

A tempo in beats per minute asks for a number of rows per minute, and the rows of a speed take a
whole number of sixteenths of a frame.  The speed of a tempo is the one whose rows miss the tempo
least.

* `Speed.deviation` is what a speed misses, and `Speed.IsNearest` says that none misses less.
* `Speed.le_raw_ofTempo_iff` says which speeds are no slower than that of a tempo; everything else
  about it follows.
* `Speed.isNearest_ofTempo` and `Speed.raw_ofTempo_antitone` are the rounding and its monotony.
* `Speed.checkedOfTempo` works the speed out in 64 bits, and `Speed.checkedOfTempo_eq` says that
  they are enough. -/

namespace Chiptune

open Checked

namespace Speed

variable {tempo rowsPerBeat tempo' rowsPerBeat' q raw other : Nat}

/-! ## Rounding -/

/-- How far the rows of a thousand minutes miss them, in sixteenths of a frame. -/
def deviation (rowsPerMinute raw : Nat) : Nat :=
  ((raw * rowsPerMinute * 1000 : Int) - 59727 * 60 * 16).natAbs

/-- Of all speeds, this one misses some rows per minute least; of two that miss them alike, it is
the slower one. -/
structure IsNearest (rowsPerMinute : Nat) (s : Speed) : Prop where
  /-- No speed misses less. -/
  least : ∀ other : Speed, deviation rowsPerMinute s.raw ≤ deviation rowsPerMinute other.raw
  /-- A speed that misses as little has no more sixteenths. -/
  slower : ∀ other : Speed,
    deviation rowsPerMinute other.raw = deviation rowsPerMinute s.raw → other.raw ≤ s.raw

/-- The deviation in integers is the sum of two truncated differences, one of which is zero. -/
theorem deviation_eq (q raw : Nat) :
    deviation q raw = (raw * (q * 1000) - sixteenthsPerMinute) +
      (sixteenthsPerMinute - raw * (q * 1000)) := by
  have hproduct : (raw * q * 1000 : Int) = (raw * (q * 1000) : Nat) := by
    rw [Int.natCast_mul, Int.natCast_mul, ← Int.mul_assoc]
    rfl
  have htotal : (59727 * 60 * 16 : Int) = (sixteenthsPerMinute : Nat) := rfl
  rw [deviation, hproduct, htotal]
  omega

/-- Rows that take no more than half a sixteenth too long are no worse than shorter ones. -/
theorem deviation_le_of_lt (h : other < raw)
    (hraw : raw * (q * 1000) ≤ sixteenthsPerMinute + q * 500) :
    deviation q raw ≤ deviation q other := by
  have hstep : (other + 1) * (q * 1000) ≤ raw * (q * 1000) := Nat.mul_le_mul_right _ h
  rw [Nat.add_mul] at hstep
  rw [deviation_eq, deviation_eq]
  omega

/-- Rows that a further sixteenth makes too long by more than half of it are better than longer
ones. -/
theorem deviation_lt_of_lt (hq : 0 < q) (h : raw < other)
    (hraw : sixteenthsPerMinute + q * 500 < (raw + 1) * (q * 1000)) :
    deviation q raw < deviation q other := by
  have hstep : (raw + 1) * (q * 1000) ≤ other * (q * 1000) := Nat.mul_le_mul_right _ h
  rw [Nat.add_mul] at hstep hraw
  rw [deviation_eq, deviation_eq]
  omega

/-- Above the least speed, the clamp keeps the order. -/
theorem le_raw_clamp_iff {n : Nat} (hlow : 0x10 < raw) (hhigh : raw ≤ 0xF0) :
    raw ≤ (clamp n).raw ↔ raw ≤ n := by
  show raw ≤ max 0x10 (min n 0xF0) ↔ raw ≤ n
  omega

/-- **The speeds up to that of a tempo** are those whose rows are not too long by more than half a
sixteenth.  The fastest speed is always among them. -/
theorem le_raw_ofTempo_iff (hq : 0 < tempo * rowsPerBeat) (hlow : 0x10 < raw)
    (hhigh : raw ≤ 0xF0) :
    raw ≤ (ofTempo tempo rowsPerBeat).raw ↔
      raw * (tempo * rowsPerBeat * 1000) ≤ sixteenthsPerMinute + tempo * rowsPerBeat * 500 := by
  have hrows : 0 < tempo * rowsPerBeat * 1000 := by omega
  have hhalf : tempo * rowsPerBeat * 1000 / 2 = tempo * rowsPerBeat * 500 := by omega
  rw [ofTempo, if_neg (by omega), le_raw_clamp_iff hlow hhigh, Nat.le_div_iff_mul_le hrows, hhalf]

/-- **The speed of a tempo is the nearest one.** -/
theorem isNearest_ofTempo (hq : 0 < tempo * rowsPerBeat) :
    IsNearest (tempo * rowsPerBeat) (ofTempo tempo rowsPerBeat) := by
  generalize hs : ofTempo tempo rowsPerBeat = s
  have hiff {raw : Nat} (hlow : 0x10 < raw) (hhigh : raw ≤ 0xF0) := le_raw_ofTempo_iff hq hlow hhigh
  rw [hs] at hiff
  have hlow := s.le_raw
  have hhigh := s.raw_le
  -- a faster speed misses no less, and a slower one misses more
  have hfaster (other : Speed) (h : other.raw < s.raw) :
      deviation (tempo * rowsPerBeat) s.raw ≤ deviation (tempo * rowsPerBeat) other.raw := by
    have hother := other.le_raw
    exact deviation_le_of_lt h ((hiff (by omega) hhigh).mp (Nat.le_refl _))
  have hslower (other : Speed) (h : s.raw < other.raw) :
      deviation (tempo * rowsPerBeat) s.raw < deviation (tempo * rowsPerBeat) other.raw := by
    have hother := other.raw_le
    refine deviation_lt_of_lt hq h (Nat.lt_of_not_le fun hnext => ?_)
    exact Nat.not_succ_le_self _ ((hiff (by omega) (by omega)).mpr hnext)
  constructor
  · intro other
    rcases Nat.lt_trichotomy other.raw s.raw with h | h | h
    · exact hfaster other h
    · exact Nat.le_of_eq (by rw [h])
    · exact Nat.le_of_lt (hslower other h)
  · intro other heq
    exact Nat.le_of_not_lt fun h => Nat.ne_of_gt (hslower other h) heq

/-- More rows per minute are never slower. -/
theorem raw_ofTempo_antitone (hq : 0 < tempo * rowsPerBeat)
    (hle : tempo * rowsPerBeat ≤ tempo' * rowsPerBeat') :
    (ofTempo tempo' rowsPerBeat').raw ≤ (ofTempo tempo rowsPerBeat).raw := by
  generalize hs : ofTempo tempo' rowsPerBeat' = s
  by_cases hlow : 0x10 < s.raw
  · have hkeeps := (le_raw_ofTempo_iff (Nat.lt_of_lt_of_le hq hle) hlow s.raw_le).mp
      (Nat.le_of_eq (by rw [hs]))
    obtain ⟨more, hmore⟩ := Nat.exists_eq_add_of_le hle
    rw [hmore, Nat.add_mul, Nat.add_mul, Nat.mul_add] at hkeeps
    -- each further row takes at least the half sixteenth that is granted to it
    have htakes : 1 * (more * 1000) ≤ s.raw * (more * 1000) :=
      Nat.mul_le_mul_right _ (by omega)
    rw [le_raw_ofTempo_iff hq hlow s.raw_le]
    omega
  · have := (ofTempo tempo rowsPerBeat).le_raw
    omega

/-! ## Numbers of 64 bits -/

/-- The raw speed of a tempo as it is worked out in 64 bits; it is kept in a byte. -/
def checkedOfTempo (tempo rowsPerBeat : Nat) : Checked Nat := do
  let rowsPerMinute ← unsigned 64 (tempo * rowsPerBeat)
  let rows ← unsigned 64 (rowsPerMinute * 1000)
  if rows = 0 then return slowest.raw
  let framesPerMinute ← unsigned 64 (frameRate * 60)
  let sixteenths ← unsigned 64 (framesPerMinute * unit)
  let half ← quotient rows 2
  let rounded ← unsigned 64 (sixteenths + half)
  let raw ← quotient rounded rows
  unsigned 8 (max 0x10 (min raw 0xF0) : Nat)

/-- **A tempo of 16 bits with a byte of rows to the beat overflows nowhere.** -/
theorem checkedOfTempo_eq (htempo : tempo < 2 ^ 16) (hrows : rowsPerBeat < 2 ^ 8) :
    checkedOfTempo tempo rowsPerBeat = .ok (ofTempo tempo rowsPerBeat).raw := by
  -- a product of sixteen bits and eight leaves room for the rest in 64 bits
  have hq : tempo * rowsPerBeat < 2 ^ 16 * 2 ^ 8 := Nat.mul_lt_mul'' htempo hrows
  have htotal : sixteenthsPerMinute < 2 ^ 26 := by decide
  have hbyte (n : Nat) : max 0x10 (min n 0xF0) < 2 ^ 8 := by omega
  have hproduct : unsigned 64 (tempo * rowsPerBeat) = .ok (tempo * rowsPerBeat) :=
    unsigned_eq (Int.natCast_mul ..).symm (by omega)
  have hthousand : unsigned 64 ((tempo * rowsPerBeat : Nat) * 1000) =
      .ok (tempo * rowsPerBeat * 1000) :=
    unsigned_eq (Int.natCast_mul ..).symm (by omega)
  rw [checkedOfTempo, ofTempo, hproduct, ok_bind, hthousand, ok_bind]
  split
  · rfl
  · next hzero =>
    have hframes : unsigned 64 (frameRate * 60) = .ok (frameRate * 60) :=
      unsigned_eq (Int.natCast_mul ..).symm (by decide)
    have hsixteenths : unsigned 64 ((frameRate * 60 : Nat) * unit) = .ok sixteenthsPerMinute :=
      unsigned_eq (Int.natCast_mul ..).symm (by decide)
    have hrounded : unsigned 64 (sixteenthsPerMinute + (tempo * rowsPerBeat * 1000 / 2 : Nat)) =
        .ok (sixteenthsPerMinute + tempo * rowsPerBeat * 1000 / 2) :=
      unsigned_eq (Int.natCast_add ..).symm (by omega)
    rw [hframes, ok_bind, hsixteenths, ok_bind, quotient_eq (by decide), ok_bind, hrounded, ok_bind,
      quotient_eq (by omega), ok_bind]
    exact unsigned_eq rfl (hbyte _)

/-- **A tempo is played at the nearest speed.**  If beats and rows pass at all, the speed of a tempo
misses their number per minute less than any other speed, or as little as a faster one.  It is
worked out without an overflow, is the slowest one if nothing passes, and does not grow with the
number of rows per minute. -/
theorem tempos_round_to_nearest :
    (∀ tempo rowsPerBeat : Nat, 0 < tempo * rowsPerBeat →
      IsNearest (tempo * rowsPerBeat) (ofTempo tempo rowsPerBeat)) ∧
    (∀ tempo rowsPerBeat : Nat, tempo < 2 ^ 16 → rowsPerBeat < 2 ^ 8 →
      checkedOfTempo tempo rowsPerBeat = .ok (ofTempo tempo rowsPerBeat).raw) ∧
    (∀ tempo rowsPerBeat : Nat, tempo * rowsPerBeat = 0 →
      (ofTempo tempo rowsPerBeat).raw = 0xF0) ∧
    ∀ tempo rowsPerBeat tempo' rowsPerBeat' : Nat,
      0 < tempo * rowsPerBeat → tempo * rowsPerBeat ≤ tempo' * rowsPerBeat' →
        (ofTempo tempo' rowsPerBeat').raw ≤ (ofTempo tempo rowsPerBeat).raw := by
  refine ⟨fun _ _ => isNearest_ofTempo, fun _ _ => checkedOfTempo_eq, ?_,
    fun _ _ _ _ => raw_ofTempo_antitone⟩
  intro tempo rowsPerBeat hq
  rw [ofTempo, hq]
  rfl

/-- At 137 beats of four rows, six and nine sixteenths frames per row are nearest; with eight rows
to the beat, rows take no longer. -/
theorem tempo_137_rounds :
    0 < 137 * 4 ∧ IsNearest (137 * 4) (ofTempo 137 4) ∧ (ofTempo 137 4).raw = 0x69 ∧
      137 < 2 ^ 16 ∧ 4 < 2 ^ 8 ∧ checkedOfTempo 137 4 = .ok 0x69 ∧ 0 * 4 = 0 ∧
      (ofTempo 0 4).raw = 0xF0 ∧ 137 * 4 ≤ 137 * 8 ∧
      (ofTempo 137 8).raw ≤ (ofTempo 137 4).raw := by
  obtain ⟨hnearest, hchecked, hzero, hantitone⟩ := tempos_round_to_nearest
  have hraw : (ofTempo 137 4).raw = 0x69 := by decide
  exact ⟨by decide, hnearest 137 4 (by decide), hraw, by decide, by decide,
    hraw ▸ hchecked 137 4 (by decide) (by decide), rfl, hzero 0 4 rfl, by decide,
    hantitone 137 4 137 8 (by decide) (by decide)⟩

end Speed
end Chiptune
