import Mathlib.Data.List.Basic
import Chiptune.Bank.Instrument
import Chiptune.Proofs.Bank.WaveText
import Chiptune.Score.Song

/-! # Names cut to size

A name is stored in a text of bounded size, into which its characters are copied until one of them
does not fit.  What is stored is the longest part from the start of the name that fits.

* `Name.IsLongestPart` says what the longest part of a text is, and `Name.isLongestPart_truncate`
  that a name is cut to it.
* `Name.copy` copies characters until one of them is refused, and `Name.copy_eq_truncate` says that
  a text of bounded size then holds the name cut to size.
* `Name.titles_and_names_are_longest_parts` says so of everything that has a name. -/

namespace Chiptune
namespace Name

variable {room : Nat}

/-- The size of a text is that of its characters. -/
theorem size_toList (text : String) : size text.toList = text.utf8ByteSize := by
  have hchars (cs : List Char) : size cs = (String.ofList cs).utf8ByteSize := by
    induction cs with
    | nil => rfl
    | cons c cs ih =>
        rw [size_cons, ih, String.ofList_cons, String.utf8ByteSize_append,
          String.utf8ByteSize_singleton]
  rw [hchars, String.ofList_toList]

/-! ## The longest part -/

/-- A text holds the longest part of another one, from its start and in whole characters, that takes
no more than some number of bytes. -/
structure IsLongestPart (room : Nat) (text kept : String) : Prop where
  /-- What is kept is the start of the text. -/
  isPart : kept.toList <+: text.toList
  /-- It takes no more than the bytes there are. -/
  fits : kept.utf8ByteSize ≤ room
  /-- Every such part is a part of it. -/
  longest (part : String) :
    part.toList <+: text.toList → part.utf8ByteSize ≤ room → part.toList <+: kept.toList
  /-- Unless it is the whole text, the next character would be too much. -/
  isFull : kept = text ∨ ∃ c rest,
    text.toList = kept.toList ++ c :: rest ∧ room < kept.utf8ByteSize + c.utf8Size

/-- Characters that fit are all kept. -/
theorem fitting_of_size_le {cs : List Char} (h : size cs ≤ room) : fitting room cs = cs := by
  induction cs generalizing room with
  | nil => rfl
  | cons c cs ih =>
      rw [size_cons] at h
      rw [fitting, if_pos (by omega), ih (by omega)]

/-- The copy ends in front of a character that is too much. -/
theorem fitting_isFull (room : Nat) (cs : List Char) :
    fitting room cs = cs ∨ ∃ c rest,
      cs = fitting room cs ++ c :: rest ∧ room < size (fitting room cs) + c.utf8Size := by
  induction cs generalizing room with
  | nil => exact .inl rfl
  | cons c cs ih =>
      by_cases hfits : c.utf8Size ≤ room
      · rw [fitting, if_pos hfits]
        rcases ih (room - c.utf8Size) with hall | ⟨next, rest, hcut, hfull⟩
        · exact .inl (congrArg (c :: ·) hall)
        · refine .inr ⟨next, rest, congrArg (c :: ·) hcut, ?_⟩
          rw [size_cons]
          omega
      · rw [fitting, if_neg hfits]
        exact .inr ⟨c, cs, rfl, by rw [size_nil]; omega⟩

/-- Whatever else fits is a part of what is kept. -/
theorem isPart_fitting {cs part : List Char} (h : part <+: cs) (hsize : size part ≤ room) :
    part <+: fitting room cs := by
  induction cs generalizing room part with
  | nil => exact h
  | cons c cs ih =>
      cases part with
      | nil => exact List.nil_prefix
      | cons c' part =>
          obtain ⟨rfl, hpart⟩ := List.cons_prefix_cons.mp h
          rw [size_cons] at hsize
          rw [fitting, if_pos (by omega)]
          exact List.cons_prefix_cons.mpr ⟨rfl, ih hpart (by omega)⟩

/-- A truncated text has the characters that fit. -/
theorem toList_truncate (text : String) :
    (truncate text).toList = fitting capacity text.toList :=
  String.toList_ofList

/-- **A name is cut to its longest part that can be stored.** -/
theorem isLongestPart_truncate (text : String) :
    IsLongestPart capacity text (truncate text) where
  isPart := toList_truncate text ▸ fitting_append capacity text.toList
  fits := by
    rw [← size_toList, toList_truncate]
    exact size_fitting_le capacity text.toList
  longest part hpart hsize := by
    rw [toList_truncate]
    exact isPart_fitting hpart (size_toList part ▸ hsize)
  isFull := by
    rw [← size_toList, ← String.toList_inj, toList_truncate]
    exact fitting_isFull capacity text.toList

/-- A name that can be stored is not cut. -/
theorem truncate_of_le {text : String} (h : text.utf8ByteSize ≤ capacity) :
    truncate text = text := by
  rw [← String.toList_inj, toList_truncate, fitting_of_size_le (size_toList text ▸ h)]

/-! ## Copying -/

/-- Put characters behind a text until one of them is refused. -/
def copy (push? : String → Char → Option String) (kept : String) : List Char → String
  | [] => kept
  | c :: cs =>
      match push? kept c with
      | some longer => copy push? longer cs
      | none => kept

/-- A text of bounded size takes a character exactly if there are enough bytes left for it. -/
def PushesWithin (room : Nat) (push? : String → Char → Option String) : Prop :=
  ∀ kept c, kept.utf8ByteSize ≤ room →
    push? kept c = if kept.utf8ByteSize + c.utf8Size ≤ room then some (kept.push c) else none

/-- What a text already holds stays in front of the characters for which there is room. -/
theorem toList_copy {push? : String → Char → Option String} (hpush : PushesWithin room push?)
    {kept : String} (hkept : kept.utf8ByteSize ≤ room) (cs : List Char) :
    (copy push? kept cs).toList = kept.toList ++ fitting (room - kept.utf8ByteSize) cs := by
  induction cs generalizing kept with
  | nil => rw [copy, fitting_nil, List.append_nil]
  | cons c cs ih =>
      -- the text stays within its bound, so that each further character is taken or refused by it
      by_cases hfits : kept.utf8ByteSize + c.utf8Size ≤ room
      · have hlonger : (kept.push c).utf8ByteSize ≤ room := by rwa [String.utf8ByteSize_push]
        rw [copy, hpush kept c hkept, if_pos hfits]
        dsimp only
        rw [ih hlonger, String.toList_push, String.utf8ByteSize_push, Nat.sub_add_eq,
          List.append_assoc, fitting, if_pos (by omega), List.singleton_append]
      · rw [copy, hpush kept c hkept, if_neg hfits, fitting, if_neg (by omega), List.append_nil]

/-- **Copying a name cuts it to size.** -/
theorem copy_eq_truncate {push? : String → Char → Option String}
    (hpush : PushesWithin capacity push?) (text : String) :
    copy push? "" text.toList = truncate text := by
  rw [← String.toList_inj, toList_copy hpush (Nat.zero_le _), toList_truncate]
  rfl

/-- **Titles and names are longest parts.**  A text of at most 32 bytes into which the characters of
a name are copied, until it does not take one, holds the longest part of the name that fits, and
copying it again changes nothing.  This is what a song has as its title, and an instrument and a
waveform as their names. -/
theorem titles_and_names_are_longest_parts (text : String)
    (push? : String → Char → Option String) (hpush : PushesWithin 32 push?) :
    let kept := copy push? "" text.toList
    IsLongestPart 32 text kept ∧ copy push? "" kept.toList = kept ∧
      (Song.new text).title = kept ∧
      (∀ channel, (Instrument.new text channel).name = kept) ∧
      (∀ bytes, (Waveform.new text bytes).name = kept) ∧
      ∀ digits w, Waveform.ofHex text digits = .ok w → w.name = kept := by
  intro kept
  have hkept : kept = truncate text := copy_eq_truncate hpush text
  have hpart := isLongestPart_truncate text
  rw [copy_eq_truncate hpush, hkept]
  refine ⟨hpart, truncate_of_le hpart.fits, rfl, fun _ => rfl, fun _ => rfl, ?_⟩
  intro digits w hw
  obtain ⟨samples, -, rfl⟩ := Waveform.ofHex_eq_ok.mp hw
  rfl

/-- A text of at most 32 bytes takes a character. -/
def push32? (kept : String) (c : Char) : Option String :=
  if kept.utf8ByteSize + c.utf8Size ≤ 32 then some (kept.push c) else none

/-- A name of 33 characters, of which the one before the last takes two bytes. -/
def accentedName : String :=
  String.ofList (List.replicate 31 'a' ++ ['é', 'a'])

/-- Of the name, 31 characters are stored, and the last one is not taken in place of the one that is
too much. -/
theorem titles_and_names_are_longest_parts_accentedName :
    PushesWithin 32 push32? ∧
      (copy push32? "" accentedName.toList).toList = List.replicate 31 'a' ∧
      IsLongestPart 32 accentedName (copy push32? "" accentedName.toList) ∧
      (Song.new accentedName).title = copy push32? "" accentedName.toList ∧
      ∃ w, Waveform.ofHex accentedName (Waveform.hexText (fun _ => true) Waveform.fallingBytes) =
          .ok w ∧
        w.name = copy push32? "" accentedName.toList := by
  have hpush : PushesWithin 32 push32? := fun _ _ _ => rfl
  obtain ⟨hpart, -, htitle, -, -, hwave⟩ :=
    titles_and_names_are_longest_parts accentedName push32? hpush
  have hread := Waveform.ofHex_hexText accentedName (fun _ => true) Waveform.fallingBytes
  refine ⟨hpush, ?_, hpart, htitle, _, hread, hwave _ _ hread⟩
  have hchars : accentedName.toList = List.replicate 31 'a' ++ ['é', 'a'] := String.toList_ofList
  rw [copy_eq_truncate hpush, toList_truncate, hchars]
  decide

end Name
end Chiptune
