import Mathlib.Data.List.Basic
import Chiptune.Bank.Waveform

/-! # Waveforms as text

A waveform is written as 32 hexadecimal digits, one for each sample.  A digit takes one byte of a
text, and no other character has a byte that could be taken for a digit, so that a text may be read
character by character or byte by byte.

* `hexValue?` is the value of a byte that is a digit, and `mapM_hexValue?_utf8Bytes` says that the
  bytes of a text have the digits of its characters.
* `Waveform.ofHex_eq_ok` says which texts are waveforms, and `Waveform.value_eq_sample` which samples
  they have.
* `Waveform.hexText` writes a waveform in any mixture of cases, and `Waveform.ofHex_hexText` reads it
  back.
* `Waveform.hex_digits_are_samples` puts this together. -/

namespace Chiptune

/-! ## Digits as bytes -/

/-- The bytes of a text in UTF-8. -/
def utf8Bytes (text : String) : List UInt8 :=
  text.toByteArray.data.toList

/-- The value of a byte that is a hexadecimal digit in ASCII, in either case. -/
def hexValue? (b : UInt8) : Option Nat :=
  if 0x30 ≤ b.toNat ∧ b.toNat ≤ 0x39 then some (b.toNat - 0x30)
  else if 0x41 ≤ b.toNat ∧ b.toNat ≤ 0x46 then some (b.toNat - 0x41 + 10)
  else if 0x61 ≤ b.toNat ∧ b.toNat ≤ 0x66 then some (b.toNat - 0x61 + 10)
  else none

/-- A digit stands for half a byte. -/
theorem hexValue?_lt {b : UInt8} {d : Nat} (h : hexValue? b = some d) : d < 16 := by
  unfold hexValue? at h
  split at h
  · obtain rfl := Option.some.inj h
    omega
  · split at h
    · obtain rfl := Option.some.inj h
      omega
    · obtain ⟨hrange, hvalue⟩ := Option.ite_none_right_eq_some.mp h
      obtain rfl := Option.some.inj hvalue
      omega

/-- Only ASCII has digits. -/
theorem hexValue?_of_le {b : UInt8} (h : 0x80 ≤ b.toNat) : hexValue? b = none := by
  unfold hexValue?
  rw [if_neg (by omega), if_neg (by omega), if_neg (by omega)]

/-- A text in UTF-8 is that of its characters, one behind the other. -/
theorem utf8Bytes_eq (text : String) :
    utf8Bytes text = text.toList.flatMap String.utf8EncodeChar := by
  rw [utf8Bytes, ← String.utf8Encode_toList, List.utf8Encode, List.toList_data_toByteArray]

/-- A list of characters becomes a text in UTF-8 character by character. -/
theorem utf8Bytes_ofList (cs : List Char) :
    utf8Bytes (String.ofList cs) = cs.flatMap String.utf8EncodeChar := by
  rw [utf8Bytes_eq, String.toList_ofList]

/-- A character outside of ASCII is no digit. -/
theorem Numeral.digitValue?_of_le {c : Char} (h : 0x80 ≤ c.toNat) : digitValue? c = none := by
  -- only letters of ASCII have another upper case
  have hupper : c.toUpper = c := by
    refine dif_neg fun hletter => ?_
    have : c.toNat ≤ 'z'.toNat := hletter.2
    exact absurd (Nat.le_trans h this) (by decide)
  rw [digitValue?, hupper, List.idxOf?_eq_none_iff]
  intro hmem
  have hascii : digitChars.all (·.toNat < 0x80) := by decide
  exact absurd h (Nat.not_le_of_lt (of_decide_eq_true (List.all_eq_true.mp hascii c hmem)))

/-- The first byte of a character outside of ASCII is outside of it, too. -/
theorem exists_utf8EncodeChar_eq_cons {c : Char} (h : 0x80 ≤ c.toNat) :
    ∃ b bs, String.utf8EncodeChar c = b :: bs ∧ 0x80 ≤ b.toNat := by
  have hbyte {n : Nat} (hn : 0x80 ≤ n) (hn' : n < 0x100) : 0x80 ≤ (UInt8.ofNat n).toNat := by
    rw [UInt8.toNat_ofNat_of_lt' hn']
    exact hn
  have hval : c.val.toNat = c.toNat := rfl
  unfold String.utf8EncodeChar
  dsimp only
  rw [if_neg (by omega)]
  split
  · exact ⟨_, _, rfl, hbyte (by omega) (by omega)⟩
  · split
    · exact ⟨_, _, rfl, hbyte (by omega) (by omega)⟩
    · exact ⟨_, _, rfl, hbyte (by omega) (by omega)⟩

/-- The bytes of a character have the value of its digit, if it is one. -/
theorem mapM_hexValue?_utf8EncodeChar (c : Char) :
    (String.utf8EncodeChar c).mapM hexValue? = (Numeral.digitValue? c).map fun d => [d] := by
  -- a character of ASCII is its byte, and there are few of them
  by_cases h : c.toNat < 0x80
  · have hascii : ∀ i : Fin 0x80,
        hexValue? (UInt8.ofNat i.val) = Numeral.digitValue? (Char.ofNat i.val) := by
      decide
    have hbytes : String.utf8EncodeChar c = [UInt8.ofNat c.toNat] :=
      if_pos (Nat.le_of_lt_succ h)
    have hvalue := hascii ⟨c.toNat, h⟩
    dsimp only at hvalue
    rw [Char.ofNat_toNat] at hvalue
    rw [hbytes, List.mapM_cons, hvalue, List.mapM_nil]
    cases Numeral.digitValue? c <;> rfl
  · obtain ⟨b, bs, hbytes, hb⟩ := exists_utf8EncodeChar_eq_cons (Nat.le_of_not_lt h)
    rw [Numeral.digitValue?_of_le (Nat.le_of_not_lt h), hbytes, List.mapM_cons,
      hexValue?_of_le hb]
    rfl

/-- **A text may be read byte by byte.** -/
theorem mapM_hexValue?_utf8Bytes (text : String) :
    (utf8Bytes text).mapM hexValue? = text.toList.mapM Numeral.digitValue? := by
  rw [utf8Bytes_eq]
  induction text.toList with
  | nil => rfl
  | cons c cs ih =>
      rw [List.flatMap_cons, List.mapM_append, List.mapM_cons, mapM_hexValue?_utf8EncodeChar, ih]
      cases Numeral.digitValue? c <;> rfl

/-- Values are found all together if each of them is. -/
theorem mapM_eq_some_iff {α β : Type} {f : α → Option β} {xs : List α} {ys : List β} :
    xs.mapM f = some ys ↔ xs.map f = ys.map some := by
  induction xs generalizing ys with
  | nil => cases ys <;> simp
  | cons x xs ih =>
      rw [List.mapM_cons, List.map_cons]
      cases ys with
      | nil => cases f x <;> cases xs.mapM f <;> simp
      | cons y ys =>
          rw [List.map_cons, List.cons.injEq, ← ih]
          cases f x <;> cases xs.mapM f <;> simp

namespace Waveform

variable {name text : String} {w : Waveform}

/-! ## Samples -/

/-- **A text is a waveform if its bytes are 32 digits**, which are then the samples. -/
theorem ofHex_eq_ok :
    ofHex name text = .ok w ↔ ∃ samples : Vector Nat 32,
      (utf8Bytes text).map hexValue? = samples.toList.map some ∧ w = ofSamples name samples := by
  have hread (ds : List Nat) : text.toList.mapM Numeral.digitValue? = some ds ↔
      (utf8Bytes text).map hexValue? = ds.map some := by
    rw [← mapM_hexValue?_utf8Bytes, mapM_eq_some_iff]
  unfold ofHex
  constructor
  · intro h
    split at h
    · next ds hds =>
      split at h
      · next hsize => exact ⟨⟨ds.toArray, hsize⟩, (hread ds).mp hds, (Except.ok.inj h).symm⟩
      · cases h
    · cases h
  · rintro ⟨samples, hsamples, rfl⟩
    rw [(hread samples.toList).mpr hsamples]
    exact dif_pos samples.size_toArray

/-- A text that is no waveform is refused for one cause only. -/
theorem ofHex_eq_error (h : ¬∃ w, ofHex name text = .ok w) :
    ofHex name text = .error .invalidWaveform := by
  cases hresult : ofHex name text with
  | ok w => exact absurd ⟨w, hresult⟩ h
  | error e =>
      unfold ofHex at hresult
      split at hresult
      · split at hresult
        · cases hresult
        · exact hresult ▸ rfl
      · exact hresult ▸ rfl

/-- **The texts of waveforms** have exactly 32 bytes, all of which are digits. -/
theorem exists_ofHex_eq_ok :
    (∃ w, ofHex name text = .ok w) ↔
      (utf8Bytes text).length = 32 ∧ ∀ b ∈ utf8Bytes text, (hexValue? b).isSome := by
  constructor
  · rintro ⟨w, hw⟩
    obtain ⟨samples, hsamples, -⟩ := ofHex_eq_ok.mp hw
    constructor
    · have := congrArg List.length hsamples
      rwa [List.length_map, List.length_map, Vector.length_toList] at this
    · intro b hb
      have hmem : hexValue? b ∈ samples.toList.map some := hsamples ▸ List.mem_map_of_mem hb
      obtain ⟨d, -, hd⟩ := List.mem_map.mp hmem
      rw [← hd, Option.isSome_some]
  · rintro ⟨hlength, hdigits⟩
    -- the values that are found are those of all bytes
    have hall : ((utf8Bytes text).filterMap hexValue?).map some =
        (utf8Bytes text).map hexValue? := by
      rw [List.map_filterMap_some_eq_filter_map_isSome, List.filter_eq_self]
      intro d hd
      obtain ⟨b, hb, rfl⟩ := List.mem_map.mp hd
      exact hdigits b hb
    have hsize : ((utf8Bytes text).filterMap hexValue?).toArray.size = 32 := by
      have := congrArg List.length hall
      rwa [List.length_map, List.length_map, hlength] at this
    exact ⟨_, ofHex_eq_ok.mpr ⟨⟨_, hsize⟩, hall.symm, rfl⟩⟩

/-- The two halves of a byte are its samples. -/
theorem halves_pack {high low : Nat} (hhigh : high < 16) (hlow : low < 16) :
    (pack high low >>> 4).toNat = high ∧ (pack high low &&& 0xF).toNat = low := by
  have hall : ∀ h l : Fin 16,
      (pack h.val l.val >>> 4).toNat = h.val ∧ (pack h.val l.val &&& 0xF).toNat = l.val := by
    decide
  exact hall ⟨high, hhigh⟩ ⟨low, hlow⟩

/-- **The samples of a waveform are read in their order.** -/
theorem toNat_sample_ofSamples {samples : Vector Nat 32} (h : ∀ d ∈ samples, d < 16) {i : Nat}
    (hi : i < 32) : ((ofSamples name samples).sample i).toNat = samples[i] := by
  have hplace : i / 2 % 16 = i / 2 := Nat.mod_eq_of_lt (by omega)
  have hget (f : Fin 16 → UInt8) (j : Fin 16) : (Vector.ofFn f).get j = f j :=
    Vector.getElem_ofFn j.isLt
  have hbyte : (ofSamples name samples).bytes.get ⟨i / 2 % 16, Nat.mod_lt _ (by decide)⟩ =
      pack samples[2 * (i / 2)] samples[2 * (i / 2) + 1] := by
    refine (hget _ _).trans ?_
    simp only [hplace]
  -- both halves of a byte are read back
  obtain ⟨hhigh, hlow⟩ := halves_pack (h samples[2 * (i / 2)] (Vector.getElem_mem _))
    (h samples[2 * (i / 2) + 1] (Vector.getElem_mem _))
  unfold sample
  dsimp only
  rw [hbyte]
  split
  · have hplace : 2 * (i / 2) = i := by omega
    rw [hhigh]
    simp only [hplace]
  · have hplace : 2 * (i / 2) + 1 = i := by omega
    rw [hlow]
    simp only [hplace]

/-- **The samples of a waveform that was read are the values of its digits.** -/
theorem value_eq_sample (h : ofHex name text = .ok w) {i : Nat} (hi : i < 32) :
    (utf8Bytes text)[i]?.bind hexValue? = some (w.sample i).toNat := by
  obtain ⟨samples, hsamples, rfl⟩ := ofHex_eq_ok.mp h
  -- samples are values of digits, so that they fit the halves of a byte
  have hdigits : ∀ d ∈ samples, d < 16 := by
    intro d hd
    have hmem : some d ∈ (utf8Bytes text).map hexValue? :=
      hsamples ▸ List.mem_map_of_mem (Vector.mem_toList_iff.mpr hd)
    obtain ⟨b, -, hb⟩ := List.mem_map.mp hmem
    exact hexValue?_lt hb
  have hplace := congrArg (·[i]?) hsamples
  have hsample : samples.toList[i]? = some samples[i] := by simp [hi]
  simp only [List.getElem?_map, hsample, Option.map_some] at hplace
  obtain ⟨b, hb, hvalue⟩ := Option.map_eq_some_iff.mp hplace
  rw [hb, Option.bind_some, hvalue, toNat_sample_ofSamples hdigits hi]

/-- The samples go around. -/
theorem sample_mod (w : Waveform) (i : Nat) : w.sample i = w.sample (i % 32) := by
  have hplace : i % 32 / 2 % 16 = i / 2 % 16 := by omega
  have hhalf : i % 32 % 2 = i % 2 := by omega
  simp only [sample, hplace, hhalf]

/-! ## Spelling -/

/-- The halves of some bytes as numbers, the higher one of each byte first. -/
def halves (bytes : List UInt8) : List Nat :=
  bytes.flatMap fun b => [b.toNat / 16, b.toNat % 16]

/-- The character of a digit below sixteen, in upper or lower case. -/
def digitIn (upper : Bool) (d : Nat) : Char :=
  if upper then Numeral.digitChar d else (Numeral.digitChar d).toLower

/-- Some bytes as hexadecimal digits, two for each, of which the first stands for the higher half.
Whether a digit is in upper or lower case may depend on its place. -/
def hexText (upper : Nat → Bool) (bytes : Vector UInt8 16) : String :=
  String.ofList ((halves bytes.toList).mapIdx fun i d => digitIn (upper i) d)

/-- Each byte has two halves. -/
theorem length_halves (bytes : List UInt8) : (halves bytes).length = 2 * bytes.length := by
  induction bytes with
  | nil => rfl
  | cons b bytes ih =>
      rw [halves, List.flatMap_cons, ← halves, List.length_append, ih]
      simp only [List.length_cons, List.length_nil]
      omega

/-- The halves of a byte stand behind those of the bytes before it. -/
theorem getElem?_halves (bytes : List UInt8) (i : Nat) :
    (halves bytes)[2 * i]? = bytes[i]?.map (fun b => b.toNat / 16) ∧
      (halves bytes)[2 * i + 1]? = bytes[i]?.map (fun b => b.toNat % 16) := by
  induction bytes generalizing i with
  | nil => exact ⟨rfl, rfl⟩
  | cons b bytes ih =>
      cases i with
      | zero => exact ⟨rfl, rfl⟩
      | succ i => exact ih i

/-- Half a byte is below sixteen. -/
theorem lt_of_mem_halves {bytes : List UInt8} {d : Nat} (h : d ∈ halves bytes) : d < 16 := by
  obtain ⟨b, -, hd⟩ := List.mem_flatMap.mp h
  have hb := b.toNat_lt
  rcases List.mem_pair.mp hd with rfl | rfl <;> omega

/-- A digit is read in either case. -/
theorem digitValue?_digitIn (upper : Bool) {d : Nat} (h : d < 16) :
    Numeral.digitValue? (digitIn upper d) = some d := by
  have hall : ∀ (upper : Bool) (i : Fin 16),
      Numeral.digitValue? (digitIn upper i.val) = some i.val := by
    decide
  exact hall upper ⟨d, h⟩

/-- The digits of some bytes have the values of their halves. -/
theorem map_hexValue?_hexText (upper : Nat → Bool) (bytes : Vector UInt8 16) :
    (utf8Bytes (hexText upper bytes)).map hexValue? = (halves bytes.toList).map some := by
  rw [← mapM_eq_some_iff, mapM_hexValue?_utf8Bytes, mapM_eq_some_iff, hexText,
    String.toList_ofList]
  refine List.ext_getElem? fun i => ?_
  rw [List.getElem?_map, List.getElem?_mapIdx, List.getElem?_map]
  cases h : (halves bytes.toList)[i]? with
  | none => rfl
  | some d =>
      have hd := lt_of_mem_halves (List.mem_of_getElem? h)
      rw [Option.map_some, Option.map_some, Option.map_some, digitValue?_digitIn _ hd]

/-- A byte is made of its halves. -/
theorem pack_halves (b : UInt8) : pack (b.toNat / 16) (b.toNat % 16) = b := by
  rw [pack, Nat.div_add_mod', UInt8.ofNat_toNat]

/-- **What was written in digits is read back.** -/
theorem ofHex_hexText (name : String) (upper : Nat → Bool) (bytes : Vector UInt8 16) :
    ofHex name (hexText upper bytes) = .ok (new name bytes) := by
  have hsize : (halves bytes.toList).toArray.size = 32 := by
    rw [List.size_toArray, length_halves, Vector.length_toList]
  refine ofHex_eq_ok.mpr ⟨⟨_, hsize⟩, map_hexValue?_hexText upper bytes, ?_⟩
  refine congrArg (new name) (Vector.ext fun i hi => ?_)
  have hbyte : bytes.toList[i]? = some bytes[i] := by simp [hi]
  -- its halves are the digits at `2 * i` and behind it
  obtain ⟨hhigh, hlow⟩ := getElem?_halves bytes.toList i
  rw [hbyte, Option.map_some, List.getElem?_eq_some_iff] at hhigh hlow
  obtain ⟨_, hhigh⟩ := hhigh
  obtain ⟨_, hlow⟩ := hlow
  rw [Vector.getElem_ofFn]
  simp only [Vector.getElem_mk, List.getElem_toArray, hhigh, hlow, pack_halves]

/-- **The digits of a waveform are its samples.**  A text is read as a waveform exactly if it has 32
bytes in UTF-8 and each of them is a hexadecimal digit in ASCII, and is refused as no waveform
otherwise.  The samples of the waveform are the values of the digits, over and over.  Bytes that are
written in digits, the higher half of each first and every digit in either case, are read back. -/
theorem hex_digits_are_samples (name text : String) :
    ((∃ w, ofHex name text = .ok w) ↔
      (utf8Bytes text).length = 32 ∧ ∀ b ∈ utf8Bytes text, (hexValue? b).isSome) ∧
      ((¬∃ w, ofHex name text = .ok w) → ofHex name text = .error .invalidWaveform) ∧
      (∀ w, ofHex name text = .ok w →
        (∀ i < 32, (utf8Bytes text)[i]?.bind hexValue? = some (w.sample i).toNat) ∧
          ∀ i, w.sample i = w.sample (i % 32)) ∧
      ∀ (upper : Nat → Bool) (bytes : Vector UInt8 16),
        (ofHex name (hexText upper bytes)).map Waveform.bytes = .ok bytes := by
  refine ⟨exists_ofHex_eq_ok, ofHex_eq_error, ?_, ?_⟩
  · intro w hw
    exact ⟨fun i hi => value_eq_sample hw hi, w.sample_mod⟩
  · intro upper bytes
    rw [ofHex_hexText]
    rfl

/-- The bytes of a wave that falls and rises. -/
def fallingBytes : Vector UInt8 16 :=
  ⟨#[0xFE, 0xDC, 0xBA, 0x98, 0x76, 0x54, 0x32, 0x10, 0x01, 0x23, 0x45, 0x67, 0x89, 0xAB, 0xCD, 0xEF],
    rfl⟩

/-- A text of 31 characters, the last of which takes two bytes. -/
def accentedText : String :=
  String.ofList (List.replicate 30 '0' ++ ['é'])

/-- Written with upper-case letters at every other place, the wave is read back with its samples,
which go around.  The other text has 32 bytes, but is no waveform. -/
theorem hex_digits_are_samples_fallingBytes :
    let text := hexText (fun i => i % 2 = 0) fallingBytes
    (∃ w, ofHex "" text = .ok w ∧ (utf8Bytes text)[2]?.bind hexValue? = some (w.sample 2).toNat ∧
        w.sample 34 = w.sample (34 % 32)) ∧
      (ofHex "" text).map bytes = .ok fallingBytes ∧
      (utf8Bytes accentedText).length = 32 ∧ (¬∃ w, ofHex "" accentedText = .ok w) ∧
      ofHex "" accentedText = .error .invalidWaveform := by
  intro text
  have hbytes : utf8Bytes accentedText =
      (List.replicate 30 '0' ++ ['é']).flatMap String.utf8EncodeChar :=
    utf8Bytes_ofList _
  obtain ⟨haccepted, hrefused, -, -⟩ := hex_digits_are_samples "" accentedText
  have hno : ¬∃ w, ofHex "" accentedText = .ok w := by
    intro hw
    have hlast : 0xC3 ∈ utf8Bytes accentedText := by
      rw [hbytes]
      decide
    exact Bool.false_ne_true ((haccepted.mp hw).2 0xC3 hlast)
  obtain ⟨-, -, hsamples, hread⟩ := hex_digits_are_samples "" text
  have hwave : ofHex "" text = .ok (new "" fallingBytes) := ofHex_hexText _ _ _
  obtain ⟨hdigits, haround⟩ := hsamples _ hwave
  have hread' : (ofHex "" text).map bytes = .ok fallingBytes := hread _ _
  refine ⟨⟨_, hwave, hdigits 2 (by decide), haround 34⟩, hread', ?_, hno, hrefused hno⟩
  rw [hbytes]
  decide

end Waveform
end Chiptune
