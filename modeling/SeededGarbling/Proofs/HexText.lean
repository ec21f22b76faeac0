import Mathlib.Tactic.SplitIfs
import SeededGarbling.Bytes.Hex
import SeededGarbling.Proofs.Traversal

/-!
# Hexadecimal text is read as it is written

Reading works on the bytes of a text, writing on characters. All digits are characters of one byte,
and lower case means the same for a text and for its bytes; so a text is read as the bytes whose
digits it shows in either case, and any other text is refused.
-/

namespace SeededGarbling

namespace Hex

open Traversal

/-- A text shows the digits of a byte string, in either case. -/
def Shows (text : String) (bytes : Bytes) : Prop :=
  text.toLower = encode bytes

section Text

/-- The bytes of a text are those of its characters. -/
theorem toList_toUTF8 (text : String) :
    text.toUTF8.data.toList = text.toList.flatMap String.utf8EncodeChar := by
  change text.toByteArray.data.toList = _
  rw [← String.utf8Encode_toList, List.utf8Encode, List.toList_data_toByteArray]

/-- Texts of the same bytes are the same. -/
theorem toList_toUTF8_inj {text other : String} :
    text.toUTF8.data.toList = other.toUTF8.data.toList ↔ text = other := by
  constructor
  · intro h
    apply String.toByteArray_inj.mp
    apply ByteArray.ext
    exact Array.toList_inj.mp h
  · rintro rfl
    rfl

/-- A byte of text in lower case. Only capital letters change; they are bytes of their own. -/
def lower (b : UInt8) : UInt8 :=
  if 0x41 ≤ b ∧ b ≤ 0x5a then b + 0x20 else b

/-- Bytes of characters that take several are in lower case. -/
theorem lower_ofNat {n : Nat} (h : 0x80 ≤ n) (hn : n < 0x100) : lower (UInt8.ofNat n) = .ofNat n := by
  have hvalue : (UInt8.ofNat n).toNat = n := UInt8.toNat_ofNat_of_lt' hn
  refine if_neg ?_
  rintro ⟨-, hle⟩
  rw [UInt8.le_iff_toNat_le, hvalue] at hle
  change n ≤ 0x5a at hle
  omega

/-- A character in lower case has its bytes in lower case. -/
theorem map_lower_utf8EncodeChar (c : Char) :
    (String.utf8EncodeChar c).map lower = String.utf8EncodeChar c.toLower := by
  by_cases hascii : c.toNat < 0x80
  · have hall : ∀ n < 0x80, (String.utf8EncodeChar (Char.ofNat n)).map lower =
        String.utf8EncodeChar (Char.ofNat n).toLower := by
      decide
    have hc := hall c.toNat hascii
    rwa [Char.ofNat_toNat] at hc
  · have hsame : c.toLower = c := by
      refine dif_neg ?_
      rintro ⟨-, hle⟩
      rw [UInt32.le_iff_toNat_le] at hle
      change c.toNat ≤ 0x5a at hle
      omega
    have hle : ¬ c.val.toNat ≤ 0x7f := by
      change ¬ c.toNat ≤ 0x7f
      omega
    rw [hsame]
    unfold String.utf8EncodeChar
    simp only [if_neg hle]
    split_ifs <;> simp (disch := omega) only [List.map_cons, List.map_nil, lower_ofNat]

/-- A text in lower case has its bytes in lower case. -/
theorem toList_toUTF8_toLower (text : String) :
    text.toLower.toUTF8.data.toList = text.toUTF8.data.toList.map lower := by
  have hlower : text.toLower = text.map Char.toLower := rfl
  rw [hlower, toList_toUTF8, toList_toUTF8, String.toList_map, List.map_flatMap, List.flatMap_map]
  simp only [map_lower_utf8EncodeChar]

end Text

section Digits

/-- The bytes of the two digits of a byte. -/
def digitBytes (b : UInt8) : Bytes :=
  (digits b).flatMap String.utf8EncodeChar

/-- The bytes of the text that is written. -/
theorem toList_toUTF8_encode (bytes : Bytes) :
    (encode bytes).toUTF8.data.toList = bytes.flatMap digitBytes := by
  rw [toList_toUTF8, encode, String.toList_ofList, List.flatMap_assoc]
  rfl

/-- A property of all bytes is one of all numbers below 256. -/
theorem forall_byte {P : UInt8 → Prop} (h : ∀ n < 0x100, P (UInt8.ofNat n)) (b : UInt8) : P b := by
  have hb := h b.toNat b.toNat_lt
  rwa [UInt8.ofNat_toNat] at hb

/-- The digit of a value below 16, as a byte. -/
def digitByte (value : UInt8) : UInt8 :=
  UInt8.ofNat (Nat.digitChar value.toNat).toNat

/-- A byte has two digits. -/
theorem exists_digitBytes (b : UInt8) :
    ∃ high low : UInt8, high < 0x10 ∧ low < 0x10 ∧ b = high <<< 4 ||| low ∧
      digitBytes b = [digitByte high, digitByte low] := by
  refine ⟨b >>> 4, b &&& 0xf, ?_⟩
  revert b
  exact forall_byte (by decide +kernel)

/-- A byte is read as a digit exactly if it is one in lower case. -/
theorem digitValue?_eq_some_iff {digit value : UInt8} :
    digitValue? digit = some value ↔ value < 0x10 ∧ lower digit = digitByte value := by
  have hread : ∀ digit, ∀ value ∈ digitValue? digit, value < 0x10 ∧ lower digit = digitByte value :=
    forall_byte (by decide +kernel)
  have hdigit : ∀ digit, ∀ n < 0x10, lower digit = digitByte (.ofNat n) →
      digitValue? digit = some (.ofNat n) :=
    forall_byte (by decide +kernel)
  constructor
  · exact hread digit value
  · rintro ⟨hvalue, hlower⟩
    have hsome := hdigit digit value.toNat hvalue
    rw [UInt8.ofNat_toNat] at hsome
    exact hsome hlower

/-- The value of a digit is given exactly if the byte is one. -/
theorem digitAt_eq_ok_iff {digit value : UInt8} {position : Nat} :
    digitAt digit position = .ok value ↔ value < 0x10 ∧ lower digit = digitByte value := by
  rw [← digitValue?_eq_some_iff, digitAt]
  cases digitValue? digit with
  | none => simp
  | some found => simp

/-- A pair of digits in lower case are those of a byte exactly if both are read, and the byte is put
together from their values. -/
theorem lower_pair_iff {high low b : UInt8} :
    [lower high, lower low] = digitBytes b ↔
      ∃ h l, (h < 0x10 ∧ lower high = digitByte h) ∧ (l < 0x10 ∧ lower low = digitByte l) ∧
        h <<< 4 ||| l = b := by
  have hpair : ∀ h : Nat, h < 0x10 → ∀ l < 0x10,
      digitBytes (UInt8.ofNat h <<< 4 ||| .ofNat l) = [digitByte (.ofNat h), digitByte (.ofNat l)] := by
    decide +kernel
  constructor
  · intro hdigits
    obtain ⟨h, l, hh, hl, rfl, hbytes⟩ := exists_digitBytes b
    rw [hbytes] at hdigits
    obtain ⟨hhigh, hlow⟩ := List.cons.inj hdigits
    exact ⟨h, l, ⟨hh, hhigh⟩, ⟨hl, (List.cons.inj hlow).1⟩, rfl⟩
  · rintro ⟨h, l, ⟨hh, hhigh⟩, ⟨hl, hlow⟩, rfl⟩
    have hbytes := hpair h.toNat hh l.toNat hl
    rw [UInt8.ofNat_toNat, UInt8.ofNat_toNat] at hbytes
    rw [hbytes, hhigh, hlow]

end Digits

section Reading

/-- Two bytes of text for each byte. -/
theorem length_flatMap_digitBytes (bytes : Bytes) :
    (bytes.flatMap digitBytes).length = 2 * bytes.length := by
  induction bytes with
  | nil => rfl
  | cons b bytes ih =>
    obtain ⟨high, low, _, _, _, hbytes⟩ := exists_digitBytes b
    rw [List.flatMap_cons, List.length_append, ih, hbytes, List.length_cons]
    simp only [List.length_cons, List.length_nil]
    omega

/-- Text that begins with a pair of digits shows the byte of this pair first. -/
theorem cons_cons_eq_flatMap_iff {x y : UInt8} {text bytes : Bytes} :
    x :: y :: text = bytes.flatMap digitBytes ↔
      ∃ b rest, bytes = b :: rest ∧ [x, y] = digitBytes b ∧ text = rest.flatMap digitBytes := by
  constructor
  · intro h
    cases bytes with
    | nil => cases h
    | cons b rest =>
      obtain ⟨high, low, _, _, _, hbytes⟩ := exists_digitBytes b
      rw [List.flatMap_cons, hbytes] at h
      cases h
      exact ⟨b, rest, rfl, hbytes.symm, rfl⟩
  · rintro ⟨b, rest, rfl, hpair, rfl⟩
    rw [List.flatMap_cons, ← hpair]
    rfl

/-- Pairs of digits are read as the bytes that they are in lower case, behind the bytes read before. -/
theorem decodeFrom_eq_ok_iff {text : Bytes} (heven : text.length % 2 = 0) {read result : Array UInt8}
    {position : Nat} :
    decodeFrom read position text = .ok result ↔
      ∃ bytes : Bytes, text.map lower = bytes.flatMap digitBytes ∧ result.toList = read.toList ++ bytes := by
  fun_induction decodeFrom read position text with
  | case1 read position high low rest ih =>
    have hrest : rest.length % 2 = 0 := by
      simp only [List.length_cons] at heven
      omega
    simp only [bind_eq_ok_iff, digitAt_eq_ok_iff, ih _ _ hrest, List.map_cons,
      cons_cons_eq_flatMap_iff, lower_pair_iff]
    constructor
    · rintro ⟨h, hh, l, hl, bytes, hbytes, hresult⟩
      exact ⟨_, ⟨_, bytes, rfl, ⟨h, l, hh, hl, rfl⟩, hbytes⟩, by simpa using hresult⟩
    · rintro ⟨_, ⟨_, bytes, rfl, ⟨h, l, hh, hl, rfl⟩, hbytes⟩, hresult⟩
      exact ⟨h, hh, l, hl, bytes, hbytes, by simpa using hresult⟩
  | case2 text read position hshort =>
    have hnil : text = [] := by
      match text, hshort, heven with
      | [], _, _ => rfl
      | high :: low :: rest, hshort, _ => exact absurd rfl (hshort high low rest)
    subst hnil
    constructor
    · intro h
      cases h
      exact ⟨[], rfl, by simp⟩
    · rintro ⟨bytes, hbytes, hresult⟩
      have hlength := congrArg List.length hbytes
      rw [length_flatMap_digitBytes, List.map_nil, List.length_nil] at hlength
      have hnone : bytes = [] := List.eq_nil_of_length_eq_zero (by omega)
      rw [hnone, List.append_nil] at hresult
      rw [Array.toList_inj.mp hresult]

/-- A text shows a byte string exactly if its bytes do, in lower case. -/
theorem shows_iff {text : String} {bytes : Bytes} :
    Shows text bytes ↔ text.toUTF8.data.toList.map lower = bytes.flatMap digitBytes := by
  rw [Shows, ← toList_toUTF8_inj, toList_toUTF8_toLower, toList_toUTF8_encode]

/-- A text is read as the bytes that it shows, and any other text is refused. -/
theorem decode_eq_ok_iff {text : String} {bytes : Bytes} :
    decode text = .ok bytes ↔ Shows text bytes := by
  rw [shows_iff, decode]
  by_cases hodd : text.toUTF8.data.toList.length % 2 = 1
  · rw [if_pos hodd]
    constructor
    · intro h
      cases h
    · intro h
      have hlength := congrArg List.length h
      rw [length_flatMap_digitBytes, List.length_map] at hlength
      omega
  · rw [if_neg hodd, bind_eq_ok_iff]
    simp only [decodeFrom_eq_ok_iff (by omega : text.toUTF8.data.toList.length % 2 = 0)]
    constructor
    · rintro ⟨result, ⟨found, hfound, hresult⟩, hok⟩
      cases hok
      rw [hresult]
      exact hfound
    · intro h
      exact ⟨bytes.toArray, ⟨bytes, h, rfl⟩, rfl⟩

/-- No text shows two byte strings. -/
theorem Shows.unique {text : String} {bytes other : Bytes} (h : Shows text bytes)
    (hother : Shows text other) : bytes = other :=
  Except.ok.inj ((decode_eq_ok_iff.mpr h).symm.trans (decode_eq_ok_iff.mpr hother))

/-- What is written shows the bytes that it is written for. -/
theorem shows_encode (bytes : Bytes) : Shows (encode bytes) bytes := by
  have hdigits : ∀ b, (digitBytes b).map lower = digitBytes b := forall_byte (by decide +kernel)
  rw [shows_iff, toList_toUTF8_encode, List.map_flatMap]
  simp only [hdigits]

end Reading

end Hex

end SeededGarbling
