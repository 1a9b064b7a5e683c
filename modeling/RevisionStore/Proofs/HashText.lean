/-
**The written form of a hash reads back.**

Bytes written in hexadecimal are read back as they were, and since the written form of a hash has
forty lowercase digits it is accepted as one.  No other text is: lowercase digits that are read as
some bytes are what those bytes are written as.

Main results:

* `Hex.decode_encode`, `Hex.encode_of_decode` — reading what was written gives the bytes again, and
  writing what was read gives the lowercase digits again;
* `RevisionHash.parse_toHex` — **the written form of a hash is read as that hash**;
* `RevisionHash.parse_eq_ok_iff` — and no other text is;
* `RevisionHash.exists_toHex_eq_iff` — the written forms are the texts of forty lowercase digits.
-/

import RevisionStore.RevisionHash
import Mathlib.Data.List.Basic

set_option autoImplicit false

namespace RevisionStore

/-- The bytes of a text are those of its characters. -/
theorem Bytes.ofText_eq_flatMap (text : String) :
    ofText text = text.toList.flatMap String.utf8EncodeChar := by
  conv_lhs => rw [← String.ofList_toList (s := text)]
  simp only [ofText, String.toByteArray_ofList, List.utf8Encode, List.data_toByteArray]

namespace Hex

/-! ### Reading what was written -/

/-- The byte of the lowercase digit of a number below sixteen. -/
def digitByte (n : Nat) : UInt8 := UInt8.ofNat (if n < 10 then 48 + n else 87 + n)

/-- A digit is one byte in UTF-8, is read as its number, and is lowercase. -/
theorem digit_spec : ∀ n < 16,
    String.utf8EncodeChar (digit n) = [digitByte n] ∧
      digitValue? (digitByte n) = some (UInt8.ofNat n) ∧ isLowercase (digit n) = true := by
  decide

theorem high_lt (b : UInt8) : b.toNat / 16 < 16 := by
  have := b.toNat_lt
  omega

theorem low_lt (b : UInt8) : b.toNat % 16 < 16 := Nat.mod_lt _ (by decide)

/-- The two halves of a byte make the byte. -/
theorem join_halves (b : UInt8) :
    16 * UInt8.ofNat (b.toNat / 16) + UInt8.ofNat (b.toNat % 16) = b := by
  apply UInt8.toNat_inj.1
  have := b.toNat_lt
  simp
  omega

/-- The written bytes, themselves as bytes. -/
theorem ofText_encode (bytes : Bytes) :
    Bytes.ofText (encode bytes) =
      bytes.flatMap fun b => [digitByte (b.toNat / 16), digitByte (b.toNat % 16)] := by
  have spelled : ∀ b ∈ bytes, (byteDigits b).flatMap String.utf8EncodeChar =
      [digitByte (b.toNat / 16), digitByte (b.toNat % 16)] := by
    intro b _
    simp [byteDigits, (digit_spec _ (high_lt b)).1, (digit_spec _ (low_lt b)).1]
  rw [Bytes.ofText_eq_flatMap, toList_encode, List.flatMap_assoc]
  exact List.flatMap_congr spelled

/-- Every written digit is lowercase. -/
theorem all_isLowercase_encode (bytes : Bytes) : (encode bytes).toList.all isLowercase = true := by
  rw [toList_encode, List.all_flatMap, List.all_eq_true]
  intro b _
  simp [byteDigits, (digit_spec _ (high_lt b)).2.2, (digit_spec _ (low_lt b)).2.2]

theorem decodeFrom_digitBytes (position : Nat) (bytes : Bytes) :
    decodeFrom position
      (bytes.flatMap fun b => [digitByte (b.toNat / 16), digitByte (b.toNat % 16)]) =
        .ok bytes := by
  induction bytes generalizing position with
  | nil => rfl
  | cons b bytes ih =>
      have high : readDigit (digitByte (b.toNat / 16)) position =
          .ok (UInt8.ofNat (b.toNat / 16)) := by
        rw [readDigit, (digit_spec _ (high_lt b)).2.1]
      have low : readDigit (digitByte (b.toNat % 16)) (position + 1) =
          .ok (UInt8.ofNat (b.toNat % 16)) := by
        rw [readDigit, (digit_spec _ (low_lt b)).2.1]
      simp only [List.flatMap_cons, List.cons_append, List.nil_append, decodeFrom, high, low, ih,
        bind, Except.bind, pure, Except.pure, join_halves]

/-- **Reading what was written gives the bytes again.** -/
theorem decode_encode (bytes : Bytes) : decode (encode bytes) = .ok bytes := by
  have even : (Bytes.ofText (encode bytes)).length % 2 ≠ 1 := by
    rw [ofText_encode]
    induction bytes with
    | nil => decide
    | cons b bytes ih => simp only [List.flatMap_cons, List.length_append, List.length_cons,
        List.length_nil] at ih ⊢; omega
  rw [decode, if_neg even, ofText_encode, decodeFrom_digitBytes]

/-- Of a text of the right size nothing is asked beyond what reading it asks. -/
theorem decodeExactly_of_size {count : Nat} {text : String}
    (size : text.utf8ByteSize = 2 * count) : decodeExactly count text = decode text :=
  if_neg fun wrong => wrong.2 size

/-! ### Writing what was read -/

/-- A lowercase digit is the digit of a number below sixteen. -/
theorem exists_digit {c : Char} (lower : isLowercase c = true) : ∃ n < 16, digit n = c := by
  have range : ('0' ≤ c ∧ c ≤ '9') ∨ ('a' ≤ c ∧ c ≤ 'f') := by simpa [isLowercase] using lower
  simp only [Char.le_def, UInt32.le_iff_toNat_le] at range
  rcases range with ⟨first, last⟩ | ⟨first, last⟩
  · have first' : 48 ≤ c.toNat := first
    have last' : c.toNat ≤ 57 := last
    refine ⟨c.toNat - 48, by omega, ?_⟩
    rw [digit, if_pos (by omega), Nat.add_sub_cancel' first', Char.ofNat_toNat]
  · have first' : 97 ≤ c.toNat := first
    have last' : c.toNat ≤ 102 := last
    refine ⟨c.toNat - 87, by omega, ?_⟩
    rw [digit, if_neg (by omega), Nat.add_sub_cancel' (by omega), Char.ofNat_toNat]

/-- Two digits are what one byte is written as. -/
theorem exists_byte {high low : Nat} (hh : high < 16) (hl : low < 16) :
    ∃ b : UInt8, byteDigits b = [digit high, digit low] := by
  have value : (UInt8.ofNat (16 * high + low)).toNat = 16 * high + low := by
    simp
    omega
  refine ⟨UInt8.ofNat (16 * high + low), ?_⟩
  rw [byteDigits, value, show (16 * high + low) / 16 = high by omega,
    show (16 * high + low) % 16 = low by omega]

/-- An even number of lowercase digits is what some bytes are written as. -/
theorem exists_bytes : ∀ {digits : List Char}, digits.all isLowercase = true →
    digits.length % 2 = 0 → ∃ bytes : Bytes, bytes.flatMap byteDigits = digits
  | [], _, _ => ⟨[], rfl⟩
  | [_], _, even => by simp at even
  | high :: low :: rest, lower, even => by
      simp only [List.all_cons, Bool.and_eq_true] at lower
      obtain ⟨h, hh, rfl⟩ := exists_digit lower.1
      obtain ⟨l, hl, rfl⟩ := exists_digit lower.2.1
      obtain ⟨b, written⟩ := exists_byte hh hl
      obtain ⟨bytes, same⟩ := exists_bytes lower.2.2 (by simp at even; omega)
      refine ⟨b :: bytes, ?_⟩
      rw [List.flatMap_cons, written, same]
      rfl

/-- Each lowercase digit is one byte. -/
theorem length_ofText_of_isLowercase {text : String} (lower : text.toList.all isLowercase = true) :
    (Bytes.ofText text).length = text.toList.length := by
  have single : ∀ c ∈ text.toList, (String.utf8EncodeChar c).length = 1 := by
    intro c mem
    obtain ⟨n, small, rfl⟩ := exists_digit (List.all_eq_true.1 lower c mem)
    rw [(digit_spec n small).1, List.length_singleton]
  rw [Bytes.ofText_eq_flatMap, List.length_flatMap, List.map_congr_left single]
  simp

/-- **Writing what was read from lowercase digits gives the digits again.** -/
theorem encode_of_decode {text : String} {bytes : Bytes}
    (lower : text.toList.all isLowercase = true) (read : decode text = .ok bytes) :
    encode bytes = text := by
  have even : text.toList.length % 2 = 0 := by
    simp only [decode] at read
    split at read
    · cases read
    · next not_odd =>
        rw [length_ofText_of_isLowercase lower] at not_odd
        omega
  obtain ⟨written, digits⟩ := exists_bytes lower even
  have same : encode written = text := by rw [encode, digits, String.ofList_toList]
  rw [← same, decode_encode] at read
  cases read
  exact same

end Hex

namespace RevisionHash

/-- The written form has as many bytes as digits. -/
theorem utf8ByteSize_toHex (h : RevisionHash) : h.toHex.utf8ByteSize = hexLength := by
  rw [← Bytes.length_ofText, toHex, Hex.ofText_encode]
  simp [List.length_flatMap, h.length_bytes, hexLength]

/-- **The written form of a hash is read as that hash.** -/
theorem parse_toHex (h : RevisionHash) : parse h.toHex = .ok h := by
  have digits : h.toHex.toList.all Hex.isLowercase = true := Hex.all_isLowercase_encode h.bytes
  rw [parse, if_neg (not_not.2 (utf8ByteSize_toHex h)), if_pos digits,
    Hex.decodeExactly_of_size (utf8ByteSize_toHex h)]
  simp [toHex, Hex.decode_encode, h.length_bytes]

/-- **A text is read as a hash exactly if it is the written form of that hash.** -/
theorem parse_eq_ok_iff {text : String} {h : RevisionHash} :
    parse text = .ok h ↔ h.toHex = text := by
  constructor
  · intro read
    unfold parse at read
    split at read
    · cases read
    · next size =>
        rw [Hex.decodeExactly_of_size (not_not.1 size)] at read
        split at read
        · next lower =>
            split at read
            · next bytes decoded =>
                split at read
                · cases read
                  exact Hex.encode_of_decode lower decoded
                · cases read
            · cases read
        · cases read
  · rintro rfl
    exact parse_toHex h

/-- The texts that are the written form of a hash are those of forty lowercase digits. -/
theorem exists_toHex_eq_iff {text : String} : (∃ h : RevisionHash, h.toHex = text) ↔
    text.length = hexLength ∧ text.toList.all Hex.isLowercase = true := by
  constructor
  · rintro ⟨h, rfl⟩
    exact ⟨length_toHex h, Hex.all_isLowercase_encode h.bytes⟩
  · rintro ⟨long, lower⟩
    have even : text.toList.length % 2 = 0 := by rw [String.length_toList, long]; decide
    obtain ⟨bytes, digits⟩ := Hex.exists_bytes lower even
    have written : Hex.encode bytes = text := by rw [Hex.encode, digits, String.ofList_toList]
    have twenty : 2 * bytes.length = 2 * 20 := by rw [← Hex.length_encode, written, long]; rfl
    exact ⟨⟨bytes, Nat.eq_of_mul_eq_mul_left (by decide) twenty⟩, written⟩

end RevisionHash

end RevisionStore
