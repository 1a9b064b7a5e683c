/-
**The written form of a hash is strict, and keeps the order.**

The texts that are read as a hash are told by their bytes: forty of them, each the byte of a
lowercase digit.  A character of several bytes has none of those, so that no text is accepted for
its byte count alone.  Written forms are ordered as the hashes are, since of two bytes the smaller
one has the smaller first digit, or the same one and a smaller second digit.

Main definitions:

* `Hex.IsLowercaseByte` — the bytes of the lowercase digits.

Main results:

* `Hex.all_isLowercase_iff` — lowercase digits, told by their bytes;
* `Hex.ofText_encode_lt_iff` — writing bytes keeps their order;
* `RevisionHash.text_form_strict` — **which texts are read as a hash, why the others are refused,
  and the order of those texts**.
-/

import RevisionStore.Proofs.HashText

set_option autoImplicit false

namespace RevisionStore

/-- The order by the first difference, decided by comparing. -/
theorem Bytes.compare_eq_lt_iff {a b : Bytes} : compare a b = .lt ↔ a < b := by
  induction a generalizing b with
  | nil =>
      cases b with
      | nil => simp
      | cons y b => exact iff_of_true rfl (List.nil_lt_cons y b)
  | cons x a ih =>
      cases b with
      | nil => exact iff_of_false (by rintro ⟨⟩) (List.not_lt_nil _)
      | cons y b =>
          rw [List.compare_eq_compareLex] at ih ⊢
          rw [List.compareLex_cons_cons, Ordering.then_eq_lt, List.cons_lt_cons_iff, ih,
            Std.LawfulLTCmp.eq_lt_iff_lt, Std.compare_eq_iff_eq]

namespace Hex

/-! ### Lowercase digits by their bytes -/

/-- The byte of a lowercase digit. -/
def IsLowercaseByte (b : UInt8) : Prop := (0x30 ≤ b ∧ b ≤ 0x39) ∨ (0x61 ≤ b ∧ b ≤ 0x66)

instance (b : UInt8) : Decidable (IsLowercaseByte b) :=
  inferInstanceAs (Decidable ((0x30 ≤ b ∧ b ≤ 0x39) ∨ (0x61 ≤ b ∧ b ≤ 0x66)))

theorem isLowercaseByte_digitByte : ∀ n < 16, IsLowercaseByte (digitByte n) := by decide

/-- A character is one byte, which has its number, or several, the first of which has its top bit
set. -/
theorem utf8EncodeChar_cases (c : Char) :
    (c.toNat ≤ 127 ∧ String.utf8EncodeChar c = [UInt8.ofNat c.toNat]) ∨
      ∃ b ∈ String.utf8EncodeChar c, 128 ≤ b.toNat := by
  unfold String.utf8EncodeChar
  change (c.val.toNat ≤ 127 ∧ _ = [UInt8.ofNat c.val.toNat]) ∨ _
  generalize c.val.toNat = v
  dsimp only
  split_ifs with one
  · exact .inl ⟨one, rfl⟩
  all_goals
    refine .inr ⟨_, List.mem_cons_self, ?_⟩
    rw [UInt8.toNat_ofNat']
    omega

/-- A character is a lowercase digit exactly if all its bytes are such. -/
theorem isLowercase_iff {c : Char} :
    isLowercase c = true ↔ ∀ b ∈ String.utf8EncodeChar c, IsLowercaseByte b := by
  constructor
  · intro lower
    obtain ⟨n, small, rfl⟩ := exists_digit lower
    rw [(digit_spec n small).1]
    simpa using isLowercaseByte_digitByte n small
  · intro lower
    simp only [IsLowercaseByte, UInt8.le_iff_toNat_le, UInt8.reduceToNat] at lower
    rcases utf8EncodeChar_cases c with ⟨ascii, encoded⟩ | ⟨b, mem, large⟩
    · have range := lower (UInt8.ofNat c.toNat) (by rw [encoded]; exact List.mem_singleton_self _)
      rw [UInt8.toNat_ofNat', Nat.mod_eq_of_lt (by omega)] at range
      simpa [isLowercase, Char.le_def, UInt32.le_iff_toNat_le] using range
    · have := lower b mem
      omega

theorem all_isLowercase_iff {text : String} :
    text.toList.all isLowercase = true ↔ ∀ b ∈ Bytes.ofText text, IsLowercaseByte b := by
  simp only [List.all_eq_true, isLowercase_iff, Bytes.ofText_eq_flatMap, List.mem_flatMap]
  constructor
  · rintro lower b ⟨c, mem, inside⟩
    exact lower c mem b inside
  · intro lower c mem b inside
    exact lower b ⟨c, mem, inside⟩

/-! ### Order -/

/-- The bytes of digits are ordered as the digits' numbers. -/
theorem digitByte_lt_iff : ∀ m < 16, ∀ n < 16, digitByte m < digitByte n ↔ m < n := by decide

theorem digitByte_inj : ∀ m < 16, ∀ n < 16, digitByte m = digitByte n ↔ m = n := by decide

/-- **Writing bytes keeps their order.** -/
theorem ofText_encode_lt_iff {a b : Bytes} :
    Bytes.ofText (encode a) < Bytes.ofText (encode b) ↔ a < b := by
  rw [ofText_encode, ofText_encode]
  induction a generalizing b with
  | nil =>
      cases b with
      | nil => simp
      | cons y b => simp [List.nil_lt_cons]
  | cons x a ih =>
      cases b with
      | nil => simp
      | cons y b =>
          simp only [List.flatMap_cons, List.cons_append, List.nil_append, List.cons_lt_cons_iff,
            ih, digitByte_lt_iff _ (high_lt x) _ (high_lt y),
            digitByte_inj _ (high_lt x) _ (high_lt y), digitByte_lt_iff _ (low_lt x) _ (low_lt y),
            digitByte_inj _ (low_lt x) _ (low_lt y)]
          have smaller : x < y ↔ x.toNat / 16 < y.toNat / 16 ∨
              x.toNat / 16 = y.toNat / 16 ∧ x.toNat % 16 < y.toNat % 16 := by
            rw [UInt8.lt_iff_toNat_lt]
            omega
          have same : x = y ↔ x.toNat / 16 = y.toNat / 16 ∧ x.toNat % 16 = y.toNat % 16 := by
            rw [← UInt8.toNat_inj]
            omega
          rw [smaller, same]
          tauto

end Hex

namespace RevisionHash

/-! ### What is read, what is refused, and the order -/

/-- The texts that are the written form of a hash are those of forty lowercase digits, counted and
told by their bytes. -/
theorem exists_toHex_iff_bytes {text : String} : (∃ h : RevisionHash, h.toHex = text) ↔
    (Bytes.ofText text).length = 40 ∧ ∀ b ∈ Bytes.ofText text, Hex.IsLowercaseByte b := by
  rw [exists_toHex_eq_iff, ← Hex.all_isLowercase_iff]
  refine and_congr_left fun lower => ?_
  rw [Hex.length_ofText_of_isLowercase lower, String.length_toList]
  rfl

/-- A text that is not the written form of a hash is refused for its size, or else for a byte that
is no lowercase digit. -/
theorem parse_eq_error_iff {text : String} {problem : Problem} : parse text = .error problem ↔
    ((Bytes.ofText text).length ≠ 40 ∧ problem = .wrongLength (Bytes.ofText text).length) ∨
      ((Bytes.ofText text).length = 40 ∧ (∃ b ∈ Bytes.ofText text, ¬ Hex.IsLowercaseByte b) ∧
        problem = .notLowercaseHex) := by
  by_cases size : (Bytes.ofText text).length = 40
  · by_cases lower : ∀ b ∈ Bytes.ofText text, Hex.IsLowercaseByte b
    · obtain ⟨h, rfl⟩ := exists_toHex_iff_bytes.2 ⟨size, lower⟩
      rw [parse_toHex]
      refine iff_of_false (by rintro ⟨⟩) ?_
      rintro (⟨wrong, -⟩ | ⟨-, ⟨b, mem, other⟩, -⟩)
      · exact wrong size
      · exact other (lower b mem)
    · have right : ¬ text.utf8ByteSize ≠ hexLength := not_not.2 size
      have refused : parse text = .error .notLowercaseHex := by
        rw [parse, if_neg right, if_neg (mt Hex.all_isLowercase_iff.1 lower)]
      obtain ⟨b, mem, other⟩ := not_forall₂.1 lower
      rw [refused, Except.error.injEq, eq_comm]
      exact ⟨fun same => .inr ⟨size, ⟨b, mem, other⟩, same⟩,
        fun cases => cases.elim (fun wrong => absurd size wrong.1) (·.2.2)⟩
  · have refused : parse text = .error (.wrongLength (Bytes.ofText text).length) := if_pos size
    rw [refused, Except.error.injEq, eq_comm]
    exact ⟨fun same => .inl ⟨size, same⟩,
      fun cases => cases.elim (·.2) fun right => absurd right.1 size⟩

theorem compare_eq_lt_iff {h k : RevisionHash} :
    compare h k = .lt ↔ Bytes.ofText h.toHex < Bytes.ofText k.toHex := by
  rw [compare_eq, Bytes.compare_eq_lt_iff, toHex, toHex, Hex.ofText_encode_lt_iff]

/-- **The written form is strict, reads back, and keeps the order.**  A text is read as a hash
exactly if it has forty bytes, all of them those of lowercase digits.  It is refused for its length
exactly if it has another number of bytes, and for its digits exactly if it has forty bytes of which
one is not such a byte; the reading of the digits itself never refuses anything.  A text is read as
a hash exactly if the hash is written so, and of two hashes the smaller one has the smaller written
form, as strings of bytes. -/
theorem text_form_strict :
    (∀ text : String, (∃ h, parse text = .ok h) ↔
      (Bytes.ofText text).length = 40 ∧ ∀ b ∈ Bytes.ofText text, Hex.IsLowercaseByte b) ∧
    (∀ (text : String) (size : Nat), parse text = .error (.wrongLength size) ↔
      (Bytes.ofText text).length ≠ 40 ∧ size = (Bytes.ofText text).length) ∧
    (∀ text : String, parse text = .error .notLowercaseHex ↔
      (Bytes.ofText text).length = 40 ∧ ∃ b ∈ Bytes.ofText text, ¬ Hex.IsLowercaseByte b) ∧
    (∀ (text : String) (problem : Hex.Problem), parse text ≠ .error (.undecodable problem)) ∧
    (∀ (text : String) (h : RevisionHash), parse text = .ok h ↔ h.toHex = text) ∧
    (∀ h : RevisionHash, parse h.toHex = .ok h) ∧
    ∀ h k : RevisionHash, compare h k = .lt ↔ Bytes.ofText h.toHex < Bytes.ofText k.toHex := by
  refine ⟨?_, ?_, ?_, ?_, fun text h => parse_eq_ok_iff, parse_toHex, fun h k => compare_eq_lt_iff⟩
  · intro text
    simp only [parse_eq_ok_iff]
    exact exists_toHex_iff_bytes
  · intro text size
    simp [parse_eq_error_iff]
  · intro text
    simp [parse_eq_error_iff]
  · intro text problem
    simp [parse_eq_error_iff]

end RevisionHash

end RevisionStore
