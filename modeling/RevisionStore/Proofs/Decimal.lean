/-
**Decimal digits and the numbers that they denote.**

A number is written without leading zeros, and of all the digits that denote it these are the only
ones that have none.  So digits and numbers determine each other as soon as leading zeros are ruled
out, or the number of digits is given.

Main definitions:

* `Decimal.Plain` — digits that have no zero to spare in front.

Main results:

* `Decimal.toDigits_ofDigitChars` — **plain digits are what their number is written as**;
* `Decimal.plain_toDigits` — and every number is written plainly;
* `Decimal.ofDigitChars_replicate_zero_append` — zeros in front change nothing;
* `Decimal.digits_cut` — digits end where something else begins;
* `Decimal.toString_int_inj` — signed numbers are written differently if they are different.
-/

import Mathlib.Data.List.Basic
import Mathlib.Data.List.Induction
import Mathlib.Tactic.SplitIfs

set_option autoImplicit false

namespace RevisionStore.Decimal

/-- The digits have no zero in front that could be left out. -/
def Plain (digits : List Char) : Prop := digits.head? = some '0' → digits = ['0']

theorem ofDigitChars_concat (digits : List Char) (c : Char) :
    Nat.ofDigitChars 10 (digits ++ [c]) 0 =
      10 * Nat.ofDigitChars 10 digits 0 + (c.toNat - '0'.toNat) := by
  rw [Nat.ofDigitChars_append, Nat.ofDigitChars_cons, Nat.ofDigitChars_nil]

/-- A digit is the one that the number it denotes is written as, which is below ten. -/
theorem exists_digitChar {c : Char} (digit : c.isDigit = true) :
    c.toNat - '0'.toNat < 10 ∧ (c.toNat - '0'.toNat).digitChar = c := by
  have range : 48 ≤ c.toNat ∧ c.toNat ≤ 57 := by
    simpa [Char.isDigit, Char.le_def, UInt32.le_iff_toNat_le] using digit
  have below : c.toNat - 48 < 10 := by omega
  refine ⟨below, ?_⟩
  have same : ∀ n < 10, n.digitChar = Char.ofNat (48 + n) := by decide
  calc (c.toNat - 48).digitChar = Char.ofNat (48 + (c.toNat - 48)) := same _ below
    _ = c := by rw [Nat.add_sub_cancel' range.1, Char.ofNat_toNat]

/-- **Plain digits are what the number that they denote is written as.** -/
theorem toDigits_ofDigitChars {digits : List Char} (nonempty : digits ≠ [])
    (decimals : ∀ c ∈ digits, c.isDigit = true) (plain : Plain digits) :
    Nat.toDigits 10 (Nat.ofDigitChars 10 digits 0) = digits := by
  induction digits using List.reverseRecOn with
  | nil => exact absurd rfl nonempty
  | append_singleton digits c ih =>
      obtain ⟨below, written⟩ := exists_digitChar (decimals c (by simp))
      rw [ofDigitChars_concat]
      by_cases before : digits = []
      · subst before
        rw [Nat.ofDigitChars_nil, Nat.mul_zero, Nat.zero_add, Nat.toDigits_of_lt_base below,
          written, List.nil_append]
      · -- The first digit is not a zero, as this one follows it.
        have first : digits.head? ≠ some '0' := by
          intro zero
          have single := plain (by rw [List.head?_append_of_ne_nil _ before, zero])
          simpa [before] using congrArg List.length single
        have same := ih before (fun d mem => decimals d (by simp [mem])) (absurd · first)
        have positive : 0 < Nat.ofDigitChars 10 digits 0 := by
          by_contra zero
          rw [Nat.eq_zero_of_not_pos zero, Nat.toDigits_zero] at same
          exact first (by rw [← same]; rfl)
        rw [← Nat.toDigits_append_toDigits (by decide) positive below, same,
          Nat.toDigits_of_lt_base below, written]

/-- **Every number is written plainly.** -/
theorem plain_toDigits (n : Nat) : Plain (Nat.toDigits 10 n) := by
  induction n using Nat.strongRecOn with
  | ind n ih =>
      intro zero
      rw [Nat.toDigits_eq_if (by decide)] at zero ⊢
      split at zero
      · next small =>
          rw [if_pos small]
          simpa using zero
      · next large =>
          rw [List.head?_append_of_ne_nil _ Nat.toDigits_ne_nil] at zero
          have single := ih (n / 10) (by omega) zero
          have none_left : n / 10 = 0 := by
            rw [← Nat.ofDigitChars_ten_toDigits (n := n / 10), single]
            rfl
          omega

/-- Zeros in front do not change the number. -/
theorem ofDigitChars_replicate_zero_append (count : Nat) (digits : List Char) :
    Nat.ofDigitChars 10 (List.replicate count '0' ++ digits) 0 = Nat.ofDigitChars 10 digits 0 := by
  induction count with
  | zero => rfl
  | succ count ih =>
      rw [List.replicate_succ, List.cons_append, Nat.ofDigitChars_cons]
      exact ih

/-- Digits end where something else begins. -/
theorem digits_cut {digits digits' rest rest' : List Char} {mark mark' : Char}
    (all : ∀ c ∈ digits, c.isDigit = true) (all' : ∀ c ∈ digits', c.isDigit = true)
    (stop : mark.isDigit = false) (stop' : mark'.isDigit = false)
    (same : digits ++ mark :: rest = digits' ++ mark' :: rest') :
    digits = digits' ∧ mark = mark' ∧ rest = rest' := by
  induction digits generalizing digits' with
  | nil =>
      cases digits' with
      | nil => simpa using same
      | cons d digits' =>
          cases same
          simp [stop] at all'
  | cons c digits ih =>
      cases digits' with
      | nil =>
          cases same
          simp [stop'] at all
      | cons d digits' =>
          simp only [List.cons_append, List.cons.injEq] at same
          obtain ⟨first, same⟩ := same
          obtain ⟨equal, marks⟩ := ih (fun x mem => all x (.tail _ mem))
            (fun x mem => all' x (.tail _ mem)) same
          exact ⟨by rw [first, equal], marks⟩

/-! ### Signed numbers -/

theorem toDigits_inj {m n : Nat} : Nat.toDigits 10 m = Nat.toDigits 10 n ↔ m = n := by
  refine ⟨fun same => ?_, fun same => by rw [same]⟩
  rw [← Nat.ofDigitChars_ten_toDigits (n := m), same, Nat.ofDigitChars_ten_toDigits]

/-- A negative number is written as its negation behind a minus sign. -/
theorem toList_toString_int (n : Int) : (toString n).toList =
    if 0 ≤ n then Nat.toDigits 10 n.toNat else '-' :: Nat.toDigits 10 (-n).toNat := by
  rw [Int.toString_eq_repr, Int.repr_eq_if]
  split_ifs <;> simp

/-- No number begins with a sign. -/
theorem toDigits_ne_minus {n : Nat} {rest : List Char} : Nat.toDigits 10 n ≠ '-' :: rest := by
  intro same
  have digit := Nat.isDigit_of_mem_toDigits (b := 10) (n := n) (c := '-') (by decide) (by decide)
    (by rw [same]; exact List.mem_cons_self)
  cases digit

/-- **Different numbers are written differently.** -/
theorem toString_int_inj {m n : Int} : toString m = toString n ↔ m = n := by
  refine ⟨fun same => ?_, fun same => by rw [same]⟩
  have chars := congrArg String.toList same
  rw [toList_toString_int, toList_toString_int] at chars
  split_ifs at chars
  · have := toDigits_inj.1 chars
    omega
  · exact absurd chars toDigits_ne_minus
  · exact absurd chars.symm toDigits_ne_minus
  · have := toDigits_inj.1 (List.cons.inj chars).2
    omega

end RevisionStore.Decimal
