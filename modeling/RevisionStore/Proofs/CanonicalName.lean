/-
**The canonical name of a change request.**

Many texts name one change request, as zeros may stand in front of its number.  One of them has no
zero to spare, and it is the one that is written for the number.

Main definitions:

* `ChangeRequest.SpareZero` — a zero in front that could be left out.

Main results:

* `ChangeRequest.number?_identifier` — the name that is written for a number is read as that number;
* `ChangeRequest.identifier_eq_iff` — **writing the number that was read gives the text again
  exactly if it has no zero to spare**;
* `ChangeRequest.names_decided` — which texts are read as which numbers.
-/

import RevisionStore.Proofs.ChangeRequestName
import RevisionStore.Proofs.Decimal

set_option autoImplicit false

namespace RevisionStore.ChangeRequest

/-- After the marker comes a zero that could be left out, as something follows it. -/
def SpareZero (text : String) : Prop :=
  ∃ (next : Char) (rest : List Char), text.toList = marker.toList ++ '0' :: next :: rest

theorem toList_identifier (number : UInt64) :
    (identifier number).toList = marker.toList ++ Nat.toDigits 10 number.toNat := by
  rw [identifier, String.toList_append, Nat.toString_eq_ofList_toDigits, String.toList_ofList]

/-- **The name that is written for a number is read as that number.** -/
theorem number?_identifier (number : UInt64) : number? (identifier number) = some number := by
  refine number?_eq_some_iff.2 ⟨_, toList_identifier number, Nat.toDigits_ne_nil, ?_, ?_⟩
  · rw [← all_isDigit_iff, List.all_eq_true]
    intro c mem
    exact Nat.isDigit_of_mem_toDigits (by decide) (by decide) mem
  · rw [← ofDigitChars_eq_decimal, Nat.ofDigitChars_ten_toDigits]

/-- A text has no zero to spare exactly if its digits are plain. -/
theorem plain_iff {text : String} {digits : List Char}
    (spelled : text.toList = marker.toList ++ digits) :
    Decimal.Plain digits ↔ ¬ SpareZero text := by
  constructor
  · rintro plain ⟨next, rest, spare⟩
    rw [List.append_cancel_left (spelled.symm.trans spare)] at plain
    cases plain rfl
  · intro spare zero
    cases digits with
    | nil => cases zero
    | cons first digits =>
        cases zero
        cases digits with
        | nil => rfl
        | cons next rest => exact absurd ⟨next, rest, spelled⟩ spare

/-- **Writing the number that was read gives the text again exactly if it has no zero to spare.** -/
theorem identifier_eq_iff {text : String} {number : UInt64} (read : number? text = some number) :
    identifier number = text ↔ ¬ SpareZero text := by
  obtain ⟨digits, spelled, nonempty, decimals, value⟩ := names_of_number? read
  rw [← plain_iff spelled, ← String.toList_inj, toList_identifier, spelled, ← value,
    ← ofDigitChars_eq_decimal, List.append_cancel_left_eq]
  constructor
  · intro written
    rw [← written]
    exact Decimal.plain_toDigits _
  · have isDigits : ∀ c ∈ digits, c.isDigit = true :=
      List.all_eq_true.1 (all_isDigit_iff.2 decimals)
    exact Decimal.toDigits_ofDigitChars nonempty isDigits

/-- **Which texts are read as which numbers.**  A text is read as a number exactly if it is the
marker and, after it, one or more decimal digits that denote the number, and a number that does not
fit into 64 bits is not read.  What is written for a number is read as that number.  Writing the
number that a text is read as gives the text again exactly if it has no zero to spare, and hence two
different such texts are never read as one number. -/
theorem names_decided :
    (∀ (text : String) (number : UInt64), number? text = some number ↔ Names text number.toNat) ∧
    (∀ (text : String) (value : Nat), Names text value → 2 ^ 64 ≤ value → number? text = none) ∧
    (∀ number : UInt64, number? (identifier number) = some number) ∧
    (∀ (text : String) (number : UInt64), number? text = some number →
      (identifier number = text ↔ ¬ SpareZero text)) ∧
    ∀ (text other : String) (number : UInt64), ¬ SpareZero text → ¬ SpareZero other →
      number? text = some number → number? other = some number → text = other := by
  refine ⟨fun text number => number?_eq_some_iff, ?_, number?_identifier,
    fun text number => identifier_eq_iff, ?_⟩
  · intro text value named large
    have unfit : ¬ value < UInt64.size := Nat.not_lt.2 large
    rw [named.number?_eq, if_neg unfit]
  · intro text other number plain plain' read read'
    rw [← (identifier_eq_iff read).2 plain, (identifier_eq_iff read').2 plain']

theorem names_decided_padded :
    number? "change-request/007" = some 7 ∧ identifier 7 ≠ "change-request/007" ∧
      number? "change-request/18446744073709551616" = none := by
  have read : number? "change-request/007" = some 7 := by decide +kernel
  have spare : SpareZero "change-request/007" := ⟨'0', ['7'], by decide +kernel⟩
  have large : Names "change-request/18446744073709551616" (2 ^ 64) :=
    ⟨"18446744073709551616".toList, by decide +kernel, by decide +kernel,
      all_isDigit_iff.1 (by decide +kernel), by decide +kernel⟩
  refine ⟨read, fun same => ?_, names_decided.2.1 _ _ large le_rfl⟩
  exact (names_decided.2.2.2.1 _ _ read).1 same spare

end RevisionStore.ChangeRequest
