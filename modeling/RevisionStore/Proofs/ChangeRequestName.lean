/-
**Which change request a text names.**

The name of a change request is a marker and a number in decimal digits.  Here that form is stated
by itself, for numbers of any size, and reading a text is shown to find exactly the numbers of that
form which 64 bits hold.

Main definitions:

* `ChangeRequest.decimal` — the number that digits denote by their places;
* `ChangeRequest.Names` — **the form of a name**.

Main results:

* `ChangeRequest.Names.number?_eq` — how a text of that form is read;
* `ChangeRequest.number?_eq_some_iff` — **a text is read as a number exactly if it names it**.
-/

import RevisionStore.Identifier
import Mathlib.Data.Nat.Digits.Defs
import Mathlib.Data.List.Induction

set_option autoImplicit false

namespace RevisionStore.ChangeRequest

/-- The number that decimal digits denote, each digit counted by the power of ten of its place. -/
def decimal (digits : List Char) : Nat :=
  Nat.ofDigits 10 (digits.reverse.map fun c => c.toNat - '0'.toNat)

/-- A text names the change request of a number: the marker comes first, and after it one or more
decimal digits that denote the number. -/
def Names (text : String) (value : Nat) : Prop :=
  ∃ digits : List Char, text.toList = marker.toList ++ digits ∧ digits ≠ [] ∧
    (∀ c ∈ digits, '0' ≤ c ∧ c ≤ '9') ∧ decimal digits = value

/-- Reading digits from the left gives the number that their places denote. -/
theorem ofDigitChars_eq_decimal (digits : List Char) :
    Nat.ofDigitChars 10 digits 0 = decimal digits := by
  induction digits using List.reverseRecOn with
  | nil => rfl
  | append_singleton digits c ih =>
      have place : decimal (digits ++ [c]) = (c.toNat - '0'.toNat) + 10 * decimal digits := by
        simp [decimal, Nat.ofDigits_cons]
      rw [Nat.ofDigitChars_append, ih, Nat.ofDigitChars_cons, Nat.ofDigitChars_nil, place,
        Nat.add_comm]

theorem afterMarker?_eq_some_iff {text : String} {rest : List Char} :
    afterMarker? text = some rest ↔ text.toList = marker.toList ++ rest := by
  unfold afterMarker?
  constructor
  · intro found
    split at found
    · next marked =>
        obtain ⟨tail, same⟩ := List.isPrefixOf_iff_prefix.1 marked
        rw [← same, ← String.length_toList, List.drop_left] at found
        cases found
        exact same.symm
    · cases found
  · intro same
    have marked : marker.toList.isPrefixOf text.toList = true := by
      rw [same]
      exact List.isPrefixOf_iff_prefix.2 (List.prefix_append _ _)
    rw [if_pos marked, same, ← String.length_toList, List.drop_left]

theorem all_isDigit_iff {digits : List Char} :
    digits.all Char.isDigit = true ↔ ∀ c ∈ digits, '0' ≤ c ∧ c ≤ '9' := by
  simp [Char.isDigit, Char.le_def]

/-- A text that names a number is read as that number if it fits into 64 bits, and as none if it
does not. -/
theorem Names.number?_eq {text : String} {value : Nat} (named : Names text value) :
    number? text = if value < UInt64.size then some (UInt64.ofNat value) else none := by
  obtain ⟨digits, spelled, nonempty, decimals, rfl⟩ := named
  have rest : afterMarker? text = some digits := afterMarker?_eq_some_iff.2 spelled
  have accepted : (digits.isEmpty || !digits.all Char.isDigit) = false := by
    simp [all_isDigit_iff.2 decimals, nonempty]
  simp only [number?, rest, Option.bind_eq_bind, Option.bind_some, accepted,
    ofDigitChars_eq_decimal, Bool.false_eq_true, if_false]

/-- A text that is read as a number names it. -/
theorem names_of_number? {text : String} {number : UInt64} (read : number? text = some number) :
    Names text number.toNat := by
  obtain ⟨digits, rest, read⟩ := Option.bind_eq_some_iff.1 read
  split at read
  · cases read
  · next accepted =>
      simp only [Bool.or_eq_true, Bool.not_eq_true', not_or, Bool.not_eq_false, List.isEmpty_iff]
        at accepted
      simp only [ofDigitChars_eq_decimal] at read
      split at read
      · next small =>
          cases read
          refine ⟨digits, afterMarker?_eq_some_iff.1 rest, accepted.1,
            all_isDigit_iff.1 accepted.2, ?_⟩
          rw [UInt64.toNat_ofNat_of_lt' small]
      · cases read

/-- **Which number a text is read as**: the one that it names, if that fits into 64 bits. -/
theorem number?_eq_some_iff {text : String} {number : UInt64} :
    number? text = some number ↔ Names text number.toNat := by
  refine ⟨names_of_number?, ?_⟩
  intro named
  rw [named.number?_eq, if_pos number.toNat_lt, UInt64.ofNat_toNat]

end RevisionStore.ChangeRequest
