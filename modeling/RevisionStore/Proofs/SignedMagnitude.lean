/-
**The shortest two's-complement spelling of a number.**

A parent's hash enters the digest of its child as a number: leading zeros are left out, and one
comes back where the number would otherwise read as a negative one.  Here reading in two's
complement is defined by itself, and the spelling is shown to be the shortest one that reads as the
number, for byte strings of any length.

Main definitions:

* `Bytes.signed?` — the number that a byte string denotes in two's complement;
* `Bytes.IsShortest` — of all byte strings that denote a number there, **this one is the shortest**.

Main results:

* `Bytes.value_inj` — byte strings of one length that denote one number are the same;
* `Bytes.isShortest_signedMagnitude` — the spelling of a number is the shortest one;
* `Bytes.signedMagnitude_canonical` — hence equal spellings come from equal numbers only, different
  hashes are spelled differently, and a spelling is its own spelling.
-/

import RevisionStore.RevisionHash
import Mathlib.Data.List.Basic
import Mathlib.Tactic.Linarith
import Mathlib.Tactic.Ring

set_option autoImplicit false

namespace RevisionStore.Bytes

/-! ### The number that bytes denote -/

theorem foldl_eq_value (n : Nat) (bytes : Bytes) :
    bytes.foldl (fun n b => 256 * n + b.toNat) n = 256 ^ bytes.length * n + value bytes := by
  induction bytes generalizing n with
  | nil => simp
  | cons b rest ih =>
      rw [value, List.foldl_cons, List.foldl_cons, ih, ih (256 * 0 + b.toNat), List.length_cons,
        Nat.pow_succ]
      ring

/-- The first byte counts by the power of 256 of its place. -/
theorem value_cons (b : UInt8) (rest : Bytes) :
    value (b :: rest) = 256 ^ rest.length * b.toNat + value rest := by
  rw [value, List.foldl_cons, foldl_eq_value, Nat.mul_zero, Nat.zero_add]

/-- If the first byte is below `n`, the bytes denote less than `n` times the power of its place. -/
theorem value_cons_lt {b : UInt8} {rest : Bytes} {n : Nat} (first : b.toNat < n)
    (below : value rest < 256 ^ rest.length) : value (b :: rest) < 256 ^ rest.length * n := by
  calc value (b :: rest) = 256 ^ rest.length * b.toNat + value rest := value_cons b rest
    _ < 256 ^ rest.length * (b.toNat + 1) := by
        rw [Nat.mul_succ]
        omega
    _ ≤ 256 ^ rest.length * n := Nat.mul_le_mul_left _ first

theorem value_lt (bytes : Bytes) : value bytes < 256 ^ bytes.length := by
  induction bytes with
  | nil => simp
  | cons b rest ih =>
      rw [List.length_cons, Nat.pow_succ]
      exact value_cons_lt b.toNat_lt ih

/-- **Byte strings of one length denote different numbers unless they are the same.** -/
theorem value_inj {a b : Bytes} (long : a.length = b.length) : value a = value b ↔ a = b := by
  refine ⟨fun same => ?_, congrArg value⟩
  induction a generalizing b with
  | nil => exact (List.length_eq_zero_iff.1 long.symm).symm
  | cons x a ih =>
      cases b with
      | nil => cases long
      | cons y b =>
          have long : a.length = b.length := Nat.succ.inj long
          have small : value b < 256 ^ a.length := long ▸ value_lt b
          rw [value_cons, value_cons, ← long] at same
          have first : x.toNat = y.toNat := by
            have := congrArg (· / 256 ^ a.length) same
            simpa [Nat.mul_add_div, Nat.div_eq_of_lt, value_lt, small] using this
          rw [first] at same
          rw [UInt8.toNat_inj.1 first, ih long (Nat.add_left_cancel same)]

theorem value_zero_cons (rest : Bytes) : value (0 :: rest) = value rest := by
  rw [value_cons, UInt8.toNat_zero, Nat.mul_zero, Nat.zero_add]

/-- Leading zeros do not count. -/
theorem value_dropWhile (bytes : Bytes) : value (bytes.dropWhile (· == 0)) = value bytes := by
  induction bytes with
  | nil => rfl
  | cons b rest ih =>
      rw [List.dropWhile_cons]
      split
      · next zero => rw [ih, beq_iff_eq.1 zero, value_zero_cons]
      · rfl

/-! ### Two's complement -/

/-- The number that the bytes denote in two's complement, the first being the most significant: the
first byte counts as a signed one and the others as they are.  No bytes denote no number. -/
def signed? : Bytes → Option Int
  | [] => none
  | b :: rest => some (256 ^ rest.length * b.toInt8.toInt + value rest)

/-- Of all the byte strings that denote the number in two's complement, this is the shortest. -/
structure IsShortest (bytes : Bytes) (n : Int) : Prop where
  denotes : signed? bytes = some n
  shorter : ∀ other, signed? other = some n → other ≠ bytes → bytes.length < other.length

theorem IsShortest.unique {a b : Bytes} {n : Int} (ha : IsShortest a n) (hb : IsShortest b n) :
    a = b := by
  by_contra differ
  have := ha.shorter b hb.denotes (Ne.symm differ)
  have := hb.shorter a ha.denotes differ
  omega

/-- A signed byte is negative exactly if its top bit is set. -/
theorem toInt_toInt8 (b : UInt8) :
    b.toInt8.toInt = if b < 0x80 then (b.toNat : Int) else b.toNat - 256 := by
  have top : b < 0x80 ↔ 2 * b.toNat < 256 := by
    rw [UInt8.lt_iff_toNat_lt, show (0x80 : UInt8).toNat = 128 from rfl]
    omega
  simp only [top]
  exact BitVec.toInt_eq_toNat_cond b.toBitVec

/-- Bytes denote a number that is not negative exactly if the first one has a clear top bit and the
number is the one that they denote without a sign. -/
theorem signed?_eq_natCast_iff {bytes : Bytes} {n : Nat} :
    signed? bytes = some (n : Int) ↔
      value bytes = n ∧ ∃ b rest, bytes = b :: rest ∧ b < 0x80 := by
  cases bytes with
  | nil => simp [signed?]
  | cons b rest =>
      simp only [signed?, Option.some.injEq, toInt_toInt8, value_cons, List.cons.injEq]
      by_cases clear : b < 0x80
      · rw [if_pos clear]
        constructor
        · intro same
          exact ⟨by exact_mod_cast same, b, rest, ⟨rfl, rfl⟩, clear⟩
        · rintro ⟨same, -⟩
          exact_mod_cast same
      · rw [if_neg clear]
        constructor
        · intro same
          have below : (value rest : Int) < 256 ^ rest.length := by exact_mod_cast value_lt rest
          have small : (b.toNat : Int) - 256 ≤ -1 := by
            have := b.toNat_lt
            omega
          nlinarith
        · rintro ⟨-, _, _, ⟨rfl, rfl⟩, clear'⟩
          exact absurd clear' clear

example : signed? [0, 0xff] = some 255 ∧ signed? [0xff] = some (-1) := by decide

/-! ### The spelling -/

/-- The spelling of zero is one zero; that of another number begins with its first byte that is not
zero, or with a zero before that. -/
theorem signedMagnitude_cases (m : Bytes) :
    (value m = 0 ∧ signedMagnitude m = [0]) ∨
      ∃ b rest, b ≠ 0 ∧ value m = value (b :: rest) ∧
        signedMagnitude m = if b < 0x80 then b :: rest else 0 :: b :: rest := by
  rw [← value_dropWhile m, signedMagnitude]
  cases stripped : m.dropWhile (· == 0) with
  | nil => exact .inl ⟨rfl, rfl⟩
  | cons b rest =>
      have head := List.head_dropWhile_not (· == 0) (l := m) (by simp [stripped])
      simp only [stripped, List.head_cons, beq_eq_false_iff_ne] at head
      exact .inr ⟨b, rest, head, rfl, rfl⟩

theorem value_signedMagnitude (m : Bytes) : value (signedMagnitude m) = value m := by
  rcases signedMagnitude_cases m with ⟨zero, spelled⟩ | ⟨b, rest, -, same, spelled⟩
  · rw [spelled, zero]
    rfl
  · rw [spelled, same]
    split
    · rfl
    · exact value_zero_cons _

/-- The first byte of the spelling has a clear top bit. -/
theorem exists_head_signedMagnitude (m : Bytes) :
    ∃ b rest, signedMagnitude m = b :: rest ∧ b < 0x80 := by
  rcases signedMagnitude_cases m with ⟨-, spelled⟩ | ⟨b, rest, -, -, spelled⟩
  · exact ⟨0, [], spelled, by decide⟩
  · by_cases clear : b < 0x80
    · exact ⟨b, rest, by rw [spelled, if_pos clear], clear⟩
    · exact ⟨0, b :: rest, by rw [spelled, if_neg clear], by decide⟩

/-- The number that a spelling of two bytes or more denotes does not fit, with a sign, into one byte
less. -/
theorem le_value_of_length {m : Bytes} {k : Nat} (long : (signedMagnitude m).length = k + 2) :
    256 ^ k * 128 ≤ value m := by
  rcases signedMagnitude_cases m with ⟨-, spelled⟩ | ⟨b, rest, nonzero, same, spelled⟩
  · rw [spelled] at long
    cases long
  · rw [same, value_cons]
    refine Nat.le_add_right_of_le ?_
    by_cases clear : b < 0x80
    · -- The first byte is not zero, and there is one more place than `k`.
      rw [spelled, if_pos clear, List.length_cons] at long
      have positive : 0 < b.toNat := by
        rw [Nat.pos_iff_ne_zero, ← UInt8.toNat_zero]
        exact mt UInt8.toNat_inj.1 nonzero
      have places : rest.length = k + 1 := by omega
      rw [places, Nat.pow_succ, Nat.mul_assoc]
      exact Nat.mul_le_mul_left _ (by omega)
    · rw [spelled, if_neg clear, List.length_cons, List.length_cons] at long
      have large : 128 ≤ b.toNat := Nat.le_of_not_lt fun small => clear (UInt8.lt_iff_toNat_lt.2 small)
      have places : rest.length = k := by omega
      rw [places]
      exact Nat.mul_le_mul_left _ large

/-- **The spelling of a number is its shortest one in two's complement.** -/
theorem isShortest_signedMagnitude (m : Bytes) : IsShortest (signedMagnitude m) (value m) where
  denotes := signed?_eq_natCast_iff.2 ⟨value_signedMagnitude m, exists_head_signedMagnitude m⟩
  shorter other denotes differs := by
    obtain ⟨same, c, rest, rfl, clear⟩ := signed?_eq_natCast_iff.1 denotes
    by_contra longer
    have unequal : (c :: rest).length ≠ (signedMagnitude m).length := by
      intro long
      exact differs ((value_inj long).1 (same.trans (value_signedMagnitude m).symm))
    rw [List.length_cons] at longer unequal
    obtain ⟨k, long⟩ : ∃ k, (signedMagnitude m).length = k + 2 :=
      ⟨(signedMagnitude m).length - 2, by omega⟩
    have large := le_value_of_length long
    have small := value_cons_lt (UInt8.lt_iff_toNat_lt.1 clear) (value_lt rest)
    rw [show (0x80 : UInt8).toNat = 128 from rfl] at small
    have powers : 256 ^ rest.length ≤ 256 ^ k := Nat.pow_le_pow_right (by decide) (by omega)
    omega

/-- **The spelling is canonical.**  Whatever the bytes, the spelling of the number that they denote
is not empty, its top bit is clear, and it is the shortest byte string that denotes the number in
two's complement.  Hence two spellings are the same exactly if the numbers are, different hashes are
spelled differently, and the spelling of a spelling is that spelling. -/
theorem signedMagnitude_canonical :
    (∀ m : Bytes, signedMagnitude m ≠ [] ∧ (∀ b ∈ (signedMagnitude m).head?, b < 0x80) ∧
      IsShortest (signedMagnitude m) (value m)) ∧
    (∀ m m' : Bytes, signedMagnitude m = signedMagnitude m' ↔ value m = value m') ∧
    (∀ h k : RevisionHash, signedMagnitude h.bytes = signedMagnitude k.bytes ↔ h = k) ∧
    ∀ m : Bytes, signedMagnitude (signedMagnitude m) = signedMagnitude m := by
  have same_iff : ∀ m m' : Bytes, signedMagnitude m = signedMagnitude m' ↔ value m = value m' := by
    intro m m'
    constructor
    · intro same
      rw [← value_signedMagnitude m, same, value_signedMagnitude]
    · intro same
      have shortest := isShortest_signedMagnitude m
      rw [same] at shortest
      exact shortest.unique (isShortest_signedMagnitude m')
  refine ⟨fun m => ⟨signedMagnitude_ne_nil m, ?_, isShortest_signedMagnitude m⟩, same_iff, ?_, ?_⟩
  · obtain ⟨b, rest, spelled, clear⟩ := exists_head_signedMagnitude m
    rw [spelled]
    rintro c ⟨⟩
    exact clear
  · intro h k
    rw [same_iff, value_inj (h.length_bytes.trans k.length_bytes.symm)]
    exact ⟨RevisionHash.ext_bytes, congrArg RevisionHash.bytes⟩
  · intro m
    rw [same_iff, value_signedMagnitude]

end RevisionStore.Bytes
