/-
**The order of texts is the order of their bytes.**

Texts are ordered by their characters, the first difference deciding.  Their UTF-8 bytes, ordered in
the same way, give the same order: of two different characters the smaller one begins with fewer
bytes or has a smaller byte where the two first differ, so that no character is the beginning of
another one.

Main results:

* `Bytes.utf8EncodeChar_append_lt` — a smaller character makes smaller bytes, **whatever follows**;
* `Bytes.ofText_lt_iff` — the two orders of texts are the same.
-/

import RevisionStore.Proofs.HashText
import Mathlib.Data.String.Basic

set_option autoImplicit false

namespace RevisionStore.Bytes

/-- **A smaller character makes smaller bytes**, whatever follows either of them. -/
theorem utf8EncodeChar_append_lt {c d : Char} (smaller : c < d) (xs ys : Bytes) :
    String.utf8EncodeChar c ++ xs < String.utf8EncodeChar d ++ ys := by
  have below : c.val.toNat < d.val.toNat := smaller
  have last : d.val.toNat < 0x110000 := by
    rcases d.valid with low | ⟨-, high⟩
    · exact Nat.lt_trans low (by decide)
    · exact high
  unfold String.utf8EncodeChar
  generalize c.val.toNat = v at below ⊢
  generalize d.val.toNat = w at below last ⊢
  -- Each number has one to four bytes, and the smaller one has no more than the larger one.  The
  -- first byte tells their number, and the bytes after it are the digits to the base 64.
  dsimp only
  split_ifs <;> try omega
  all_goals
    simp (disch := omega) only [List.cons_append, List.nil_append, List.cons_lt_cons_iff,
      UInt8.lt_iff_toNat_lt, ← UInt8.toNat_inj, UInt8.toNat_ofNat', Nat.mod_eq_of_lt]
    omega

/-- Hence smaller lists of characters make smaller bytes. -/
theorem flatMap_utf8EncodeChar_lt {cs ds : List Char} (smaller : cs < ds) :
    cs.flatMap String.utf8EncodeChar < ds.flatMap String.utf8EncodeChar := by
  induction (smaller : List.Lex (· < ·) cs ds) with
  | @nil d ds =>
      obtain ⟨b, rest, encoded⟩ := List.exists_cons_of_ne_nil (String.utf8EncodeChar_ne_nil (c := d))
      rw [List.flatMap_nil, List.flatMap_cons, encoded]
      exact List.nil_lt_cons b _
  | cons _ ih =>
      rw [List.flatMap_cons, List.flatMap_cons]
      exact List.append_left_lt ih
  | rel first =>
      rw [List.flatMap_cons, List.flatMap_cons]
      exact utf8EncodeChar_append_lt first _ _

/-- **Texts are in the order of their bytes.** -/
theorem ofText_lt_iff {s t : String} : ofText s < ofText t ↔ s < t := by
  have forward : ∀ {s t : String}, s < t → ofText s < ofText t := by
    intro s t smaller
    rw [ofText_eq_flatMap, ofText_eq_flatMap]
    exact flatMap_utf8EncodeChar_lt (String.lt_iff_toList_lt.1 smaller)
  refine ⟨fun smaller => ?_, forward⟩
  rcases lt_trichotomy s t with before | rfl | after
  · exact before
  · exact absurd smaller (List.lt_irrefl _)
  · exact absurd (forward after) (List.lt_asymm smaller)

end RevisionStore.Bytes
