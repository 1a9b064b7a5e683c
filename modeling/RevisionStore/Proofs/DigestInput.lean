/-
**What the digest input of a revision tells.**

The bytes that a revision is identified by are its parent's hash, its message, its time and its
files, one after the other without anything between them.  The time has eight bytes and the parent's
hash at least one.  So a root, which has the time alone, is told from every child by the length, and
where the parent and the files are known the time and the message can be read off from the end.

Main definitions:

* `Revision.parentBytes`, `Revision.messageBytes` — the two parts that may be missing, a missing one
  having no bytes.

Main results:

* `Timestamp.bytes_inj` — different times have different bytes;
* `Revision.digestInput_root_ne` — **no child spells what a root spells**;
* `Revision.digestInput_eq_iff` — **with the same parent and the same files, the time and the
  message are told apart**, a missing message being an empty one.
-/

import RevisionStore.Proofs.SignedMagnitude
import RevisionStore.Revision

set_option autoImplicit false

namespace RevisionStore

/-! ### The bytes of a time -/

/-- The bytes of a signed number, read from the last one on, denote it modulo two to the 64. -/
theorem Bytes.value_reverse_ofInt64 (x : Int64) :
    value (ofInt64 x).reverse = x.toUInt64.toNat := by
  have small := x.toUInt64.toNat_lt
  have spelled : ofInt64 x =
      [x.toUInt64.toUInt8, (x.toUInt64 >>> 8).toUInt8, (x.toUInt64 >>> 16).toUInt8,
        (x.toUInt64 >>> 24).toUInt8, (x.toUInt64 >>> 32).toUInt8, (x.toUInt64 >>> 40).toUInt8,
        (x.toUInt64 >>> 48).toUInt8, (x.toUInt64 >>> 56).toUInt8] := by
    simp [ofInt64, List.range, List.range.loop]
  rw [spelled]
  simp only [value, List.reverse_cons, List.reverse_nil, List.nil_append, List.cons_append,
    List.foldl_cons, List.foldl_nil, UInt64.toNat_toUInt8, UInt64.toNat_shiftRight,
    Nat.shiftRight_eq_div_pow, UInt64.reduceToNat, Nat.reduceMod, Nat.reducePow]
  omega

theorem Bytes.ofInt64_inj {x y : Int64} : ofInt64 x = ofInt64 y ↔ x = y := by
  refine ⟨fun same => ?_, congrArg ofInt64⟩
  have value := value_reverse_ofInt64 x
  rw [same, value_reverse_ofInt64] at value
  exact congrArg Int64.ofUInt64 (UInt64.toNat_inj.1 value).symm

/-- **Different times have different bytes.** -/
theorem Timestamp.bytes_inj {t u : Timestamp} : t.bytes = u.bytes ↔ t = u := by
  rw [Timestamp.bytes, Timestamp.bytes, Bytes.ofInt64_inj, Timestamp.mk.injEq]

namespace Revision

/-! ### The parts of the input -/

/-- The parent's hash, spelled as a number. -/
def parentBytes (r : Revision) : Bytes :=
  r.parent.elim [] fun parent => Bytes.signedMagnitude parent.bytes

/-- The bytes of the message. -/
def messageBytes (r : Revision) : Bytes := r.message.elim [] Bytes.ofText

theorem digestInput_eq (r : Revision) :
    r.digestInput = r.parentBytes ++ r.messageBytes ++ r.timestamp.bytes ++ r.files.bytes := by
  obtain ⟨parent, message, timestamp, files⟩ := r
  cases parent <;> cases message <;> rfl

/-- A root spells its time and nothing else. -/
theorem digestInput_root (t : Timestamp) : (root t).digestInput = t.bytes := by
  have bare : Snapshot.bytes ∅ = [] := by simp [Snapshot.bytes]
  rw [digestInput_eq, parentBytes, messageBytes, root, bare]
  simp

theorem digestInput_root_inj {t u : Timestamp} :
    (root t).digestInput = (root u).digestInput ↔ t = u := by
  rw [digestInput_root, digestInput_root, Timestamp.bytes_inj]

/-- **No child spells what a root spells**: the parent's hash takes a byte of its own. -/
theorem digestInput_root_ne (t : Timestamp) {child : Revision} (parent : child.parent ≠ none) :
    (root t).digestInput ≠ child.digestInput := by
  obtain ⟨hash, parent⟩ := Option.ne_none_iff_exists'.1 parent
  have spelled : 0 < child.parentBytes.length := by
    rw [parentBytes, parent]
    exact List.length_pos_iff.2 (Bytes.signedMagnitude_ne_nil hash.bytes)
  intro same
  have lengths := congrArg List.length same
  rw [digestInput_root, digestInput_eq] at lengths
  simp only [List.length_append, Timestamp.length_bytes] at lengths
  omega

/-- **With the same parent and the same files**, revisions spell the same bytes exactly if they have
the same time and the same bytes for a message. -/
theorem digestInput_eq_iff {a b : Revision} (parent : a.parent = b.parent)
    (files : a.files = b.files) :
    a.digestInput = b.digestInput ↔
      a.timestamp = b.timestamp ∧ a.messageBytes = b.messageBytes := by
  have parents : a.parentBytes = b.parentBytes := by rw [parentBytes, parentBytes, parent]
  rw [digestInput_eq, digestInput_eq, parents, files, List.append_cancel_right_eq,
    List.append_assoc, List.append_assoc, List.append_cancel_left_eq]
  constructor
  · intro same
    obtain ⟨messages, times⟩ := List.append_inj' same (by simp)
    exact ⟨Timestamp.bytes_inj.1 times, messages⟩
  · rintro ⟨times, messages⟩
    rw [times, messages]

end Revision

end RevisionStore
