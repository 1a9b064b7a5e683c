/-
**Revision hashes.**

A revision is identified by the SHA-1 digest of its contents.  Its written form is forty lowercase
hexadecimal digits and no other text is accepted for it.

Main definitions:

* `RevisionHash` — twenty bytes, ordered as byte strings are;
* `RevisionHash.digest` — the hash of a byte string;
* `RevisionHash.toHex`, `RevisionHash.short` — the written form, and its first digits;
* `RevisionHash.parse` — reading the written form, or the `RevisionHash.Problem` with it.
-/

import RevisionStore.Digest
import RevisionStore.Hex

set_option autoImplicit false

namespace RevisionStore

/-- The twenty bytes that identify a revision. -/
structure RevisionHash where
  bytes : Bytes
  length_bytes : bytes.length = 20
deriving DecidableEq

namespace RevisionHash

theorem ext_bytes {h k : RevisionHash} (same : h.bytes = k.bytes) : h = k := by
  cases h
  cases k
  simp_all

/-- Hashes are ordered by their bytes, the first difference deciding. -/
instance : Ord RevisionHash := ⟨compareOn bytes⟩

theorem compare_eq (h k : RevisionHash) : compare h k = compare h.bytes k.bytes := rfl

instance : Std.TransOrd RevisionHash := inferInstanceAs (Std.TransCmp (compareOn bytes))

instance : Std.LawfulEqOrd RevisionHash :=
  ⟨fun h => ext_bytes (Std.LawfulEqOrd.eq_of_compare h)⟩

/-- The hash of a byte string. -/
def digest (input : Bytes) : RevisionHash := ⟨Digest.sha1 input, Digest.length_sha1 input⟩

/-! ### The written form -/

/-- How many digits the written form has. -/
def hexLength : Nat := 40

/-- The written form. -/
def toHex (h : RevisionHash) : String := Hex.encode h.bytes

@[simp] theorem length_toHex (h : RevisionHash) : h.toHex.length = hexLength := by
  simp [toHex, h.length_bytes, hexLength]

/-- The first `n` digits of the written form, or all of them if there are fewer. -/
def short (h : RevisionHash) (n : Nat) : String := String.ofList (h.toHex.toList.take n)

/-- The written form, marked as that of a revision hash. -/
def labelled (h : RevisionHash) : String := "RevisionHash(" ++ h.toHex ++ ")"

/-- Why a text is not the written form of a hash. -/
inductive Problem where
  | wrongLength (bytes : Nat)
  | notLowercaseHex
  | undecodable (problem : Hex.Problem)
deriving DecidableEq, Repr

/-- The problem in words. -/
def Problem.message : Problem → String
  | .wrongLength bytes =>
    "invalid revision hash: expected " ++ toString hexLength ++ " hex characters, got "
      ++ toString bytes
  | .notLowercaseHex => "invalid revision hash: revision hash must be lowercase hexadecimal"
  | .undecodable problem => "invalid revision hash: " ++ problem.message

/-- Reads the written form.  A wrong number of bytes is reported before a wrong digit. -/
def parse (text : String) : Except Problem RevisionHash :=
  if text.utf8ByteSize ≠ hexLength then .error (.wrongLength text.utf8ByteSize)
  else if text.toList.all Hex.isLowercase then
    match Hex.decodeExactly 20 text with
    | .ok bytes =>
      if h : bytes.length = 20 then .ok ⟨bytes, h⟩ else .error (.undecodable .wrongCount)
    | .error problem => .error (.undecodable problem)
  else .error .notLowercaseHex

end RevisionHash

end RevisionStore
