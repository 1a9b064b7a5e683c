/-
**Byte strings: the raw material of file contents and of revision hashes.**

A byte string is a list, so that the pieces that a hash is taken over can be appended, counted and
cancelled with the ordinary list lemmas.

Main definitions:

* `Bytes.ofText`, `Bytes.toText?` — a text as its UTF-8 bytes, and back where the bytes are valid;
* `Bytes.ofInt64` — a signed 64-bit number as eight bytes, low byte first;
* `Bytes.value` — the number that a byte string denotes when read high byte first;
* `Bytes.signedMagnitude` — the shortest two's-complement spelling of a non-negative number.

Main results:

* `Bytes.ofText_inj` — different texts have different bytes;
* `Bytes.ofText_append` — the bytes of joined texts are the joined bytes.
-/

set_option autoImplicit false

namespace RevisionStore

/-- A string of bytes. -/
abbrev Bytes := List UInt8

namespace Bytes

/-! ### Text -/

/-- The UTF-8 bytes of a text. -/
def ofText (text : String) : Bytes := text.toByteArray.data.toList

/-- The text that the bytes spell in UTF-8, if they spell one. -/
def toText? (bytes : Bytes) : Option String := String.fromUTF8? ⟨bytes.toArray⟩

theorem ofText_inj {s t : String} : ofText s = ofText t ↔ s = t := by
  constructor
  · intro h
    exact String.toByteArray_inj.1 (ByteArray.ext (Array.toList_inj.1 h))
  · rintro rfl
    rfl

@[simp] theorem ofText_empty : ofText "" = [] := rfl

@[simp] theorem ofText_append (s t : String) : ofText (s ++ t) = ofText s ++ ofText t := by
  simp [ofText]

@[simp] theorem length_ofText (s : String) : (ofText s).length = s.utf8ByteSize := rfl

/-! ### Numbers -/

/-- The eight bytes of a signed number in two's complement, low byte first. -/
def ofInt64 (x : Int64) : Bytes :=
  (List.range 8).map fun i => (x.toUInt64 >>> UInt64.ofNat (8 * i)).toUInt8

@[simp] theorem length_ofInt64 (x : Int64) : (ofInt64 x).length = 8 := by simp [ofInt64]

/-- The number that the bytes denote when the first is the most significant. -/
def value (bytes : Bytes) : Nat := bytes.foldl (fun n b => 256 * n + b.toNat) 0

@[simp] theorem value_nil : value [] = 0 := rfl

/-- The shortest big-endian two's-complement spelling of the number that `magnitude` denotes:
leading zeros go, and one comes back where the top bit would otherwise read as a sign. -/
def signedMagnitude (magnitude : Bytes) : Bytes :=
  match magnitude.dropWhile (· == 0) with
  | [] => [0]
  | b :: bs => if b < 0x80 then b :: bs else 0 :: b :: bs

theorem signedMagnitude_ne_nil (magnitude : Bytes) : signedMagnitude magnitude ≠ [] := by
  unfold signedMagnitude
  split
  · simp
  · split <;> simp

end Bytes

end RevisionStore
