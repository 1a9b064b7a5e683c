/-
**Hexadecimal text.**

Bytes are written with two lowercase digits each.  Digits of either case are read, and a text that
is refused is refused for a stated cause.

Main definitions:

* `Hex.digitValue?`, `Hex.value?` — the number that a byte or a character denotes as a digit;
* `Hex.encode` — bytes as lowercase digits;
* `Hex.decode`, `Hex.decodeExactly` — digits of either case as bytes, as many as they are or a given
  number of them, or the `Hex.Problem` with them;
* `Hex.quoted` — a byte between quotation marks, as messages about it show it.
-/

import RevisionStore.Bytes

set_option autoImplicit false

namespace RevisionStore.Hex

/-! ### Digits -/

/-- The lowercase digit of a number below sixteen. -/
def digit (n : Nat) : Char := Char.ofNat (if n < 10 then 48 + n else 87 + n)

/-- The number that a byte denotes as a digit of either case. -/
def digitValue? (b : UInt8) : Option UInt8 :=
  if 48 ≤ b ∧ b ≤ 57 then some (b - 48)
  else if 97 ≤ b ∧ b ≤ 102 then some (b - 87)
  else if 65 ≤ b ∧ b ≤ 70 then some (b - 55)
  else none

/-- The number that a character denotes as a digit of either case. -/
def value? (c : Char) : Option Nat :=
  if '0' ≤ c ∧ c ≤ '9' then some (c.toNat - 48)
  else if 'a' ≤ c ∧ c ≤ 'f' then some (c.toNat - 87)
  else if 'A' ≤ c ∧ c ≤ 'F' then some (c.toNat - 55)
  else none

/-- Is this a lowercase digit? -/
def isLowercase (c : Char) : Bool := ('0' ≤ c ∧ c ≤ '9') ∨ ('a' ≤ c ∧ c ≤ 'f')

/-! ### Writing -/

/-- The two digits of a byte. -/
def byteDigits (b : UInt8) : List Char := [digit (b.toNat / 16), digit (b.toNat % 16)]

/-- The bytes, two lowercase digits each. -/
def encode (bytes : Bytes) : String := String.ofList (bytes.flatMap byteDigits)

@[simp] theorem toList_encode (bytes : Bytes) :
    (encode bytes).toList = bytes.flatMap byteDigits := by simp [encode]

@[simp] theorem length_encode (bytes : Bytes) : (encode bytes).length = 2 * bytes.length := by
  rw [← String.length_toList, toList_encode]
  induction bytes with
  | nil => rfl
  | cons b bytes ih => simp [byteDigits, ih]; omega

/-! ### Reading -/

/-- Why a text is not hexadecimal. -/
inductive Problem where
  | oddLength
  | wrongCount
  | notADigit (byte : UInt8) (position : Nat)
deriving DecidableEq, Repr

/-- Reads the byte at `position` as a digit. -/
def readDigit (byte : UInt8) (position : Nat) : Except Problem UInt8 :=
  match digitValue? byte with
  | some n => .ok n
  | none => .error (.notADigit byte position)

/-- Reads the digits from `position` on, two for each byte. -/
def decodeFrom (position : Nat) : Bytes → Except Problem Bytes
  | high :: low :: rest => do
    let h ← readDigit high position
    let l ← readDigit low (position + 1)
    let bytes ← decodeFrom (position + 2) rest
    return (16 * h + l) :: bytes
  | _ => .ok []

/-- The bytes that a text spells in hexadecimal.  An odd number of bytes in the text is noticed
before any of them is read; of the bytes that are no digits the first is reported. -/
def decode (text : String) : Except Problem Bytes :=
  let digits := Bytes.ofText text
  if digits.length % 2 = 1 then .error .oddLength else decodeFrom 0 digits

/-- The `count` bytes that a text spells in hexadecimal.  Another number of bytes is noticed before
any digit is read. -/
def decodeExactly (count : Nat) (text : String) : Except Problem Bytes :=
  if text.utf8ByteSize % 2 = 0 ∧ text.utf8ByteSize ≠ 2 * count then .error .wrongCount
  else decode text

/-! ### Messages -/

/-- The lowercase digits of a number, without leading zeros. -/
def ofNat (n : Nat) : String := String.ofList (Nat.toDigits 16 n)

/-- A byte between quotation marks, as the character of that number.  What has no visible form of
its own is written with an escape. -/
def quoted (b : UInt8) : String :=
  let shown :=
    if b = 0 then "\\0"
    else if b = 9 then "\\t"
    else if b = 10 then "\\n"
    else if b = 13 then "\\r"
    else if b = 39 then "\\'"
    else if b = 92 then "\\\\"
    else if b < 32 ∨ (127 ≤ b ∧ b ≤ 160) ∨ b = 173 then "\\u\x7b" ++ ofNat b.toNat ++ "\x7d"
    else (Char.ofNat b.toNat).toString
  "'" ++ shown ++ "'"

/-- The problem in words. -/
def Problem.message : Problem → String
  | .oddLength => "Odd number of digits"
  | .wrongCount => "Invalid string length"
  | .notADigit byte position =>
    "Invalid character " ++ quoted byte ++ " at position " ++ toString position

end RevisionStore.Hex
