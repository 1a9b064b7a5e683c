/-
**Reading JSON text.**

A reader takes what it reads off the front of the remaining characters and gives back the rest.  No
white space but that of JSON is passed over, and nothing else may follow the text of a tree.

Main definitions:

* `Json.Reader`, `Json.skipSpace` — what reads a part of a text, and what separates the parts;
* `Json.textRest`, `Json.number` — a text up to its closing quotation mark, and a number;
* `Json.listed`, `Json.field` — items between brackets, and a name with its value;
* `Json.read` — **the tree that a JSON text spells**.
-/

import RevisionStore.Data
import RevisionStore.Hex

set_option autoImplicit false

namespace RevisionStore.Json

/-! ### Readers -/

/-- Takes a part off the front of the remaining characters. -/
abbrev Reader (α : Type) := List Char → Option (α × List Char)

/-- A character of white space. -/
def isSpace (c : Char) : Bool := c = ' ' || c = '\n' || c = '\r' || c = '\t'

/-- What follows the white space. -/
def skipSpace (cs : List Char) : List Char := cs.dropWhile isSpace

/-! ### Texts -/

/-- The character that a backslash and a letter stand for. -/
def escaped? : Char → Option Char
  | '"' => some '"'
  | '\\' => some '\\'
  | '/' => some '/'
  | 'b' => some '\x08'
  | 'f' => some '\x0c'
  | 'n' => some '\n'
  | 'r' => some '\r'
  | 't' => some '\t'
  | _ => none

/-- The number that hexadecimal digits of either case denote. -/
def unit? (digits : List Char) : Option Nat :=
  (digits.mapM Hex.value?).map (·.foldl (fun n value => 16 * n + value) 0)

/-- The character that two units beyond the first 65536 characters stand for. -/
def surrogatePair? (high low : Nat) : Option Char :=
  if 0xD800 ≤ high ∧ high < 0xDC00 ∧ 0xDC00 ≤ low ∧ low < 0xE000 then
    some (Char.ofNat (0x10000 + (high - 0xD800) * 0x400 + (low - 0xDC00)))
  else none

/-- One character more in front of what was read. -/
def prepend (c : Char) (found : Option (List Char × List Char)) : Option (List Char × List Char) :=
  found.map fun (chars, rest) => (c :: chars, rest)

/-- The characters of a text up to its closing quotation mark. -/
def textRest : Reader (List Char)
  | [] => none
  | '"' :: rest => some ([], rest)
  | '\\' :: 'u' :: a :: b :: c :: d :: rest =>
    match unit? [a, b, c, d] with
    | none => none
    | some unit =>
      if unit.isValidChar then prepend (Char.ofNat unit) (textRest rest)
      else
        match rest with
        | '\\' :: 'u' :: e :: f :: g :: h :: rest =>
          match (unit? [e, f, g, h]).bind (surrogatePair? unit) with
          | some char => prepend char (textRest rest)
          | none => none
        | _ => none
  | '\\' :: c :: rest =>
    match escaped? c with
    | some char => prepend char (textRest rest)
    | none => none
  | c :: rest => if c < ' ' || c = '\\' then none else prepend c (textRest rest)

/-! ### Numbers -/

/-- A character that numbers are written with. -/
def isNumeric (c : Char) : Bool :=
  c.isDigit || c = '-' || c = '+' || c = '.' || c = 'e' || c = 'E'

/-- The number that decimal digits denote, if none of them is a zero to spare. -/
def natural? (digits : List Char) : Option Nat :=
  if digits.isEmpty || !digits.all Char.isDigit then none
  else if digits.head? = some '0' ∧ digits ≠ ['0'] then none
  else some (Nat.ofDigitChars 10 digits 0)

/-- The integer that is written so.  A zero with a sign is none. -/
def integer? : List Char → Option Int
  | '-' :: digits =>
    match natural? digits with
    | some 0 | none => none
    | some n => some (-n)
  | digits => (natural? digits).map Int.ofNat

/-- Is this an exponent, or nothing? -/
def isExponent : List Char → Bool
  | [] => true
  | c :: rest =>
    let digits := match rest with
      | '+' :: digits | '-' :: digits => digits
      | digits => digits
    (c = 'e' || c = 'E') && !digits.isEmpty && digits.all Char.isDigit

/-- Is this a fraction and an exponent, either of which may be left out? -/
def isFraction : List Char → Bool
  | '.' :: rest =>
    !(rest.takeWhile Char.isDigit).isEmpty && isExponent (rest.dropWhile Char.isDigit)
  | rest => isExponent rest

/-- Is this a number, whole or not? -/
def isNumber (literal : List Char) : Bool :=
  let unsigned := if literal.head? = some '-' then literal.tail else literal
  (natural? (unsigned.takeWhile Char.isDigit)).isSome &&
    isFraction (unsigned.dropWhile Char.isDigit)

/-- A number.  One that is no integer keeps the text it was written with. -/
def number : Reader Data := fun cs =>
  let literal := cs.takeWhile isNumeric
  match integer? literal with
  | some n => some (.integer n, cs.dropWhile isNumeric)
  | none =>
    if isNumber literal then some (.decimal (String.ofList literal), cs.dropWhile isNumeric)
    else none

/-! ### Lists and records -/

section

variable {α : Type}

/-- The rest of the items before a closing bracket, from an item on.  `bound` is at least the number
of items to come. -/
def items (item : Reader α) (closing : Char) : Nat → Reader (List α)
  | 0, _ => none
  | bound + 1, cs => do
    let (first, rest) ← item cs
    match skipSpace rest with
    | [] => none
    | c :: rest =>
      if c = closing then some ([first], rest)
      else if c = ',' then do
        let (others, rest) ← items item closing bound (skipSpace rest)
        return (first :: others, rest)
      else none

/-- The items before a closing bracket, of which there may be none. -/
def listed (item : Reader α) (closing : Char) : Reader (List α) := fun cs =>
  match skipSpace cs with
  | [] => none
  | c :: rest =>
    if c = closing then some ([], rest) else items item closing cs.length (c :: rest)

end

/-- A name and a value with a colon between them. -/
def field (value : Reader Data) : Reader (String × Data)
  | '"' :: rest => do
    let (name, rest) ← textRest rest
    match skipSpace rest with
    | ':' :: rest =>
      let (data, rest) ← value (skipSpace rest)
      return ((String.ofList name, data), rest)
    | _ => none
  | _ => none

/-! ### Trees -/

/-- A word that stands for a tree. -/
def word : Reader Data
  | 'n' :: 'u' :: 'l' :: 'l' :: rest => some (.null, rest)
  | 't' :: 'r' :: 'u' :: 'e' :: rest => some (.boolean true, rest)
  | 'f' :: 'a' :: 'l' :: 's' :: 'e' :: rest => some (.boolean false, rest)
  | _ => none

/-- A tree in which lists and records are nested at most `depth` deep. -/
def valueWithin (depth : Nat) : Reader Data := fun cs =>
  match cs with
  | [] => none
  | c :: rest =>
    if c.isDigit || c = '-' then number cs
    else if c = '"' then do
      let (chars, rest) ← textRest rest
      return (.text (String.ofList chars), rest)
    else if c = '[' then match depth with
      | 0 => none
      | depth + 1 => do
        let (found, rest) ← listed (valueWithin depth) ']' rest
        return (.list found, rest)
    else if c = '\x7b' then match depth with
      | 0 => none
      | depth + 1 => do
        let (found, rest) ← listed (field (valueWithin depth)) '\x7d' rest
        return (.record found, rest)
    else word cs

/-- How deep lists and records may be nested. -/
def deepest : Nat := 127

/-- The tree that a JSON text spells. -/
def read (text : String) : Option Data := do
  let (data, rest) ← valueWithin deepest (skipSpace text.toList)
  if (skipSpace rest).isEmpty then some data else none

end RevisionStore.Json
