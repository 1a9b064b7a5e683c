/-
**Numbers, dates and times in a TOML document.**

Integers are read for their value, which has to fit 64 bits.  Other numbers, dates and times are
read for their form, and keep their text.

Main definitions:

* `Toml.integer` — an integer in base ten, sixteen, eight or two;
* `Toml.decimal?` — a number with a fraction or an exponent, an infinity, or no number at all;
* `Toml.moment?` — a date, a time of day, or both;
* `Toml.number` — whichever of these stands at the front.
-/

import RevisionStore.Data
import RevisionStore.Toml.Lexical

set_option autoImplicit false

namespace RevisionStore.Toml

/-! ### Digits -/

/-- The digits at the front, and what follows.  An underscore may stand between two digits. -/
def digitsAfter (isDigit : Char → Bool) : List Char → List Char × List Char
  | '_' :: c :: rest =>
    if isDigit c then
      let (digits, rest) := digitsAfter isDigit rest
      (c :: digits, rest)
    else ([], '_' :: c :: rest)
  | c :: rest =>
    if isDigit c then
      let (digits, rest) := digitsAfter isDigit rest
      (c :: digits, rest)
    else ([], c :: rest)
  | [] => ([], [])

/-- At least one digit, the first without an underscore before it. -/
def digits? (isDigit : Char → Bool) : List Char → Option (List Char × List Char)
  | c :: rest =>
    if isDigit c then
      let (digits, rest) := digitsAfter isDigit rest
      some (c :: digits, rest)
    else none
  | [] => none

/-- A sign, and what follows; without a sign a number is positive. -/
def sign : List Char → Bool × List Char
  | '+' :: rest => (false, rest)
  | '-' :: rest => (true, rest)
  | rest => (false, rest)

/-- The digits of a whole number in base ten, where a leading zero stands alone. -/
def wholeDigits? : List Char → Option (List Char × List Char)
  | '0' :: rest => some (['0'], rest)
  | rest => digits? Char.isDigit rest

/-! ### Integers -/

/-- Is the digit one of base `base`? -/
def isDigitOf (base : Nat) (c : Char) : Bool :=
  match Hex.value? c with
  | some value => value < base
  | none => false

/-- The number that the digits denote. -/
def digitsValue (base : Nat) (digits : List Char) : Nat :=
  digits.foldl (fun n c => base * n + (Hex.value? c).getD 0) 0

/-- An integer, if 64 bits hold it. -/
def fitting (value : Int) (rest : List Char) : Except Problem (Data × List Char) :=
  if Int64.minValue.toInt ≤ value ∧ value ≤ Int64.maxValue.toInt then .ok (.integer value, rest)
  else .error (.outOfRange (toString value))

/-- Digits of a base that was announced. -/
def digitsIn (base : Nat) (rest : List Char) : Except Problem (Data × List Char) :=
  match digits? (isDigitOf base) rest with
  | some (digits, rest) => fitting (digitsValue base digits) rest
  | none => refuse "a digit" rest

/-- An integer.  A base other than ten is announced by `0x`, `0o` or `0b`, without a sign. -/
def integer : Reader Data
  | '0' :: 'x' :: rest => digitsIn 16 rest
  | '0' :: 'o' :: rest => digitsIn 8 rest
  | '0' :: 'b' :: rest => digitsIn 2 rest
  | cs =>
    let (negative, rest) := sign cs
    match wholeDigits? rest with
    | some (digits, rest) =>
      let value : Int := digitsValue 10 digits
      fitting (if negative then -value else value) rest
    | none => refuse "a digit" rest

/-! ### Other numbers -/

/-- The first number that is too large for a double-precision number: halfway from the largest of
them to the power of two that would come next. -/
def overflowBound : Nat := Nat.pow 2 1024 - Nat.pow 2 970

/-- Is the number of these digits, times ten to the `exponent`, too large for double precision? -/
def overflows (digits : List Char) (exponent : Int) : Bool :=
  let significant := digits.dropWhile (· = '0')
  let size := significant.length + exponent
  -- The number is less than ten to the power of `size` and not less than a tenth of that.
  if significant.isEmpty || size ≤ 300 then false
  else if 400 ≤ size then true
  else
    let value := digitsValue 10 significant
    if 0 ≤ exponent then overflowBound ≤ value * Nat.pow 10 exponent.toNat
    else overflowBound * Nat.pow 10 exponent.natAbs ≤ value

/-- The digits behind a point, and what follows; none if there is no point. -/
def fraction? : List Char → Option (List Char × List Char)
  | '.' :: rest => digits? Char.isDigit rest
  | _ => none

/-- The exponent, and what follows. -/
def exponent? (cs : List Char) : Option (Int × List Char) :=
  match cs with
  | c :: rest =>
    if c = 'e' ∨ c = 'E' then
      let (negative, rest) := sign rest
      (digits? Char.isDigit rest).map fun (digits, rest) =>
        let value : Int := digitsValue 10 digits
        (if negative then -value else value, rest)
    else none
  | [] => none

/-- What was read of `cs` when `rest` is left. -/
def consumed (cs rest : List Char) : String :=
  String.ofList (cs.take (cs.length - rest.length))

/-- A number with a fraction or an exponent, an infinity, or no number at all; nothing if
something else stands there. -/
def decimal? (cs : List Char) : Option (Except Problem (Data × List Char)) :=
  let (negative, unsigned) := sign cs
  match unsigned with
  | 'i' :: 'n' :: 'f' :: rest | 'n' :: 'a' :: 'n' :: rest =>
    some (.ok (.decimal (consumed cs rest), rest))
  | _ => do
    let (whole, rest) ← wholeDigits? unsigned
    let (behind, exponent, rest) ← match fraction? rest with
      | some (behind, rest) =>
        let (exponent, rest) := (exponent? rest).getD (0, rest)
        some (behind, exponent, rest)
      | none => (exponent? rest).map fun (exponent, rest) => ([], exponent, rest)
    let literal := consumed cs rest
    -- A number that is too large is refused, one that is too small in the same way is not.
    some (if !negative && overflows (whole ++ behind) (exponent - behind.length)
      then .error (.outOfRange literal) else .ok (.decimal literal, rest))

/-! ### Dates and times -/

/-- A number of exactly `count` digits from `least` to `most`, and what follows. -/
def field? (count least most : Nat) (cs : List Char) : Option (Nat × List Char) :=
  let digits := cs.take count
  let value := digitsValue 10 digits
  if digits.length = count ∧ digits.all Char.isDigit ∧ least ≤ value ∧ value ≤ most then
    some (value, cs.drop count)
  else none

/-- What follows the character `c`. -/
def after? (c : Char) (cs : List Char) : Option (List Char) :=
  if cs.head? = some c then some cs.tail else none

/-- How many days a month has. -/
def daysOfMonth (year month : Nat) : Nat :=
  if month = 2 then
    if year % 4 = 0 ∧ (year % 100 ≠ 0 ∨ year % 400 = 0) then 29 else 28
  else if month = 4 ∨ month = 6 ∨ month = 9 ∨ month = 11 then 30 else 31

/-- What follows a date. -/
def afterDate? (cs : List Char) : Option (List Char) := do
  let (year, rest) ← field? 4 0 9999 cs
  let (month, rest) ← field? 2 1 12 (← after? '-' rest)
  let (_, rest) ← field? 2 1 (daysOfMonth year month) (← after? '-' rest)
  return rest

/-- What follows a time of day. -/
def afterTime? (cs : List Char) : Option (List Char) := do
  let (_, rest) ← field? 2 0 23 cs
  let (_, rest) ← field? 2 0 59 (← after? ':' rest)
  let (_, rest) ← field? 2 0 60 (← after? ':' rest)
  match rest with
  | '.' :: c :: behind =>
    if c.isDigit then return behind.dropWhile Char.isDigit else none
  | _ => return rest

/-- What follows the distance from universal time. -/
def afterOffset? : List Char → Option (List Char)
  | 'Z' :: rest | 'z' :: rest => some rest
  | '+' :: rest | '-' :: rest => do
    let (_, rest) ← field? 2 0 23 rest
    let (_, rest) ← field? 2 0 59 (← after? ':' rest)
    return rest
  | _ => none

/-- What follows a time of day that is joined to a date. -/
def afterJoinedTime? : List Char → Option (List Char)
  | 'T' :: rest | 't' :: rest | ' ' :: rest =>
    (afterTime? rest).map fun rest => (afterOffset? rest).getD rest
  | _ => none

/-- A date, a time of day, or both; nothing if something else stands there. -/
def moment? (cs : List Char) : Option (Data × List Char) := do
  let rest ← match afterDate? cs with
    | some rest => some ((afterJoinedTime? rest).getD rest)
    | none => afterTime? cs
  return (.moment (consumed cs rest), rest)

/-! ### Whichever it is -/

/-- A date or time, else a number that is no integer, else an integer. -/
def number : Reader Data := fun cs =>
  match moment? cs with
  | some result => .ok result
  | none => match decimal? cs with
    | some result => result
    | none => integer cs

end RevisionStore.Toml
