/-
**Points in time.**

A timestamp counts milliseconds since the start of 1970-01-01 in universal time, and wraps where
64 bits end.

Main definitions:

* `Timestamp`, `Timestamp.bytes` — the count, and its eight bytes as they enter a hash;
* `Timestamp.toDateTime?` — the date and time of day, for the years that have a written form;
* `Timestamp.toText` — **the written form**, which outside those years is the bare count.
-/

import RevisionStore.Bytes
import RevisionStore.Calendar

set_option autoImplicit false

namespace RevisionStore

open Calendar

/-- Milliseconds since the start of 1970-01-01, in universal time. -/
structure Timestamp where
  millis : Int64
deriving DecidableEq, Repr

namespace Timestamp

/-- The start of 1970-01-01. -/
def epoch : Timestamp := ⟨0⟩

/-- The count as eight bytes, low byte first. -/
def bytes (t : Timestamp) : Bytes := Bytes.ofInt64 t.millis

@[simp] theorem length_bytes (t : Timestamp) : t.bytes.length = 8 := Bytes.length_ofInt64 _

/-- The time `step` milliseconds later, wrapping. -/
def advance (t : Timestamp) (step : Int64) : Timestamp := ⟨t.millis + step⟩

/-! ### Dates -/

/-- The first and the last year whose dates have a written form. -/
def firstYear : Int := -262143

@[inherit_doc firstYear]
def lastYear : Int := 262142

/-- The date and time of day, unless the year is out of range. -/
def toDateTime? (t : Timestamp) : Option DateTime :=
  let moment := DateTime.ofMillis t.millis.toInt
  if firstYear ≤ moment.date.year ∧ moment.date.year ≤ lastYear then some moment else none

/-- The timestamp of a date and time of day. -/
def ofDateTime (moment : DateTime) : Timestamp := ⟨Int64.ofInt moment.toMillis⟩

/-- The written form: the RFC 3339 text where the year is in range, else the milliseconds. -/
def toText (t : Timestamp) : String :=
  match t.toDateTime? with
  | some moment => moment.toText
  | none => toString t.millis.toInt ++ "ms"

end Timestamp

end RevisionStore
