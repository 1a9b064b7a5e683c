/-
**Trees of data, as documents spell them.**

Both document formats that occur here, TOML and JSON, spell trees of this one shape.  Numbers that
are no integers, and dates, keep the text they were written with: nothing computes with them.

Main definitions:

* `Data` — a tree;
* `Data.describe` — what sort of tree it is, for messages.
-/

set_option autoImplicit false

namespace RevisionStore

/-- A tree of data.  A record lists its fields in the order they were written in. -/
inductive Data where
  | null
  | boolean (value : Bool)
  | integer (value : Int)
  | decimal (literal : String)
  | moment (literal : String)
  | text (value : String)
  | list (items : List Data)
  | record (fields : List (String × Data))
deriving Repr

namespace Data

/-- The sort of the tree, in words. -/
def describe : Data → String
  | null => "nothing"
  | boolean _ => "a boolean"
  | integer _ => "an integer"
  | decimal _ => "a number with a fraction or an exponent"
  | moment _ => "a date or a time"
  | text _ => "a text"
  | list _ => "a list"
  | record _ => "a record"

/-- A text, or nothing. -/
def ofText? : Option String → Data
  | some value => text value
  | none => null

/-- A signed 64-bit number, or nothing. -/
def ofInt64? : Option Int64 → Data
  | some value => integer value.toInt
  | none => null

end Data

end RevisionStore
