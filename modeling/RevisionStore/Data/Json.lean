/-
**The JSON text of a tree of data.**

Lists and records are spread over lines, each level two spaces further in, and are closed at once
where they are empty.

Main definitions:

* `Json.quote` — a text between quotation marks, with the escapes that JSON asks for;
* `Json.pretty` — **the text of a tree**.
-/

import RevisionStore.Data
import RevisionStore.Hex

set_option autoImplicit false

namespace RevisionStore.Json

/-! ### Texts -/

/-- A character within quotation marks.  Quotation marks, backslashes and control characters are
escaped, the common ones by a letter. -/
def escape (c : Char) : String :=
  if c = '"' then "\\\""
  else if c = '\\' then "\\\\"
  else if c = '\n' then "\\n"
  else if c = '\r' then "\\r"
  else if c = '\t' then "\\t"
  else if c = '\x08' then "\\b"
  else if c = '\x0c' then "\\f"
  else if c < ' ' then "\\u00" ++ String.ofList (Hex.byteDigits (UInt8.ofNat c.toNat))
  else c.toString

/-- A text between quotation marks. -/
def quote (text : String) : String := "\"" ++ String.join (text.toList.map escape) ++ "\""

/-! ### Trees -/

/-- The start of a line `depth` levels in. -/
def newLine (depth : Nat) : String := "\n" ++ String.ofList (List.replicate (2 * depth) ' ')

/-- Entries between brackets, each on a line of its own, or the brackets alone. -/
def spread (depth : Nat) (opening closing : String) (entries : List String) : String :=
  if entries.isEmpty then opening ++ closing
  else
    opening ++ newLine (depth + 1) ++ ("," ++ newLine (depth + 1)).intercalate entries
      ++ newLine depth ++ closing

mutual

/-- The text of a tree, `depth` levels in. -/
def pretty (depth : Nat) : Data → String
  | .null => "null"
  | .boolean value => if value then "true" else "false"
  | .integer value => toString value
  | .decimal literal => literal
  | .moment literal => quote literal
  | .text value => quote value
  | .list items => spread depth "[" "]" (prettyItems (depth + 1) items)
  | .record fields => spread depth "\x7b" "\x7d" (prettyFields (depth + 1) fields)

/-- The texts of the items of a list. -/
def prettyItems (depth : Nat) : List Data → List String
  | [] => []
  | item :: items => pretty depth item :: prettyItems depth items

/-- The texts of the fields of a record. -/
def prettyFields (depth : Nat) : List (String × Data) → List String
  | [] => []
  | (name, value) :: fields =>
    (quote name ++ ": " ++ pretty depth value) :: prettyFields depth fields

end

end RevisionStore.Json
