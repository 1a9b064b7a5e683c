/-
**TOML documents.**

A document is read line by line: a header opens a table, a key and a value make an entry of the
table that is open, and other lines hold nothing but blanks and a comment.

Main definitions:

* `Toml.value` — a value of any kind;
* `Toml.Building`, `Toml.line` — a document as far as it is read, and one line more;
* `Toml.parse` — **the tree that a document spells**;
* `Toml.Problem.message` — why a document is refused, in words.
-/

import RevisionStore.Toml.Number
import RevisionStore.Toml.Table

set_option autoImplicit false

namespace RevisionStore.Toml

/-! ### Values -/

/-- The rest of a list, each item read by `item`.  `done` holds what was read, backwards, and
`bound` is at least the number of items to come. -/
def listItems (item : Reader Data) (done : List Data) : Nat → Reader (List Data)
  | 0, rest => refuse "an end of the list" rest
  | bound + 1, cs =>
    match skipFiller false cs with
    | ']' :: rest => .ok (done.reverse, rest)
    | cs => do
      let (data, rest) ← item cs
      match skipFiller false rest with
      | ',' :: rest => listItems item (data :: done) bound rest
      | ']' :: rest => return ((data :: done).reverse, rest)
      | rest => refuse "a comma or the end of the list" rest

/-- The keys before the value, and the last of them. -/
def splitLast (first : String) : List String → List String × String
  | [] => ([], first)
  | second :: rest =>
    let (keys, last) := splitLast second rest
    (first :: keys, last)

/-- Keys joined by dots, as those before the last and the last. -/
def splitPath (keys : List String) : List String × String :=
  match keys with
  | [] => ([], "")
  | first :: rest => splitLast first rest

/-- A key, an equals sign and a value, entered into a table. -/
def assignment (item : Reader Data) (t : Table) (change : (Table → Except Problem Table) →
    Table → Except Problem Table) : Reader Table := fun cs => do
  let (keys, rest) ← keyPath cs
  match rest with
  | '=' :: rest =>
    let (data, rest) ← item (skipBlanks rest)
    let (path, key) := splitPath keys
    return (← change (Table.assign path key data) t, rest)
  | rest => refuse "an equals sign" rest

/-- The rest of a table on one line, from a key on.  `bound` is at least the number of entries to
come. -/
def inlineEntries (item : Reader Data) (t : Table) : Nat → Reader Table
  | 0, rest => refuse "the end of the table" rest
  | bound + 1, cs => do
    let (t, rest) ← assignment item t (fun assign t => assign t) cs
    match skipBlanks rest with
    | ',' :: rest => inlineEntries item t bound rest
    | '\x7d' :: rest => return (t, rest)
    | rest => refuse "a comma or the end of the table" rest

/-- The word at the front, if it is this one, with what it stands for. -/
def word (text : String) (data : Data) : Reader Data := fun cs =>
  if text.toList.isPrefixOf cs then .ok (data, cs.drop text.length) else refuse text cs

/-- A value, in which lists and tables are nested at most `depth` deep. -/
def valueWithin (depth : Nat) : Reader Data := fun cs =>
  match cs with
  | '"' :: _ | '\'' :: _ => do
    let (text, rest) ← quotedText cs
    return (.text text, rest)
  | '[' :: rest => match depth with
    | 0 => .error .tooDeep
    | depth + 1 => do
      let (items, rest) ← listItems (valueWithin depth) [] (rest.length + 1) rest
      return (.list items, rest)
  | '\x7b' :: rest => match depth with
    | 0 => .error .tooDeep
    | depth + 1 =>
      match skipBlanks rest with
      | '\x7d' :: rest => .ok (.record [], rest)
      | rest => do
        let (t, rest) ← inlineEntries (valueWithin depth) [] (rest.length + 1) rest
        return (t.toData, rest)
  | 't' :: _ => word "true" (.boolean true) cs
  | 'f' :: _ => word "false" (.boolean false) cs
  | c :: _ =>
    if c.isDigit || c = '+' || c = '-' || c = 'i' || c = 'n' then number cs
    else refuse "a value" cs
  | [] => refuse "a value" []

/-- A value of any kind. -/
def value : Reader Data := valueWithin deepest

/-! ### Lines -/

/-- A document as far as it is read: its root table, and the path to the table that is open. -/
structure Building where
  root : Table
  opened : List String

/-- A header between brackets: what `enter` does with the key it ends in, and the open table
afterwards. -/
def header (closing : List Char) (enter : String → Table → Except Problem Table)
    (b : Building) : Reader Building := fun cs => do
  let (keys, rest) ← keyPath cs
  if closing.isPrefixOf rest then
    let ((), rest) ← endOfLine (rest.drop closing.length)
    let (path, key) := splitPath keys
    return (⟨← b.root.within path (enter key), keys⟩, rest)
  else refuse "the end of the header" rest

/-- One line, from its first character that is no blank. -/
def line (b : Building) : Reader Building := fun cs =>
  match cs with
  | '[' :: '[' :: rest => header [']', ']'] Table.append b rest
  | '[' :: rest => header [']'] Table.announce b rest
  | '#' :: _ | '\n' :: _ | '\r' :: _ => do
    let ((), rest) ← endOfLine cs
    return (b, rest)
  | _ => do
    let (root, rest) ← assignment value b.root (fun assign => Table.within b.opened assign) cs
    let ((), rest) ← endOfLine rest
    return ({ b with root := root }, rest)

/-- The rest of a document, of at most `bound` lines. -/
def lines (b : Building) : Nat → List Char → Except Problem Building
  | 0, rest => refuse "the end of the document" rest
  | bound + 1, cs =>
    match skipBlanks cs with
    | [] => .ok b
    | cs => do
      let (b, rest) ← line b cs
      lines b bound rest

/-- The tree that a document spells.  A byte-order mark before it does not belong to it. -/
def parse (document : String) : Except Problem Data := do
  let cs := document.toList
  let cs := if cs.head? = some '\ufeff' then cs.tail else cs
  let b ← lines ⟨[], []⟩ (cs.length + 1) cs
  return b.root.toData

/-! ### Messages -/

/-- The number of the line that so many characters before the end of the document lie in. -/
def lineNumber (document : String) (remaining : Nat) : Nat :=
  let cs := document.toList
  (cs.take (cs.length - remaining)).count '\n' + 1

/-- Why the document is refused, in words. -/
def Problem.message (document : String) : Problem → String
  | .expected what remaining =>
    "line " ++ toString (lineNumber document remaining) ++ ": expected " ++ what
  | .outOfRange literal => "number out of range: " ++ literal
  | .duplicateKey key => "duplicate key: " ++ key
  | .notATable key => "not a table: " ++ key
  | .tooDeep => "nested too deep"

end RevisionStore.Toml
