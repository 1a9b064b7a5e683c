/-
**Tables of a TOML document under construction.**

A table can be announced by a header of its own, be implied by a longer header, or arise from a key
with dots.  Each may be announced once, what arose from dotted keys can only be continued by such
keys, and a value is never replaced.  Headers in double brackets append to a list of tables, of
which the last is the open one.

Main definitions:

* `Toml.Origin`, `Toml.Node`, `Toml.Table` — how a table came to be, an entry, and a table;
* `Toml.Table.within` — an operation on the table that a header names;
* `Toml.Table.announce`, `Toml.Table.append` — the two kinds of headers;
* `Toml.Table.assign` — a key, with or without dots, and its value;
* `Toml.Table.toData` — the finished tree.
-/

import RevisionStore.Data
import RevisionStore.Toml.Lexical

set_option autoImplicit false

namespace RevisionStore.Toml

/-- How a table came to be. -/
inductive Origin where
  | header
  | implied
  | dotted
deriving DecidableEq, Repr

/-- An entry of a table.  A list of tables has the last one first. -/
inductive Node where
  | value (data : Data)
  | table (origin : Origin) (entries : List (String × Node))
  | tables (reversed : List (List (String × Node)))

/-- The entries of a table by key, in the order they were made in. -/
abbrev Table := List (String × Node)

namespace Table

/-- The table with the entry of a key changed, or added at the end if there was none. -/
def update (key : String) (change : Option Node → Except Problem Node) :
    Table → Except Problem Table
  | [] => do return [(key, ← change none)]
  | (name, node) :: rest =>
    if name = key then do return (name, ← change (some node)) :: rest
    else do return (name, node) :: (← update key change rest)

/-- The table with the table that a header names changed.  The names on the way imply tables. -/
def within (path : List String) (change : Table → Except Problem Table) (t : Table) :
    Except Problem Table :=
  match path with
  | [] => change t
  | key :: path => t.update key fun node => match node with
    | none => do return .table .implied (← within path change [])
    | some (.table origin entries) => do return .table origin (← within path change entries)
    | some (.tables (last :: earlier)) => do
      return .tables ((← within path change last) :: earlier)
    | some (.tables []) | some (.value _) => .error (.notATable key)

/-- The table with the table `key` announced by a header. -/
def announce (key : String) (t : Table) : Except Problem Table :=
  t.update key fun node => match node with
    | none => .ok (.table .header [])
    | some (.table .implied entries) => .ok (.table .header entries)
    | some _ => .error (.duplicateKey key)

/-- The table with one more table in the list `key`. -/
def append (key : String) (t : Table) : Except Problem Table :=
  t.update key fun node => match node with
    | none => .ok (.tables [[]])
    | some (.tables reversed) => .ok (.tables ([] :: reversed))
    | some _ => .error (.duplicateKey key)

/-- The table with a value assigned to the key that is reached by `path`, whose keys are joined to
it by dots. -/
def assign (path : List String) (key : String) (data : Data) (t : Table) :
    Except Problem Table :=
  match path with
  | [] => t.update key fun node => match node with
    | none => .ok (.value data)
    | some _ => .error (.duplicateKey key)
  | first :: path => t.update first fun node => match node with
    | none => do return .table .dotted (← assign path key data [])
    | some (.table origin entries) =>
      -- A table with a header of its own is closed, and the last one on the way has to be made of
      -- keys with dots.
      if origin = .header ∨ (path = [] ∧ origin ≠ .dotted) then .error (.duplicateKey key)
      else do return .table origin (← assign path key data entries)
    | some (.tables (last :: earlier)) =>
      if path = [] then .error (.duplicateKey key)
      else do return .tables ((← assign path key data last) :: earlier)
    | some (.tables []) | some (.value _) => .error (.notATable first)

end Table

/-! ### The finished tree -/

mutual

/-- The tree of an entry. -/
def Node.toData : Node → Data
  | .value data => data
  | .table _ entries => .record (entriesData entries)
  | .tables reversed => .list (tablesData reversed).reverse

/-- The fields of a table. -/
def entriesData : List (String × Node) → List (String × Data)
  | [] => []
  | (key, node) :: rest => (key, node.toData) :: entriesData rest

/-- The trees of several tables. -/
def tablesData : List (List (String × Node)) → List Data
  | [] => []
  | entries :: rest => .record (entriesData entries) :: tablesData rest

end

/-- The tree of a table. -/
def Table.toData (t : Table) : Data := .record (entriesData t)

end RevisionStore.Toml
