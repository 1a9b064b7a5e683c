/-
**A tree of files held in memory.**

The tree lists every entry by the names on the way to it from the root.  Paths are looked up in it
piece by piece, as a system without links would: each piece but the last has to be a directory.

Main definitions:

* `FileTree`, `FileTree.Entry`, `FileTree.entry?` — the entries of a tree, and one of them;
* `FileTree.enter`, `FileTree.locate` — following a path;
* `FileTree.makeDirectory`, `FileTree.writeFile`, `FileTree.readFile` — the operations;
* `FileTree.fileSystem` — **the tree as a file system**, for paths taken from a directory of it.
-/

import RevisionStore.Files.System
import Std.Data.ExtTreeMap

set_option autoImplicit false

namespace RevisionStore

/-- A directory, or a file with its content. -/
inductive FileTree.Entry where
  | directory
  | file (content : Bytes)
deriving DecidableEq, Repr

/-- The entries by the names that lead to them.  The root is a directory and is not listed. -/
abbrev FileTree := Std.ExtTreeMap (List String) FileTree.Entry

namespace FileTree

/-- What the names lead to. -/
def entry? (t : FileTree) (names : List String) : Option Entry :=
  if names = [] then some .directory else t[names]?

@[simp] theorem entry?_nil (t : FileTree) : t.entry? [] = some .directory := rfl

/-! ### Following a path -/

/-- How many bytes a name may have. -/
def longestName : Nat := 255

/-- How many bytes a path may have. -/
def longestPath : Nat := 4095

/-- The directory that the pieces lead to from the directory `names`. -/
def enter (t : FileTree) (names : List String) : List String → Except FileError (List String)
  | [] => .ok names
  | piece :: rest =>
    if Path.isFiller piece then t.enter names rest
    else if piece = ".." then t.enter names.dropLast rest
    else if longestName < piece.utf8ByteSize then .error .nameTooLong
    else match t.entry? (names ++ [piece]) with
      | some .directory => t.enter (names ++ [piece]) rest
      | some (.file _) => .error .notADirectory
      | none => .error .notFound

/-- Where a path ends: at a directory reached by dots alone, or at a name in a directory, which
may have a slash behind it. -/
inductive Place where
  | directory (names : List String)
  | name (directory : List String) (name : String) (slash : Bool)
deriving DecidableEq, Repr

/-- Where a path ends that is taken from the directory `current`. -/
def locate (t : FileTree) (current : List String) (path : String) : Except FileError Place := do
  if path.toList.contains '\x00' then throw .nulInName
  if path = "" then throw .notFound
  if longestPath < path.utf8ByteSize then throw .nameTooLong
  let start := if Path.isAbsolute path then [] else current
  let pieces := Path.pieces path
  -- Slashes at the end are no pieces of their own; they ask for a directory.
  let body := (pieces.reverse.dropWhile (· = "")).reverse
  match body.getLast? with
  | none => return .directory start
  | some last =>
    let directory ← t.enter start body.dropLast
    if last = "." then return .directory directory
    else if last = ".." then return .directory directory.dropLast
    else return .name directory last (body.length < pieces.length)

/-- The names of an entry in a directory, unless its name is too long to be one. -/
def namesOf (directory : List String) (name : String) : Except FileError (List String) :=
  if longestName < name.utf8ByteSize then .error .nameTooLong else .ok (directory ++ [name])

/-! ### Operations -/

/-- The tree with a new directory at the path. -/
def makeDirectory (t : FileTree) (current : List String) (path : String) :
    Except FileError FileTree := do
  match ← t.locate current path with
  | .directory _ => throw .alreadyExists
  | .name directory name _ =>
    let names ← namesOf directory name
    match t.entry? names with
    | some _ => throw .alreadyExists
    | none => return t.insert names .directory

/-- Does the path end at a directory? -/
def isDirectory (t : FileTree) (current : List String) (path : String) : Bool :=
  match t.locate current path with
  | .ok (.directory _) => true
  | .ok (.name directory name _) =>
    match namesOf directory name with
    | .ok names => t.entry? names = some .directory
    | .error _ => false
  | .error _ => false

/-- The tree with a file of this content at the path, whether or not there was one.  A slash at
the end asks for a directory. -/
def writeFile (t : FileTree) (current : List String) (path : String) (content : Bytes) :
    Except FileError FileTree := do
  match ← t.locate current path with
  | .directory _ => throw .isADirectory
  | .name directory name slash =>
    if slash then throw .isADirectory
    let names ← namesOf directory name
    match t.entry? names with
    | some .directory => throw .isADirectory
    | some (.file _) | none => return t.insert names (.file content)

/-- The content of the file at the path. -/
def readFile (t : FileTree) (current : List String) (path : String) : Except FileError Bytes := do
  match ← t.locate current path with
  | .directory _ => throw .isADirectory
  | .name directory name slash =>
    let names ← namesOf directory name
    match t.entry? names with
    | some .directory => throw .isADirectory
    | some (.file content) => if slash then throw .notADirectory else return content
    | none => throw .notFound

/-! ### The tree as a file system -/

/-- The tree after an operation that can fail; a failure leaves it as it is. -/
def perform (operation : FileTree → Except FileError FileTree) :
    StateM FileTree (Except FileError Unit) := fun t =>
  match operation t with
  | .ok t => (.ok (), t)
  | .error e => (.error e, t)

/-- The operations on a tree, for paths taken from the directory `current`. -/
def fileSystem (current : List String) : FileSystem (StateM FileTree) where
  makeDirectory path := perform fun t => t.makeDirectory current path
  isDirectory path := fun t => (t.isDirectory current path, t)
  writeFile path content := perform fun t => t.writeFile current path content
  readFile path := fun t => (t.readFile current path, t)

end FileTree

end RevisionStore
