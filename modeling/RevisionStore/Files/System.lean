/-
**The file system, as far as it is needed.**

Four operations suffice to read a file and to write a tree of files.  They are given as a record
over the monad they run in, so that what is built from them runs against the disk and against a
tree held in memory alike.

Main definitions:

* `FileSystem` — the operations;
* `FileSystem.createDirectories` — a directory with all those above it.
-/

import RevisionStore.Error
import RevisionStore.Bytes
import RevisionStore.Files.Path

set_option autoImplicit false

namespace RevisionStore

/-- Access to files and directories by path. -/
structure FileSystem (m : Type → Type) where
  makeDirectory : String → m (Except FileError Unit)
  isDirectory : String → m Bool
  writeFile : String → Bytes → m (Except FileError Unit)
  readFile : String → m (Except FileError Bytes)

namespace FileSystem

variable {m : Type → Type} [Monad m]

/-- Makes a directory; one that is there already will do. -/
def ensureDirectory (files : FileSystem m) (path : String) : m (Except FileError Unit) := do
  match ← files.makeDirectory path with
  | .ok () => return .ok ()
  | .error e => return if ← files.isDirectory path then .ok () else .error e

/-- Makes the first of the directories, making those after it where they are missing.  Nothing
needs to be made for the empty path. -/
def createFirst (files : FileSystem m) : List String → m (Except FileError Unit)
  | [] => return .error (.other "failed to create whole tree")
  | path :: above => do
    if path = "" then return .ok ()
    -- Only where something above is missing is there a point in making that and trying again.
    match ← files.makeDirectory path with
    | .ok () => return .ok ()
    | .error .notFound =>
      match ← files.createFirst above with
      | .ok () => files.ensureDirectory path
      | .error e => return .error e
    | .error e => return if ← files.isDirectory path then .ok () else .error e

/-- Makes a directory with all those above it. -/
def createDirectories (files : FileSystem m) (path : String) : m (Except FileError Unit) :=
  files.createFirst (Path.ancestors path)

end FileSystem

end RevisionStore
