/-
**Checkouts: writing the files of a revision somewhere.**

A checkout writes every file of a snapshot in the order of the paths, deletes nothing, and stops at
the first file that is refused; what it wrote before that stays.

Main definitions:

* `Destination`, `Destination.writeAll` — a place for files, and writing several to it;
* `Destination.memory` — files kept by path, which refuses nothing;
* `Destination.folder` — a directory of a file system, which refuses paths that could leave it;
* `Controller.checkout` — **a revision, written out**.
-/

import RevisionStore.Controller
import RevisionStore.Files.System

set_option autoImplicit false

namespace RevisionStore

/-- A place that files can be written to by path. -/
structure Destination (m : Type → Type) where
  write : String → Bytes → m (Except StoreError Unit)

namespace Destination

/-! ### Writing -/

/-- Writes the files one after the other, up to the first that is refused. -/
def writeAll {m : Type → Type} [Monad m] (destination : Destination m) :
    List (String × Bytes) → m (Except StoreError Unit)
  | [] => return .ok ()
  | (path, content) :: rest => do
    match ← destination.write path content with
    | .ok () => destination.writeAll rest
    | .error e => return .error e

/-! ### Destinations -/

/-- Files kept by path. -/
def memory : Destination (StateM Snapshot) where
  write path content := fun files => (.ok (), files.insert path content)

/-- The directory `root` of a file system.  A file is written below the root at the path it has in
the snapshot, with the directories on the way made as needed. -/
def folder {m : Type → Type} [Monad m] (files : FileSystem m) (root : String) : Destination m where
  write path content := do
    if !Path.staysInside path then return .error (.invalidPath path)
    let target := Path.join root path
    -- The directories on the way are made even where the file itself is refused afterwards.
    let above ← match Path.parent? target with
      | some parent => do
        pure ((← files.createDirectories parent).mapError (.checkoutFailed parent))
      | none => pure (.ok ())
    match above with
    | .ok () => return (← files.writeFile target content).mapError (.checkoutFailed target)
    | .error e => return .error e

end Destination

/-! ### Checkouts -/

/-- Writes the files of the revision that an identifier names, and gives its hash. -/
def Controller.checkout {m : Type → Type} [Monad m] (c : Controller) (destination : Destination m)
    (repository identifier : String) : m (Except StoreError RevisionHash) := do
  match c.snapshot repository identifier with
  | .ok (hash, files) => return (← destination.writeAll files.toList).map fun _ => hash
  | .error e => return .error e

end RevisionStore
