/-
**Revisions: immutable snapshots chained by the hash of their parent.**

A revision holds every file of its snapshot.  A child is made from its parent by one change to one
path.  Directories are not stored: a path is a directory where some file lies beneath it.

Main definitions:

* `Snapshot`, `Snapshot.kind` — the files of a revision, and what a path denotes among them;
* `FileChange`, `FileChange.apply` — an edit of one path, and its effect on a snapshot;
* `Revision`, `Revision.root`, `Revision.child` — a revision, and the two ways to make one;
* `Revision.digestInput`, `Revision.hash` — **the bytes that a revision is identified by**, and
  their digest;
* `LogEntry`, `Revision.logEntry` — a line of history.

Main results:

* `FileChange.getElem?_apply` — a change shows at its own path only.
-/

import RevisionStore.RevisionHash
import RevisionStore.Timestamp
import Std.Data.ExtTreeMap

set_option autoImplicit false

namespace RevisionStore

/-! ### Snapshots -/

/-- The files of a revision by path, in ascending order of the paths' bytes. -/
abbrev Snapshot := Std.ExtTreeMap String Bytes

/-- What a path denotes in a snapshot. -/
inductive PathKind where
  | file
  | directory
  | absent
deriving DecidableEq, Repr

/-- The kind in one word. -/
def PathKind.toText : PathKind → String
  | .file => "file"
  | .directory => "directory"
  | .absent => "absent"

namespace Snapshot

/-- Does `path` begin with `directory` and a slash? -/
def liesBeneath (directory path : String) : Bool :=
  (directory.toList ++ ['/']).isPrefixOf path.toList

/-- What a path denotes: a file if it is one, else a directory if a file lies beneath it. -/
def kind (files : Snapshot) (path : String) : PathKind :=
  if files.contains path then .file
  else if files.keys.any (liesBeneath path) then .directory
  else .absent

/-- The paths and contents one after the other, in the order of the paths and without anything
between them. -/
def bytes (files : Snapshot) : Bytes :=
  files.toList.flatMap fun (path, content) => Bytes.ofText path ++ content

end Snapshot

/-! ### Changes -/

/-- An edit of one path. -/
inductive FileChange where
  | add (path : String) (content : Bytes)
  | remove (path : String)
deriving DecidableEq, Repr

namespace FileChange

/-- The path that is edited. -/
def path : FileChange → String
  | add path _ => path
  | remove path => path

/-- What the path holds afterwards. -/
def content? : FileChange → Option Bytes
  | add _ content => some content
  | remove _ => none

/-- The snapshot after the edit; removing what is not there leaves it as it is. -/
def apply (change : FileChange) (files : Snapshot) : Snapshot :=
  match change with
  | add path content => files.insert path content
  | remove path => files.erase path

theorem getElem?_apply (change : FileChange) (files : Snapshot) (q : String) :
    (change.apply files)[q]? = if q = change.path then change.content? else files[q]? := by
  cases change <;>
    simp only [apply, path, content?, Std.ExtTreeMap.getElem?_insert,
      Std.ExtTreeMap.getElem?_erase, Std.compare_eq_iff_eq, eq_comm (a := q)]

end FileChange

/-! ### Revisions -/

/-- A node of history.  A root has neither a parent nor a message. -/
structure Revision where
  parent : Option RevisionHash
  message : Option String
  timestamp : Timestamp
  files : Snapshot
deriving DecidableEq

/-- One line of history. -/
structure LogEntry where
  hash : RevisionHash
  timestamp : Timestamp
  message : Option String
deriving DecidableEq

namespace Revision

/-- The bytes that a revision is identified by: the parent's hash as a number, the message, the
time and the files, with nothing between them. -/
def digestInput (r : Revision) : Bytes :=
  (match r.parent with
    | some parent => Bytes.signedMagnitude parent.bytes
    | none => [])
  ++ (match r.message with
    | some message => Bytes.ofText message
    | none => [])
  ++ r.timestamp.bytes ++ r.files.bytes

/-- The hash that identifies a revision. -/
def hash (r : Revision) : RevisionHash := .digest r.digestInput

/-- The start of a history, without files. -/
def root (timestamp : Timestamp) : Revision := ⟨none, none, timestamp, ∅⟩

/-- The successor of `parent` by one change. -/
def child (parent : Revision) (message : String) (timestamp : Timestamp) (change : FileChange) :
    Revision :=
  ⟨some parent.hash, some message, timestamp, change.apply parent.files⟩

/-- Is the revision the start of a history? -/
def isRoot (r : Revision) : Bool := r.parent.isNone

/-- The revision's line of history. -/
def logEntry (r : Revision) : LogEntry := ⟨r.hash, r.timestamp, r.message⟩

@[simp] theorem isRoot_root (timestamp : Timestamp) : (root timestamp).isRoot = true := rfl

@[simp] theorem isRoot_child (parent : Revision) (message : String) (timestamp : Timestamp)
    (change : FileChange) : (child parent message timestamp change).isRoot = false := rfl

end Revision

end RevisionStore
