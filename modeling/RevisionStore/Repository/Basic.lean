/-
**Repositories: a store of revisions, and the refs that point into it.**

Revisions are stored under their hash and none is ever taken out.  Branches and tags name a
revision, an open change request has a head of its own beside the branch it was opened on.  An
identifier is looked up in a fixed order: a stored hash, a branch, a tag, a change request.

Main definitions:

* `Repository`, `ChangeRequest` — the store with its refs;
* `Repository.classify`, `Repository.resolve` — what a name stands for, and the revision it names;
* `Repository.log` — a revision with all its ancestors, newest first;
* `Repository.commitTarget`, `Repository.commitBase` — the ref that a commit would move, and the
  revision that it would build on.
-/

import RevisionStore.Error
import RevisionStore.Identifier
import RevisionStore.Revision

set_option autoImplicit false

namespace RevisionStore

/-- An open change request: its own head, the branch it was opened on, and a title. -/
structure ChangeRequest where
  head : RevisionHash
  baseline : String
  title : String
deriving DecidableEq

/-- A named collection of revisions and refs.  The last change-request number ever given out is
kept, so that a closed request's number does not come back. -/
structure Repository where
  name : String
  description : String
  primaryBranch : Option String
  revisions : Std.ExtTreeMap RevisionHash Revision
  branches : Std.ExtTreeMap String RevisionHash
  tags : Std.ExtTreeMap String RevisionHash
  changeRequests : Std.ExtTreeMap UInt64 ChangeRequest
  lastChangeRequest : UInt64
deriving DecidableEq

namespace Repository

/-- A repository without revisions and refs. -/
def empty (name : String) : Repository where
  name := name
  description := ""
  primaryBranch := none
  revisions := ∅
  branches := ∅
  tags := ∅
  changeRequests := ∅
  lastChangeRequest := 0

/-! ### Refs -/

/-- The hash that a branch points at. -/
def branchHead (r : Repository) (branch : String) : Except StoreError RevisionHash :=
  match r.branches[branch]? with
  | some hash => .ok hash
  | none => .error (.unknownBranch r.name branch)

/-- The hash that an open change request points at. -/
def changeRequestHead (r : Repository) (number : UInt64) : Except StoreError RevisionHash :=
  match r.changeRequests[number]? with
  | some request => .ok request.head
  | none => .error (.unknownChangeRequest r.name number)

/-- The numbers of the open change requests that were opened on a branch, in ascending order. -/
def changeRequestsTargeting (r : Repository) (branch : String) : List UInt64 :=
  (r.changeRequests.toList.filter fun (_, request) => request.baseline = branch).map Prod.fst

/-! ### Names of revisions -/

/-- What a text stands for.  A stored hash goes before a branch of that name, a branch before a
tag, and a tag before a change request. -/
def classify (r : Repository) (text : String) : Identifier :=
  let stored := match RevisionHash.parse text with
    | .ok hash => if r.revisions.contains hash then some hash else none
    | .error _ => none
  match stored with
  | some hash => .hash hash
  | none =>
    if r.branches.contains text then .branch text
    else if r.tags.contains text then .tag text
    else match ChangeRequest.number? text with
      | some number => .changeRequest number
      | none => .unrecognized text

/-- The hash that an identifier points at. -/
def hashOf (r : Repository) (identifier : Identifier) : Except StoreError RevisionHash :=
  match identifier with
  | .hash hash => .ok hash
  | .branch name => r.branchHead name
  | .tag name =>
    match r.tags[name]? with
    | some hash => .ok hash
    | none => .error (.unknownIdentifier r.name name)
  | .changeRequest number => r.changeRequestHead number
  | .unrecognized text => .error (.unknownIdentifier r.name text)

/-- The revision that a text names. -/
def resolve (r : Repository) (text : String) : Except StoreError Revision := do
  let hash ← r.hashOf (r.classify text)
  match r.revisions[hash]? with
  | some revision => .ok revision
  | none => .error (.unknownIdentifier r.name text)

/-! ### History -/

/-- The stored revision that `revision` was made from. -/
def parentOf (r : Repository) (revision : Revision) : Option Revision :=
  revision.parent.bind fun hash => r.revisions[hash]?

/-- The revision and its ancestors, newest first, at most `bound` of them. -/
def ancestry (r : Repository) (revision : Revision) (bound : Nat) : List Revision :=
  match bound with
  | 0 => []
  | bound + 1 =>
    revision :: match r.parentOf revision with
      | some parent => r.ancestry parent bound
      | none => []

@[simp] theorem ancestry_zero (r : Repository) (revision : Revision) :
    r.ancestry revision 0 = [] := rfl

theorem ancestry_succ (r : Repository) (revision : Revision) (bound : Nat) :
    r.ancestry revision (bound + 1) =
      revision :: (r.parentOf revision).elim [] (r.ancestry · bound) := by
  rw [ancestry]
  cases r.parentOf revision <;> rfl

/-- The history of the revision that a text names, newest first.  A history visits no stored
revision twice, so the number of stored revisions bounds it. -/
def log (r : Repository) (text : String) : Except StoreError (List LogEntry) := do
  let revision ← r.resolve text
  return (r.ancestry revision r.revisions.size).map Revision.logEntry

/-! ### Places to commit to -/

/-- The ref that a commit to `text` moves: the branch of that name, else the open change request. -/
def commitTarget (r : Repository) (text : String) : Except StoreError CommitTarget :=
  if r.branches.contains text then .ok (.branch text)
  else match ChangeRequest.number? text with
    | some number =>
      if r.changeRequests.contains number then .ok (.changeRequest number)
      else .error (.unknownChangeRequest r.name number)
    | none => .error (.unknownTarget r.name text)

/-- The hash that a commit target points at. -/
def targetHead (r : Repository) : CommitTarget → Except StoreError RevisionHash
  | .branch name => r.branchHead name
  | .changeRequest number => r.changeRequestHead number

/-- The ref that a commit to `text` moves, and the revision that it builds on. -/
def commitBase (r : Repository) (text : String) :
    Except StoreError (CommitTarget × Revision) := do
  let target ← r.commitTarget text
  let hash ← r.targetHead target
  match r.revisions[hash]? with
  | some revision => .ok (target, revision)
  | none => .error (.unknownIdentifier r.name hash.toHex)

end Repository

end RevisionStore
