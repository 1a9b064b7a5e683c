/-
**The operations that change a repository.**

Each operation gives its result together with the repository afterwards; one that fails gives back
the repository it was given.  A ref is moved by naming it, and a revision, once stored, stays.

Main definitions:

* `Repository.create` — a new repository, with one branch at an empty root;
* `Repository.createBranch`, `Repository.cloneBranch`, `Repository.deleteBranch` — branches;
* `Repository.createTag`, `Repository.deleteTag` — tags;
* `Repository.openChangeRequest`, `Repository.closeChangeRequest` — change requests;
* `Repository.extend`, `Repository.commit` — **one more revision at the head of a ref**.
-/

import RevisionStore.Repository.Basic

set_option autoImplicit false

namespace RevisionStore

/-- The name of the branch that a repository begins with. -/
def defaultBranch : String := "master"

namespace Repository

/-- What an operation that can fail gives: its result, and the repository afterwards. -/
abbrev Outcome (α : Type) := Except StoreError α × Repository

/-- Stores a revision under its hash. -/
def store (r : Repository) (revision : Revision) : Repository :=
  { r with revisions := r.revisions.insert revision.hash revision }

/-! ### Branches -/

/-- Points a branch at a new root, whether or not the branch exists. -/
def createBranch (r : Repository) (branch : String) (timestamp : Timestamp) :
    RevisionHash × Repository :=
  let root := Revision.root timestamp
  (root.hash, { r.store root with branches := r.branches.insert branch root.hash })

/-- A new repository: the default branch, which is also the primary one, at an empty root. -/
def create (name : String) (timestamp : Timestamp) : Repository :=
  ({ empty name with primaryBranch := some defaultBranch }.createBranch defaultBranch timestamp).2

/-- Points the branch `copy` at the head of the branch `source`. -/
def cloneBranch (r : Repository) (source copy : String) : Outcome RevisionHash :=
  match r.branchHead source with
  | .ok hash => (.ok hash, { r with branches := r.branches.insert copy hash })
  | .error e => (.error e, r)

/-- Drops a branch, and says whether there was one.  A primary branch that is dropped is no longer
the primary one. -/
def deleteBranch (r : Repository) (branch : String) : Bool × Repository :=
  if r.branches.contains branch then
    (true, { r with
      branches := r.branches.erase branch
      primaryBranch := if r.primaryBranch = some branch then none else r.primaryBranch })
  else (false, r)

/-- Makes an existing branch the primary one. -/
def setPrimaryBranch (r : Repository) (branch : String) : Outcome Unit :=
  if r.branches.contains branch then (.ok (), { r with primaryBranch := some branch })
  else (.error (.unknownBranch r.name branch), r)

/-- Replaces the description. -/
def setDescription (r : Repository) (text : String) : Repository := { r with description := text }

/-! ### Tags -/

/-- Points a tag at the revision that `identifier` names. -/
def createTag (r : Repository) (identifier tag : String) : Outcome RevisionHash :=
  match r.resolve identifier with
  | .ok revision => (.ok revision.hash, { r with tags := r.tags.insert tag revision.hash })
  | .error e => (.error e, r)

/-- Drops a tag, and says whether there was one. -/
def deleteTag (r : Repository) (tag : String) : Bool × Repository :=
  (r.tags.contains tag, { r with tags := r.tags.erase tag })

/-! ### Change requests -/

/-- The title of a change request that is given none. -/
def defaultTitle (number : UInt64) : String := "Change request #" ++ toString number.toNat

/-- Opens a change request on a branch, at the head of that branch, under the next number. -/
def openChangeRequest (r : Repository) (branch : String) (title : Option String) :
    Outcome UInt64 :=
  match r.branchHead branch with
  | .ok head =>
    let number := r.lastChangeRequest + 1
    let request := ⟨head, branch, title.getD (defaultTitle number)⟩
    (.ok number, { r with
      lastChangeRequest := number
      changeRequests := r.changeRequests.insert number request })
  | .error e => (.error e, r)

/-- Drops a change request, and says whether it was open. -/
def closeChangeRequest (r : Repository) (number : UInt64) : Bool × Repository :=
  (r.changeRequests.contains number,
    { r with changeRequests := r.changeRequests.erase number })

/-! ### Commits -/

/-- Points a commit target at a hash. -/
def moveTarget (r : Repository) (target : CommitTarget) (hash : RevisionHash) : Repository :=
  match target with
  | .branch name => { r with branches := r.branches.insert name hash }
  | .changeRequest number =>
    { r with changeRequests := r.changeRequests.modify number ({ · with head := hash }) }

/-- Stores the child of `base` by one change and points the target at it. -/
def extend (r : Repository) (target : CommitTarget) (base : Revision) (message : String)
    (timestamp : Timestamp) (change : FileChange) : RevisionHash × Repository :=
  let child := base.child message timestamp change
  (child.hash, (r.store child).moveTarget target child.hash)

/-- Commits one change to the ref that `target` names. -/
def commit (r : Repository) (target message : String) (change : FileChange)
    (timestamp : Timestamp) : Outcome RevisionHash :=
  match r.commitBase target with
  | .ok (ref, base) =>
    let (hash, r) := r.extend ref base message timestamp change
    (.ok hash, r)
  | .error e => (.error e, r)

end Repository

end RevisionStore
