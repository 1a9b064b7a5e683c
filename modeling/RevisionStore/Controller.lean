/-
**Controllers: a set of named repositories, stamped by one clock.**

Every operation names the repository it is about and gives its result together with the controller
afterwards.  Creating a revision reads the clock once; nothing else reads it, and an operation that
fails reads nothing and changes nothing.

Main definitions:

* `Controller`, `Controller.find` — repositories by name with a clock, and one of them;
* `Controller.inspect`, `Controller.edit` — looking at one repository, and changing it;
* `Controller.createRepository`, `Controller.createBranch`, `Controller.commit` — the operations
  that create revisions;
* `Controller.snapshot` — what a checkout writes out.
-/

import RevisionStore.Clock
import RevisionStore.Repository.Edit

set_option autoImplicit false

namespace RevisionStore

/-- Repositories by name, and the clock that stamps their revisions. -/
structure Controller where
  repositories : Std.ExtTreeMap String Repository
  clock : Clock

namespace Controller

/-- What an operation gives: its result, and the controller afterwards. -/
abbrev Outcome (α : Type) := Except StoreError α × Controller

/-- A controller without repositories. -/
def withClock (clock : Clock) : Controller := ⟨∅, clock⟩

/-- Puts a repository in the place of the one with its name. -/
def put (c : Controller) (name : String) (r : Repository) : Controller :=
  { c with repositories := c.repositories.insert name r }

/-! ### One repository -/

/-- The repository of a name. -/
def find (c : Controller) (repository : String) : Except StoreError Repository :=
  match c.repositories[repository]? with
  | some r => .ok r
  | none => .error (.unknownRepository repository)

/-- Looks at a repository. -/
def inspect {α : Type} (c : Controller) (repository : String)
    (look : Repository → Except StoreError α) : Except StoreError α := do
  look (← c.find repository)

/-- Changes a repository, without reading the clock. -/
def edit {α : Type} (c : Controller) (repository : String)
    (change : Repository → Except StoreError α × Repository) : Outcome α :=
  match c.find repository with
  | .ok r =>
    let (result, r) := change r
    (result, c.put repository r)
  | .error e => (.error e, c)

/-! ### Repositories -/

/-- Creates a repository under a name that is not taken. -/
def createRepository (c : Controller) (name : String) : Outcome Unit :=
  if c.repositories.contains name then (.error (.repositoryExists name), c)
  else
    let (now, clock) := c.clock.read
    (.ok (), { c with clock := clock }.put name (.create name now))

/-- Drops a repository with all it holds. -/
def deleteRepository (c : Controller) (name : String) : Outcome Unit :=
  if c.repositories.contains name then
    (.ok (), { c with repositories := c.repositories.erase name })
  else (.error (.unknownRepository name), c)

/-- The names of the repositories, in ascending order. -/
def listRepositories (c : Controller) : List String := c.repositories.keys

/-- Drops every repository. -/
def release (c : Controller) : Controller := { c with repositories := ∅ }

/-- The description of a repository. -/
def description (c : Controller) (repository : String) : Except StoreError String :=
  c.inspect repository fun r => .ok r.description

/-- Replaces the description of a repository. -/
def setDescription (c : Controller) (repository text : String) : Outcome Unit :=
  c.edit repository fun r => (.ok (), r.setDescription text)

/-- The primary branch, if the repository still has it. -/
def primaryBranch (c : Controller) (repository : String) : Except StoreError (Option String) :=
  c.inspect repository fun r => .ok r.primaryBranch

/-- Makes an existing branch the primary one. -/
def setPrimaryBranch (c : Controller) (repository branch : String) : Outcome Unit :=
  c.edit repository (·.setPrimaryBranch branch)

/-! ### Branches -/

/-- Points a branch at a new root. -/
def createBranch (c : Controller) (repository branch : String) : Outcome RevisionHash :=
  match c.find repository with
  | .ok r =>
    let (now, clock) := c.clock.read
    let (hash, r) := r.createBranch branch now
    (.ok hash, { c with clock := clock }.put repository r)
  | .error e => (.error e, c)

/-- Points the branch `copy` at the head of the branch `source`. -/
def cloneBranch (c : Controller) (repository source copy : String) : Outcome RevisionHash :=
  c.edit repository (·.cloneBranch source copy)

/-- Drops a branch if there is one. -/
def deleteBranch (c : Controller) (repository branch : String) : Outcome Unit :=
  c.edit repository fun r => (.ok (), (r.deleteBranch branch).2)

/-- The names of the branches, in ascending order. -/
def listBranches (c : Controller) (repository : String) : Except StoreError (List String) :=
  c.inspect repository fun r => .ok r.branches.keys

/-- The head of a branch. -/
def branchHead (c : Controller) (repository branch : String) : Except StoreError RevisionHash :=
  c.inspect repository (·.branchHead branch)

/-! ### Tags -/

/-- Points a tag at the revision that `identifier` names. -/
def createTag (c : Controller) (repository identifier tag : String) : Outcome RevisionHash :=
  c.edit repository (·.createTag identifier tag)

/-- Drops a tag if there is one. -/
def deleteTag (c : Controller) (repository tag : String) : Outcome Unit :=
  c.edit repository fun r => (.ok (), (r.deleteTag tag).2)

/-- The names of the tags, in ascending order. -/
def listTags (c : Controller) (repository : String) : Except StoreError (List String) :=
  c.inspect repository fun r => .ok r.tags.keys

/-! ### Change requests -/

/-- Opens a change request on a branch; without a title it gets one that tells its number. -/
def openChangeRequest (c : Controller) (repository branch : String) (title : Option String) :
    Outcome UInt64 :=
  c.edit repository (·.openChangeRequest branch title)

/-- Drops a change request if it is open. -/
def closeChangeRequest (c : Controller) (repository : String) (number : UInt64) : Outcome Unit :=
  c.edit repository fun r => (.ok (), (r.closeChangeRequest number).2)

/-- The branch that a change request was opened on, if it is open. -/
def changeRequestBaseline (c : Controller) (repository : String) (number : UInt64) :
    Except StoreError (Option String) :=
  c.inspect repository fun r => .ok (r.changeRequests[number]?.map (·.baseline))

/-- The title of a change request, if it is open. -/
def changeRequestTitle (c : Controller) (repository : String) (number : UInt64) :
    Except StoreError (Option String) :=
  c.inspect repository fun r => .ok (r.changeRequests[number]?.map (·.title))

/-- The head of an open change request. -/
def changeRequestHead (c : Controller) (repository : String) (number : UInt64) :
    Except StoreError RevisionHash :=
  c.inspect repository (·.changeRequestHead number)

/-- The numbers of the open change requests, in ascending order. -/
def listChangeRequests (c : Controller) (repository : String) :
    Except StoreError (List UInt64) :=
  c.inspect repository fun r => .ok r.changeRequests.keys

/-- The numbers of the open change requests on a branch, in ascending order. -/
def changeRequestsTargeting (c : Controller) (repository branch : String) :
    Except StoreError (List UInt64) :=
  c.inspect repository fun r => .ok (r.changeRequestsTargeting branch)

/-! ### Commits -/

/-- Commits one change to the ref that `target` names.  The clock is read only once it is known
what the commit builds on. -/
def commit (c : Controller) (repository target message : String) (change : FileChange) :
    Outcome RevisionHash :=
  match c.find repository with
  | .ok r =>
    match r.commitBase target with
    | .ok (ref, base) =>
      -- Nothing can fail from here on.
      let (now, clock) := c.clock.read
      let (hash, r) := r.extend ref base message now change
      (.ok hash, { c with clock := clock }.put repository r)
    | .error e => (.error e, c)
  | .error e => (.error e, c)

/-- Commits a new content of a path. -/
def addFile (c : Controller) (repository target message path : String) (content : Bytes) :
    Outcome RevisionHash :=
  c.commit repository target message (.add path content)

/-- Commits the absence of a path. -/
def removeFile (c : Controller) (repository target message path : String) :
    Outcome RevisionHash :=
  c.commit repository target message (.remove path)

/-! ### Reading -/

/-- The hash of the revision that an identifier names. -/
def resolve (c : Controller) (repository identifier : String) : Except StoreError RevisionHash :=
  c.inspect repository fun r => (r.resolve identifier).map Revision.hash

/-- The hash and the files of the revision that an identifier names. -/
def snapshot (c : Controller) (repository identifier : String) :
    Except StoreError (RevisionHash × Snapshot) :=
  c.inspect repository fun r => (r.resolve identifier).map fun revision =>
    (revision.hash, revision.files)

/-- The history of the revision that an identifier names, newest first. -/
def log (c : Controller) (repository identifier : String) : Except StoreError (List LogEntry) :=
  c.inspect repository (·.log identifier)

/-- What a path denotes in the revision that an identifier names. -/
def stat (c : Controller) (repository identifier path : String) : Except StoreError PathKind :=
  c.inspect repository fun r => (r.resolve identifier).map (·.files.kind path)

/-- The time of the revision that an identifier names, if it names one. -/
def lastModified (c : Controller) (repository identifier : String) : Option Timestamp :=
  (c.inspect repository fun r => (r.resolve identifier).map Revision.timestamp).toOption

/-- The content of a path in the revision that an identifier names, if the path is a file. -/
def fileContent (c : Controller) (repository identifier path : String) :
    Except StoreError (Option Bytes) :=
  c.inspect repository fun r => (r.resolve identifier).map (·.files[path]?)

/-- The paths of the revision that an identifier names, in ascending order. -/
def listFiles (c : Controller) (repository identifier : String) :
    Except StoreError (List String) :=
  c.inspect repository fun r => (r.resolve identifier).map (·.files.keys)

end Controller

end RevisionStore
