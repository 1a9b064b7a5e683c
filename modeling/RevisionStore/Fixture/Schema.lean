/-
**Fixtures: repositories described as data.**

A fixture says where the time comes from, and for each repository which steps fill it.  It is
written down as a tree of data, in which a field that may be absent may also be nothing.

Main definitions:

* `Fixture.Step`, `Fixture.Step.op` — one step, and the name of its kind;
* `Fixture.Step.tagText` — the tag that a step of this kind bears where it is written down;
* `Fixture.RepositoryPlan`, `Fixture.ClockSettings`, `Fixture.File` — a repository, the time source,
  and the whole;
* `Fixture.File.toData` — **the tree that a fixture is written down as**.
-/

import RevisionStore.Data

set_option autoImplicit false

namespace RevisionStore.Fixture

/-! ### Steps -/

/-- One step of filling a repository. -/
inductive Step where
  | createBranch (name : String)
  | cloneBranch (source copy : String)
  | deleteBranch (name : String)
  | addFile (target message path : String) (content contentHex : Option String)
  | removeFile (target message path : String)
  | tag (identifier name : String)
  | deleteTag (name : String)
  | openChangeRequest (branch : String) (title : Option String)
  | closeChangeRequest (number : UInt64)
deriving DecidableEq, Repr

/-- The name of the step's kind. -/
def Step.op : Step → String
  | createBranch .. => "create-branch"
  | cloneBranch .. => "clone-branch"
  | deleteBranch .. => "delete-branch"
  | addFile .. => "add-file"
  | removeFile .. => "rm-file"
  | tag .. => "tag"
  | deleteTag .. => "delete-tag"
  | openChangeRequest .. => "open-change-request"
  | closeChangeRequest .. => "close-change-request"

/-- The words for the step's kind, run together with a capital letter each. -/
def Step.kindWords : Step → String
  | createBranch .. => "CreateBranch"
  | cloneBranch .. => "CloneBranch"
  | deleteBranch .. => "DeleteBranch"
  | addFile .. => "AddFile"
  | removeFile .. => "RmFile"
  | tag .. => "Tag"
  | deleteTag .. => "DeleteTag"
  | openChangeRequest .. => "OpenChangeRequest"
  | closeChangeRequest .. => "CloseChangeRequest"

/-- Words run together with a capital letter each, as lowercase words with hyphens between them. -/
def hyphenated (words : String) : String :=
  match words.toList with
  | [] => ""
  | first :: rest =>
    String.ofList (first.toLower ::
      rest.flatMap fun c => if c.isUpper then ['-', c.toLower] else [c.toLower])

/-- The tag of the step's kind.  It comes from the words for the kind, while `Step.op` is a list of
names of its own. -/
def Step.tagText (step : Step) : String := hyphenated step.kindWords

/-- The fields of the step as they are written down. -/
def Step.fields : Step → List (String × Data)
  | createBranch name => [("name", .text name)]
  | cloneBranch source copy => [("from", .text source), ("to", .text copy)]
  | deleteBranch name => [("name", .text name)]
  | addFile target message path content contentHex =>
    [("target", .text target), ("message", .text message), ("path", .text path),
      ("content", .ofText? content), ("content_hex", .ofText? contentHex)]
  | removeFile target message path =>
    [("target", .text target), ("message", .text message), ("path", .text path)]
  | tag identifier name => [("at", .text identifier), ("name", .text name)]
  | deleteTag name => [("name", .text name)]
  | openChangeRequest branch title => [("branch", .text branch), ("title", .ofText? title)]
  | closeChangeRequest number => [("number", .integer number.toNat)]

/-- The step as it is written down: the tag of its kind, then its fields. -/
def Step.toData (step : Step) : Data := .record (("op", .text step.tagText) :: step.fields)

/-! ### Fixtures -/

/-- A repository, the steps that fill it, and its primary branch once they are done. -/
structure RepositoryPlan where
  name : String
  description : Option String
  primaryBranch : Option String
  steps : List Step
deriving DecidableEq, Repr

/-- The repository as it is written down. -/
def RepositoryPlan.toData (plan : RepositoryPlan) : Data :=
  .record [("name", .text plan.name), ("description", .ofText? plan.description),
    ("primary_branch", .ofText? plan.primaryBranch),
    ("step", .list (plan.steps.map Step.toData))]

/-- Where the time comes from: a fixed time, or a first time and the step from one reading to the
next. -/
structure ClockSettings where
  fixed : Option Int64
  start : Option Int64
  step : Option Int64
deriving DecidableEq, Repr

/-- The settings as they are written down. -/
def ClockSettings.toData (settings : ClockSettings) : Data :=
  .record [("fixed", .ofInt64? settings.fixed), ("start", .ofInt64? settings.start),
    ("step", .ofInt64? settings.step)]

/-- A fixture: the time source, if one is set, and the repositories in the order they are made. -/
structure File where
  clock : Option ClockSettings
  repositories : List RepositoryPlan
deriving DecidableEq, Repr

/-- The fixture as it is written down. -/
def File.toData (file : File) : Data :=
  .record [("clock", (file.clock.map ClockSettings.toData).getD .null),
    ("repository", .list (file.repositories.map RepositoryPlan.toData))]

end RevisionStore.Fixture
