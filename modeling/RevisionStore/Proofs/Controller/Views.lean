/-
**What is read of a revision is read of one revision.**

Each way of reading looks a repository up, resolves the identifier in it and takes something of the
revision.  They are one lookup, followed by different projections; only the log goes on from there,
to the ancestors.

Main definitions:

* `Controller.revision` — **the revision that an identifier names**.

Main results:

* `Controller.inspect_map` — looking at a part is taking the part of what is looked at;
* `Controller.resolve_eq`, `Controller.snapshot_eq` and their like — the projections.
-/

import RevisionStore.Controller

set_option autoImplicit false

namespace RevisionStore.Controller

variable {α β : Type}

/-- The revision that an identifier names in a repository. -/
def revision (c : Controller) (repository identifier : String) : Except StoreError Revision :=
  c.inspect repository (·.resolve identifier)

/-- **Looking at a part is taking the part of what is looked at.** -/
theorem inspect_map (c : Controller) (repository : String)
    (look : Repository → Except StoreError α) (part : α → β) :
    c.inspect repository (fun r => (look r).map part) = (c.inspect repository look).map part := by
  unfold inspect
  cases c.find repository <;> rfl

section

variable (c : Controller) (repository identifier path : String)

theorem resolve_eq :
    c.resolve repository identifier = (c.revision repository identifier).map Revision.hash :=
  c.inspect_map repository _ _

theorem snapshot_eq :
    c.snapshot repository identifier =
      (c.revision repository identifier).map fun revision => (revision.hash, revision.files) :=
  c.inspect_map repository _ _

theorem stat_eq :
    c.stat repository identifier path =
      (c.revision repository identifier).map (·.files.kind path) :=
  c.inspect_map repository _ _

theorem lastModified_eq :
    c.lastModified repository identifier =
      ((c.revision repository identifier).map Revision.timestamp).toOption :=
  congrArg Except.toOption (c.inspect_map repository _ _)

theorem fileContent_eq :
    c.fileContent repository identifier path =
      (c.revision repository identifier).map (·.files[path]?) :=
  c.inspect_map repository _ _

theorem listFiles_eq :
    c.listFiles repository identifier =
      (c.revision repository identifier).map (·.files.keys) :=
  c.inspect_map repository _ _

end

end RevisionStore.Controller
