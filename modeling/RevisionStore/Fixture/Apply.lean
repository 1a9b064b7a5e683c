/-
**Applying a fixture: replaying its steps against a controller.**

The repositories are made one after the other.  The first operation that fails ends it, and what was
done before stays done.

Main definitions:

* `Fixture.Step.apply` — one step;
* `Fixture.applySteps`, `Fixture.RepositoryPlan.apply` — the steps of a repository, and the
  repository;
* `Fixture.apply` — **all of it**.
-/

import RevisionStore.Controller
import RevisionStore.Fixture.Load

set_option autoImplicit false

namespace RevisionStore.Fixture

/-- What a part of a fixture gives: success or the failure, and the controller afterwards. -/
abbrev Outcome := Except FixtureError Unit × Controller

/-- The outcome of `next` after an operation, unless the operation failed. -/
def continueWith {α : Type} (wrap : StoreError → FixtureError)
    (first : Controller.Outcome α) (next : Controller → Outcome) : Outcome :=
  match first with
  | (.ok _, c) => next c
  | (.error e, c) => (.error (wrap e), c)

/-- An operation whose result does not matter. -/
def ignoring {α : Type} (outcome : Controller.Outcome α) : Controller.Outcome Unit :=
  (outcome.1.map fun _ => (), outcome.2)

/-! ### Steps -/

/-- Runs one step on a repository. -/
def Step.apply (repository : String) (step : Step) (c : Controller) : Controller.Outcome Unit :=
  match step with
  | createBranch name => ignoring (c.createBranch repository name)
  | cloneBranch source copy => ignoring (c.cloneBranch repository source copy)
  | deleteBranch name => c.deleteBranch repository name
  | addFile target message path _ _ =>
    -- The steps of a fixture that was checked all have their content.
    ignoring (c.addFile repository target message path (step.contentBytes.toOption.getD []))
  | removeFile target message path => ignoring (c.removeFile repository target message path)
  | tag identifier name => ignoring (c.createTag repository identifier name)
  | deleteTag name => c.deleteTag repository name
  | openChangeRequest branch title => ignoring (c.openChangeRequest repository branch title)
  | closeChangeRequest number => c.closeChangeRequest repository number

/-- Runs the steps in order, the first of which has the number `index`. -/
def applySteps (repository : String) (index : Nat) : List Step → Controller → Outcome
  | [], c => (.ok (), c)
  | step :: rest, c =>
    continueWith (.stepFailed repository index step.op) (step.apply repository c)
      (applySteps repository (index + 1) rest)

/-! ### Repositories -/

/-- Sets the description, if there is one. -/
def applyDescription (plan : RepositoryPlan) (c : Controller) : Controller.Outcome Unit :=
  match plan.description with
  | some text => c.setDescription plan.name text
  | none => (.ok (), c)

/-- Sets the primary branch, if there is one. -/
def applyPrimaryBranch (plan : RepositoryPlan) (c : Controller) : Controller.Outcome Unit :=
  match plan.primaryBranch with
  | some branch => c.setPrimaryBranch plan.name branch
  | none => (.ok (), c)

/-- Makes a repository, describes it, runs its steps and sets its primary branch. -/
def RepositoryPlan.apply (plan : RepositoryPlan) (c : Controller) : Outcome :=
  let wrap := FixtureError.repositoryFailed plan.name
  continueWith wrap (c.createRepository plan.name) fun c =>
    continueWith wrap (applyDescription plan c) fun c =>
      match applySteps plan.name 0 plan.steps c with
      | (.ok (), c) => continueWith wrap (applyPrimaryBranch plan c) fun c => (.ok (), c)
      | failed => failed

/-- Makes the repositories in order. -/
def applyRepositories : List RepositoryPlan → Controller → Outcome
  | [], c => (.ok (), c)
  | plan :: rest, c =>
    match plan.apply c with
    | (.ok (), c) => applyRepositories rest c
    | failed => failed

/-- Makes every repository of the fixture. -/
def apply (fixture : Fixture) (c : Controller) : Outcome :=
  applyRepositories fixture.file.repositories c

end RevisionStore.Fixture
