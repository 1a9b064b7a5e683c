/-
**Applying a fixture carries out its calls, up to the first that fails.**

A fixture stands for a list of calls: each repository is created and described, its steps are
carried out, and its primary branch is set.  Applying the fixture comes to the same as carrying
these calls out one after the other and stopping at the first that fails, whose failure is reported
with the place that the call has in the fixture.

Main definitions:

* `Fixture.Origin`, `Fixture.Origin.report` — the place of a call in a fixture, and how a failure is
  reported from there;
* `Fixture.Step.call?`, `Fixture.RepositoryPlan.calls?`, `Fixture.File.calls?` — **the calls that a
  fixture stands for**, if every file that it adds has one content;
* `Fixture.andThen`, `Fixture.Replays` — going on unless something failed, and **carrying calls
  out, up to the first that fails**.

Main results:

* `Fixture.Step.call?_addFile` — what is added is the one content of the step;
* `Fixture.File.exists_calls` — an accepted fixture stands for some calls;
* `Fixture.Replays.append`, `Fixture.Replays.completes_or_stops`, `Fixture.Replays.exists_carried` —
  calls that are carried out in two parts, and how far they get;
* `Fixture.replays_applySteps`, `Fixture.RepositoryPlan.replays_apply`, `Fixture.replays_apply` —
  applying a fixture carries its calls out;
* `Fixture.apply_replays_calls` — **on success all of them were carried out, and else those before
  the one that failed**.
-/

import RevisionStore.Fixture.Apply
import RevisionStore.Proofs.Controller.Runs
import RevisionStore.Proofs.Fixture.Accepted

set_option autoImplicit false

namespace RevisionStore.Fixture

open Controller (Call Answer runCalls Completes completes_nil completes_cons)

/-! ### The calls that a fixture stands for -/

/-- The place of a call in a fixture: a step of a repository, or the repository as a whole. -/
inductive Origin where
  | repository (name : String)
  | step (repository : String) (index : Nat) (op : String)
deriving DecidableEq, Repr

/-- The failure of a call, reported from its place. -/
def Origin.report : Origin → StoreError → FixtureError
  | repository name, cause => .repositoryFailed name cause
  | step name index op, cause => .stepFailed name index op cause

/-- The call that a step stands for.  A file is added with the bytes of its text or with those that
its digits spell; where it has not one of the two, there is no such call. -/
def Step.call? (repository : String) : Step → Option (Call Unit)
  | createBranch name => some (.createBranch repository name)
  | cloneBranch source copy => some (.cloneBranch repository source copy)
  | deleteBranch name => some (.deleteBranch repository name)
  | addFile target message path (some text) none =>
    some (.addFile repository target message path (Bytes.ofText text))
  | addFile target message path none (some digits) =>
    (Hex.decode digits).toOption.map (.addFile repository target message path)
  | addFile _ _ _ (some _) (some _) | addFile _ _ _ none none => none
  | removeFile target message path => some (.removeFile repository target message path)
  | tag identifier name => some (.createTag repository identifier name)
  | deleteTag name => some (.deleteTag repository name)
  | openChangeRequest branch title => some (.openChangeRequest repository branch title)
  | closeChangeRequest number => some (.closeChangeRequest repository number)

/-- The calls that steps stand for, the first of which has the number `index`. -/
def stepCalls? (repository : String) (index : Nat) (steps : List Step) :
    Option (List (Origin × Call Unit)) :=
  (steps.zipIdx index).mapM fun numbered =>
    (numbered.1.call? repository).map (.step repository numbered.2 numbered.1.op, ·)

/-- The calls that a repository stands for. -/
def RepositoryPlan.calls? (plan : RepositoryPlan) : Option (List (Origin × Call Unit)) :=
  let whole (call : Call Unit) := (Origin.repository plan.name, call)
  (stepCalls? plan.name 0 plan.steps).map fun steps =>
    [whole (.createRepository plan.name)] ++
      plan.description.toList.map (fun text => whole (.setDescription plan.name text)) ++ steps ++
      plan.primaryBranch.toList.map fun branch => whole (.setPrimaryBranch plan.name branch)

/-- The calls that a fixture stands for. -/
def File.calls? (file : File) : Option (List (Origin × Call Unit)) :=
  (file.repositories.mapM RepositoryPlan.calls?).map List.flatten

/-! An accepted fixture stands for some calls. -/

theorem mapM_cons_eq_some_iff {α β : Type} {f : α → Option β} {item : α} {items : List α}
    {bs : List β} :
    (item :: items).mapM f = some bs ↔
      ∃ b rest, f item = some b ∧ items.mapM f = some rest ∧ b :: rest = bs := by
  rw [List.mapM_cons]
  simp [Option.bind_eq_some_iff]

theorem exists_mapM_eq_some {α β : Type} {f : α → Option β} {items : List α}
    (some_each : ∀ item ∈ items, ∃ b, f item = some b) : ∃ bs, items.mapM f = some bs := by
  induction items with
  | nil => exact ⟨[], rfl⟩
  | cons item items ih =>
      obtain ⟨⟨b, first⟩, rest⟩ := List.forall_mem_cons.1 some_each
      obtain ⟨bs, others⟩ := ih rest
      exact ⟨b :: bs, mapM_cons_eq_some_iff.2 ⟨b, bs, first, others, rfl⟩⟩

/-- The call for a file is there if the file has one content, and adds that content. -/
theorem Step.call?_addFile (repository target message path : String)
    (text digits : Option String) :
    (addFile target message path text digits).call? repository =
      (addFile target message path text digits).contentBytes.toOption.map
        (.addFile repository target message path) := by
  cases text with
  | some text => cases digits <;> rfl
  | none =>
      cases digits with
      | none => rfl
      | some digits =>
          rw [call?, contentBytes]
          cases Hex.decode digits <;> rfl

theorem Step.exists_call (repository : String) {step : Step} {bytes : Bytes}
    (content : step.contentBytes = .ok bytes) : ∃ call, step.call? repository = some call := by
  cases step with
  | addFile target message path text digits =>
      exact ⟨_, by rw [call?_addFile, content]; rfl⟩
  | _ => exact ⟨_, rfl⟩

theorem exists_stepCalls (repository : String) (index : Nat) {steps : List Step}
    (contents : ∀ step ∈ steps, ∃ bytes, step.contentBytes = .ok bytes) :
    ∃ calls, stepCalls? repository index steps = some calls := by
  refine exists_mapM_eq_some fun numbered here => ?_
  obtain ⟨bytes, content⟩ := contents numbered.1 (List.fst_mem_of_mem_zipIdx here)
  obtain ⟨call, planned⟩ := Step.exists_call repository content
  exact ⟨_, by rw [planned]; rfl⟩

/-- **A fixture whose values are let through stands for some calls.** -/
theorem File.exists_calls {file : File} (valid : file.validate = .ok ()) :
    ∃ calls, file.calls? = some calls := by
  obtain ⟨-, plans, -⟩ := File.validate_eq_ok_iff.1 valid
  have each : ∀ plan ∈ file.repositories, ∃ calls, plan.calls? = some calls := by
    intro plan here
    obtain ⟨calls, planned⟩ := exists_stepCalls plan.name 0 (plans plan here).2
    exact ⟨_, by rw [RepositoryPlan.calls?, planned]; rfl⟩
  obtain ⟨calls, planned⟩ := exists_mapM_eq_some each
  exact ⟨_, by rw [calls?, planned]; rfl⟩

/-! ### Carrying calls out -/

/-- What comes after a part of a fixture, unless the part failed. -/
def andThen (first : Outcome) (next : Controller → Outcome) : Outcome :=
  match first with
  | (.ok (), c) => next c
  | failed => failed

/-- Carrying calls out comes to the outcome: each in turn, until one fails.  The one that fails
leaves no trace but the report of its failure. -/
inductive Replays : Controller → List (Origin × Call Unit) → Outcome → Prop where
  | done (c : Controller) : Replays c [] (.ok (), c)
  | next {c c' : Controller} {origin : Origin} {call : Call Unit} {answer : Answer}
      {calls : List (Origin × Call Unit)} {outcome : Outcome}
      (ran : (call.run () c).1 = (.ok answer, c')) (rest : Replays c' calls outcome) :
      Replays c ((origin, call) :: calls) outcome
  | stop {c : Controller} {origin : Origin} {call : Call Unit} {cause : StoreError}
      {calls : List (Origin × Call Unit)} (failed : (call.run () c).1.1 = .error cause) :
      Replays c ((origin, call) :: calls) (.error (origin.report cause), c)

section

variable {c : Controller} {calls : List (Origin × Call Unit)} {outcome : Outcome}

/-- Carrying calls out in two parts. -/
theorem Replays.append {later : List (Origin × Call Unit)} {next : Controller → Outcome}
    (first : Replays c calls outcome) (rest : ∀ c, Replays c later (next c)) :
    Replays c (calls ++ later) (andThen outcome next) := by
  induction first with
  | done c => exact rest c
  | next ran _ ih => exact .next ran ih
  | stop failed => exact .stop failed

/-- **All calls are carried out, or those before one that fails.** -/
theorem Replays.completes_or_stops (replays : Replays c calls outcome) :
    (Completes () c (calls.map Prod.snd) ∧
      outcome = (.ok (), (runCalls () c (calls.map Prod.snd)).1)) ∨
    ∃ done origin call rest cause, calls = done ++ (origin, call) :: rest ∧
      Completes () c (done.map Prod.snd) ∧
      (call.run () (runCalls () c (done.map Prod.snd)).1).1.1 = .error cause ∧
      outcome = (.error (origin.report cause), (runCalls () c (done.map Prod.snd)).1) := by
  induction replays with
  | done c => exact .inl ⟨completes_nil () c, rfl⟩
  | stop failed => exact .inr ⟨[], _, _, _, _, rfl, completes_nil () _, failed, rfl⟩
  | @next c c' origin call answer calls outcome ran _ ih =>
      obtain ⟨answered, rfl⟩ := Prod.ext_iff.1 ran
      have succeeds : (call.run () c).1.1.isOk = true := by rw [answered]; rfl
      rcases ih with ⟨completes, same⟩ | ⟨done, origin', call', rest, cause, rfl, completes, stops⟩
      · exact .inl ⟨completes_cons.2 ⟨succeeds, completes⟩, same⟩
      · exact .inr ⟨(origin, call) :: done, origin', call', rest, cause, rfl,
          completes_cons.2 ⟨succeeds, completes⟩, stops⟩

/-- What the calls leave behind is a run of the first of them, and of all if nothing fails. -/
theorem Replays.exists_carried (replays : Replays c calls outcome) :
    ∃ carried, carried <+: calls ∧ (outcome.1 = .ok () → carried = calls) ∧
      outcome.2 = (runCalls () c (carried.map Prod.snd)).1 := by
  rcases replays.completes_or_stops with
    ⟨-, rfl⟩ | ⟨done, origin, call, rest, cause, rfl, -, -, rfl⟩
  · exact ⟨calls, List.prefix_rfl, fun _ => rfl, rfl⟩
  · exact ⟨done, List.prefix_append done _, by rintro ⟨⟩, rfl⟩

/-! An operation that does what a call does. -/

theorem ignoring_answering {α : Type} (answer : α → Answer) (outcome : Controller.Outcome α) :
    ignoring (Controller.answering answer outcome) = ignoring outcome := by
  obtain ⟨result, c⟩ := outcome
  cases result <;> rfl

theorem ignoring_ignoring {α : Type} (outcome : Controller.Outcome α) :
    ignoring (ignoring outcome) = ignoring outcome := by
  obtain ⟨result, c⟩ := outcome
  cases result <;> rfl

/-- An operation and what comes after it, where the operation does what a call does. -/
theorem replays_continueWith {α : Type} {origin : Origin} {call : Call Unit}
    {operation : Controller.Outcome α} {next : Controller → Outcome}
    (same : ignoring operation = ignoring (call.run () c).1)
    (rest : ∀ c, Replays c calls (next c)) :
    Replays c ((origin, call) :: calls) (continueWith origin.report operation next) := by
  obtain ⟨result, after⟩ := operation
  have state : after = (call.run () c).1.2 := congrArg Prod.snd same
  have success : result.map (fun _ => ()) = (call.run () c).1.1.map fun _ => () :=
    congrArg Prod.fst same
  cases ran : (call.run () c).1.1 with
  | error cause =>
      rw [ran] at success
      cases result <;> cases success
      obtain rfl : after = c := by rw [state, Controller.Call.run_of_error ran]
      exact .stop ran
  | ok answer =>
      rw [ran] at success
      cases result <;> cases success
      exact .next (Prod.ext ran state.symm) (rest after)

/-- The same for an operation that is left out where it has no value. -/
theorem replays_optional {origin : Origin} {value : Option String} {call : String → Call Unit}
    {operation : Controller.Outcome Unit} {next : Controller → Outcome}
    (absent : value = none → operation = (.ok (), c))
    (present : ∀ text, value = some text → ignoring operation = ignoring ((call text).run () c).1)
    (rest : ∀ c, Replays c calls (next c)) :
    Replays c (value.toList.map (fun text => (origin, call text)) ++ calls)
      (continueWith origin.report operation next) := by
  cases value with
  | none =>
      rw [absent rfl]
      exact rest c
  | some text => exact replays_continueWith (present text rfl) rest

end

/-! ### Applying -/

/-- A step does what its call does. -/
theorem Step.ignoring_apply {repository : String} {step : Step} {call : Call Unit}
    (planned : step.call? repository = some call) (c : Controller) :
    ignoring (step.apply repository c) = ignoring (call.run () c).1 := by
  cases step with
  | addFile target message path text digits =>
      rw [call?_addFile] at planned
      obtain ⟨bytes, content, rfl⟩ := Option.map_eq_some_iff.1 planned
      simp only [apply, content, Option.getD_some, Call.run, ignoring_ignoring,
        ignoring_answering]
  | _ =>
      cases planned
      simp only [apply, Call.run, ignoring_ignoring, ignoring_answering]

variable {calls : List (Origin × Call Unit)}

/-- Steps are carried out one after the other. -/
theorem replays_applySteps {repository : String} {index : Nat} {steps : List Step}
    (planned : stepCalls? repository index steps = some calls) (c : Controller) :
    Replays c calls (applySteps repository index steps c) := by
  induction steps generalizing index calls c with
  | nil => cases planned; exact .done c
  | cons step steps ih =>
      rw [stepCalls?, List.zipIdx_cons] at planned
      obtain ⟨first, others, planned_first, planned_others, rfl⟩ :=
        mapM_cons_eq_some_iff.1 planned
      obtain ⟨call, planned_call, rfl⟩ := Option.map_eq_some_iff.1 planned_first
      exact replays_continueWith (Step.ignoring_apply planned_call c) (ih planned_others)

/-- A repository is created and described, its steps are carried out, and its primary branch is
set. -/
theorem RepositoryPlan.replays_apply {plan : RepositoryPlan} (planned : plan.calls? = some calls)
    (c : Controller) : Replays c calls (plan.apply c) := by
  obtain ⟨steps, planned_steps, rfl⟩ := Option.map_eq_some_iff.1 planned
  simp only [List.append_assoc, List.cons_append]
  have primary (c : Controller) :
      Replays c (plan.primaryBranch.toList.map fun branch =>
          (.repository plan.name, .setPrimaryBranch plan.name branch))
        (continueWith (Origin.repository plan.name).report (applyPrimaryBranch plan c)
          fun c => (.ok (), c)) := by
    rw [← List.append_nil (List.map _ _)]
    refine replays_optional (fun absent => ?_) (fun branch present => ?_) .done
    · rw [applyPrimaryBranch, absent]
    · rw [applyPrimaryBranch, present, Call.run, ignoring_answering]
  -- The description and the steps come before, and the repository itself first.
  refine replays_continueWith (by rw [Call.run, ignoring_answering]) fun c => ?_
  refine replays_optional (fun absent => ?_) (fun text present => ?_)
    fun c => (replays_applySteps planned_steps c).append primary
  · rw [applyDescription, absent]
  · rw [applyDescription, present, Call.run, ignoring_answering]

/-- Repositories are made one after the other. -/
theorem replays_applyRepositories {plans : List RepositoryPlan}
    {each : List (List (Origin × Call Unit))}
    (planned : plans.mapM RepositoryPlan.calls? = some each) (c : Controller) :
    Replays c each.flatten (applyRepositories plans c) := by
  induction plans generalizing each c with
  | nil => cases planned; exact .done c
  | cons plan plans ih =>
      obtain ⟨first, others, planned_first, planned_others, rfl⟩ :=
        mapM_cons_eq_some_iff.1 planned
      exact (RepositoryPlan.replays_apply planned_first c).append (ih planned_others)

/-- **Applying a fixture carries its calls out.** -/
theorem replays_apply {fixture : Fixture} (planned : fixture.file.calls? = some calls)
    (c : Controller) : Replays c calls (fixture.apply c) := by
  obtain ⟨each, planned_each, rfl⟩ := Option.map_eq_some_iff.1 planned
  exact replays_applyRepositories planned_each c

/-- **Applying a fixture carries out its calls up to the first that fails.**  In a fixture that was
read every file that is added has one content, and so the fixture stands for a list of calls: each
repository is created and described, its steps are carried out, and its primary branch is set.
Either all of them succeed, one after the other, and applying the fixture leaves the controller as
they do; or some call fails after those before it have succeeded, and applying the fixture leaves
the controller, with its clock, as those before it do and reports the failure of that call from its
place. -/
theorem apply_replays_calls (fixture : Fixture) (accepted : fixture.Accepted) (c : Controller) :
    (∀ plan ∈ fixture.file.repositories, ∀ step ∈ plan.steps,
        ∃ bytes, step.contentBytes = .ok bytes) ∧
      ∃ calls, fixture.file.calls? = some calls ∧
        ((Completes () c (calls.map Prod.snd) ∧
            fixture.apply c = (.ok (), (runCalls () c (calls.map Prod.snd)).1)) ∨
          ∃ done origin call rest cause, calls = done ++ (origin, call) :: rest ∧
            Completes () c (done.map Prod.snd) ∧
            (call.run () (runCalls () c (done.map Prod.snd)).1).1.1 = .error cause ∧
            fixture.apply c =
              (.error (origin.report cause), (runCalls () c (done.map Prod.snd)).1)) := by
  have valid := accepted.validate_eq_ok
  obtain ⟨calls, planned⟩ := File.exists_calls valid
  obtain ⟨-, plans, -⟩ := File.validate_eq_ok_iff.1 valid
  exact ⟨fun plan here => (plans plan here).2, calls, planned,
    (replays_apply planned c).completes_or_stops⟩

/-- A step that clones a branch which is not there ends a fixture after the calls before it. -/
theorem apply_replays_calls_ghost :
    let text := "[[repository]]\nname = \"r\"\n\n" ++
      "[[repository.step]]\nop = \"create-branch\"\nname = \"dev\"\n\n" ++
      "[[repository.step]]\nop = \"clone-branch\"\nfrom = \"ghost\"\nto = \"copy\"\n\n" ++
      "[[repository]]\nname = \"later\"\n"
    let ghostly : Fixture := ⟨⟨none, [
      ⟨"r", none, none, [.createBranch "dev", .cloneBranch "ghost" "copy"]⟩,
      ⟨"later", none, none, []⟩]⟩, none⟩
    let c := Controller.withClock (.stepping ⟨0⟩ 1)
    let failure := FixtureError.stepFailed "r" 1 "clone-branch" (.unknownBranch "r" "ghost")
    parse text = .ok ghostly ∧ (ghostly.apply c).1 = .error failure ∧
      ∃ done origin call rest cause,
        ghostly.file.calls? = some (done ++ (origin, call) :: rest) ∧
          Completes () c (done.map Prod.snd) ∧ origin.report cause = failure ∧
          (ghostly.apply c).2 = (runCalls () c (done.map Prod.snd)).1 := by
  intro text ghostly c failure
  have read : parse text = .ok ghostly := by decide +kernel
  have fails : (ghostly.apply c).1 = .error failure := by decide +kernel
  obtain ⟨-, calls, planned, ⟨-, completes⟩ | ⟨done, origin, call, rest, cause, rfl, completes, -,
    stops⟩⟩ := apply_replays_calls ghostly (.inl ⟨text, read⟩) c
  · rw [completes] at fails
    cases fails
  · rw [stops] at fails
    exact ⟨read, by rw [stops]; exact fails, done, origin, call, rest, cause, planned, completes,
      Except.error.inj fails, congrArg Prod.snd stops⟩

end RevisionStore.Fixture
