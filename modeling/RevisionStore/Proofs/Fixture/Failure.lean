/-
**What a fixture that was read can still fail with.**

Reading a fixture checks the names of its repositories and the contents of its files, but not that
its steps find what they need.  Applied to a controller without repositories it makes each of them
under a name that is free, and fails only where a step needs something that its repository does not
have at that point, or where the primary branch is no branch once all steps are done.  When it is
applied once more, its first repository is there already, however far it got the first time.

Main definitions:

* `Fixture.Step.need` — what a step needs of its repository;
* `Fixture.RepositoryPlan.upTo`, `Fixture.RepositoryPlan.Begins` — a repository with only some of
  its steps, and the point from which these are run;
* `Fixture.File.Fails` — **the failures of a fixture**, one rule for a step and one for a primary
  branch.

Main results:

* `Fixture.applySteps_eq_error_iff`, `Fixture.applyRepositories_eq_error_iff` — what fails is the
  first part that does, after those before it have succeeded;
* `Fixture.Step.apply_eq_error_iff`, `Fixture.RepositoryPlan.apply_eq_error_iff` — a step fails
  exactly where its need is not met, and a repository where a step or its primary branch does;
* `Fixture.reached_applyRepositories` — the repositories that there are after some of a fixture;
* `Fixture.File.Fails.of_apply`, `Fixture.File.Fails.apply_eq` — a fixture fails as the rules say;
* `Fixture.failures_of_accepted` — **that is all that a fixture which was read fails with**, and
  applied once more it fails at once.
-/

import RevisionStore.Proofs.Controller.Refusal
import RevisionStore.Proofs.Fixture.Reproducibility

set_option autoImplicit false

namespace RevisionStore.Fixture

open Controller (Call runCalls)

variable {repository : String} {index : Nat} {c after : Controller} {e : FixtureError}

/-! ### The first part that fails -/

theorem andThen_eq_error_iff {first : Outcome} {next : Controller → Outcome} :
    andThen first next = (.error e, after) ↔
      first = (.error e, after) ∨ ∃ c, first = (.ok (), c) ∧ next c = (.error e, after) := by
  obtain ⟨_ | _, c⟩ := first <;> simp [andThen]

theorem andThen_eq_ok_iff {first : Outcome} {next : Controller → Outcome} :
    andThen first next = (.ok (), after) ↔
      ∃ c, first = (.ok (), c) ∧ next c = (.ok (), after) := by
  obtain ⟨_ | _, c⟩ := first <;> simp [andThen]

theorem andThen_assoc (first : Outcome) (second third : Controller → Outcome) :
    andThen (andThen first second) third = andThen first fun c => andThen (second c) third := by
  obtain ⟨_ | _, c⟩ := first <;> rfl

theorem andThen_continueWith {α : Type} (wrap : StoreError → FixtureError)
    (first : Controller.Outcome α) (second third : Controller → Outcome) :
    andThen (continueWith wrap first second) third =
      continueWith wrap first fun c => andThen (second c) third := by
  obtain ⟨_ | _, c⟩ := first <;> rfl

theorem continueWith_eq_error_iff {α : Type} {wrap : StoreError → FixtureError}
    {first : Controller.Outcome α} {next : Controller → Outcome} :
    continueWith wrap first next = (.error e, after) ↔
      (∃ cause, first = (.error cause, after) ∧ e = wrap cause) ∨
        ∃ a c, first = (.ok a, c) ∧ next c = (.error e, after) := by
  obtain ⟨_ | _, c⟩ := first <;> simp [continueWith, and_comm, eq_comm]

/-- Steps in two parts. -/
theorem applySteps_append (repository : String) (index : Nat) (done rest : List Step)
    (c : Controller) :
    applySteps repository index (done ++ rest) c =
      andThen (applySteps repository index done c)
        (applySteps repository (index + done.length) rest) := by
  induction done generalizing index c with
  | nil => rfl
  | cons step done ih =>
      have later := funext (ih (index + 1))
      rw [Nat.add_assoc, Nat.add_comm 1] at later
      simp only [List.cons_append, applySteps, andThen_continueWith, List.length_cons, later]

/-- Repositories in two parts. -/
theorem applyRepositories_append (earlier others : List RepositoryPlan) (c : Controller) :
    applyRepositories (earlier ++ others) c =
      andThen (applyRepositories earlier c) (applyRepositories others) := by
  induction earlier generalizing c with
  | nil => rfl
  | cons plan earlier ih =>
      have first (plans : List RepositoryPlan) :
          applyRepositories (plan :: plans) c = andThen (plan.apply c) (applyRepositories plans) :=
        rfl
      rw [List.cons_append, first, first, andThen_assoc]
      exact congrArg _ (funext ih)

/-- **Steps fail where one of them does, after those before it.** -/
theorem applySteps_eq_error_iff {steps : List Step} :
    applySteps repository index steps c = (.error e, after) ↔
      ∃ done step rest before cause, steps = done ++ step :: rest ∧
        applySteps repository index done c = (.ok (), before) ∧
        step.apply repository before = (.error cause, after) ∧
        e = .stepFailed repository (index + done.length) step.op cause := by
  constructor
  · intro failed
    induction steps generalizing index c with
    | nil => cases failed
    | cons step steps ih =>
        rcases continueWith_eq_error_iff.1 failed with ⟨cause, here, rfl⟩ | ⟨_, c', ran, later⟩
        · exact ⟨[], step, steps, c, cause, rfl, rfl, here, rfl⟩
        · obtain ⟨done, step', rest, before, cause, rfl, ok, here, rfl⟩ := ih later
          refine ⟨step :: done, step', rest, before, cause, rfl, ?_, here, ?_⟩
          · rw [applySteps, ran]
            exact ok
          · rw [List.length_cons, Nat.add_assoc, Nat.add_comm 1]
  · rintro ⟨done, step, rest, before, cause, rfl, ok, here, rfl⟩
    rw [applySteps_append, ok]
    exact continueWith_eq_error_iff.2 (.inl ⟨cause, here, rfl⟩)

/-- **Repositories fail where one of them does, after those before it.** -/
theorem applyRepositories_eq_error_iff {plans : List RepositoryPlan} :
    applyRepositories plans c = (.error e, after) ↔
      ∃ earlier plan others before, plans = earlier ++ plan :: others ∧
        applyRepositories earlier c = (.ok (), before) ∧ plan.apply before = (.error e, after) := by
  constructor
  · intro failed
    induction plans generalizing c with
    | nil => cases failed
    | cons plan plans ih =>
        rcases andThen_eq_error_iff.1 failed with here | ⟨c', made, later⟩
        · exact ⟨[], plan, plans, c, rfl, rfl, here⟩
        · obtain ⟨earlier, plan', others, before, rfl, ok, here⟩ := ih later
          refine ⟨plan :: earlier, plan', others, before, rfl, ?_, here⟩
          exact andThen_eq_ok_iff.2 ⟨c', made, ok⟩
  · rintro ⟨earlier, plan, others, before, rfl, ok, here⟩
    rw [applyRepositories_append, ok]
    exact andThen_eq_error_iff.2 (.inr ⟨before, rfl, andThen_eq_error_iff.2 (.inl here)⟩)

/-! ### Steps -/

/-- What a step needs of its repository. -/
def Step.need : Step → Need
  | cloneBranch source _ => .branch source
  | addFile target _ _ _ _ => .target target
  | removeFile target _ _ => .target target
  | tag identifier _ => .identifier identifier
  | openChangeRequest branch _ => .branch branch
  | _ => .nothing

/-- The call of a step is about the repository of the step, and needs what the step needs. -/
theorem Step.repository?_of_call {step : Step} {call : Call Unit}
    (planned : step.call? repository = some call) :
    call.repository? = some repository ∧ call.need = step.need ∧
      (∀ name, call ≠ .createRepository name) ∧
      ∀ destination name identifier, call ≠ .checkout destination name identifier := by
  cases step with
  | addFile target message path text digits =>
      rw [call?_addFile] at planned
      obtain ⟨bytes, -, rfl⟩ := Option.map_eq_some_iff.1 planned
      simp [Call.repository?, Call.need, need]
  | _ => cases planned; simp [Call.repository?, Call.need, need]

/-- **A step fails exactly where its need is not met**, and then leaves everything as it was. -/
theorem Step.apply_eq_error_iff {r : Repository} {step : Step} {bytes : Bytes} {cause : StoreError}
    (recorded : c.Recorded) (found : c.repositories[repository]? = some r)
    (content : step.contentBytes = .ok bytes) :
    step.apply repository c = (.error cause, after) ↔ step.need.Unmet r cause ∧ after = c := by
  obtain ⟨call, planned⟩ := Step.exists_call repository content
  obtain ⟨names, need, no_creation, no_checkout⟩ := Step.repository?_of_call planned
  have same := Step.ignoring_apply planned c
  have fails : (step.apply repository c).1 = .error cause ↔ (call.run () c).1.1 = .error cause := by
    have result : (step.apply repository c).1.map (fun _ => ()) =
        (call.run () c).1.1.map fun _ => () := congrArg Prod.fst same
    rw [← map_eq_error_iff (f := fun _ => ()), result, map_eq_error_iff]
  have state : (step.apply repository c).2 = (call.run () c).1.2 := congrArg Prod.snd same
  have unmet : (call.run () c).1.1 = .error cause ↔ call.need.Unmet r cause :=
    Call.run_eq_error_iff (recorded.wellFormed found) names found no_creation no_checkout
  rw [Prod.ext_iff, fails, unmet, need, state]
  refine and_congr_right fun here => ?_
  rw [Call.run_of_error (unmet.2 (need ▸ here))]
  exact eq_comm

/-! ### Repositories -/

/-- A plan for a repository with some steps only, and no primary branch to be set. -/
def RepositoryPlan.upTo (plan : RepositoryPlan) (steps : List Step) : RepositoryPlan :=
  { plan with steps := steps, primaryBranch := none }

/-- Under a name that is taken no repository is made. -/
theorem RepositoryPlan.apply_of_taken {plan : RepositoryPlan}
    (taken : plan.name ∈ c.repositories) :
    plan.apply c = (.error (.repositoryFailed plan.name (.repositoryExists plan.name)), c) := by
  have refused : c.createRepository plan.name = (.error (.repositoryExists plan.name), c) :=
    if_pos (Std.ExtTreeMap.contains_iff_mem.2 taken)
  rw [apply, refused]
  rfl

/-- A repository that is there can be described. -/
theorem applyDescription_eq_ok {plan : RepositoryPlan} {r : Repository}
    (found : c.repositories[plan.name]? = some r) :
    ∃ described, applyDescription plan c = (.ok (), described) := by
  unfold applyDescription
  split
  · exact ⟨_, Controller.edit_of_find (Controller.find_eq_ok_iff.2 found) _⟩
  · exact ⟨c, rfl⟩

/-- From `begun` on the steps are run and the primary branch is set, whatever these are. -/
def RepositoryPlan.Begins (plan : RepositoryPlan) (c begun : Controller) : Prop :=
  ∀ steps primary,
    RepositoryPlan.apply { plan with steps := steps, primaryBranch := primary } c =
      andThen (applySteps plan.name 0 steps begun) fun c =>
        continueWith (.repositoryFailed plan.name)
          (applyPrimaryBranch { plan with steps := steps, primaryBranch := primary } c)
          fun c => (.ok (), c)

/-- Under a name that is free the repository is made and described before the first step. -/
theorem RepositoryPlan.exists_begins (plan : RepositoryPlan) (free : plan.name ∉ c.repositories) :
    ∃ begun, plan.Begins c begun := by
  have succeeds : (c.createRepository plan.name).1 = .ok () := by
    rw [Controller.createRepository, if_neg (mt Std.ExtTreeMap.contains_iff_mem.1 free)]
  obtain ⟨made, created⟩ : ∃ made, c.createRepository plan.name = (.ok (), made) :=
    ⟨_, Prod.ext succeeds rfl⟩
  have there := Controller.getElem?_createRepository c plan.name
  rw [created] at there
  obtain ⟨begun, described⟩ := applyDescription_eq_ok there
  refine ⟨begun, fun steps primary => ?_⟩
  -- What is described does not depend on the steps and the primary branch.
  have described' : applyDescription { plan with steps := steps, primaryBranch := primary } made =
      (.ok (), begun) := described
  simp only [apply, created, continueWith, described']
  rfl

/-- With some steps only, a repository is made up to there. -/
theorem RepositoryPlan.Begins.apply_upTo {plan : RepositoryPlan} {begun : Controller}
    (begins : plan.Begins c begun) (steps : List Step) :
    (plan.upTo steps).apply c = applySteps plan.name 0 steps begun := by
  rw [upTo, begins]
  rcases applySteps plan.name 0 steps begun with ⟨_ | _, c⟩ <;> rfl

/-- **A repository under a free name fails where one of its steps does, or where its primary branch
cannot be set once all steps are done.** -/
theorem RepositoryPlan.apply_eq_error_iff {plan : RepositoryPlan}
    (free : plan.name ∉ c.repositories) :
    plan.apply c = (.error e, after) ↔
      (∃ done step rest before cause, plan.steps = done ++ step :: rest ∧
        (plan.upTo done).apply c = (.ok (), before) ∧
        step.apply plan.name before = (.error cause, after) ∧
        e = .stepFailed plan.name done.length step.op cause) ∨
      ∃ before cause, (plan.upTo plan.steps).apply c = (.ok (), before) ∧
        applyPrimaryBranch plan before = (.error cause, after) ∧
        e = .repositoryFailed plan.name cause := by
  obtain ⟨begun, begins⟩ := plan.exists_begins free
  simp only [begins.apply_upTo]
  rw [begins plan.steps plan.primaryBranch, andThen_eq_error_iff, applySteps_eq_error_iff]
  refine or_congr (by simp only [Nat.zero_add]) (exists_congr fun before => ?_)
  rw [continueWith_eq_error_iff, or_iff_left (by rintro ⟨_, _, -, ⟨⟩⟩), exists_and_left]

/-! ### What there is after some of a fixture -/

theorem RepositoryPlan.exists_calls {plan : RepositoryPlan}
    (contents : ∀ step ∈ plan.steps, ∃ bytes, step.contentBytes = .ok bytes) :
    ∃ calls, plan.calls? = some calls := by
  obtain ⟨calls, planned⟩ := exists_stepCalls plan.name 0 contents
  exact ⟨_, by rw [calls?, planned]; rfl⟩

/-- The calls of a repository create that one and no other. -/
theorem RepositoryPlan.createRepository_mem_iff {plan : RepositoryPlan} {name : String}
    {calls : List (Origin × Call Unit)} (planned : plan.calls? = some calls) :
    .createRepository name ∈ calls.map Prod.snd ↔ name = plan.name := by
  obtain ⟨steps, planned_steps, rfl⟩ := Option.map_eq_some_iff.1 planned
  have in_steps : .createRepository name ∉ steps.map Prod.snd := by
    intro here
    obtain ⟨placed, among, same⟩ := List.mem_map.1 here
    obtain ⟨numbered, -, planned_step⟩ := exists_of_mem_mapM planned_steps among
    obtain ⟨call, planned_call, rfl⟩ := Option.map_eq_some_iff.1 planned_step
    exact (Step.repository?_of_call planned_call).2.2.1 name same
  simp [in_steps]

theorem createRepository_mem_flatten_iff {plans : List RepositoryPlan} {name : String}
    {each : List (List (Origin × Call Unit))}
    (planned : plans.mapM RepositoryPlan.calls? = some each) :
    .createRepository name ∈ each.flatten.map Prod.snd ↔ name ∈ plans.map RepositoryPlan.name := by
  induction plans generalizing each with
  | nil => cases planned; simp
  | cons plan plans ih =>
      obtain ⟨first, others, planned_first, planned_others, rfl⟩ :=
        mapM_cons_eq_some_iff.1 planned
      rw [List.flatten_cons, List.map_append, List.mem_append, ih planned_others,
        RepositoryPlan.createRepository_mem_iff planned_first, List.map_cons, List.mem_cons]

/-- **After some repositories of a fixture there are these, beside those before.** -/
theorem reached_applyRepositories {plans : List RepositoryPlan} (reachable : c.Reachable)
    (contents : ∀ plan ∈ plans, ∀ step ∈ plan.steps, ∃ bytes, step.contentBytes = .ok bytes)
    (made : applyRepositories plans c = (.ok (), after)) :
    after.Reachable ∧ ∀ name, name ∈ after.repositories ↔
      name ∈ c.repositories ∨ name ∈ plans.map RepositoryPlan.name := by
  obtain ⟨each, planned⟩ := exists_mapM_eq_some fun plan here =>
    RepositoryPlan.exists_calls (contents plan here)
  have replays := replays_applyRepositories planned c
  rw [made] at replays
  rcases replays.completes_or_stops with ⟨-, same⟩ | ⟨_, _, _, _, _, -, -, -, ⟨⟩⟩
  obtain rfl := congrArg Prod.snd same
  refine ⟨reachable.runCalls () _, fun name => ?_⟩
  rw [← createRepository_mem_flatten_iff planned]
  refine Controller.mem_repositories_runCalls fun call here => ?_
  obtain ⟨placed, among, rfl⟩ := List.mem_map.1 here
  have planned_file : (⟨none, plans⟩ : File).calls? = some each.flatten := by
    rw [File.calls?, planned]
    rfl
  exact File.stays_of_calls planned_file name placed among

/-! ### The failures of a fixture -/

/-- How a fixture can fail, and the controller that it then leaves.  A primary branch cannot be set
if it is no branch when all steps of its repository are done, and a step fails if its repository
does not have what the step needs when those before it are done. -/
inductive File.Fails (file : File) (c : Controller) : FixtureError → Controller → Prop
  | primaryBranch {earlier others : List RepositoryPlan} {plan : RepositoryPlan} {branch : String}
      {r : Repository} {after : Controller}
      (declared : file.repositories = earlier ++ plan :: others)
      (asked : plan.primaryBranch = some branch)
      (reached : applyRepositories (earlier ++ [plan.upTo plan.steps]) c = (.ok (), after))
      (found : after.repositories[plan.name]? = some r) (absent : branch ∉ r.branches) :
      Fails file c (.repositoryFailed plan.name (.unknownBranch plan.name branch)) after
  | step {earlier others : List RepositoryPlan} {plan : RepositoryPlan} {done rest : List Step}
      {step : Step} {r : Repository} {cause : StoreError} {after : Controller}
      (declared : file.repositories = earlier ++ plan :: others)
      (steps : plan.steps = done ++ step :: rest)
      (reached : applyRepositories (earlier ++ [plan.upTo done]) c = (.ok (), after))
      (found : after.repositories[plan.name]? = some r) (unmet : step.need.Unmet r cause) :
      Fails file c (.stepFailed plan.name done.length step.op cause) after

/-- A primary branch cannot be set where it is no branch. -/
theorem applyPrimaryBranch_eq_error_iff {plan : RepositoryPlan} {r : Repository}
    {cause : StoreError} (recorded : c.Recorded) (found : c.repositories[plan.name]? = some r) :
    applyPrimaryBranch plan c = (.error cause, after) ↔
      ∃ branch, plan.primaryBranch = some branch ∧ branch ∉ r.branches ∧
        cause = .unknownBranch plan.name branch ∧ after = c := by
  rw [applyPrimaryBranch]
  cases plan.primaryBranch with
  | none => simp
  | some branch =>
      have there := Controller.find_eq_ok_iff.2 found
      simp only [Controller.setPrimaryBranch, Controller.edit_of_find there, Option.some.injEq,
        exists_eq_left', Repository.setPrimaryBranch, recorded.name_eq found]
      by_cases present : branch ∈ r.branches
      · simp [present]
      · simp [present, Controller.put_of_find there, eq_comm (a := cause), eq_comm (a := after)]

/-- What there is when some steps of a repository of the fixture are done. -/
theorem File.exists_reached {file : File} (valid : file.validate = .ok ())
    {earlier others : List RepositoryPlan} {plan : RepositoryPlan} {steps : List Step}
    (declared : file.repositories = earlier ++ plan :: others) (among : steps ⊆ plan.steps)
    (reachable : c.Reachable)
    (reached : applyRepositories (earlier ++ [plan.upTo steps]) c = (.ok (), after)) :
    after.Reachable ∧ ∃ r, after.repositories[plan.name]? = some r := by
  have all := (File.validate_eq_ok_iff.1 valid).2.1
  rw [declared] at all
  have contents : ∀ other ∈ earlier ++ [plan.upTo steps], ∀ step ∈ other.steps,
      ∃ bytes, step.contentBytes = .ok bytes := by
    intro other here
    rcases List.mem_append.1 here with first | last
    · exact (all other (List.mem_append_left _ first)).2
    · cases List.mem_singleton.1 last
      exact fun step here => (all plan (by simp)).2 step (among here)
  obtain ⟨reachable', there⟩ := reached_applyRepositories reachable contents reached
  have present : plan.name ∈ after.repositories :=
    (there plan.name).2 (.inr (by simp [RepositoryPlan.upTo]))
  exact ⟨reachable', _, Std.ExtTreeMap.getElem?_eq_some_getElem present⟩

/-- The steps of the fixture all have their content. -/
theorem File.exists_content {file : File} (valid : file.validate = .ok ())
    {earlier others : List RepositoryPlan} {plan : RepositoryPlan} {done rest : List Step}
    {step : Step} (declared : file.repositories = earlier ++ plan :: others)
    (steps : plan.steps = done ++ step :: rest) : ∃ bytes, step.contentBytes = .ok bytes :=
  ((File.validate_eq_ok_iff.1 valid).2.1 plan (by simp [declared])).2 step (by simp [steps])

/-- The name of a repository of the fixture is free until its turn. -/
theorem File.free_of_reached {file : File} {clock : Clock} (valid : file.validate = .ok ())
    {earlier others : List RepositoryPlan} {plan : RepositoryPlan}
    (declared : file.repositories = earlier ++ plan :: others)
    (reached : applyRepositories earlier (.withClock clock) = (.ok (), after)) :
    plan.name ∉ after.repositories := by
  obtain ⟨-, contents, different⟩ := File.validate_eq_ok_iff.1 valid
  rw [declared] at contents different
  have there := (reached_applyRepositories (.start clock)
    (fun other here => (contents other (List.mem_append_left _ here)).2) reached).2 plan.name
  rw [there]
  rintro (before | among)
  · exact absurd before (by simp [Controller.withClock])
  · rw [List.map_append, List.map_cons] at different
    exact (List.nodup_append.1 different).2.2 _ among _ List.mem_cons_self rfl

theorem applyRepositories_concat_eq_ok_iff {earlier : List RepositoryPlan} {plan : RepositoryPlan} :
    applyRepositories (earlier ++ [plan]) c = (.ok (), after) ↔
      ∃ before, applyRepositories earlier c = (.ok (), before) ∧
        plan.apply before = (.ok (), after) := by
  rw [applyRepositories_append, andThen_eq_ok_iff]
  refine exists_congr fun before => and_congr_right fun _ => ?_
  rw [applyRepositories]
  rcases plan.apply before with ⟨_ | _, c'⟩ <;> simp [applyRepositories]

/-- A fixture fails only as the rules say. -/
theorem File.Fails.of_apply {file : File} {clock : Clock} (valid : file.validate = .ok ())
    (failed : applyRepositories file.repositories (.withClock clock) = (.error e, after)) :
    file.Fails (.withClock clock) e after := by
  obtain ⟨earlier, plan, others, before, declared, ready, fails⟩ :=
    applyRepositories_eq_error_iff.1 failed
  have free := File.free_of_reached valid declared ready
  rcases (RepositoryPlan.apply_eq_error_iff free).1 fails with
    ⟨done, step, rest, middle, cause, steps, made, refused, rfl⟩ |
    ⟨middle, cause, made, refused, rfl⟩
  · have reached := applyRepositories_concat_eq_ok_iff.2 ⟨before, ready, made⟩
    have some_steps : done ⊆ plan.steps := steps ▸ List.subset_append_left _ _
    obtain ⟨reachable, r, found⟩ :=
      File.exists_reached valid declared some_steps (.start clock) reached
    obtain ⟨bytes, content⟩ := File.exists_content valid declared steps
    obtain ⟨unmet, rfl⟩ := (Step.apply_eq_error_iff reachable.recorded found content).1 refused
    exact .step declared steps reached found unmet
  · have reached := applyRepositories_concat_eq_ok_iff.2 ⟨before, ready, made⟩
    obtain ⟨reachable, r, found⟩ :=
      File.exists_reached valid declared (List.Subset.refl _) (.start clock) reached
    obtain ⟨branch, asked, absent, rfl, rfl⟩ :=
      (applyPrimaryBranch_eq_error_iff reachable.recorded found).1 refused
    exact .primaryBranch declared asked reached found absent

/-- It does fail as the rules say. -/
theorem File.Fails.apply_eq {file : File} {clock : Clock} (valid : file.validate = .ok ())
    (fails : file.Fails (.withClock clock) e after) :
    applyRepositories file.repositories (.withClock clock) = (.error e, after) := by
  cases fails with
  | @primaryBranch earlier others plan branch r _ declared asked reached found absent =>
      obtain ⟨before, ready, made⟩ := applyRepositories_concat_eq_ok_iff.1 reached
      have free := File.free_of_reached valid declared ready
      have recorded :=
        (File.exists_reached valid declared (List.Subset.refl _) (.start clock) reached).1.recorded
      have refused := (applyPrimaryBranch_eq_error_iff recorded found).2
        ⟨branch, asked, absent, rfl, rfl⟩
      exact applyRepositories_eq_error_iff.2 ⟨earlier, plan, others, before, declared, ready,
        (RepositoryPlan.apply_eq_error_iff free).2 (.inr ⟨_, _, made, refused, rfl⟩)⟩
  | @step earlier others plan done rest step r cause _ declared steps reached found unmet =>
      obtain ⟨before, ready, made⟩ := applyRepositories_concat_eq_ok_iff.1 reached
      have free := File.free_of_reached valid declared ready
      have some_steps : done ⊆ plan.steps := steps ▸ List.subset_append_left _ _
      have recorded :=
        (File.exists_reached valid declared some_steps (.start clock) reached).1.recorded
      obtain ⟨bytes, content⟩ := File.exists_content valid declared steps
      have refused := (Step.apply_eq_error_iff recorded found content).2 ⟨unmet, rfl⟩
      exact applyRepositories_eq_error_iff.2 ⟨earlier, plan, others, before, declared, ready,
        (RepositoryPlan.apply_eq_error_iff free).2
          (.inl ⟨done, step, rest, _, cause, steps, made, refused, rfl⟩)⟩

/-! ### What a failure tells -/

/-- What is missing for a step of each kind.  The other kinds need nothing. -/
theorem Step.cause_of_unmet {step : Step} {r : Repository} {cause : StoreError}
    (unmet : step.need.Unmet r cause) :
    (step.op ∈ ["clone-branch", "open-change-request"] ∧
        ∃ branch, cause = .unknownBranch r.name branch) ∨
      (step.op ∈ ["add-file", "rm-file"] ∧
        ((∃ target, cause = .unknownTarget r.name target) ∨
          ∃ number, cause = .unknownChangeRequest r.name number)) ∨
      (step.op = "tag" ∧
        ((∃ identifier, cause = .unknownIdentifier r.name identifier) ∨
          ∃ number, cause = .unknownChangeRequest r.name number)) := by
  cases step with
  | cloneBranch source copy => cases unmet; exact .inl ⟨by simp [op], _, rfl⟩
  | openChangeRequest branch title => cases unmet; exact .inl ⟨by simp [op], _, rfl⟩
  | addFile target message path text digits =>
      refine .inr (.inl ⟨by simp [op], ?_⟩)
      cases unmet
      · exact .inr ⟨_, rfl⟩
      · exact .inl ⟨_, rfl⟩
  | removeFile target message path =>
      refine .inr (.inl ⟨by simp [op], ?_⟩)
      cases unmet
      · exact .inr ⟨_, rfl⟩
      · exact .inl ⟨_, rfl⟩
  | tag identifier name =>
      refine .inr (.inr ⟨rfl, ?_⟩)
      cases unmet
      · exact .inr ⟨_, rfl⟩
      · exact .inl ⟨_, rfl⟩
  | _ => cases unmet

/-- The first repository of a fixture is there afterwards, however far the fixture got. -/
theorem mem_repositories_of_apply {fixture : Fixture} {clock : Clock} {plan : RepositoryPlan}
    {plans : List RepositoryPlan} (valid : fixture.file.validate = .ok ())
    (given : fixture.file.repositories = plan :: plans) :
    plan.name ∈ (fixture.apply (.withClock clock)).2.repositories := by
  obtain ⟨calls, planned⟩ := File.exists_calls valid
  obtain ⟨rest, rfl⟩ := File.calls_cons given planned
  have stays := fun call here =>
    File.stays_of_calls planned plan.name call (List.mem_cons_of_mem _ here)
  obtain ⟨hash, stored, found, -⟩ := (replays_apply planned (.withClock clock)).holds_first stays
  obtain ⟨r, there, -⟩ := Option.map_eq_some_iff.1 found
  exact (Std.ExtTreeMap.getElem?_eq_some_iff.1 there).1

/-- **What a fixture that was read can still fail with.**  Applied to a controller without
repositories it fails exactly if a step needs what its repository does not have when the steps
before it are done, or if a primary branch is no branch when all steps of its repository are done.
The error then tells of that repository: a failure of the repository as a whole is always that of a
primary branch; a step that clones a branch or opens a change request fails with an unknown branch,
one that adds or removes a file with an unknown target or change request, one that makes a tag with
an unknown identifier or change request, and a step of another kind does not fail.  Applied a second
time, however far it got the first time, it fails at once, its first repository being there already,
and changes nothing. -/
theorem failures_of_accepted (fixture : Fixture) (accepted : fixture.Accepted) (clock : Clock) :
    let c := Controller.withClock clock
    let outcome := fixture.apply c
    (∀ e after, outcome = (.error e, after) ↔ fixture.file.Fails c e after) ∧
      (∀ name cause, outcome.1 = .error (.repositoryFailed name cause) →
        ∃ branch, cause = .unknownBranch name branch) ∧
      (∀ name index op cause, outcome.1 = .error (.stepFailed name index op cause) →
        (op ∈ ["clone-branch", "open-change-request"] ∧
            ∃ branch, cause = .unknownBranch name branch) ∨
          (op ∈ ["add-file", "rm-file"] ∧
            ((∃ target, cause = .unknownTarget name target) ∨
              ∃ number, cause = .unknownChangeRequest name number)) ∨
          (op = "tag" ∧
            ((∃ identifier, cause = .unknownIdentifier name identifier) ∨
              ∃ number, cause = .unknownChangeRequest name number))) ∧
      ∀ plan plans, fixture.file.repositories = plan :: plans →
        fixture.apply outcome.2 =
          (.error (.repositoryFailed plan.name (.repositoryExists plan.name)), outcome.2) := by
  intro c outcome
  have valid := accepted.validate_eq_ok
  have exactly (e : FixtureError) (after : Controller) :
      outcome = (.error e, after) ↔ fixture.file.Fails c e after :=
    ⟨File.Fails.of_apply valid, File.Fails.apply_eq valid⟩
  refine ⟨exactly, fun name cause failed => ?_, fun name index op cause failed => ?_,
    fun plan plans given => ?_⟩
  · cases (exactly _ _).1 (Prod.ext failed rfl) with
    | primaryBranch => exact ⟨_, rfl⟩
  · cases (exactly _ _).1 (Prod.ext failed rfl) with
    | step declared steps reached found unmet =>
        have some_steps := steps ▸ List.subset_append_left _ _
        have recorded :=
          (File.exists_reached valid declared some_steps (.start clock) reached).1.recorded
        rw [← recorded.name_eq found]
        exact Step.cause_of_unmet unmet
  · have taken : plan.name ∈ outcome.2.repositories := mem_repositories_of_apply valid given
    have refused := RepositoryPlan.apply_of_taken taken
    rw [apply, given, applyRepositories, refused]

/-- A primary branch that the steps have deleted cannot be set, and after that the repository is in
the way. -/
theorem failures_of_accepted_deleted :
    let text := "[[repository]]\nname = \"r\"\nprimary_branch = \"master\"\n\n" ++
      "[[repository.step]]\nop = \"delete-branch\"\nname = \"master\"\n"
    let plan : RepositoryPlan := ⟨"r", none, some "master", [.deleteBranch "master"]⟩
    let fixture : Fixture := ⟨⟨none, [plan]⟩, none⟩
    let outcome := fixture.apply (.withClock (.fixed ⟨0⟩))
    parse text = .ok fixture ∧
      fixture.file.Fails (.withClock (.fixed ⟨0⟩))
        (.repositoryFailed "r" (.unknownBranch "r" "master")) outcome.2 ∧
      fixture.apply outcome.2 =
        (.error (.repositoryFailed "r" (.repositoryExists "r")), outcome.2) := by
  intro text plan fixture outcome
  have read : parse text = .ok fixture := by decide +kernel
  have fails : outcome.1 = .error (.repositoryFailed "r" (.unknownBranch "r" "master")) := by
    decide +kernel
  obtain ⟨exactly, -, -, again⟩ := failures_of_accepted fixture (.inl ⟨text, read⟩) (.fixed ⟨0⟩)
  exact ⟨read, (exactly _ _).1 (Prod.ext fails rfl), again plan [] rfl⟩

end RevisionStore.Fixture
