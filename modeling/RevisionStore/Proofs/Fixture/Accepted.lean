/-
**Which fixtures are accepted.**

A fixture that was read, from a text or from a file, has been checked.  The checks let exactly those
values through that are said here: a clock section names at most one time source, the repositories
have names that are all different and none of them empty, and every step that adds a file has one
content.

Main definitions:

* `Fixture.Accepted` — the fixture was read and checked.

Main results:

* `Fixture.ClockSettings.validate_eq_ok_iff`, `Fixture.validateSteps_eq_ok_iff`,
  `Fixture.validateRepositories_eq_ok_iff` — the parts that the checks let through;
* `Fixture.File.validate_eq_ok_iff` — **the fixtures that they let through**;
* `Fixture.Accepted.validate_eq_ok` — a fixture that was read is one of these.
-/

import RevisionStore.Fixture.Load
import Mathlib.Data.List.Nodup

set_option autoImplicit false

namespace RevisionStore.Fixture

/-! ### The checks -/

/-- A clock section is let through if a fixed time stands alone in it, and a step goes with a
start. -/
theorem ClockSettings.validate_eq_ok_iff {settings : ClockSettings} :
    settings.validate = .ok () ↔
      (settings.fixed.isSome → settings.start = none ∧ settings.step = none) ∧
        (settings.step.isSome → settings.start.isSome) := by
  obtain ⟨fixed, start, step⟩ := settings
  cases fixed <;> cases start <;> cases step <;> simp [validate]

/-- Steps are let through if each of them has its content. -/
theorem validateSteps_eq_ok_iff {steps : List Step} :
    validateSteps steps = .ok () ↔ ∀ step ∈ steps, ∃ bytes, step.contentBytes = .ok bytes := by
  induction steps with
  | nil => simp [validateSteps]
  | cons step rest ih =>
      rw [validateSteps, bind_eq_ok_iff, List.forall_mem_cons, ← ih]
      exact exists_and_right

/-- One more repository is let through if it has a name that none before it has, its steps are let
through, and so are the repositories after it. -/
theorem validateRepositories_cons_eq_ok_iff {seen : List String} {plan : RepositoryPlan}
    {rest : List RepositoryPlan} :
    validateRepositories seen (plan :: rest) = .ok () ↔
      plan.name ≠ "" ∧ plan.name ∉ seen ∧ validateSteps plan.steps = .ok () ∧
        validateRepositories (plan.name :: seen) rest = .ok () := by
  rw [validateRepositories]
  by_cases unnamed : plan.name = ""
  · rw [if_pos unnamed]
    exact iff_of_false (by rintro ⟨⟩) fun valid => valid.1 unnamed
  · by_cases repeated : plan.name ∈ seen
    · rw [if_neg unnamed, if_pos (List.contains_iff_mem.2 repeated)]
      exact iff_of_false (by rintro ⟨⟩) fun valid => valid.2.1 repeated
    · rw [if_neg unnamed, if_neg (mt List.contains_iff_mem.1 repeated)]
      exact check_bind_eq_ok_iff.trans
        ((and_iff_right unnamed).trans (and_iff_right repeated)).symm

/-- Repositories are let through if their names are not empty, not among those seen before, and all
different, and their steps are let through. -/
theorem validateRepositories_eq_ok_iff {seen : List String} {plans : List RepositoryPlan} :
    validateRepositories seen plans = .ok () ↔
      (∀ plan ∈ plans, plan.name ≠ "" ∧ plan.name ∉ seen ∧ validateSteps plan.steps = .ok ()) ∧
        (plans.map RepositoryPlan.name).Nodup := by
  induction plans generalizing seen with
  | nil => simp [validateRepositories]
  | cons plan rest ih =>
      rw [validateRepositories_cons_eq_ok_iff, ih, List.forall_mem_cons, List.map_cons,
        List.nodup_cons, List.mem_map]
      constructor
      · rintro ⟨named, new, steps, others, different⟩
        refine ⟨⟨⟨named, new, steps⟩, fun other here => ?_⟩, ?_, different⟩
        · obtain ⟨named', new', steps'⟩ := others other here
          exact ⟨named', fun seen => new' (List.mem_cons_of_mem _ seen), steps'⟩
        · rintro ⟨other, here, same⟩
          exact (others other here).2.1 (List.mem_cons.2 (.inl same))
      · rintro ⟨⟨⟨named, new, steps⟩, others⟩, unlike, different⟩
        refine ⟨named, new, steps, fun other here => ?_, different⟩
        obtain ⟨named', new', steps'⟩ := others other here
        refine ⟨named', fun seen => ?_, steps'⟩
        rcases List.mem_cons.1 seen with same | seen
        · exact unlike ⟨other, here, same⟩
        · exact new' seen

/-- **The fixtures that the checks let through.** -/
theorem File.validate_eq_ok_iff {file : File} :
    file.validate = .ok () ↔
      (∀ settings, file.clock = some settings → settings.validate = .ok ()) ∧
        (∀ plan ∈ file.repositories, plan.name ≠ "" ∧
          ∀ step ∈ plan.steps, ∃ bytes, step.contentBytes = .ok bytes) ∧
        (file.repositories.map RepositoryPlan.name).Nodup := by
  have parts : file.validate = .ok () ↔
      (∀ settings, file.clock = some settings → settings.validate = .ok ()) ∧
        validateRepositories [] file.repositories = .ok () := by
    rw [File.validate]
    cases file.clock with
    | none => exact (and_iff_right (by rintro settings ⟨⟩)).symm
    | some settings =>
        simp only [Option.some.injEq, forall_eq']
        exact check_bind_eq_ok_iff
  simp only [parts, validateRepositories_eq_ok_iff, validateSteps_eq_ok_iff, List.not_mem_nil,
    not_false_eq_true, true_and]

/-! ### Reading -/

/-- The fixture was read, from a text or from a file, and checked. -/
def Accepted (fixture : Fixture) : Prop :=
  (∃ text, parse text = .ok fixture) ∨ ∃ path content, load path content = .ok fixture

theorem validate_of_parseNamed {name text : String} {file : File}
    (read : parseNamed name text = .ok file) : file.validate = .ok () := by
  obtain ⟨data, -, read⟩ := bind_eq_ok_iff.1 read
  obtain ⟨file', -, read⟩ := bind_eq_ok_iff.1 read
  obtain ⟨checked, read⟩ := check_bind_eq_ok_iff.1 read
  cases read
  exact mapError_eq_ok_iff.1 checked

/-- **A fixture that was read is one that the checks let through.** -/
theorem Accepted.validate_eq_ok {fixture : Fixture} (accepted : fixture.Accepted) :
    fixture.file.validate = .ok () := by
  rcases accepted with ⟨text, read⟩ | ⟨path, content, read⟩
  · obtain ⟨file, named, read⟩ := bind_eq_ok_iff.1 read
    cases read
    exact validate_of_parseNamed named
  · obtain ⟨bytes, -, read⟩ := bind_eq_ok_iff.1 read
    cases text : Bytes.toText? bytes with
    | none =>
        rw [text] at read
        cases read
    | some text' =>
        rw [text] at read
        obtain ⟨file, named, read⟩ := bind_eq_ok_iff.1 read
        cases read
        exact validate_of_parseNamed named

end RevisionStore.Fixture
