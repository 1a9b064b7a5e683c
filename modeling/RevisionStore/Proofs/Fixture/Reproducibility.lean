/-
**Which fixtures are reproducible.**

A fixture is reproducible if it comes to the same whatever the wall clock shows while it is applied.
So it is where the time source is set, since nothing but the clock is read from outside.  Where it
is not set, the wall clock stamps every revision, and a repository keeps at least the revision that
it was created with; a clock section in which nothing is set leaves the time to the wall clock just
as a missing one does.

Main definitions:

* `Fixture.Reproducible` — **the wall clock makes no difference to what the fixture comes to**.

Main results:

* `Fixture.exists_clock`, `Fixture.clock_eq_wall` — the time source of a fixture;
* `Fixture.Replays.stores_reading` — what a fixture stores bears readings of its clock;
* `Fixture.File.stays_of_calls` — a fixture deletes no repository;
* `Fixture.reproducible_iff_time_set` — **a fixture that makes a repository is reproducible exactly
  if its clock section is there and not empty**;
* `Fixture.empty_clock_section_leaves_wall_clock` — **an empty one is let through all the same**.
-/

import RevisionStore.Proofs.Fixture.Replay

set_option autoImplicit false

namespace RevisionStore.Fixture

open Controller (Call runCalls made)

/-- What the fixture comes to when it is applied to an empty controller with the clock that it asks
for does not depend on what the wall clock shows: the result is the same, and so is every
repository. -/
def Reproducible (fixture : Fixture) : Prop :=
  ∀ readings readings' : Nat → Timestamp,
    let outcome := fixture.apply (.withClock (fixture.clock readings))
    let outcome' := fixture.apply (.withClock (fixture.clock readings'))
    outcome.1 = outcome'.1 ∧ outcome.2.repositories = outcome'.2.repositories

/-! ### The time source -/

/-- With a clock section that sets something the time source is the same whatever the wall clock
shows, a step being there only with a start. -/
theorem exists_clock {fixture : Fixture} {settings : ClockSettings}
    (given : fixture.file.clock = some settings) (valid : settings.validate = .ok ())
    (set : settings ≠ ⟨none, none, none⟩) :
    ∃ clock, ∀ readings, fixture.clock readings = clock := by
  have started := (ClockSettings.validate_eq_ok_iff.1 valid).2
  obtain ⟨fixed, start, step⟩ := settings
  refine ⟨fixture.clock fun _ => ⟨0⟩, fun readings => ?_⟩
  unfold clock
  rw [given]
  cases fixed with
  | some fixed => rfl
  | none =>
      cases start with
      | some start => rfl
      | none =>
          cases step with
          | some step => cases started rfl
          | none => exact absurd rfl set

/-- With no clock section, or with an empty one, the time source is the wall clock. -/
theorem clock_eq_wall {fixture : Fixture}
    (unset : ∀ settings, fixture.file.clock = some settings → settings = ⟨none, none, none⟩)
    (readings : Nat → Timestamp) : fixture.clock readings = .wall readings := by
  unfold clock
  cases given : fixture.file.clock with
  | none => rfl
  | some settings => rw [unset settings given]

/-- A wall clock that always shows the same time gives no other reading. -/
theorem mem_readings_wall {time now : Timestamp} {n : Nat}
    (here : now ∈ (Clock.wall fun _ => time).readings n) : now = time := by
  induction n with
  | zero => cases here
  | succ n ih =>
      rcases List.mem_cons.1 here with first | later
      · exact first
      · exact ih later

/-! ### What a fixture stores -/

variable {calls : List (Origin × Call Unit)} {outcome : Outcome}

/-- What calls leave behind is a run of the first of them. -/
theorem Replays.exists_run {c : Controller} (replays : Replays c calls outcome) :
    ∃ done, done <+: calls ∧ outcome.2 = (runCalls () c (done.map Prod.snd)).1 := by
  obtain ⟨carried, first, -, run⟩ := replays.exists_carried
  exact ⟨carried, first, run⟩

/-- Every revision that is stored in the end bears a reading of the clock. -/
theorem Replays.stores_reading {clock : Clock} (replays : Replays (.withClock clock) calls outcome)
    {name : String} {revision : Revision} (stored : outcome.2.Stores name revision) :
    ∃ n, revision.timestamp ∈ clock.readings n := by
  obtain ⟨done, -, run⟩ := replays.exists_run
  rw [run] at stored
  rcases Controller.stores_runCalls stored with ⟨r, hash, found, -⟩ | created
  · cases found
  · have times := (Controller.timestamps_made () (.withClock clock) (done.map Prod.snd)).1
    exact ⟨_, times ▸ List.mem_map_of_mem created⟩

/-! A fixture deletes no repository. -/

theorem exists_of_mem_mapM {α β : Type} {f : α → Option β} {items : List α} {bs : List β} {b : β}
    (each : items.mapM f = some bs) (here : b ∈ bs) : ∃ item ∈ items, f item = some b := by
  induction items generalizing bs with
  | nil => cases each; cases here
  | cons item items ih =>
      obtain ⟨first, others, at_first, at_others, rfl⟩ := mapM_cons_eq_some_iff.1 each
      rcases List.mem_cons.1 here with rfl | later
      · exact ⟨item, List.mem_cons_self, at_first⟩
      · obtain ⟨other, among, same⟩ := ih at_others later
        exact ⟨other, List.mem_cons_of_mem item among, same⟩

theorem Step.stays_of_call {repository : String} {step : Step} {call : Call Unit}
    (planned : step.call? repository = some call) (name : String) : ¬ call.deletes name := by
  cases step with
  | addFile target message path text digits =>
      rw [call?_addFile] at planned
      obtain ⟨bytes, -, rfl⟩ := Option.map_eq_some_iff.1 planned
      exact id
  | _ => cases planned; exact id

theorem RepositoryPlan.stays_of_calls {plan : RepositoryPlan} (planned : plan.calls? = some calls)
    (name : String) : ∀ call ∈ calls, ¬ call.2.deletes name := by
  obtain ⟨steps, planned_steps, rfl⟩ := Option.map_eq_some_iff.1 planned
  intro call here
  simp only [List.mem_append, List.mem_singleton, List.mem_map] at here
  rcases here with ((rfl | ⟨text, -, rfl⟩) | among) | ⟨branch, -, rfl⟩
  · exact id
  · exact id
  · obtain ⟨numbered, -, planned_step⟩ := exists_of_mem_mapM planned_steps among
    obtain ⟨call, planned_call, rfl⟩ := Option.map_eq_some_iff.1 planned_step
    exact Step.stays_of_call planned_call name
  · exact id

theorem File.stays_of_calls {file : File} (planned : file.calls? = some calls) (name : String) :
    ∀ call ∈ calls, ¬ call.2.deletes name := by
  obtain ⟨each, planned_each, rfl⟩ := Option.map_eq_some_iff.1 planned
  intro call here
  obtain ⟨some_calls, among, here⟩ := List.mem_flatten.1 here
  obtain ⟨plan, -, planned_plan⟩ := exists_of_mem_mapM planned_each among
  exact RepositoryPlan.stays_of_calls planned_plan name call here

/-! A fixture that makes a repository stores a revision. -/

theorem File.calls_cons {file : File} {plan : RepositoryPlan} {plans : List RepositoryPlan}
    (given : file.repositories = plan :: plans) (planned : file.calls? = some calls) :
    ∃ rest, calls = (.repository plan.name, .createRepository plan.name) :: rest := by
  rw [calls?, given] at planned
  obtain ⟨each, planned_each, rfl⟩ := Option.map_eq_some_iff.1 planned
  obtain ⟨first, others, planned_first, -, rfl⟩ := mapM_cons_eq_some_iff.1 planned_each
  obtain ⟨steps, -, rfl⟩ := Option.map_eq_some_iff.1 planned_first
  exact ⟨_, rfl⟩

/-- A repository that is made first of all still stores something in the end. -/
theorem Replays.holds_first {clock : Clock} {origin : Origin} {name : String}
    (replays : Replays (.withClock clock) ((origin, .createRepository name) :: calls) outcome)
    (stays : ∀ call ∈ calls, ¬ call.2.deletes name) : ∃ hash, outcome.2.Holds name hash := by
  have succeeds : ((Controller.withClock clock).createRepository name).1 = .ok () := by
    simp [Controller.createRepository, Controller.withClock]
  have held := (Controller.creates_createRepository succeeds).holds_new
  cases replays with
  | stop failed =>
      cases (congrArg (Except.map fun _ => Controller.Answer.done) succeeds).symm.trans failed
  | next ran more =>
      obtain ⟨done, first, run⟩ := more.exists_run
      obtain rfl := congrArg Prod.snd ran
      refine ⟨_, run ▸ Controller.holds_runCalls (fun call here => ?_) held⟩
      obtain ⟨placed, among, rfl⟩ := List.mem_map.1 here
      exact stays placed (first.subset among)

/-- **With the wall clock, a fixture that makes a repository is not reproducible.** -/
theorem not_reproducible_of_wall {fixture : Fixture} {plan : RepositoryPlan}
    {plans : List RepositoryPlan} (given : fixture.file.repositories = plan :: plans)
    (planned : fixture.file.calls? = some calls)
    (wall : ∀ readings, fixture.clock readings = .wall readings) : ¬ fixture.Reproducible := by
  intro same
  obtain ⟨rest, rfl⟩ := File.calls_cons given planned
  have stamped (time : Timestamp) {revision : Revision}
      (stored : (fixture.apply (.withClock (.wall fun _ => time))).2.Stores plan.name revision) :
      revision.timestamp = time := by
    obtain ⟨n, here⟩ := (replays_apply planned _).stores_reading stored
    exact mem_readings_wall here
  have stays := fun call here =>
    File.stays_of_calls planned plan.name call (List.mem_cons_of_mem _ here)
  obtain ⟨hash, held⟩ := (replays_apply planned (.withClock (.wall fun _ => ⟨0⟩))).holds_first stays
  obtain ⟨revision, stored⟩ := held.exists_stores
  have repositories := (same (fun _ => ⟨0⟩) fun _ => ⟨1⟩).2
  rw [wall, wall] at repositories
  have stored' : (fixture.apply (.withClock (.wall fun _ => ⟨1⟩))).2.Stores plan.name revision := by
    obtain ⟨r, hash, found, here⟩ := stored
    exact ⟨r, hash, repositories ▸ found, here⟩
  cases (stamped _ stored).symm.trans (stamped _ stored')

/-! ### Reproducible fixtures -/

/-- **A fixture is reproducible exactly if its time source is set**, or it makes no repository at
all.  Of a fixture that was read: whatever the wall clock shows in two applications to empty
controllers, each with a fresh clock of the fixture, the results are the same and so are the
repositories with all they hold, if and only if there is a clock section in which something is set
or there is nothing to make. -/
theorem reproducible_iff_time_set (fixture : Fixture) (accepted : fixture.Accepted) :
    fixture.Reproducible ↔
      fixture.file.repositories = [] ∨
        ∃ settings, fixture.file.clock = some settings ∧ settings ≠ ⟨none, none, none⟩ := by
  have valid := accepted.validate_eq_ok
  constructor
  · intro same
    by_contra unset
    push Not at unset
    obtain ⟨some_plan, unset⟩ := unset
    obtain ⟨plan, plans, given⟩ := List.exists_cons_of_ne_nil some_plan
    obtain ⟨calls, planned⟩ := File.exists_calls valid
    exact not_reproducible_of_wall given planned (clock_eq_wall unset) same
  · rintro (nothing | ⟨settings, given, set⟩) readings readings'
    · rw [apply, apply, nothing]
      exact ⟨rfl, rfl⟩
    · obtain ⟨clock, always⟩ :=
        exists_clock given ((File.validate_eq_ok_iff.1 valid).1 settings given) set
      rw [always, always]
      exact ⟨rfl, rfl⟩

/-- A start is enough, the step being one millisecond then. -/
theorem reproducible_iff_time_set_start :
    let text := "[clock]\nstart = 5\n\n[[repository]]\nname = \"r\"\n\n" ++
      "[[repository.step]]\nop = \"create-branch\"\nname = \"dev\"\n"
    let fixture : Fixture :=
      ⟨⟨some ⟨none, some 5, none⟩, [⟨"r", none, none, [.createBranch "dev"]⟩]⟩, none⟩
    parse text = .ok fixture ∧ fixture.Reproducible := by
  intro text fixture
  have read : parse text = .ok fixture := by decide +kernel
  exact ⟨read, (reproducible_iff_time_set fixture (.inl ⟨text, read⟩)).2
    (.inr ⟨⟨none, some 5, none⟩, rfl, by decide⟩)⟩

/-- **An empty clock section does not make a fixture reproducible.**  It is read and checked, and
the only revision of its repository bears whatever time the wall clock shows. -/
theorem empty_clock_section_leaves_wall_clock :
    let text := "[clock]\n\n[[repository]]\nname = \"r\"\n"
    let fixture : Fixture := ⟨⟨some ⟨none, none, none⟩, [⟨"r", none, none, []⟩]⟩, none⟩
    let times (now : Timestamp) : Option (List Timestamp) :=
      (fixture.apply (.withClock (fixture.clock fun _ => now))).2.repositories["r"]?.map fun r =>
        r.revisions.values.map Revision.timestamp
    parse text = .ok fixture ∧ fixture.file.clock.isSome ∧
      times ⟨0⟩ = some [⟨0⟩] ∧ times ⟨1⟩ = some [⟨1⟩] ∧ ¬ fixture.Reproducible := by
  intro text fixture times
  have read : parse text = .ok fixture := by decide +kernel
  have zero : times ⟨0⟩ = some [⟨0⟩] := by decide +kernel
  have one : times ⟨1⟩ = some [⟨1⟩] := by decide +kernel
  refine ⟨read, rfl, zero, one, fun same => ?_⟩
  have repositories := (same (fun _ => ⟨0⟩) fun _ => ⟨1⟩).2
  have equal : times ⟨0⟩ = times ⟨1⟩ := by simp only [times, repositories]
  rw [zero, one] at equal
  cases equal

end RevisionStore.Fixture
