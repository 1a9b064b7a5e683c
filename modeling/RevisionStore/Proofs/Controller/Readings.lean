/-
**The clock of a controller is read once for every revision that is created.**

What a call reads is told by exchanging the clock: if the call gives the same with every clock that
agrees on the next `n` readings, and leaves that clock `n` readings further, then it reads the clock
`n` times.  Calls that create a revision read it once if they succeed; every other call, and every
call that fails, does not read it.  Over a run of calls the times of the created revisions are
therefore the readings of the clock one after the other; those of a stepping clock are known.

Main definitions:

* `Clock.skip` — a clock some readings later;
* `Controller.ReadsClock` — **an operation reads the clock a number of times**;
* `Controller.Creates` — an operation creates a revision, stamped with one reading;
* `Controller.Call.creates`, `Controller.Call.readings` — where a call creates a revision if it
  succeeds, and how often it reads the clock;
* `Controller.Call.created?` — the revision that a call has created, as the controller holds it
  afterwards;
* `Controller.revisions?`, `Controller.Call.deletes` — what a repository stores, and the call that
  drops it;
* `Controller.runCalls`, `Controller.made` — a run of calls, and the revisions created in it.

Main results:

* `Clock.skip_stepping`, `Clock.readings_stepping` — a stepping clock after some readings, and those
  readings, **across the ends of 64 bits**;
* `Controller.Call.readsClock` — every call reads the clock as often as `Call.readings` says;
* `Controller.Call.timestamp_created?`, `Controller.Call.stores_run` — it stamps what it creates
  with what it reads, and stores nothing else;
* `Controller.Call.revisions?_run` — a call that creates nothing leaves the revisions alone;
* `Controller.timestamps_made` — the times of the created revisions are the readings of the clock;
* `Controller.revisions_stamped_in_order` — **all this, for a controller with a stepping clock**.
-/

import RevisionStore.Proofs.Controller.Call

set_option autoImplicit false

namespace RevisionStore

/-! ### Clocks -/

namespace Clock

/-- The clock `n` readings later. -/
def skip : Nat → Clock → Clock
  | 0, c => c
  | n + 1, c => (skip n c).read.2

@[simp] theorem skip_zero (c : Clock) : c.skip 0 = c := rfl

@[simp] theorem length_readings (n : Nat) (c : Clock) : (c.readings n).length = n := by
  induction n generalizing c with
  | zero => rfl
  | succ n ih => rw [readings, List.length_cons, ih]

theorem skip_succ (n : Nat) (c : Clock) : c.skip (n + 1) = (c.skip n).read.2 := rfl

theorem skip_read (n : Nat) (c : Clock) : c.read.2.skip n = c.skip (n + 1) := by
  induction n with
  | zero => rfl
  | succ n ih => rw [skip_succ, ih, ← skip_succ]

theorem skip_add (m n : Nat) (c : Clock) : c.skip (m + n) = (c.skip m).skip n := by
  induction n with
  | zero => rfl
  | succ n ih => rw [← Nat.add_assoc, skip_succ, ih, ← skip_succ]

theorem readings_add (m n : Nat) (c : Clock) :
    c.readings (m + n) = c.readings m ++ (c.skip m).readings n := by
  induction m generalizing c with
  | zero => rw [Nat.zero_add]; rfl
  | succ m ih =>
      rw [Nat.succ_add, readings, ih, skip_read, readings, List.cons_append]

/-- A stepping clock counts on by its step, and wraps where 64 bits end. -/
theorem skip_stepping (n : Nat) (next : Timestamp) (step : Int64) :
    (stepping next step).skip n =
      stepping ⟨Int64.ofInt (next.millis.toInt + n * step.toInt)⟩ step := by
  induction n with
  | zero => simp
  | succ n ih =>
      have further : next.millis.toInt + ((n + 1 : Nat) : Int) * step.toInt =
          next.millis.toInt + n * step.toInt + step.toInt := by
        rw [Int.natCast_succ, Int.add_mul, Int.one_mul, Int.add_assoc]
      rw [skip_succ, ih, read_stepping, Timestamp.advance, further,
        Int64.ofInt_add _ step.toInt, Int64.ofInt_toInt]

/-- The readings of a stepping clock. -/
theorem readings_stepping (n : Nat) (next : Timestamp) (step : Int64) :
    (stepping next step).readings n = (List.range n).map fun i =>
      ⟨Int64.ofInt (next.millis.toInt + i * step.toInt)⟩ := by
  induction n with
  | zero => rfl
  | succ n ih =>
      rw [readings_add, ih, skip_stepping, List.range_succ, List.map_append, List.map_singleton]
      rfl

/-- The reading after the last one that 64 bits hold is the first one. -/
example : (stepping ⟨Int64.maxValue⟩ 1).readings 2 = [⟨Int64.maxValue⟩, ⟨Int64.minValue⟩] := by
  decide

end Clock

namespace Controller

/-! ### How often an operation reads the clock -/

/-- The operation reads the clock of the controller `n` times: with any other clock that has the
same next `n` readings it gives the same, and it leaves that clock `n` readings further. -/
def ReadsClock {α : Type} (n : Nat) (operation : Controller → Outcome α) (c : Controller) : Prop :=
  ∀ clock : Clock, clock.readings n = c.clock.readings n →
    operation { c with clock := clock } =
      ((operation c).1, { (operation c).2 with clock := clock.skip n })

variable {α : Type} {c : Controller}

/-- Passing an answer on reads nothing more. -/
theorem ReadsClock.answering {n : Nat} {operation : Controller → Outcome α}
    (reads : ReadsClock n operation c) (answer : α → Answer) :
    ReadsClock n (fun c => answering answer (operation c)) c := by
  intro clock same
  simp only [Controller.answering, reads clock same]

/-- An operation that reads the clock `n` times leaves it `n` readings further. -/
theorem ReadsClock.clock_eq {n : Nat} {operation : Controller → Outcome α}
    (reads : ReadsClock n operation c) : (operation c).2.clock = c.clock.skip n :=
  congrArg (fun outcome => outcome.2.clock) (reads c.clock rfl)

theorem readsClock_looking (look : Controller → Except StoreError α) (answer : α → Answer)
    (blind : ∀ clock, look { c with clock := clock } = look c) :
    ReadsClock 0 (fun c => looking answer c (look c)) c := by
  intro clock _
  simp only [looking, Controller.answering, blind, Clock.skip_zero]

theorem readsClock_edit (repository : String)
    (change : Repository → Except StoreError α × Repository) :
    ReadsClock 0 (fun c => c.edit repository change) c := by
  intro clock _
  have found : ({ c with clock := clock } : Controller).find repository = c.find repository := rfl
  simp only [edit, found]
  cases c.find repository <;> rfl

/-- An operation that fails quietly reads nothing where it fails. -/
theorem FailsQuietly.readsClock {operation : Controller → Outcome α} {e : StoreError}
    (quiet : FailsQuietly operation) (failed : (operation c).1 = .error e) :
    ReadsClock 0 operation c := by
  intro clock _
  have here : operation c = (.error e, c) := quiet c e failed c.clock
  rw [quiet c e failed clock, here]
  rfl

theorem readsClock_createRepository {name : String}
    (succeeded : (c.createRepository name).1 = .ok ()) :
    ReadsClock 1 (fun c => c.createRepository name) c := by
  intro clock same
  have now : clock.read.1 = c.clock.read.1 := List.head_eq_of_cons_eq same
  simp only [createRepository] at succeeded ⊢
  split at succeeded
  · cases succeeded
  · next free => simp only [free, now]; rfl

theorem readsClock_deleteRepository (name : String) :
    ReadsClock 0 (fun c => c.deleteRepository name) c := by
  intro clock _
  simp only [deleteRepository]
  split <;> rfl

theorem readsClock_createBranch {repository branch : String} {hash : RevisionHash}
    (succeeded : (c.createBranch repository branch).1 = .ok hash) :
    ReadsClock 1 (fun c => c.createBranch repository branch) c := by
  intro clock same
  have now : clock.read.1 = c.clock.read.1 := List.head_eq_of_cons_eq same
  have found : ({ c with clock := clock } : Controller).find repository = c.find repository := rfl
  simp only [createBranch, found] at succeeded ⊢
  split at succeeded
  · simp only [now]
    rfl
  · cases succeeded

theorem readsClock_commit {repository target message : String} {change : FileChange}
    {hash : RevisionHash} (succeeded : (c.commit repository target message change).1 = .ok hash) :
    ReadsClock 1 (fun c => c.commit repository target message change) c := by
  intro clock same
  have now : clock.read.1 = c.clock.read.1 := List.head_eq_of_cons_eq same
  have found : ({ c with clock := clock } : Controller).find repository = c.find repository := rfl
  simp only [commit, found] at succeeded ⊢
  split at succeeded
  · split at succeeded
    · simp only [now]
      rfl
    · cases succeeded
  · cases succeeded

/-! ### Calls -/

/-- The repository in which a call creates a revision if it succeeds. -/
def Call.creates {σ : Type} : Call σ → Option String
  | createRepository name => some name
  | createBranch repository _ => some repository
  | addFile repository _ _ _ _ => some repository
  | removeFile repository _ _ _ => some repository
  | _ => none

/-- How often a call reads the clock: once if it creates a revision and succeeds, and else never. -/
def Call.readings {σ : Type} (place : σ) (c : Controller) (call : Call σ) : Nat :=
  (call.creates.isSome && (call.run place c).1.1.isOk).toNat

theorem Call.readings_of_error {σ : Type} {place : σ} {call : Call σ} {e : StoreError}
    (failed : (call.run place c).1.1 = .error e) : call.readings place c = 0 := by
  rw [readings, failed]
  cases call.creates <;> rfl

theorem Call.readings_of_ok {σ : Type} {place : σ} {call : Call σ} {a : Answer}
    (succeeded : (call.run place c).1.1 = .ok a) :
    call.readings place c = call.creates.isSome.toNat := by
  rw [readings, succeeded]
  cases call.creates <;> rfl

/-- An outcome that is passed on as a success is one. -/
theorem ok_of_answering {answer : α → Answer} {outcome : Outcome α} {a : Answer}
    (succeeded : (Controller.answering answer outcome).1 = .ok a) :
    ∃ x, outcome.1 = .ok x ∧ answer x = a := by
  cases result : outcome.1 with
  | error e =>
      simp only [Controller.answering, result] at succeeded
      cases succeeded
  | ok x =>
      simp only [Controller.answering, result] at succeeded
      cases succeeded
      exact ⟨x, rfl, rfl⟩

/-- **Every call reads the clock as often as it should**: once if it creates a revision and
succeeds, and else never. -/
theorem Call.readsClock {σ : Type} (place : σ) (c : Controller) (call : Call σ) :
    ReadsClock (call.readings place c) (fun c => (call.run place c).1) c := by
  cases result : (call.run place c).1.1 with
  | error e =>
      rw [readings_of_error result]
      exact (Call.failsQuietly place call).readsClock result
  | ok a =>
      rw [readings_of_ok result]
      cases call with
      | createRepository name =>
          obtain ⟨_, succeeded, -⟩ := ok_of_answering result
          exact (readsClock_createRepository succeeded).answering _
      | createBranch repository branch =>
          obtain ⟨_, succeeded, -⟩ := ok_of_answering result
          exact (readsClock_createBranch succeeded).answering _
      | addFile repository target message path content =>
          obtain ⟨_, succeeded, -⟩ := ok_of_answering result
          exact (readsClock_commit succeeded).answering _
      | removeFile repository target message path =>
          obtain ⟨_, succeeded, -⟩ := ok_of_answering result
          exact (readsClock_commit succeeded).answering _
      | deleteRepository name => exact (readsClock_deleteRepository name).answering _
      | setDescription repository text => exact (readsClock_edit _ _).answering _
      | setPrimaryBranch repository branch => exact (readsClock_edit _ _).answering _
      | cloneBranch repository source copy => exact (readsClock_edit _ _).answering _
      | deleteBranch repository branch => exact (readsClock_edit _ _).answering _
      | createTag repository identifier tag => exact (readsClock_edit _ _).answering _
      | deleteTag repository tag => exact (readsClock_edit _ _).answering _
      | openChangeRequest repository branch title => exact (readsClock_edit _ _).answering _
      | closeChangeRequest repository number => exact (readsClock_edit _ _).answering _
      -- The rest only look.
      | _ => exact readsClock_looking _ _ fun _ => rfl

/-! ### The revision that an operation creates -/

/-- The clock has been read once, and the repository stores one new revision, which bears that
reading, beside what it stored before. -/
def Creates (c : Controller) (repository : String) (new : Revision) (after : Controller) : Prop :=
  new.timestamp = c.clock.read.1 ∧
    ∃ r : Repository, after = ({ c with clock := c.clock.read.2 } : Controller).put repository r ∧
      ∀ hash : RevisionHash, r.revisions[hash]? =
        if hash = new.hash then some new
        else c.repositories[repository]?.bind fun before => before.revisions[hash]?

theorem creates_of_insert {repository : String} {new : Revision} {r r' : Repository}
    (stamped : new.timestamp = c.clock.read.1) (found : c.find repository = .ok r)
    (inserted : r'.revisions = r.revisions.insert new.hash new) :
    Creates c repository new
      (({ c with clock := c.clock.read.2 } : Controller).put repository r') := by
  refine ⟨stamped, r', rfl, fun hash => ?_⟩
  rw [inserted, Std.ExtTreeMap.getElem?_insert, find_eq_ok_iff.1 found, Option.bind_some]
  simp only [Std.compare_eq_iff_eq, eq_comm (a := hash)]

theorem creates_createRepository {name : String}
    (succeeded : (c.createRepository name).1 = .ok ()) :
    Creates c name (.root c.clock.read.1) (c.createRepository name).2 := by
  unfold createRepository at succeeded ⊢
  split at succeeded
  · cases succeeded
  · next free =>
      rw [if_neg free]
      refine ⟨rfl, _, rfl, fun hash => ?_⟩
      have absent : c.repositories[name]? = none := by simpa using free
      rw [Repository.revisions_create, Std.ExtTreeMap.getElem?_insert, absent]
      simp [eq_comm (a := hash)]

theorem creates_createBranch {repository branch : String} {hash : RevisionHash}
    (succeeded : (c.createBranch repository branch).1 = .ok hash) :
    (Revision.root c.clock.read.1).hash = hash ∧
      Creates c repository (.root c.clock.read.1) (c.createBranch repository branch).2 := by
  unfold createBranch at succeeded ⊢
  split at succeeded
  · next r found =>
      cases succeeded
      exact ⟨rfl, creates_of_insert rfl found rfl⟩
  · cases succeeded

/-- A commit creates a child of what it builds on. -/
theorem creates_commit {repository target message : String} {change : FileChange}
    {hash : RevisionHash} (succeeded : (c.commit repository target message change).1 = .ok hash) :
    ∃ base : Revision, (base.child message c.clock.read.1 change).hash = hash ∧
      Creates c repository (base.child message c.clock.read.1 change)
        (c.commit repository target message change).2 := by
  unfold commit at succeeded ⊢
  split at succeeded
  · next r found =>
      split at succeeded
      · next ref base based =>
          cases succeeded
          refine ⟨base, rfl, creates_of_insert rfl found ?_⟩
          cases ref <;> rfl
      · cases succeeded
  · cases succeeded

/-- The new revision of a repository after a call: under the hash that the call answers with, or
else, the repository being new, at the head of its default branch. -/
def newest? (repository : String) : Outcome Answer → Option Revision
  | (.ok (.hash hash), c) => c.repositories[repository]?.bind fun r => r.revisions[hash]?
  | (.ok _, c) => c.repositories[repository]?.bind fun r => r.read? (.branch defaultBranch)
  | (.error _, _) => none

/-- The revision that a call has created, as it is found in the controller afterwards. -/
def Call.created? {σ : Type} (call : Call σ) (outcome : Outcome Answer) : Option Revision :=
  call.creates.bind fun repository => newest? repository outcome

theorem newest?_of_error {repository : String} {outcome : Outcome Answer} {e : StoreError}
    (failed : outcome.1 = .error e) : newest? repository outcome = none := by
  obtain ⟨result, c⟩ := outcome
  cases failed
  rfl

theorem Call.created?_of_error {σ : Type} {call : Call σ} {outcome : Outcome Answer}
    {e : StoreError} (failed : outcome.1 = .error e) : call.created? outcome = none := by
  rw [created?]
  cases call.creates with
  | none => rfl
  | some repository => exact newest?_of_error failed

/-- What an operation has created is found under the hash that it answers with. -/
theorem Creates.newest?_hash {repository : String} {new : Revision}
    {outcome : Outcome RevisionHash} (creates : Creates c repository new outcome.2)
    (answered : outcome.1 = .ok new.hash) :
    newest? repository (Controller.answering .hash outcome) = some new := by
  obtain ⟨-, r, after, revisions⟩ := creates
  have found : outcome.2.repositories[repository]? = some r := by
    rw [after]
    exact Std.ExtTreeMap.getElem?_insert_self
  rw [Controller.answering, answered]
  change (outcome.2.repositories[repository]?.bind fun r => r.revisions[new.hash]?) = some new
  rw [found, Option.bind_some, revisions, if_pos rfl]

/-- A new repository is found with its root at the head of the default branch. -/
theorem newest?_createRepository {name : String}
    (succeeded : (c.createRepository name).1 = .ok ()) :
    newest? name (Controller.answering (fun _ => .done) (c.createRepository name)) =
      some (.root c.clock.read.1) := by
  unfold createRepository at succeeded ⊢
  split at succeeded
  · cases succeeded
  · next free =>
      rw [if_neg free]
      let after := ({ c with clock := c.clock.read.2 } : Controller).put name
        (.create name c.clock.read.1)
      change (after.repositories[name]?.bind fun r => r.read? (.branch defaultBranch)) = _
      have found : after.repositories[name]? = some (.create name c.clock.read.1) :=
        Std.ExtTreeMap.getElem?_insert_self
      rw [found, Option.bind_some, Repository.read?, Repository.headOf?_create,
        Function.update_self, Option.bind_some, Repository.revisions_create,
        Std.ExtTreeMap.getElem?_insert_self]

/-- **A call that should create a revision and succeeds does create one**, and it is found. -/
theorem Call.creates_of_ok {σ : Type} {place : σ} {call : Call σ} {repository : String} {a : Answer}
    (should : call.creates = some repository) (succeeded : (call.run place c).1.1 = .ok a) :
    ∃ new, Creates c repository new (call.run place c).1.2 ∧
      call.created? (call.run place c).1 = some new := by
  cases call with
  | createRepository name =>
      cases should
      obtain ⟨_, done, -⟩ := ok_of_answering succeeded
      exact ⟨_, creates_createRepository done, newest?_createRepository done⟩
  | createBranch repository branch =>
      cases should
      obtain ⟨_, done, -⟩ := ok_of_answering succeeded
      obtain ⟨rfl, creates⟩ := creates_createBranch done
      exact ⟨_, creates, creates.newest?_hash done⟩
  | addFile repository target message path content =>
      cases should
      obtain ⟨_, done, -⟩ := ok_of_answering succeeded
      obtain ⟨base, rfl, creates⟩ := creates_commit done
      exact ⟨_, creates, creates.newest?_hash done⟩
  | removeFile repository target message path =>
      cases should
      obtain ⟨_, done, -⟩ := ok_of_answering succeeded
      obtain ⟨base, rfl, creates⟩ := creates_commit done
      exact ⟨_, creates, creates.newest?_hash done⟩
  | _ => cases should

/-- **A call stamps the revision that it creates with the reading that it takes**, and it creates
one exactly if it takes one. -/
theorem Call.timestamp_created? {σ : Type} (place : σ) (c : Controller) (call : Call σ) :
    (call.created? (call.run place c).1).toList.map Revision.timestamp =
      c.clock.readings (call.readings place c) := by
  cases result : (call.run place c).1.1 with
  | error e =>
      rw [readings_of_error result, created?_of_error result]
      rfl
  | ok a =>
      rw [readings_of_ok result]
      cases should : call.creates with
      | none =>
          rw [created?, should]
          rfl
      | some repository =>
          obtain ⟨new, ⟨stamped, -⟩, found⟩ := creates_of_ok should result
          rw [found, Option.toList_some, List.map_singleton, stamped]
          rfl

theorem Call.length_toList_created? {σ : Type} (place : σ) (c : Controller) (call : Call σ) :
    (call.created? (call.run place c).1).toList.length = call.readings place c := by
  rw [← List.length_map Revision.timestamp, timestamp_created?, Clock.length_readings]

theorem Call.isSome_created? {σ : Type} (place : σ) (c : Controller) (call : Call σ) :
    (call.created? (call.run place c).1).isSome =
      (call.creates.isSome && (call.run place c).1.1.isOk) := by
  have taken := call.length_toList_created? place c
  rw [Option.length_toList, readings] at taken
  rw [Bool.eq_iff_iff, ← Bool.toNat_eq_one (b := _ && _), ← taken]
  simp [Option.isSome_iff_ne_none]

/-! ### Nothing else is created -/

/-- A repository of that name stores the revision. -/
def Stores (c : Controller) (repository : String) (revision : Revision) : Prop :=
  ∃ (r : Repository) (hash : RevisionHash),
    c.repositories[repository]? = some r ∧ r.revisions[hash]? = some revision

theorem stores_put {repository name : String} {r : Repository} {revision : Revision}
    (stored : (c.put repository r).Stores name revision) :
    c.Stores name revision ∨
      repository = name ∧ ∃ hash : RevisionHash, r.revisions[hash]? = some revision := by
  obtain ⟨r', hash, found, here⟩ := stored
  rw [getElem?_put] at found
  split at found
  · next same =>
      cases found
      exact .inr ⟨same.symm, hash, here⟩
  · exact .inl ⟨r', hash, found, here⟩

theorem Creates.stores {repository name : String} {new revision : Revision} {after : Controller}
    (creates : Creates c repository new after) (stored : after.Stores name revision) :
    c.Stores name revision ∨ repository = name ∧ new = revision := by
  obtain ⟨-, r, rfl, revisions⟩ := creates
  rcases stores_put stored with before | ⟨rfl, hash, here⟩
  · exact .inl before
  · rw [revisions] at here
    split at here
    · exact .inr ⟨rfl, Option.some.inj here⟩
    · obtain ⟨old, found, here⟩ := Option.bind_eq_some_iff.1 here
      exact .inl ⟨old, hash, found, here⟩

/-! Calls that create nothing leave the stored revisions alone, unless they delete them all. -/

/-- The revisions that the repository of a name stores. -/
def revisions? (c : Controller) (name : String) : Option (Std.ExtTreeMap RevisionHash Revision) :=
  c.repositories[name]?.map Repository.revisions

theorem stores_iff {name : String} {revision : Revision} :
    c.Stores name revision ↔
      ∃ stored, c.revisions? name = some stored ∧
        ∃ hash : RevisionHash, stored[hash]? = some revision := by
  constructor
  · rintro ⟨r, hash, found, here⟩
    exact ⟨r.revisions, by rw [revisions?, found]; rfl, hash, here⟩
  · rintro ⟨stored, revisions, hash, here⟩
    obtain ⟨r, found, rfl⟩ := Option.map_eq_some_iff.1 revisions
    exact ⟨r, hash, found, here⟩

/-- An edit that leaves the revisions of its repository alone leaves all revisions alone. -/
theorem revisions?_edit (repository name : String)
    {change : Repository → Except StoreError α × Repository}
    (keeps : ∀ r, (change r).2.revisions = r.revisions) :
    (c.edit repository change).2.revisions? name = c.revisions? name := by
  cases found : c.find repository with
  | error e => rw [edit_of_missing found]
  | ok r =>
      rw [edit_of_find found, revisions?, getElem?_put]
      split
      · next same =>
          rw [same, revisions?, find_eq_ok_iff.1 found, Option.map_some, Option.map_some, keeps]
      · rfl

/-- So it is with an edit that carries out a mutation which creates nothing. -/
theorem revisions?_mutation (repository name : String) (m : Mutation)
    {change : Repository → Except StoreError α × Repository}
    (carries_out : ∀ r, (m.perform r).2 = (change r).2) (creates_none : ∀ r, m.created? r = none) :
    (c.edit repository change).2.revisions? name = c.revisions? name := by
  refine revisions?_edit repository name fun r => ?_
  rw [← carries_out, Repository.revisions_of_nothing_created (creates_none r)]

/-- After a deletion there is no repository of that name, and every other is as before. -/
theorem getElem?_deleteRepository (c : Controller) (repository name : String) :
    (c.deleteRepository repository).2.repositories[name]? =
      if name = repository then none else c.repositories[name]? := by
  unfold deleteRepository
  split
  · simp only [Std.ExtTreeMap.getElem?_erase, Std.compare_eq_iff_eq, eq_comm (a := name)]
  · next absent =>
      split
      · next same => simpa [same] using absent
      · rfl

/-- The call is to delete the repository of this name. -/
def Call.deletes {σ : Type} (name : String) : Call σ → Prop
  | deleteRepository repository => repository = name
  | _ => False

/-- **A call that creates no revision leaves those of a repository alone**, unless it deletes the
repository. -/
theorem Call.revisions?_run {σ : Type} {place : σ} {call : Call σ} {name : String}
    (creates_none : call.creates = none) (stays : ¬ call.deletes name) :
    (call.run place c).1.2.revisions? name = c.revisions? name := by
  cases call with
  | createRepository | createBranch | addFile | removeFile => cases creates_none
  | deleteRepository repository =>
      exact congrArg _ ((getElem?_deleteRepository c repository name).trans
        (if_neg fun same => stays same.symm))
  | setDescription repository text => exact revisions?_edit repository name fun _ => rfl
  | setPrimaryBranch repository branch =>
      exact revisions?_mutation repository name (.setPrimaryBranch branch) (fun _ => rfl)
        fun _ => rfl
  | cloneBranch repository source copy =>
      exact revisions?_mutation repository name (.cloneBranch source copy) (fun _ => rfl)
        fun _ => rfl
  | deleteBranch repository branch =>
      exact revisions?_mutation repository name (.deleteBranch branch) (fun _ => rfl) fun _ => rfl
  | createTag repository identifier tag =>
      exact revisions?_mutation repository name (.createTag identifier tag) (fun _ => rfl)
        fun _ => rfl
  | deleteTag repository tag => exact revisions?_edit repository name fun _ => rfl
  | openChangeRequest repository branch title =>
      exact revisions?_mutation repository name (.openChangeRequest branch title) (fun _ => rfl)
        fun _ => rfl
  | closeChangeRequest repository number => exact revisions?_edit repository name fun _ => rfl
  -- The rest only look.
  | _ => rfl

/-- **A call stores the revision that it creates and nothing else.** -/
theorem Call.stores_run {σ : Type} {place : σ} {call : Call σ} {name : String} {revision : Revision}
    (stored : (call.run place c).1.2.Stores name revision) :
    c.Stores name revision ∨
      call.creates = some name ∧ call.created? (call.run place c).1 = some revision := by
  cases result : (call.run place c).1.1 with
  | error e =>
      rw [run_of_error result] at stored
      exact .inl stored
  | ok a =>
      cases should : call.creates with
      | some repository =>
          obtain ⟨new, creates, found⟩ := creates_of_ok should result
          refine (creates.stores stored).imp_right ?_
          rintro ⟨rfl, rfl⟩
          exact ⟨rfl, found⟩
      | none =>
          left
          by_cases gone : call.deletes name
          · cases call <;> try cases gone
            obtain ⟨r, hash, found, -⟩ := stored
            cases found.symm.trans ((getElem?_deleteRepository c name name).trans (if_pos rfl))
          · rw [stores_iff, Call.revisions?_run should gone] at stored
            exact stores_iff.2 stored

/-! ### Runs of calls -/

section Runs

variable {σ : Type}

/-- Carries calls out one after the other, and gives the controller and the place of the checkouts
as they stand afterwards. -/
def runCalls (place : σ) (c : Controller) : List (Call σ) → Controller × σ
  | [] => (c, place)
  | call :: calls => runCalls (call.run place c).2 (call.run place c).1.2 calls

/-- The revisions that calls create when they are carried out one after the other, in order. -/
def made (place : σ) (c : Controller) : List (Call σ) → List Revision
  | [] => []
  | call :: calls =>
    (call.created? (call.run place c).1).toList ++
      made (call.run place c).2 (call.run place c).1.2 calls

/-- **The times of the created revisions are the readings of the clock**, one after the other, and
these are all the readings that are taken. -/
theorem timestamps_made (place : σ) (c : Controller) (calls : List (Call σ)) :
    (made place c calls).map Revision.timestamp = c.clock.readings (made place c calls).length ∧
      (runCalls place c calls).1.clock = c.clock.skip (made place c calls).length := by
  -- A call takes as many readings as it creates revisions; the rest of the run starts from there.
  induction calls generalizing place c with
  | nil => exact ⟨rfl, rfl⟩
  | cons call calls ih =>
      obtain ⟨times, clock⟩ := ih (call.run place c).2 (call.run place c).1.2
      have later : (call.run place c).1.2.clock = c.clock.skip (call.readings place c) :=
        (call.readsClock place c).clock_eq
      rw [later] at times clock
      rw [made, runCalls, List.map_append, call.timestamp_created?, times, clock,
        List.length_append, call.length_toList_created?]
      exact ⟨(Clock.readings_add _ _ _).symm, (Clock.skip_add _ _ _).symm⟩

/-- **Only the creation of revisions moves the clock, and in order.**  In a run of calls on any
controller whose clock steps from `start` by `step`, the revision created as number `i` bears the
time `start + i * step`, wrapped to 64 bits, and the clock stands at the next such time afterwards.
Whatever call comes then, it reads the clock once if it creates a revision and succeeds and never
otherwise, it is found to have created a revision exactly in that case, and it stores no other. -/
theorem revisions_stamped_in_order (place : σ) (c : Controller) (start : Timestamp) (step : Int64)
    (calls : List (Call σ)) :
    let before : Controller := { c with clock := .stepping start step }
    let time (i : Nat) : Timestamp := ⟨Int64.ofInt (start.millis.toInt + i * step.toInt)⟩
    let count := (made place before calls).length
    let after := (runCalls place before calls).1
    let place' := (runCalls place before calls).2
    (made place before calls).map Revision.timestamp = (List.range count).map time ∧
      after.clock = .stepping (time count) step ∧
      ∀ call : Call σ,
        let reads := call.creates.isSome && (call.run place' after).1.1.isOk
        ReadsClock reads.toNat (fun c => (call.run place' c).1) after ∧
          (call.created? (call.run place' after).1).isSome = reads ∧
          ∀ name revision, (call.run place' after).1.2.Stores name revision →
            after.Stores name revision ∨
              call.creates = some name ∧
                call.created? (call.run place' after).1 = some revision := by
  intro before time count after place'
  obtain ⟨times, clock⟩ := timestamps_made place before calls
  refine ⟨?_, ?_, fun call => ⟨call.readsClock place' after, ?_, fun _ _ => call.stores_run⟩⟩
  · rw [times, Clock.readings_stepping]
  · rw [clock, Clock.skip_stepping]
  · exact call.isSome_created? place' after

end Runs

end Controller

end RevisionStore
