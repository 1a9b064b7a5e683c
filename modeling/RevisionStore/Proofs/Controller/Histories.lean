/-
**Every repository of a controller has a run of its own.**

A call concerns one repository.  It creates it, drops it, carries one mutation out on it, or only
looks at it.  What a controller holds after any run of calls is therefore, under each name, a
repository of that name to which mutations have led from a new one, so that what is proved of all
such repositories holds of all that is ever found in a controller.

Main definitions:

* `Controller.Call.mutation?` — the mutation that a call carries out;
* `Controller.Call.remake` — **what a call makes of its repository**;
* `Controller.Recorded` — every repository is one that mutations lead to;
* `Controller.Reachable` — the controllers that calls lead to.

Main results:

* `Controller.Call.getElem?_run` — a call remakes the repository that it names and no other;
* `Controller.Call.answer_of_mutation` — a call answers what its mutation answers;
* `Controller.Reachable.recorded` — **all that a reachable controller holds has a run of its own**;
* `Controller.mem_repositories_runCalls` — a run of calls that delete no repository has the
  repositories that were there before and those that it creates.
-/

import RevisionStore.Proofs.Controller.Locality
import RevisionStore.Proofs.Repository.WellFormed

set_option autoImplicit false

namespace RevisionStore.Controller

variable {σ α : Type} {place : σ} {c : Controller} {call : Call σ} {name : String}

/-! ### The mutation of a call -/

/-- The mutation that a call carries out on its repository when the clock shows `now`. -/
def Call.mutation? (now : Timestamp) : Call σ → Option Mutation
  | setDescription _ text => some (.setDescription text)
  | setPrimaryBranch _ branch => some (.setPrimaryBranch branch)
  | createBranch _ branch => some (.createBranch branch now)
  | cloneBranch _ source copy => some (.cloneBranch source copy)
  | deleteBranch _ branch => some (.deleteBranch branch)
  | createTag _ identifier tag => some (.createTag identifier tag)
  | deleteTag _ tag => some (.deleteTag tag)
  | openChangeRequest _ branch title => some (.openChangeRequest branch title)
  | closeChangeRequest _ number => some (.closeChangeRequest number)
  | addFile _ target message path content => some (.commit target message (.add path content) now)
  | removeFile _ target message path => some (.commit target message (.remove path) now)
  | _ => none

/-- What a call answers when its mutation gives a reply; whether something was there to be dropped
is not told. -/
def Answer.ofReply : Reply → Answer
  | .done | .existed _ => .done
  | .hash h => .hash h
  | .number n => .number n

/-- What a call makes of what stands under the name of its repository. -/
def Call.remake (now : Timestamp) : Call σ → Option Repository → Option Repository
  | createRepository name, before => some (before.getD (.create name now))
  | deleteRepository _, _ => none
  | call, before => before.map fun r => (call.mutation? now).elim r fun m => (m.perform r).2

/-! ### What a call does to its repository -/

theorem getElem?_edit (c : Controller) (name : String)
    (change : Repository → Except StoreError α × Repository) :
    (c.edit name change).2.repositories[name]? =
      c.repositories[name]?.map fun r => (change r).2 := by
  cases found : c.repositories[name]? with
  | none =>
      have missing : c.find name = .error (.unknownRepository name) := by rw [find, found]
      rw [edit_of_missing missing, found, Option.map_none]
  | some r =>
      rw [edit_of_find (find_eq_ok_iff.2 found), getElem?_put, if_pos rfl, Option.map_some]

theorem contains_of_absent (absent : c.repositories[name]? = none) :
    c.repositories.contains name = false := by
  rw [← Std.ExtTreeMap.isSome_getElem?_eq_contains, absent, Option.isSome_none]

theorem contains_of_found {r : Repository} (found : c.repositories[name]? = some r) :
    c.repositories.contains name = true := by
  rw [← Std.ExtTreeMap.isSome_getElem?_eq_contains, found, Option.isSome_some]

theorem getElem?_createRepository (c : Controller) (name : String) :
    (c.createRepository name).2.repositories[name]? =
      some (c.repositories[name]?.getD (.create name c.clock.read.1)) := by
  unfold createRepository
  cases found : c.repositories[name]? with
  | none =>
      rw [if_neg (by simp [contains_of_absent found])]
      exact Std.ExtTreeMap.getElem?_insert_self
  | some r =>
      rw [if_pos (contains_of_found found)]
      exact found

theorem getElem?_createBranch (c : Controller) (name branch : String) :
    (c.createBranch name branch).2.repositories[name]? =
      c.repositories[name]?.map fun r => (r.createBranch branch c.clock.read.1).2 := by
  unfold createBranch find
  cases found : c.repositories[name]? with
  | none => exact found
  | some r => exact (getElem?_put _ _ _ _).trans (if_pos rfl)

theorem getElem?_commit (c : Controller) (name target message : String) (change : FileChange) :
    (c.commit name target message change).2.repositories[name]? =
      c.repositories[name]?.map fun r => (r.commit target message change c.clock.read.1).2 := by
  unfold commit find
  cases found : c.repositories[name]? with
  | none => exact found
  | some r =>
      simp only [Repository.commit, Option.map_some]
      cases r.commitBase target with
      | error e => exact found
      | ok base => exact (getElem?_put _ _ _ _).trans (if_pos rfl)

/-- **A call remakes the repository that it names, and no other.** -/
theorem Call.getElem?_run (place : σ) (c : Controller) (call : Call σ) (name : String) :
    (call.run place c).1.2.repositories[name]? =
      if call.repository? = some name then call.remake c.clock.read.1 c.repositories[name]?
      else c.repositories[name]? := by
  split
  · next names =>
      cases call with
      | listRepositories => cases names
      | createRepository => cases names; exact getElem?_createRepository c _
      | deleteRepository =>
          cases names
          exact (getElem?_deleteRepository c _ _).trans (if_pos rfl)
      | setDescription => cases names; exact getElem?_edit c _ _
      | setPrimaryBranch => cases names; exact getElem?_edit c _ _
      | createBranch => cases names; exact getElem?_createBranch c _ _
      | cloneBranch => cases names; exact getElem?_edit c _ _
      | deleteBranch => cases names; exact getElem?_edit c _ _
      | createTag => cases names; exact getElem?_edit c _ _
      | deleteTag => cases names; exact getElem?_edit c _ _
      | openChangeRequest => cases names; exact getElem?_edit c _ _
      | closeChangeRequest => cases names; exact getElem?_edit c _ _
      | addFile => cases names; exact getElem?_commit c _ _ _ _
      | removeFile => cases names; exact getElem?_commit c _ _ _ _
      -- The rest only look.
      | _ => exact (congrFun Option.map_id _).symm
  · next other =>
      cases named : call.repository? with
      | none =>
          cases call with
          | listRepositories => rfl
          | _ => cases named
      | some theirs =>
          refine (call.confined named place).frame c name ?_
          rintro rfl
          exact other named

/-- What stands under the name afterwards has just been created there, or it stood there before and
the call has carried its mutation out, if it has one. -/
theorem Call.remake_eq_some {now : Timestamp} {before : Option Repository} {r' : Repository}
    (remade : call.remake now before = some r') :
    (before = none ∧ ∃ name, call = .createRepository name ∧ r' = .create name now) ∨
      ∃ r, before = some r ∧ r' = (call.mutation? now).elim r fun m => (m.perform r).2 := by
  cases call with
  | createRepository name =>
      cases before with
      | none => exact .inl ⟨rfl, name, rfl, (Option.some.inj remade).symm⟩
      | some r => exact .inr ⟨r, rfl, (Option.some.inj remade).symm⟩
  | deleteRepository => cases remade
  | _ =>
      obtain ⟨r, there, same⟩ := Option.map_eq_some_iff.1 remade
      exact .inr ⟨r, there, same.symm⟩

/-! ### What a call answers -/

theorem answer_edit {r : Repository} (found : c.repositories[name]? = some r)
    (change : Repository → Except StoreError α × Repository) (answer : α → Answer) :
    (answering answer (c.edit name change)).1 = (change r).1.map answer := by
  rw [edit_of_find (find_eq_ok_iff.2 found)]
  rfl

theorem map_ofReply_answering (reply : α → Reply) (outcome : Repository.Outcome α) :
    (Mutation.answering reply outcome).1.map Answer.ofReply =
      outcome.1.map fun a => Answer.ofReply (reply a) := by
  obtain ⟨result, r⟩ := outcome
  cases result <;> rfl

theorem answer_commit {r : Repository} (found : c.repositories[name]? = some r)
    (target message : String) (change : FileChange) :
    (answering .hash (c.commit name target message change)).1 =
      (r.commit target message change c.clock.read.1).1.map .hash := by
  simp only [commit, find, found, Repository.commit]
  cases r.commitBase target <;> rfl

/-- **A call answers what its mutation answers.** -/
theorem Call.answer_of_mutation {r : Repository} {m : Mutation}
    (names : call.repository? = some name) (found : c.repositories[name]? = some r)
    (carries : call.mutation? c.clock.read.1 = some m) :
    (call.run place c).1.1 = (m.perform r).1.map Answer.ofReply := by
  cases call with
  | setDescription => cases names; cases carries; exact answer_edit found _ _
  | deleteBranch => cases names; cases carries; exact answer_edit found _ _
  | deleteTag => cases names; cases carries; exact answer_edit found _ _
  | closeChangeRequest => cases names; cases carries; exact answer_edit found _ _
  | setPrimaryBranch repository branch =>
      cases names; cases carries
      exact (answer_edit found _ _).trans
        (map_ofReply_answering (fun _ => .done) (r.setPrimaryBranch branch)).symm
  | cloneBranch repository source copy =>
      cases names; cases carries
      exact (answer_edit found _ _).trans
        (map_ofReply_answering .hash (r.cloneBranch source copy)).symm
  | createTag repository identifier tag =>
      cases names; cases carries
      exact (answer_edit found _ _).trans
        (map_ofReply_answering .hash (r.createTag identifier tag)).symm
  | openChangeRequest repository branch title =>
      cases names; cases carries
      exact (answer_edit found _ _).trans
        (map_ofReply_answering .number (r.openChangeRequest branch title)).symm
  | createBranch =>
      cases names; cases carries
      simp only [run, answering, Controller.createBranch, find, found]
      rfl
  | addFile repository target message path content =>
      cases names; cases carries
      exact (answer_commit found _ _ _).trans
        (map_ofReply_answering .hash (r.commit target message _ _)).symm
  | removeFile repository target message path =>
      cases names; cases carries
      exact (answer_commit found _ _ _).trans
        (map_ofReply_answering .hash (r.commit target message _ _)).symm
  | _ => cases carries

/-! ### Runs -/

/-- Every repository of the controller is one that mutations lead to from a new repository of its
name. -/
def Recorded (c : Controller) : Prop :=
  ∀ name r, c.repositories[name]? = some r → ∃ start ms, r = Repository.reached name start ms

theorem Recorded.wellFormed (recorded : c.Recorded) {r : Repository}
    (found : c.repositories[name]? = some r) : r.WellFormed := by
  obtain ⟨start, ms, rfl⟩ := recorded name r found
  exact Repository.wellFormed_reached name start ms

theorem Recorded.name_eq (recorded : c.Recorded) {r : Repository}
    (found : c.repositories[name]? = some r) : r.name = name := by
  obtain ⟨start, ms, rfl⟩ := recorded name r found
  exact Repository.name_reached name start ms

/-- A call keeps it so: it adds a mutation to the run of its repository, or begins a run. -/
theorem Recorded.run (recorded : c.Recorded) (place : σ) (call : Call σ) :
    (call.run place c).1.2.Recorded := by
  intro name r' there
  rw [Call.getElem?_run] at there
  split at there
  · next names =>
      rcases Call.remake_eq_some there with ⟨-, created, rfl, rfl⟩ | ⟨r, found, rfl⟩
      · cases names
        exact ⟨_, [], rfl⟩
      · obtain ⟨start, ms, rfl⟩ := recorded name r found
        cases call.mutation? c.clock.read.1 with
        | none => exact ⟨start, ms, rfl⟩
        | some m => exact ⟨start, ms ++ [m], (Repository.reached_concat name start ms m).symm⟩
  · exact recorded name r' there

/-- The controllers that calls lead to from an empty one, each checkout with a place of its own.
In between the clock may be set, and all repositories may be let go. -/
inductive Reachable : Controller → Prop
  | start (clock : Clock) : Reachable (.withClock clock)
  | call {σ : Type} {c : Controller} (reached : Reachable c) (place : σ) (call : Call σ) :
      Reachable (call.run place c).1.2
  | setClock {c : Controller} (reached : Reachable c) (clock : Clock) :
      Reachable { c with clock := clock }
  | release {c : Controller} (reached : Reachable c) : Reachable c.release

/-- **All that a reachable controller holds has a run of its own.** -/
theorem Reachable.recorded (reached : c.Reachable) : c.Recorded := by
  induction reached with
  | start clock => intro name r found; cases found
  | call _ place call ih => exact ih.run place call
  | setClock _ clock ih => exact ih
  | release _ ih => intro name r found; cases found

theorem Reachable.runCalls (reached : c.Reachable) (place : σ) (calls : List (Call σ)) :
    (runCalls place c calls).1.Reachable := by
  induction calls generalizing place c with
  | nil => exact reached
  | cons call calls ih => exact ih (reached.call place call) _

/-- After a call there is a repository of a name if there was one before, unless the call deletes
it, or if the call creates it. -/
theorem Call.mem_repositories_run (stays : ¬ call.deletes name) :
    name ∈ (call.run place c).1.2.repositories ↔
      name ∈ c.repositories ∨ call = .createRepository name := by
  rw [Std.ExtTreeMap.mem_iff_isSome_getElem?, Std.ExtTreeMap.mem_iff_isSome_getElem?, getElem?_run]
  split
  · next names =>
      cases call with
      | createRepository => cases names; exact iff_of_true rfl (.inr rfl)
      | deleteRepository => cases names; exact absurd rfl stays
      | _ => simp [remake]
  · next other =>
      rw [or_iff_left]
      rintro rfl
      exact other rfl

/-- The same for a run. -/
theorem mem_repositories_runCalls {calls : List (Call σ)}
    (stay : ∀ call ∈ calls, ¬ call.deletes name) :
    name ∈ (runCalls place c calls).1.repositories ↔
      name ∈ c.repositories ∨ .createRepository name ∈ calls := by
  induction calls generalizing place c with
  | nil => simp [Controller.runCalls]
  | cons call calls ih =>
      obtain ⟨first, others⟩ := List.forall_mem_cons.1 stay
      rw [Controller.runCalls, ih others, call.mem_repositories_run first, List.mem_cons, or_assoc,
        eq_comm (a := call)]

end RevisionStore.Controller
