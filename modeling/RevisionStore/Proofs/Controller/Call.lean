/-
**Calls of a controller, and what one that fails leaves behind: nothing.**

Each operation of a controller looks things up first, and reads the clock and changes a repository
only once nothing can go wrong any more.  A failing call therefore leaves the controller as it was
and its clock unread, which is said here by putting any other clock in its place: the call fails in
the same way, and that clock stands as before.

Main definitions:

* `Controller.Call`, `Controller.Answer` — an operation with its arguments, and what it gives when
  it succeeds;
* `Controller.Call.run` — carries a call out;
* `Controller.FailsQuietly` — **what a failing operation may not do**.

Main results:

* `Repository.perform_of_error` — a mutation that fails gives back the repository;
* `Controller.failsQuietly_edit` — hence an edit of one repository fails quietly;
* `Controller.failed_call_changes_nothing` — **so does every call of a controller**.
-/

import RevisionStore.Checkout
import RevisionStore.Proofs.Repository.Mutation

set_option autoImplicit false

namespace RevisionStore

namespace Controller

/-! ### Calls -/

/-- What a call gives when it succeeds. -/
inductive Answer where
  | done
  | text (text : String)
  | text? (text : Option String)
  | names (names : List String)
  | hash (hash : RevisionHash)
  | number (number : UInt64)
  | numbers (numbers : List UInt64)
  | history (lines : List LogEntry)
  | kind (kind : PathKind)
  | time? (time : Option Timestamp)
  | content? (content : Option Bytes)
deriving DecidableEq

/-- An operation of a controller with its arguments; a checkout goes to a place of type `σ`. -/
inductive Call (σ : Type) where
  | createRepository (name : String)
  | deleteRepository (name : String)
  | listRepositories
  | description (repository : String)
  | setDescription (repository text : String)
  | primaryBranch (repository : String)
  | setPrimaryBranch (repository branch : String)
  | createBranch (repository branch : String)
  | cloneBranch (repository source copy : String)
  | deleteBranch (repository branch : String)
  | listBranches (repository : String)
  | branchHead (repository branch : String)
  | createTag (repository identifier tag : String)
  | deleteTag (repository tag : String)
  | listTags (repository : String)
  | openChangeRequest (repository branch : String) (title : Option String)
  | closeChangeRequest (repository : String) (number : UInt64)
  | changeRequestBaseline (repository : String) (number : UInt64)
  | changeRequestTitle (repository : String) (number : UInt64)
  | changeRequestHead (repository : String) (number : UInt64)
  | listChangeRequests (repository : String)
  | changeRequestsTargeting (repository branch : String)
  | addFile (repository target message path : String) (content : Bytes)
  | removeFile (repository target message path : String)
  | resolve (repository identifier : String)
  | checkout (destination : Destination (StateM σ)) (repository identifier : String)
  | log (repository identifier : String)
  | stat (repository identifier path : String)
  | lastModified (repository identifier : String)
  | fileContent (repository identifier path : String)
  | listFiles (repository identifier : String)

/-- An outcome with its result as an answer. -/
def answering {α : Type} (answer : α → Answer) (outcome : Outcome α) : Outcome Answer :=
  (outcome.1.map answer, outcome.2)

/-- The outcome of looking only: the controller stays as it is. -/
def looking {α : Type} (answer : α → Answer) (c : Controller) (result : Except StoreError α) :
    Outcome Answer :=
  answering answer (result, c)

/-- Carries a call out, with the place that a checkout would go to as it stands before, and gives
that place as it stands afterwards. -/
def Call.run {σ : Type} (place : σ) (c : Controller) : Call σ → Outcome Answer × σ
  | createRepository name => (answering (fun _ => .done) (c.createRepository name), place)
  | deleteRepository name => (answering (fun _ => .done) (c.deleteRepository name), place)
  | listRepositories => (looking .names c (.ok c.listRepositories), place)
  | description repository => (looking .text c (c.description repository), place)
  | setDescription repository text =>
    (answering (fun _ => .done) (c.setDescription repository text), place)
  | primaryBranch repository => (looking .text? c (c.primaryBranch repository), place)
  | setPrimaryBranch repository branch =>
    (answering (fun _ => .done) (c.setPrimaryBranch repository branch), place)
  | createBranch repository branch => (answering .hash (c.createBranch repository branch), place)
  | cloneBranch repository source copy =>
    (answering .hash (c.cloneBranch repository source copy), place)
  | deleteBranch repository branch =>
    (answering (fun _ => .done) (c.deleteBranch repository branch), place)
  | listBranches repository => (looking .names c (c.listBranches repository), place)
  | branchHead repository branch => (looking .hash c (c.branchHead repository branch), place)
  | createTag repository identifier tag =>
    (answering .hash (c.createTag repository identifier tag), place)
  | deleteTag repository tag => (answering (fun _ => .done) (c.deleteTag repository tag), place)
  | listTags repository => (looking .names c (c.listTags repository), place)
  | openChangeRequest repository branch title =>
    (answering .number (c.openChangeRequest repository branch title), place)
  | closeChangeRequest repository number =>
    (answering (fun _ => .done) (c.closeChangeRequest repository number), place)
  | changeRequestBaseline repository number =>
    (looking .text? c (c.changeRequestBaseline repository number), place)
  | changeRequestTitle repository number =>
    (looking .text? c (c.changeRequestTitle repository number), place)
  | changeRequestHead repository number =>
    (looking .hash c (c.changeRequestHead repository number), place)
  | listChangeRequests repository => (looking .numbers c (c.listChangeRequests repository), place)
  | changeRequestsTargeting repository branch =>
    (looking .numbers c (c.changeRequestsTargeting repository branch), place)
  | addFile repository target message path content =>
    (answering .hash (c.addFile repository target message path content), place)
  | removeFile repository target message path =>
    (answering .hash (c.removeFile repository target message path), place)
  | resolve repository identifier => (looking .hash c (c.resolve repository identifier), place)
  | checkout destination repository identifier =>
    let (result, place) := (c.checkout destination repository identifier).run place
    (looking .hash c result, place)
  | log repository identifier => (looking .history c (c.log repository identifier), place)
  | stat repository identifier path => (looking .kind c (c.stat repository identifier path), place)
  | lastModified repository identifier =>
    (looking .time? c (.ok (c.lastModified repository identifier)), place)
  | fileContent repository identifier path =>
    (looking .content? c (c.fileContent repository identifier path), place)
  | listFiles repository identifier =>
    (looking .names c (c.listFiles repository identifier), place)

/-! ### Failing quietly -/

/-- Where the operation fails, it leaves the controller as it was, and whatever clock the controller
has, the operation fails with the same error and leaves that clock alone. -/
def FailsQuietly {α : Type} (operation : Controller → Outcome α) : Prop :=
  ∀ (c : Controller) (e : StoreError), (operation c).1 = .error e →
    ∀ clock, operation { c with clock := clock } = (.error e, { c with clock := clock })

/-- Passing an answer on keeps an operation quiet. -/
theorem FailsQuietly.answering {α : Type} {operation : Controller → Outcome α}
    (quiet : FailsQuietly operation) (answer : α → Answer) :
    FailsQuietly fun c => answering answer (operation c) := by
  intro c e failed clock
  cases result : (operation c).1 with
  | ok a =>
      simp only [Controller.answering, result] at failed
      cases failed
  | error e' =>
      simp only [Controller.answering, result] at failed
      cases failed
      simp only [Controller.answering, quiet c e result clock]
      rfl

/-- Looking is quiet if it does not depend on the clock. -/
theorem failsQuietly_looking {α : Type} (look : Controller → Except StoreError α)
    (answer : α → Answer)
    (blind : ∀ (c : Controller) (clock : Clock), look { c with clock := clock } = look c) :
    FailsQuietly fun c => looking answer c (look c) := by
  have quiet : FailsQuietly fun c => (look c, c) := by
    intro c e failed clock
    have same : look { c with clock := clock } = .error e := (blind c clock).trans failed
    exact congrArg (·, _) same
  exact quiet.answering answer

theorem find_eq_ok_iff {c : Controller} {repository : String} {r : Repository} :
    c.find repository = .ok r ↔ c.repositories[repository]? = some r := by
  unfold find
  cases c.repositories[repository]? <;> simp

/-- A repository that is put takes its place and leaves every other where it is. -/
theorem getElem?_put (c : Controller) (name other : String) (r : Repository) :
    (c.put name r).repositories[other]? =
      if other = name then some r else c.repositories[other]? := by
  simp only [put, Std.ExtTreeMap.getElem?_insert, Std.compare_eq_iff_eq, eq_comm (a := other)]

/-- Putting a repository where it is already changes nothing. -/
theorem put_of_find {c : Controller} {repository : String} {r : Repository}
    (found : c.find repository = .ok r) : c.put repository r = c := by
  have same : c.repositories.insert repository r = c.repositories := by
    refine Std.ExtTreeMap.ext_getElem? fun name => ?_
    rw [Std.ExtTreeMap.getElem?_insert]
    split
    · next at_name => rw [← Std.compare_eq_iff_eq.1 at_name, find_eq_ok_iff.1 found]
    · rfl
  rw [put, same]

theorem edit_of_find {α : Type} {c : Controller} {repository : String} {r : Repository}
    (found : c.find repository = .ok r) (change : Repository → Except StoreError α × Repository) :
    c.edit repository change = ((change r).1, c.put repository (change r).2) := by
  rw [edit, found]

theorem edit_of_missing {α : Type} {c : Controller} {repository : String} {e : StoreError}
    (missing : c.find repository = .error e)
    (change : Repository → Except StoreError α × Repository) :
    c.edit repository change = (.error e, c) := by
  rw [edit, missing]

/-- **An edit of one repository fails quietly** if the edit gives the repository back where it
fails. -/
theorem failsQuietly_edit {α : Type} (repository : String)
    {change : Repository → Except StoreError α × Repository}
    (gives_back : ∀ r e, (change r).1 = .error e → (change r).2 = r) :
    FailsQuietly fun c => c.edit repository change := by
  intro c e (failed : (c.edit repository change).1 = .error e) clock
  cases found : c.find repository with
  | error e' =>
      rw [edit_of_missing found] at failed
      cases failed
      exact edit_of_missing (c := { c with clock := clock }) found change
  | ok r =>
      rw [edit_of_find found] at failed
      have found' : ({ c with clock := clock } : Controller).find repository = .ok r := found
      refine (edit_of_find found' change).trans ?_
      rw [gives_back r e failed, put_of_find found', show (change r).1 = .error e from failed]

/-- An edit that carries a mutation out fails quietly. -/
theorem failsQuietly_mutation {α : Type} (repository : String) (m : Mutation)
    {change : Repository → Except StoreError α × Repository} {reply : α → Reply}
    (carries_out : ∀ r, m.perform r = Mutation.answering reply (change r)) :
    FailsQuietly fun c => c.edit repository change := by
  refine failsQuietly_edit repository fun r e failed => ?_
  have refused : (m.perform r).1 = .error e := by
    rw [carries_out, Mutation.answering, failed]
    rfl
  rw [← Mutation.answering_snd reply, ← carries_out, Repository.perform_of_error refused]

theorem failsQuietly_createRepository (name : String) :
    FailsQuietly fun c => c.createRepository name := by
  intro c e (failed : (c.createRepository name).1 = .error e) clock
  unfold createRepository at failed
  split at failed
  · next taken =>
      cases failed
      exact if_pos taken
  · cases failed

theorem failsQuietly_deleteRepository (name : String) :
    FailsQuietly fun c => c.deleteRepository name := by
  intro c e (failed : (c.deleteRepository name).1 = .error e) clock
  unfold deleteRepository at failed
  split at failed
  · cases failed
  · next absent =>
      cases failed
      exact if_neg absent

theorem failsQuietly_createBranch (repository branch : String) :
    FailsQuietly fun c => c.createBranch repository branch := by
  intro c e (failed : (c.createBranch repository branch).1 = .error e) clock
  have found' : ({ c with clock := clock } : Controller).find repository = c.find repository := rfl
  simp only [createBranch, found'] at failed ⊢
  split at failed
  · cases failed
  · cases failed
    rfl

/-- The clock is read only once the commit is sure to succeed. -/
theorem failsQuietly_commit (repository target message : String) (change : FileChange) :
    FailsQuietly fun c => c.commit repository target message change := by
  intro c e (failed : (c.commit repository target message change).1 = .error e) clock
  have found' : ({ c with clock := clock } : Controller).find repository = c.find repository := rfl
  simp only [commit, found'] at failed ⊢
  split at failed
  · split at failed
    · cases failed
    · cases failed
      rfl
  · cases failed
    rfl

/-- Every call fails quietly, whatever it is about. -/
theorem Call.failsQuietly {σ : Type} (place : σ) (call : Call σ) :
    FailsQuietly fun c => (call.run place c).1 := by
  cases call with
  | createRepository name => exact (failsQuietly_createRepository name).answering _
  | deleteRepository name => exact (failsQuietly_deleteRepository name).answering _
  | setDescription repository text =>
      exact (failsQuietly_edit repository fun r e failed => by cases failed).answering _
  | setPrimaryBranch repository branch =>
      exact (failsQuietly_mutation repository (.setPrimaryBranch branch) fun _ => rfl).answering _
  | createBranch repository branch =>
      exact (failsQuietly_createBranch repository branch).answering _
  | cloneBranch repository source copy =>
      exact (failsQuietly_mutation repository (.cloneBranch source copy) fun _ => rfl).answering _
  | deleteBranch repository branch =>
      exact (failsQuietly_edit repository fun r e failed => by cases failed).answering _
  | createTag repository identifier tag =>
      exact (failsQuietly_mutation repository (.createTag identifier tag) fun _ => rfl).answering _
  | deleteTag repository tag =>
      exact (failsQuietly_edit repository fun r e failed => by cases failed).answering _
  | openChangeRequest repository branch title =>
      exact (failsQuietly_mutation repository (.openChangeRequest branch title)
        fun _ => rfl).answering _
  | closeChangeRequest repository number =>
      exact (failsQuietly_edit repository fun r e failed => by cases failed).answering _
  | addFile repository target message path content =>
      exact (failsQuietly_commit repository target message _).answering _
  | removeFile repository target message path =>
      exact (failsQuietly_commit repository target message _).answering _
  -- The rest only look.
  | _ => exact failsQuietly_looking _ _ fun _ _ => rfl

/-- A call that fails leaves the controller as it was. -/
theorem Call.run_of_error {σ : Type} {place : σ} {c : Controller} {call : Call σ} {e : StoreError}
    (failed : (call.run place c).1.1 = .error e) : (call.run place c).1 = (.error e, c) :=
  Call.failsQuietly place call c e failed c.clock

/-- **A failed call changes nothing.**  Whatever the controller and the call, if the call gives an
error then every repository and the clock are as before, and the clock has not been read: with any
other clock in its place the call gives the same error and leaves that clock as it is. -/
theorem failed_call_changes_nothing {σ : Type} (place : σ) (c : Controller) (call : Call σ)
    (e : StoreError) (failed : (call.run place c).1.1 = .error e) :
    (call.run place c).1.2 = c ∧
      ∀ clock, (call.run place { c with clock := clock }).1 =
        (.error e, { c with clock := clock }) := by
  have quiet := Call.failsQuietly place call c e failed
  refine ⟨?_, quiet⟩
  have here : (call.run place c).1 = (.error e, c) := quiet c.clock
  rw [here]

/-- A commit to a change request that has been closed fails, and changes nothing. -/
theorem failed_call_changes_nothing_closed :
    let c := (Controller.withClock (.stepping ⟨0⟩ 1)).createRepository "r" |>.2
    let opened := (c.openChangeRequest "r" "master" none).2
    let closed := (opened.closeChangeRequest "r" 1).2
    let call : Call Unit := .addFile "r" "change-request/1" "m" "a" [1]
    (call.run () closed).1.1 = .error (.unknownChangeRequest "r" 1) ∧
      (call.run () closed).1.2 = closed := by
  intro c opened closed call
  have failed : (call.run () closed).1.1 = .error (.unknownChangeRequest "r" 1) := rfl
  exact ⟨failed, (failed_call_changes_nothing () closed call _ failed).1⟩

end Controller

end RevisionStore
