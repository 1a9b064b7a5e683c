/-
**A call is confined to the repository that it names.**

Calls that name a repository look at that repository and at the clock and at nothing else, and
change no other repository.  Two controllers that agree on the repository and on the clock therefore
give the same answer to the call, and agree on both afterwards.

Main definitions:

* `Controller.Call.repository?` — the repository that a call names;
* `Controller.Agree` — two controllers have the same clock and the same repository of a name;
* `Controller.Confined` — **an operation neither reads nor changes any other repository**.

Main results:

* `Controller.eq_of_agree` — controllers that agree on every name are equal;
* `Controller.Call.confined` — **a call is confined to the repository that it names**;
* `Controller.Call.reply_congr` — controllers that agree on it reply alike, wherever a checkout
  goes.
-/

import RevisionStore.Proofs.Controller.Runs

set_option autoImplicit false

namespace RevisionStore.Controller

variable {σ α : Type} {name : String} {c c' : Controller}

/-- The repository that a call names.  Only the list of all repositories is about none. -/
def Call.repository? : Call σ → Option String
  | listRepositories => none
  | createRepository name | deleteRepository name => some name
  | description repository | setDescription repository _ | primaryBranch repository
  | setPrimaryBranch repository _ | createBranch repository _ | cloneBranch repository _ _
  | deleteBranch repository _ | listBranches repository | branchHead repository _
  | createTag repository _ _ | deleteTag repository _ | listTags repository
  | openChangeRequest repository _ _ | closeChangeRequest repository _
  | changeRequestBaseline repository _ | changeRequestTitle repository _
  | changeRequestHead repository _ | listChangeRequests repository
  | changeRequestsTargeting repository _ | addFile repository _ _ _ _
  | removeFile repository _ _ _ | resolve repository _ | checkout _ repository _
  | log repository _ | stat repository _ _ | lastModified repository _
  | fileContent repository _ _ | listFiles repository _ => some repository

/-! ### Controllers that agree -/

/-- The controllers have the same clock, and the same repository of this name or both none. -/
structure Agree (name : String) (c c' : Controller) : Prop where
  repository : c.repositories[name]? = c'.repositories[name]?
  clock : c.clock = c'.clock

theorem Agree.refl (name : String) (c : Controller) : Agree name c c := ⟨rfl, rfl⟩

theorem Agree.symm (agree : Agree name c c') : Agree name c' c :=
  ⟨agree.repository.symm, agree.clock.symm⟩

theorem Agree.trans {c'' : Controller} (first : Agree name c c') (second : Agree name c' c'') :
    Agree name c c'' :=
  ⟨first.repository.trans second.repository, first.clock.trans second.clock⟩

theorem Agree.find_eq (agree : Agree name c c') : c.find name = c'.find name := by
  rw [find, find, agree.repository]

/-- Controllers that agree on every repository are equal. -/
theorem eq_of_agree (agree : ∀ name, Agree name c c') : c = c' := by
  obtain ⟨repositories, clock⟩ := c
  obtain ⟨repositories', clock'⟩ := c'
  obtain rfl : repositories = repositories' :=
    Std.ExtTreeMap.ext_getElem? fun name => (agree name).repository
  obtain rfl : clock = clock' := (agree "").clock
  rfl

/-- What agrees still agrees when the same repository is put into both. -/
theorem Agree.put (agree : Agree name c c') (r : Repository) :
    Agree name (c.put name r) (c'.put name r) :=
  ⟨by rw [getElem?_put, getElem?_put, if_pos rfl, if_pos rfl], agree.clock⟩

theorem Agree.withClock (agree : Agree name c c') (clock : Clock) :
    Agree name { c with clock := clock } { c' with clock := clock } :=
  ⟨agree.repository, rfl⟩

/-! ### Confined operations -/

/-- The operation looks at the clock and at the repository of one name only: controllers that agree
on these get the same answer and still agree.  And it changes no other repository. -/
structure Confined (name : String) (operation : Controller → Outcome α) : Prop where
  congr : ∀ {c c' : Controller}, Agree name c c' →
    (operation c).1 = (operation c').1 ∧ Agree name (operation c).2 (operation c').2
  frame : ∀ (c : Controller) (other : String), other ≠ name →
    (operation c).2.repositories[other]? = c.repositories[other]?

theorem Confined.answering {operation : Controller → Outcome α} (confined : Confined name operation)
    (answer : α → Answer) : Confined name fun c => answering answer (operation c) where
  congr agree :=
    ⟨congrArg (Except.map answer) (confined.congr agree).1, (confined.congr agree).2⟩
  frame := confined.frame

theorem confined_looking {look : Controller → Except StoreError α} (answer : α → Answer)
    (congr : ∀ {c c' : Controller}, Agree name c c' → look c = look c') :
    Confined name fun c => looking answer c (look c) where
  congr agree := ⟨congrArg (Except.map answer) (congr agree), agree⟩
  frame _ _ _ := rfl

theorem Agree.inspect_eq (agree : Agree name c c') (look : Repository → Except StoreError α) :
    c.inspect name look = c'.inspect name look := by
  rw [inspect, inspect, agree.find_eq]

theorem confined_edit (name : String) (change : Repository → Except StoreError α × Repository) :
    Confined name fun c => c.edit name change where
  congr {c c'} agree := by
    cases found : c.find name with
    | error e =>
        have found' := agree.find_eq.symm.trans found
        rw [edit_of_missing found, edit_of_missing found']
        exact ⟨rfl, agree⟩
    | ok r =>
        have found' := agree.find_eq.symm.trans found
        rw [edit_of_find found, edit_of_find found']
        exact ⟨rfl, agree.put _⟩
  frame c other different := by
    cases found : c.find name with
    | error e => rw [edit_of_missing found]
    | ok r => rw [edit_of_find found, getElem?_put, if_neg different]

theorem confined_createRepository (name : String) :
    Confined name fun c => c.createRepository name where
  congr {c c'} agree := by
    have taken : c.repositories.contains name = c'.repositories.contains name := by
      rw [← Std.ExtTreeMap.isSome_getElem?_eq_contains, agree.repository,
        Std.ExtTreeMap.isSome_getElem?_eq_contains]
    unfold createRepository
    rw [taken, agree.clock]
    split
    · exact ⟨rfl, agree⟩
    · exact ⟨rfl, (agree.withClock _).put _⟩
  frame c other different := by
    unfold createRepository
    split
    · rfl
    · exact (getElem?_put _ _ _ _).trans (if_neg different)

theorem confined_deleteRepository (name : String) :
    Confined name fun c => c.deleteRepository name where
  congr {c c'} agree := by
    have taken : c.repositories.contains name = c'.repositories.contains name := by
      rw [← Std.ExtTreeMap.isSome_getElem?_eq_contains, agree.repository,
        Std.ExtTreeMap.isSome_getElem?_eq_contains]
    unfold deleteRepository
    rw [taken]
    split
    · exact ⟨rfl, by simp, agree.clock⟩
    · exact ⟨rfl, agree⟩
  frame c other different := (getElem?_deleteRepository c name other).trans (if_neg different)

theorem confined_createBranch (name branch : String) :
    Confined name fun c => c.createBranch name branch where
  congr {c c'} agree := by
    unfold createBranch
    rw [agree.find_eq, agree.clock]
    split
    · exact ⟨rfl, (agree.withClock _).put _⟩
    · exact ⟨rfl, agree⟩
  frame c other different := by
    unfold createBranch
    split
    · exact (getElem?_put _ _ _ _).trans (if_neg different)
    · rfl

theorem confined_commit (name target message : String) (change : FileChange) :
    Confined name fun c => c.commit name target message change where
  congr {c c'} agree := by
    unfold commit
    rw [agree.find_eq, agree.clock]
    split
    · split
      · exact ⟨rfl, (agree.withClock _).put _⟩
      · exact ⟨rfl, agree⟩
    · exact ⟨rfl, agree⟩
  frame c other different := by
    unfold commit
    split
    · split
      · exact (getElem?_put _ _ _ _).trans (if_neg different)
      · rfl
    · rfl

/-! ### Calls -/

/-- A checkout reads the snapshot of one repository. -/
theorem Agree.checkout_eq {m : Type → Type} [Monad m] (agree : Agree name c c')
    (destination : Destination m) (identifier : String) :
    c.checkout destination name identifier = c'.checkout destination name identifier := by
  rw [checkout, checkout, snapshot, snapshot, agree.inspect_eq]

/-- **A call is confined to the repository that it names.** -/
theorem Call.confined {call : Call σ} (names : call.repository? = some name) (place : σ) :
    Confined name fun c => (call.run place c).1 := by
  cases call with
  | listRepositories => cases names
  | createRepository => cases names; exact (confined_createRepository _).answering _
  | deleteRepository => cases names; exact (confined_deleteRepository _).answering _
  | setDescription => cases names; exact (confined_edit _ _).answering _
  | setPrimaryBranch => cases names; exact (confined_edit _ _).answering _
  | createBranch => cases names; exact (confined_createBranch _ _).answering _
  | cloneBranch => cases names; exact (confined_edit _ _).answering _
  | deleteBranch => cases names; exact (confined_edit _ _).answering _
  | createTag => cases names; exact (confined_edit _ _).answering _
  | deleteTag => cases names; exact (confined_edit _ _).answering _
  | openChangeRequest => cases names; exact (confined_edit _ _).answering _
  | closeChangeRequest => cases names; exact (confined_edit _ _).answering _
  | addFile => cases names; exact (confined_commit _ _ _ _).answering _
  | removeFile => cases names; exact (confined_commit _ _ _ _).answering _
  | checkout destination repository identifier =>
      cases names
      exact confined_looking .hash fun agree =>
        congrArg (fun write => (write.run place).1) (agree.checkout_eq destination identifier)
  | lastModified repository identifier =>
      cases names
      exact confined_looking .time? fun agree =>
        congrArg Except.ok (congrArg Except.toOption (agree.inspect_eq _))
  -- The rest only look.
  | _ => cases names; exact confined_looking _ fun agree => agree.inspect_eq _

/-- Controllers that agree on the repository that a call names reply alike, wherever a checkout
goes. -/
theorem Call.reply_congr {call : Call σ} (names : call.repository? = some name)
    (agree : Agree name c c') : call.reply c = call.reply c' := by
  funext place
  refine Prod.ext ((call.confined names place).congr agree).1 ?_
  cases call with
  | checkout destination repository identifier =>
      cases names
      exact congrArg (fun write => (write.run place).2) (agree.checkout_eq destination identifier)
  | _ => rfl

end RevisionStore.Controller
