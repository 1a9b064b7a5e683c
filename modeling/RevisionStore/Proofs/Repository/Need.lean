/-
**What an operation needs of a repository, and how it fails where the need is not met.**

An operation looks one thing up before it does anything: a branch, an open change request, a place
to commit to, or a revision by one of its names.  Some need nothing.  What it means that the thing
is not there is said here once for each kind of need, without the lookup, and with it the one error
that tells so.  An operation fails exactly where its need is not met: in a reachable repository no
later lookup can fail.

Main definitions:

* `Need`, `Need.Unmet` — what can be needed, and **what is missing, with the error for it**;
* `Mutation.need` — what a mutation needs;
* `StoreError.repository?` — the repository that an error tells of.

Main results:

* `Need.Unmet.isNotFound`, `Need.Unmet.repository?_eq` — the errors are lookup failures, and tell of
  the repository;
* `Repository.branchHead_eq_error_iff`, `Repository.changeRequestHead_eq_error_iff`,
  `Repository.WellFormed.commitBase_eq_error_iff`, `Repository.WellFormed.resolve_eq_error_iff` —
  each lookup fails where the need for it is not met;
* `Repository.WellFormed.perform_eq_error_iff` — **so does each mutation**.
-/

import RevisionStore.Proofs.Repository.Priority

set_option autoImplicit false

namespace RevisionStore

/-- Saying a success differently keeps an error. -/
theorem map_eq_error_iff {ε α β : Type} {f : α → β} {result : Except ε α} {e : ε} :
    result.map f = .error e ↔ result = .error e := by
  cases result <;> simp [Except.map]

/-- The repository that an error tells of. -/
def StoreError.repository? : StoreError → Option String
  | unknownRepository repository | repositoryExists repository | unknownBranch repository _
  | unknownChangeRequest repository _ | unknownTarget repository _
  | unknownIdentifier repository _ => some repository
  | invalidPath _ | checkoutFailed _ _ => none

/-! ### Needs -/

/-- What an operation looks up in a repository before it does anything. -/
inductive Need where
  | nothing
  | branch (name : String)
  | changeRequest (number : UInt64)
  | target (text : String)
  | identifier (text : String)
deriving DecidableEq

/-- What is needed is not there; the error tells what is missing.  A text that is no branch, or not
the name of any revision, is missing as a change request if it has the form of one. -/
inductive Need.Unmet (r : Repository) : Need → StoreError → Prop
  | branch {name : String} (absent : name ∉ r.branches) :
      Unmet r (.branch name) (.unknownBranch r.name name)
  | changeRequest {number : UInt64} (closed : number ∉ r.changeRequests) :
      Unmet r (.changeRequest number) (.unknownChangeRequest r.name number)
  | closedTarget {text : String} {number : UInt64} (no_branch : text ∉ r.branches)
      (named : ChangeRequest.Names text number.toNat) (closed : number ∉ r.changeRequests) :
      Unmet r (.target text) (.unknownChangeRequest r.name number)
  | unknownTarget {text : String} (no_branch : text ∉ r.branches)
      (unnamed : ∀ number : UInt64, ¬ ChangeRequest.Names text number.toNat) :
      Unmet r (.target text) (.unknownTarget r.name text)
  | closedIdentifier {text : String} {number : UInt64} (unclaimed : r.Unclaimed text)
      (named : ChangeRequest.Names text number.toNat) (closed : number ∉ r.changeRequests) :
      Unmet r (.identifier text) (.unknownChangeRequest r.name number)
  | unknownIdentifier {text : String} (unclaimed : r.Unclaimed text)
      (unnamed : ∀ number : UInt64, ¬ ChangeRequest.Names text number.toNat) :
      Unmet r (.identifier text) (.unknownIdentifier r.name text)

namespace Need

variable {r : Repository} {need : Need} {e : StoreError}

@[simp] theorem not_unmet_nothing : ¬ Unmet r .nothing e := by
  rintro ⟨⟩

/-- What is missing could not be found. -/
theorem Unmet.isNotFound (unmet : need.Unmet r e) : e.isNotFound = true := by
  cases unmet <;> rfl

/-- The error tells of the repository that it is missing in. -/
theorem Unmet.repository?_eq (unmet : need.Unmet r e) : e.repository? = some r.name := by
  cases unmet <;> rfl

theorem unmet_branch_iff {name : String} :
    (Need.branch name).Unmet r e ↔ name ∉ r.branches ∧ e = .unknownBranch r.name name := by
  constructor
  · intro unmet
    cases unmet with
    | branch absent => exact ⟨absent, rfl⟩
  · rintro ⟨absent, rfl⟩
    exact .branch absent

theorem unmet_changeRequest_iff {number : UInt64} :
    (Need.changeRequest number).Unmet r e ↔
      number ∉ r.changeRequests ∧ e = .unknownChangeRequest r.name number := by
  constructor
  · intro unmet
    cases unmet with
    | changeRequest closed => exact ⟨closed, rfl⟩
  · rintro ⟨closed, rfl⟩
    exact .changeRequest closed

end Need

/-! ### Lookups -/

theorem ChangeRequest.number?_eq_none_iff {text : String} :
    number? text = none ↔ ∀ number : UInt64, ¬ Names text number.toNat := by
  simp only [Option.eq_none_iff_forall_ne_some, ne_eq, number?_eq_some_iff]

namespace Repository

variable {r : Repository} {e : StoreError}

theorem branchHead_eq_error_iff {branch : String} :
    r.branchHead branch = .error e ↔ (Need.branch branch).Unmet r e := by
  rw [Need.unmet_branch_iff, ← getElem?_eq_none_iff, branchHead]
  cases r.branches[branch]? <;> simp [eq_comm]

theorem changeRequestHead_eq_error_iff {number : UInt64} :
    r.changeRequestHead number = .error e ↔ (Need.changeRequest number).Unmet r e := by
  rw [Need.unmet_changeRequest_iff, ← getElem?_eq_none_iff, changeRequestHead]
  cases r.changeRequests[number]? <;> simp [eq_comm]

theorem commitTarget_eq_error_iff {text : String} :
    r.commitTarget text = .error e ↔ (Need.target text).Unmet r e := by
  unfold commitTarget
  constructor
  · intro failed
    split at failed
    · cases failed
    · next no_branch =>
        split at failed
        · next number named =>
            split at failed
            · cases failed
            · next closed =>
                cases failed
                exact .closedTarget (by simpa using no_branch)
                  (ChangeRequest.number?_eq_some_iff.1 named) (by simpa using closed)
        · next unnamed =>
            cases failed
            exact .unknownTarget (by simpa using no_branch)
              (ChangeRequest.number?_eq_none_iff.1 unnamed)
  · intro unmet
    cases unmet with
    | closedTarget no_branch named closed =>
        simp [no_branch, ChangeRequest.number?_eq_some_iff.2 named, closed]
    | unknownTarget no_branch unnamed =>
        simp [no_branch, ChangeRequest.number?_eq_none_iff.2 unnamed]

/-- A commit is refused only for want of a place to commit to. -/
theorem WellFormed.commitBase_eq_error_iff (wf : WellFormed r) {text : String} :
    r.commitBase text = .error e ↔ (Need.target text).Unmet r e := by
  rw [← commitTarget_eq_error_iff]
  cases named : r.commitTarget text with
  | error e' => simp only [commitBase, named, bind, Except.bind, Except.error.injEq]
  | ok target =>
      obtain ⟨base, found⟩ := wf.exists_commitBase named
      simp [found]

/-- Where a text names a revision, that is there. -/
theorem WellFormed.resolve_eq_error_iff (wf : WellFormed r) {text : String} :
    r.resolve text = .error e ↔ (Need.identifier text).Unmet r e := by
  constructor
  · intro failed
    have resolves := wf.resolves text
    rw [failed] at resolves
    cases resolves with
    | closed unclaimed named closed => exact .closedIdentifier unclaimed named closed
    | unknown unclaimed unnamed => exact .unknownIdentifier unclaimed unnamed
  · intro unmet
    cases unmet with
    | closedIdentifier unclaimed named closed => exact resolve_of_closed unclaimed named closed
    | unknownIdentifier unclaimed unnamed => exact resolve_of_unnamed unclaimed unnamed

end Repository

/-! ### Mutations -/

/-- What a mutation needs. -/
def Mutation.need : Mutation → Need
  | setPrimaryBranch branch => .branch branch
  | cloneBranch source _ => .branch source
  | createTag identifier _ => .identifier identifier
  | openChangeRequest branch _ => .branch branch
  | commit target _ _ _ => .target target
  | _ => .nothing

namespace Repository

variable {r : Repository} {e : StoreError}

theorem setPrimaryBranch_eq_error_iff {branch : String} :
    (r.setPrimaryBranch branch).1 = .error e ↔ (Need.branch branch).Unmet r e := by
  rw [Need.unmet_branch_iff, setPrimaryBranch]
  by_cases present : branch ∈ r.branches <;> simp [present, eq_comm (a := e)]

/-- **A mutation fails exactly where what it needs is not there.** -/
theorem WellFormed.perform_eq_error_iff (wf : WellFormed r) {m : Mutation} :
    (m.perform r).1 = .error e ↔ m.need.Unmet r e := by
  cases m with
  | setPrimaryBranch branch => exact map_eq_error_iff.trans setPrimaryBranch_eq_error_iff
  | cloneBranch source copy =>
      refine map_eq_error_iff.trans (Iff.trans ?_ branchHead_eq_error_iff)
      rw [cloneBranch]
      cases r.branchHead source <;> simp
  | createTag identifier tag =>
      refine map_eq_error_iff.trans (Iff.trans ?_ wf.resolve_eq_error_iff)
      rw [createTag]
      cases r.resolve identifier <;> simp
  | openChangeRequest branch title =>
      refine map_eq_error_iff.trans (Iff.trans ?_ branchHead_eq_error_iff)
      rw [openChangeRequest]
      cases r.branchHead branch <;> simp
  | commit target message change timestamp =>
      refine map_eq_error_iff.trans (Iff.trans ?_ wf.commitBase_eq_error_iff)
      rw [commit]
      cases r.commitBase target <;> simp
  | _ => exact iff_of_false (by rintro ⟨⟩) Need.not_unmet_nothing

end Repository

end RevisionStore
