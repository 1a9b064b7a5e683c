/-
**Mutations: the operations that change a repository, as data.**

A run of a repository is a list of mutations, and what holds of every run is proved by induction on
that list.  What one mutation can do is said here once: it moves at most one ref
(`Repository.headOf?_perform`) and stores at most one revision
(`Repository.revisions_perform`).  Everything that a run keeps is derived from these two.

Main definitions:

* `Ref`, `Repository.headOf?`, `Repository.read?` — a ref of a repository, the hash that it points
  at, and the revision stored under that hash;
* `Mutation`, `Mutation.perform` — an operation with its arguments, and its effect;
* `Mutation.created?`, `Mutation.move?`, `Mutation.opens` — the revision that it creates, the ref
  that it moves, and whether it opens a change request;
* `Repository.run`, `Repository.reached` — the repository after a list of mutations, from any
  repository and from a new one;
* `Repository.revisionsMade` — every revision that was created on the way there.

Main results:

* `Repository.headOf?_perform` — **a mutation moves the ref it names and no other**;
* `Repository.revisions_perform` — a mutation stores the revision that it creates and nothing else;
* `Repository.lastChangeRequest_perform` — it counts a change request up only when it opens one;
* `Repository.perform_of_error` — it gives back the repository as it was if it fails.
-/

import RevisionStore.Repository.Edit
import Mathlib.Data.List.Induction
import Mathlib.Logic.Function.Basic

set_option autoImplicit false

namespace RevisionStore

/-! ### Refs -/

/-- A ref of a repository. -/
inductive Ref where
  | branch (name : String)
  | tag (name : String)
  | changeRequest (number : UInt64)
deriving DecidableEq

/-- A commit target as a ref. -/
def CommitTarget.ref : CommitTarget → Ref
  | .branch name => .branch name
  | .changeRequest number => .changeRequest number

namespace Repository

/-- The hash that a ref points at, if there is such a ref. -/
def headOf? (r : Repository) : Ref → Option RevisionHash
  | .branch name => r.branches[name]?
  | .tag name => r.tags[name]?
  | .changeRequest number => r.changeRequests[number]?.map ChangeRequest.head

/-- The revision that is read through a ref. -/
def read? (r : Repository) (ref : Ref) : Option Revision :=
  (r.headOf? ref).bind fun hash => r.revisions[hash]?

@[simp] theorem headOf?_branch (r : Repository) (name : String) :
    r.headOf? (.branch name) = r.branches[name]? := rfl

@[simp] theorem headOf?_tag (r : Repository) (name : String) :
    r.headOf? (.tag name) = r.tags[name]? := rfl

@[simp] theorem headOf?_changeRequest (r : Repository) (number : UInt64) :
    r.headOf? (.changeRequest number) = r.changeRequests[number]?.map ChangeRequest.head := rfl

@[simp] theorem headOf?_store (r : Repository) (revision : Revision) :
    (r.store revision).headOf? = r.headOf? := by
  funext ref
  cases ref <;> rfl

/-! Two repositories whose refs differ in one place only: one lemma for each kind of ref. -/

section OneRef

variable {r r' : Repository} {head : Option RevisionHash}

theorem headOf?_eq_update_branch {branch : String}
    (branches : ∀ name, r'.branches[name]? = if name = branch then head else r.branches[name]?)
    (tags : r'.tags = r.tags) (requests : r'.changeRequests = r.changeRequests) :
    r'.headOf? = Function.update r.headOf? (.branch branch) head := by
  funext ref
  cases ref with
  | branch name =>
      rw [headOf?_branch, branches]
      by_cases same : name = branch
      · simp [same]
      · simp [same, Function.update_of_ne]
  | tag name => simp [tags]
  | changeRequest number => simp [requests]

theorem headOf?_eq_update_tag {tag : String}
    (tags : ∀ name, r'.tags[name]? = if name = tag then head else r.tags[name]?)
    (branches : r'.branches = r.branches) (requests : r'.changeRequests = r.changeRequests) :
    r'.headOf? = Function.update r.headOf? (.tag tag) head := by
  funext ref
  cases ref with
  | branch name => simp [branches]
  | tag name =>
      rw [headOf?_tag, tags]
      by_cases same : name = tag
      · simp [same]
      · simp [same, Function.update_of_ne]
  | changeRequest number => simp [requests]

theorem headOf?_eq_update_changeRequest {number : UInt64}
    (requests : ∀ n, r'.changeRequests[n]?.map ChangeRequest.head =
      if n = number then head else r.changeRequests[n]?.map ChangeRequest.head)
    (branches : r'.branches = r.branches) (tags : r'.tags = r.tags) :
    r'.headOf? = Function.update r.headOf? (.changeRequest number) head := by
  funext ref
  cases ref with
  | branch name => simp [branches]
  | tag name => simp [tags]
  | changeRequest n =>
      rw [headOf?_changeRequest, requests]
      by_cases same : n = number
      · simp [same]
      · simp [same, Function.update_of_ne]

end OneRef

/-! ### What a commit builds on -/

/-- A text that a commit can name stands for a branch of that name, or for an open change
request. -/
theorem commitTarget_ok_iff {r : Repository} {text : String} {target : CommitTarget} :
    r.commitTarget text = .ok target ↔
      (target = .branch text ∧ text ∈ r.branches) ∨
        ∃ number, target = .changeRequest number ∧ text ∉ r.branches ∧
          ChangeRequest.number? text = some number ∧ number ∈ r.changeRequests := by
  unfold commitTarget
  by_cases branch : text ∈ r.branches
  · simp [branch, eq_comm (b := target)]
  · cases named : ChangeRequest.number? text with
    | none => simp [branch]
    | some number =>
        by_cases isOpen : number ∈ r.changeRequests
        · simp only [Std.ExtTreeMap.contains_iff_mem, branch, isOpen]
          constructor
          · rintro ⟨⟩
            exact .inr ⟨number, rfl, id, rfl, isOpen⟩
          · rintro (⟨-, ⟨⟩⟩ | ⟨n, rfl, -, ⟨⟩, -⟩)
            rfl
        · simp only [Std.ExtTreeMap.contains_iff_mem, branch, isOpen]
          constructor
          · rintro ⟨⟩
          · rintro (⟨-, ⟨⟩⟩ | ⟨n, -, -, ⟨⟩, stored⟩)
            exact absurd stored isOpen

/-- A target that a text stands for has a head. -/
theorem headOf?_commitTarget {r : Repository} {text : String} {target : CommitTarget}
    (named : r.commitTarget text = .ok target) :
    ∃ hash, r.headOf? target.ref = some hash ∧ r.targetHead target = .ok hash := by
  rcases commitTarget_ok_iff.1 named with ⟨rfl, stored⟩ | ⟨number, rfl, -, -, stored⟩
  · have found := Std.ExtTreeMap.getElem?_eq_some_getElem stored
    exact ⟨_, found, by simp [targetHead, branchHead, found]⟩
  · have found := Std.ExtTreeMap.getElem?_eq_some_getElem stored
    exact ⟨r.changeRequests[number].head, by simp [CommitTarget.ref, found],
      by simp [targetHead, changeRequestHead, found]⟩

/-- What a commit builds on is the revision under the head of its target. -/
theorem commitBase_ok_iff {r : Repository} {text : String} {target : CommitTarget}
    {base : Revision} :
    r.commitBase text = .ok (target, base) ↔
      r.commitTarget text = .ok target ∧ r.read? target.ref = some base := by
  unfold commitBase read?
  cases named : r.commitTarget text with
  | error e => simp [bind, Except.bind]
  | ok t =>
      obtain ⟨hash, head, target⟩ := headOf?_commitTarget named
      simp only [bind, Except.bind, target, Except.ok.injEq]
      cases found : r.revisions[hash]? with
      | none =>
          simp only [reduceCtorEq, false_iff, not_and]
          rintro rfl
          simp [head, found]
      | some revision =>
          simp only [Except.ok.injEq, Prod.mk.injEq]
          constructor
          · rintro ⟨rfl, rfl⟩
            exact ⟨rfl, by simp [head, found]⟩
          · rintro ⟨rfl, read⟩
            simpa [head, found] using read

theorem toOption_commitBase_eq_some_iff {r : Repository} {text : String} {target : CommitTarget}
    {base : Revision} :
    (r.commitBase text).toOption = some (target, base) ↔
      r.commitTarget text = .ok target ∧ r.read? target.ref = some base := by
  rw [← commitBase_ok_iff]
  cases r.commitBase text <;> simp [Except.toOption]

/-- A commit succeeds where there is something to build on, and answers with the hash of the child
of that. -/
theorem commit_eq_ok_iff {r : Repository} {text message : String} {change : FileChange}
    {timestamp : Timestamp} {hash : RevisionHash} :
    (r.commit text message change timestamp).1 = .ok hash ↔
      ∃ target base, r.commitBase text = .ok (target, base) ∧
        (base.child message timestamp change).hash = hash := by
  unfold commit
  cases found : r.commitBase text with
  | error e => simp
  | ok both => simp [extend, Prod.ext_iff]

end Repository

/-! ### Mutations -/

/-- An operation that changes a repository, with its arguments. -/
inductive Mutation where
  | setDescription (text : String)
  | setPrimaryBranch (branch : String)
  | createBranch (branch : String) (timestamp : Timestamp)
  | cloneBranch (source copy : String)
  | deleteBranch (branch : String)
  | createTag (identifier tag : String)
  | deleteTag (tag : String)
  | openChangeRequest (branch : String) (title : Option String)
  | closeChangeRequest (number : UInt64)
  | commit (target message : String) (change : FileChange) (timestamp : Timestamp)
deriving DecidableEq

/-- What a mutation answers when it succeeds. -/
inductive Reply where
  | done
  | existed (found : Bool)
  | hash (hash : RevisionHash)
  | number (number : UInt64)
deriving DecidableEq

namespace Mutation

/-- An outcome with its result as a reply. -/
def answering {α : Type} (reply : α → Reply) (outcome : Repository.Outcome α) :
    Repository.Outcome Reply :=
  (outcome.1.map reply, outcome.2)

@[simp] theorem answering_snd {α : Type} (reply : α → Reply) (outcome : Repository.Outcome α) :
    (answering reply outcome).2 = outcome.2 := rfl

/-- Carries the operation out. -/
def perform (r : Repository) : Mutation → Repository.Outcome Reply
  | setDescription text => (.ok .done, r.setDescription text)
  | setPrimaryBranch branch => answering (fun _ => .done) (r.setPrimaryBranch branch)
  | createBranch branch timestamp =>
    let (hash, r) := r.createBranch branch timestamp
    (.ok (.hash hash), r)
  | cloneBranch source copy => answering .hash (r.cloneBranch source copy)
  | deleteBranch branch =>
    let (found, r) := r.deleteBranch branch
    (.ok (.existed found), r)
  | createTag identifier tag => answering .hash (r.createTag identifier tag)
  | deleteTag tag =>
    let (found, r) := r.deleteTag tag
    (.ok (.existed found), r)
  | openChangeRequest branch title => answering .number (r.openChangeRequest branch title)
  | closeChangeRequest number =>
    let (found, r) := r.closeChangeRequest number
    (.ok (.existed found), r)
  | commit target message change timestamp =>
    answering .hash (r.commit target message change timestamp)

/-- The revision that the operation creates, if it creates one. -/
def created? (r : Repository) : Mutation → Option Revision
  | createBranch _ timestamp => some (.root timestamp)
  | commit target message change timestamp =>
    (r.commitBase target).toOption.map fun (_, base) => base.child message timestamp change
  | _ => none

/-- The ref that the operation moves, if it moves one, with the hash that the ref points at
afterwards, or nothing if the ref is dropped. -/
def move? (r : Repository) : Mutation → Option (Ref × Option RevisionHash)
  | setDescription _ => none
  | setPrimaryBranch _ => none
  | createBranch branch timestamp => some (.branch branch, some (Revision.root timestamp).hash)
  | cloneBranch source copy => r.branches[source]?.map fun hash => (.branch copy, some hash)
  | deleteBranch branch => some (.branch branch, none)
  | createTag identifier tag =>
    (r.resolve identifier).toOption.map fun revision => (.tag tag, some revision.hash)
  | deleteTag tag => some (.tag tag, none)
  | openChangeRequest branch _ =>
    r.branches[branch]?.map fun hash => (.changeRequest (r.lastChangeRequest + 1), some hash)
  | closeChangeRequest number => some (.changeRequest number, none)
  | commit target message change timestamp =>
    (r.commitBase target).toOption.map fun (target, base) =>
      (target.ref, some (base.child message timestamp change).hash)

/-- Does the operation open a change request? -/
def opens (r : Repository) : Mutation → Bool
  | openChangeRequest branch _ => r.branches.contains branch
  | _ => false

end Mutation

namespace Repository

/-! ### What one mutation does -/

theorem headOf?_moveTarget {r : Repository} {target : CommitTarget} (hash : RevisionHash)
    (present : (r.headOf? target.ref).isSome) :
    (r.moveTarget target hash).headOf? = Function.update r.headOf? target.ref (some hash) := by
  cases target with
  | branch name =>
      refine headOf?_eq_update_branch (fun n => ?_) rfl rfl
      simp [moveTarget, Std.ExtTreeMap.getElem?_insert, eq_comm (a := n)]
  | changeRequest number =>
      refine headOf?_eq_update_changeRequest (fun n => ?_) rfl rfl
      simp only [CommitTarget.ref, headOf?_changeRequest, Option.isSome_map] at present
      obtain ⟨request, found⟩ := Option.isSome_iff_exists.1 present
      by_cases same : n = number
      · subst same
        simp [moveTarget, found]
      · simp [moveTarget, Std.ExtTreeMap.getElem?_modify, same, Ne.symm same]

/-- **A mutation moves the ref it names and no other.** -/
theorem headOf?_perform (r : Repository) (m : Mutation) :
    (m.perform r).2.headOf? =
      (m.move? r).elim r.headOf? fun (ref, head) => Function.update r.headOf? ref head := by
  cases m with
  | setDescription text => funext ref; cases ref <;> rfl
  | setPrimaryBranch branch =>
      simp only [Mutation.perform, Mutation.answering_snd, setPrimaryBranch, Mutation.move?]
      split <;> (funext ref; cases ref <;> rfl)
  | createBranch branch timestamp =>
      refine headOf?_eq_update_branch (fun name => ?_) rfl rfl
      simp [Mutation.perform, createBranch, Std.ExtTreeMap.getElem?_insert, eq_comm (a := name)]
  | cloneBranch source copy =>
      cases found : r.branches[source]? with
      | none => simp [Mutation.perform, cloneBranch, branchHead, found, Mutation.move?]
      | some hash =>
          simp only [Mutation.perform, Mutation.answering_snd, cloneBranch, branchHead, found,
            Mutation.move?, Option.map_some, Option.elim_some]
          refine headOf?_eq_update_branch (fun name => ?_) rfl rfl
          simp [Std.ExtTreeMap.getElem?_insert, eq_comm (a := name)]
  | deleteBranch branch =>
      refine headOf?_eq_update_branch (fun name => ?_) ?_ ?_
      · simp only [Mutation.perform, deleteBranch]
        split
        · simp [Std.ExtTreeMap.getElem?_erase, eq_comm (a := name)]
        · next absent =>
            by_cases same : name = branch
            · subst same
              simpa using absent
            · simp [same]
      · simp only [Mutation.perform, deleteBranch]
        split <;> rfl
      · simp only [Mutation.perform, deleteBranch]
        split <;> rfl
  | createTag identifier tag =>
      cases found : r.resolve identifier with
      | error e =>
          simp [Mutation.perform, createTag, found, Mutation.move?, Except.toOption]
      | ok revision =>
          simp only [Mutation.perform, Mutation.answering_snd, createTag, found, Mutation.move?,
            Except.toOption, Option.map_some, Option.elim_some]
          refine headOf?_eq_update_tag (fun name => ?_) rfl rfl
          simp [Std.ExtTreeMap.getElem?_insert, eq_comm (a := name)]
  | deleteTag tag =>
      refine headOf?_eq_update_tag (fun name => ?_) rfl rfl
      simp [Mutation.perform, deleteTag, Std.ExtTreeMap.getElem?_erase, eq_comm (a := name)]
  | openChangeRequest branch title =>
      cases found : r.branches[branch]? with
      | none => simp [Mutation.perform, openChangeRequest, branchHead, found, Mutation.move?]
      | some hash =>
          simp only [Mutation.perform, Mutation.answering_snd, openChangeRequest, branchHead, found,
            Mutation.move?, Option.map_some, Option.elim_some]
          refine headOf?_eq_update_changeRequest (fun n => ?_) rfl rfl
          by_cases same : n = r.lastChangeRequest + 1
          · simp [same]
          · simp [Std.ExtTreeMap.getElem?_insert, same, Ne.symm same]
  | closeChangeRequest number =>
      refine headOf?_eq_update_changeRequest (fun n => ?_) rfl rfl
      by_cases same : n = number
      · simp [Mutation.perform, closeChangeRequest, same]
      · simp [Mutation.perform, closeChangeRequest, Std.ExtTreeMap.getElem?_erase, same,
          Ne.symm same]
  | commit target message change timestamp =>
      cases found : r.commitBase target with
      | error e => simp [Mutation.perform, commit, found, Mutation.move?, Except.toOption]
      | ok both =>
          obtain ⟨ref, base⟩ := both
          have read := (commitBase_ok_iff.1 found).2
          have present : (r.headOf? ref.ref).isSome := by
            cases head : r.headOf? ref.ref with
            | none => simp [read?, head] at read
            | some hash => rfl
          simp only [Mutation.perform, Mutation.answering_snd, commit, found, extend,
            Mutation.move?, Except.toOption, Option.map_some, Option.elim_some]
          rw [headOf?_moveTarget _ (by rwa [headOf?_store]), headOf?_store]

theorem headOf?_of_not_moved {r : Repository} {m : Mutation} (still : m.move? r = none) :
    (m.perform r).2.headOf? = r.headOf? := by
  rw [headOf?_perform, still]
  rfl

theorem headOf?_of_moved {r : Repository} {m : Mutation} {ref : Ref} {head : Option RevisionHash}
    (moved : m.move? r = some (ref, head)) :
    (m.perform r).2.headOf? = Function.update r.headOf? ref head := by
  rw [headOf?_perform, moved]
  rfl

@[simp] theorem revisions_moveTarget (r : Repository) (target : CommitTarget)
    (hash : RevisionHash) : (r.moveTarget target hash).revisions = r.revisions := by
  cases target <;> rfl

/-- **A mutation stores the revision that it creates and nothing else.** -/
theorem revisions_perform (r : Repository) (m : Mutation) :
    (m.perform r).2.revisions =
      (m.created? r).elim r.revisions fun revision =>
        r.revisions.insert revision.hash revision := by
  cases m with
  | setDescription text => rfl
  | setPrimaryBranch branch =>
      simp only [Mutation.perform, Mutation.answering_snd, setPrimaryBranch]
      split <;> rfl
  | createBranch branch timestamp => rfl
  | cloneBranch source copy =>
      simp only [Mutation.perform, Mutation.answering_snd, cloneBranch]
      split <;> rfl
  | deleteBranch branch =>
      simp only [Mutation.perform, deleteBranch]
      split <;> rfl
  | createTag identifier tag =>
      simp only [Mutation.perform, Mutation.answering_snd, createTag]
      split <;> rfl
  | deleteTag tag => rfl
  | openChangeRequest branch title =>
      simp only [Mutation.perform, Mutation.answering_snd, openChangeRequest]
      split <;> rfl
  | closeChangeRequest number => rfl
  | commit target message change timestamp =>
      cases found : r.commitBase target with
      | error e => simp [Mutation.perform, commit, found, Mutation.created?, Except.toOption]
      | ok both =>
          simp [Mutation.perform, commit, found, Mutation.created?, Except.toOption, extend, store]

theorem revisions_of_nothing_created {r : Repository} {m : Mutation}
    (none_new : m.created? r = none) : (m.perform r).2.revisions = r.revisions := by
  rw [revisions_perform, none_new]
  rfl

theorem revisions_of_created {r : Repository} {m : Mutation} {revision : Revision}
    (created : m.created? r = some revision) :
    (m.perform r).2.revisions = r.revisions.insert revision.hash revision := by
  rw [revisions_perform, created]
  rfl

/-- The last number goes up when a change request is opened, and never otherwise. -/
theorem lastChangeRequest_perform (r : Repository) (m : Mutation) :
    (m.perform r).2.lastChangeRequest =
      if m.opens r then r.lastChangeRequest + 1 else r.lastChangeRequest := by
  cases m with
  | setPrimaryBranch branch =>
      simp only [Mutation.perform, Mutation.answering_snd, setPrimaryBranch, Mutation.opens]
      split <;> rfl
  | cloneBranch source copy =>
      simp only [Mutation.perform, Mutation.answering_snd, cloneBranch, Mutation.opens]
      split <;> rfl
  | deleteBranch branch =>
      simp only [Mutation.perform, deleteBranch, Mutation.opens]
      split <;> rfl
  | createTag identifier tag =>
      simp only [Mutation.perform, Mutation.answering_snd, createTag, Mutation.opens]
      split <;> rfl
  | openChangeRequest branch title =>
      cases found : r.branches[branch]? with
      | none =>
          have absent : branch ∉ r.branches := by
            simp [Std.ExtTreeMap.mem_iff_isSome_getElem?, found]
          simp [Mutation.perform, openChangeRequest, branchHead, Mutation.opens, absent]
      | some hash =>
          have present : branch ∈ r.branches := (Std.ExtTreeMap.getElem?_eq_some_iff.1 found).1
          simp only [Mutation.perform, Mutation.answering_snd, openChangeRequest, branchHead, found,
            Mutation.opens, Std.ExtTreeMap.contains_iff_mem.2 present, if_true]
  | commit target message change timestamp =>
      simp only [Mutation.perform, Mutation.answering_snd, commit, Mutation.opens]
      split
      · next target base found => cases target <;> rfl
      · rfl
  | _ => rfl

/-- A mutation keeps the name of the repository. -/
theorem name_perform (r : Repository) (m : Mutation) : (m.perform r).2.name = r.name := by
  cases m with
  | setPrimaryBranch branch =>
      simp only [Mutation.perform, Mutation.answering_snd, setPrimaryBranch]
      split <;> rfl
  | cloneBranch source copy =>
      simp only [Mutation.perform, Mutation.answering_snd, cloneBranch]
      split <;> rfl
  | deleteBranch branch =>
      simp only [Mutation.perform, deleteBranch]
      split <;> rfl
  | createTag identifier tag =>
      simp only [Mutation.perform, Mutation.answering_snd, createTag]
      split <;> rfl
  | openChangeRequest branch title =>
      simp only [Mutation.perform, Mutation.answering_snd, openChangeRequest]
      split <;> rfl
  | commit target message change timestamp =>
      simp only [Mutation.perform, Mutation.answering_snd, commit]
      split
      · next target base found => cases target <;> rfl
      · rfl
  | _ => rfl

/-- A mutation that fails gives back the repository that it was given. -/
theorem perform_of_error {r : Repository} {m : Mutation} {e : StoreError}
    (failed : (m.perform r).1 = .error e) : (m.perform r).2 = r := by
  cases m with
  | setPrimaryBranch branch =>
      simp only [Mutation.perform, Mutation.answering, setPrimaryBranch] at failed ⊢
      split at failed
      · cases failed
      · next absent => rw [if_neg absent]
  | cloneBranch source copy =>
      simp only [Mutation.perform, Mutation.answering, cloneBranch] at failed ⊢
      split at failed
      · cases failed
      · rfl
  | createTag identifier tag =>
      simp only [Mutation.perform, Mutation.answering, createTag] at failed ⊢
      split at failed
      · cases failed
      · rfl
  | openChangeRequest branch title =>
      simp only [Mutation.perform, Mutation.answering, openChangeRequest] at failed ⊢
      split at failed
      · cases failed
      · rfl
  | commit target message change timestamp =>
      simp only [Mutation.perform, Mutation.answering, commit] at failed ⊢
      split at failed
      · cases failed
      · rfl
  | _ => cases failed

/-! ### Runs -/

/-- The repository after a list of mutations. -/
def run (r : Repository) (ms : List Mutation) : Repository :=
  ms.foldl (fun r m => (m.perform r).2) r

@[simp] theorem run_nil (r : Repository) : r.run [] = r := rfl

@[simp] theorem run_concat (r : Repository) (done : List Mutation) (m : Mutation) :
    r.run (done ++ [m]) = (m.perform (r.run done)).2 := by
  simp [run]

/-- The revisions that a list of mutations creates, in order. -/
def made (r : Repository) : List Mutation → List Revision
  | [] => []
  | m :: ms => (m.created? r).toList ++ made (m.perform r).2 ms

theorem made_append (r : Repository) (done later : List Mutation) :
    r.made (done ++ later) = r.made done ++ (r.run done).made later := by
  induction done generalizing r with
  | nil => rfl
  | cons m done ih => simp [made, run, ih]

/-- The repository that a list of mutations leads to from a new one. -/
def reached (name : String) (start : Timestamp) (ms : List Mutation) : Repository :=
  (create name start).run ms

/-- The revisions that were created on the way to `reached name start ms`, in order. -/
def revisionsMade (name : String) (start : Timestamp) (ms : List Mutation) : List Revision :=
  .root start :: (create name start).made ms

section Reached

variable (name : String) (start : Timestamp)

@[simp] theorem reached_nil : reached name start [] = create name start := rfl

@[simp] theorem reached_concat (done : List Mutation) (m : Mutation) :
    reached name start (done ++ [m]) = (m.perform (reached name start done)).2 :=
  run_concat _ done m

@[simp] theorem revisionsMade_nil : revisionsMade name start [] = [.root start] := rfl

@[simp] theorem revisionsMade_concat (done : List Mutation) (m : Mutation) :
    revisionsMade name start (done ++ [m]) =
      revisionsMade name start done ++ (m.created? (reached name start done)).toList := by
  simp [revisionsMade, made_append, made, reached]

theorem name_reached (ms : List Mutation) : (reached name start ms).name = name := by
  induction ms using List.reverseRecOn with
  | nil => rfl
  | append_singleton done m ih => rw [reached_concat, name_perform, ih]

/-- What was created early in a run was created in the run. -/
theorem revisionsMade_subset_append (done later : List Mutation) :
    revisionsMade name start done ⊆ revisionsMade name start (done ++ later) := by
  intro revision here
  simp only [revisionsMade, made_append, ← List.cons_append]
  exact List.mem_append_left _ here

/-- What was created up to a mutation of a run was created in the run. -/
theorem revisionsMade_subset_of_split {ms done later : List Mutation} {m : Mutation}
    (split_at : ms = done ++ m :: later) :
    revisionsMade name start (done ++ [m]) ⊆ revisionsMade name start ms := by
  rw [split_at, List.append_cons done m later]
  exact revisionsMade_subset_append name start (done ++ [m]) later

end Reached

theorem headOf?_create (name : String) (start : Timestamp) :
    (create name start).headOf? =
      Function.update (fun _ => none) (.branch defaultBranch)
        (some (Revision.root start).hash) := by
  have bare : (empty name).headOf? = fun _ => none := by
    funext ref
    cases ref <;> simp [empty]
  rw [← bare]
  refine headOf?_eq_update_branch (fun branch => ?_) rfl rfl
  simp [create, createBranch, empty, Std.ExtTreeMap.getElem?_insert, eq_comm (a := branch)]

theorem revisions_create (name : String) (start : Timestamp) :
    (create name start).revisions =
      (∅ : Std.ExtTreeMap _ _).insert (Revision.root start).hash (Revision.root start) := rfl

end Repository

end RevisionStore
