/-
**A mutation changes the ref that it names, and no other.**

A ref holds a hash or, for a change request, the request with its baseline and its title.  What all
refs of a repository hold is one function of the ref, so that "nothing else changes" is an equation
between functions: the one before, updated at one place.  `Effect` says for every mutation which
place that is and what is put there.

Main definitions:

* `Holding`, `Repository.holding?` — what a ref holds;
* `Repository.Effect` — **what a mutation that succeeds does to the refs**, and for a commit what
  the new revision is.

Main results:

* `Repository.holding?_of_moved`, `Repository.holding?_of_not_moved` — a mutation changes what one
  ref holds, or nothing;
* `Repository.WellFormed.effect_of_commit` — a commit that finds what it builds on has its effect;
* `Repository.effect_of_success` — **every mutation that succeeds has its effect**, in every
  reachable repository, and the number that it gives out was not open before.
-/

import RevisionStore.Proofs.Repository.Numbering
import RevisionStore.Proofs.Repository.WellFormed

set_option autoImplicit false

namespace RevisionStore

/-! ### What a ref holds -/

/-- What a ref holds: a branch and a tag hold a hash, a change request holds all its fields. -/
inductive Holding where
  | hash (hash : RevisionHash)
  | request (request : ChangeRequest)
deriving DecidableEq

/-- The holding with another hash, all else unchanged. -/
def Holding.pointTo (hash : RevisionHash) : Holding → Holding
  | .hash _ => .hash hash
  | .request held => .request { held with head := hash }

namespace Repository

/-- What a ref holds, if there is such a ref. -/
def holding? (r : Repository) : Ref → Option Holding
  | .branch name => r.branches[name]?.map .hash
  | .tag name => r.tags[name]?.map .hash
  | .changeRequest number => r.changeRequests[number]?.map .request

/-- What a successful mutation does, one rule for each operation: `r` is the repository before and
`r'` the one afterwards. -/
inductive Effect (r r' : Repository) : Mutation → Reply → Prop
  | setDescription {text : String} (still : r'.holding? = r.holding?) :
      Effect r r' (.setDescription text) .done
  | setPrimaryBranch {branch : String} (still : r'.holding? = r.holding?) :
      Effect r r' (.setPrimaryBranch branch) .done
  | createBranch {branch : String} {timestamp : Timestamp} {hash : RevisionHash}
      (set : r'.holding? = Function.update r.holding? (.branch branch) (some (.hash hash)))
      (stored : r'.revisions[hash]? = some (.root timestamp)) :
      Effect r r' (.createBranch branch timestamp) (.hash hash)
  | cloneBranch {source copy : String} {hash : RevisionHash}
      (head : r.holding? (.branch source) = some (.hash hash))
      (set : r'.holding? = Function.update r.holding? (.branch copy) (some (.hash hash))) :
      Effect r r' (.cloneBranch source copy) (.hash hash)
  | deleteBranch {branch : String}
      (set : r'.holding? = Function.update r.holding? (.branch branch) none) :
      Effect r r' (.deleteBranch branch) (.existed (r.holding? (.branch branch)).isSome)
  | createTag {identifier tag : String} {revision : Revision}
      (named : r.resolve identifier = .ok revision)
      (set : r'.holding? = Function.update r.holding? (.tag tag) (some (.hash revision.hash))) :
      Effect r r' (.createTag identifier tag) (.hash revision.hash)
  | deleteTag {tag : String} (set : r'.holding? = Function.update r.holding? (.tag tag) none) :
      Effect r r' (.deleteTag tag) (.existed (r.holding? (.tag tag)).isSome)
  | openChangeRequest {branch : String} {title : Option String} {head : RevisionHash}
      {number : UInt64} (source : r.holding? (.branch branch) = some (.hash head))
      (set : r'.holding? = Function.update r.holding? (.changeRequest number)
        (some (.request ⟨head, branch, title.getD (defaultTitle number)⟩))) :
      Effect r r' (.openChangeRequest branch title) (.number number)
  | closeChangeRequest {number : UInt64}
      (set : r'.holding? = Function.update r.holding? (.changeRequest number) none) :
      Effect r r' (.closeChangeRequest number)
        (.existed (r.holding? (.changeRequest number)).isSome)
  | commit {text message : String} {change : FileChange} {timestamp : Timestamp}
      {target : CommitTarget} {old hash : RevisionHash} {base revision : Revision}
      (named : r.commitTarget text = .ok target) (head : r.headOf? target.ref = some old)
      (before : r.revisions[old]? = some base)
      (set : r'.holding? = Function.update r.holding? target.ref
        ((r.holding? target.ref).map (.pointTo hash)))
      (stored : r'.revisions[hash]? = some revision) (parent : revision.parent = some old)
      (said : revision.message = some message) (stamped : revision.timestamp = timestamp)
      (files : ∀ path, revision.files[path]? =
        if path = change.path then change.content? else base.files[path]?) :
      Effect r r' (.commit text message change timestamp) (.hash hash)

/-! ### One place only -/

variable {r : Repository} {m : Mutation}

/-- A change request that a mutation does not move keeps its baseline and its title as well. -/
theorem changeRequest_perform {number : UInt64}
    (still : ∀ head, m.move? r ≠ some (.changeRequest number, head)) :
    (m.perform r).2.changeRequests[number]? = r.changeRequests[number]? := by
  cases m with
  | setPrimaryBranch branch =>
      simp only [Mutation.perform, Mutation.answering_snd, setPrimaryBranch]
      split <;> rfl
  | cloneBranch source copy =>
      simp only [Mutation.perform, Mutation.answering_snd, cloneBranch]
      split <;> rfl
  | deleteBranch branch =>
      simp only [Mutation.perform, deleteBranch]
      split <;> rfl
  | createTag identifier tag =>
      simp only [Mutation.perform, Mutation.answering_snd, createTag]
      split <;> rfl
  | openChangeRequest branch title =>
      cases found : r.branches[branch]? with
      | none => simp [Mutation.perform, openChangeRequest, branchHead, found]
      | some head =>
          have other : r.lastChangeRequest + 1 ≠ number := by
            rintro rfl
            exact still (some head) (by simp [Mutation.move?, found])
          simp [Mutation.perform, openChangeRequest, branchHead, found,
            Std.ExtTreeMap.getElem?_insert, other]
  | closeChangeRequest n =>
      have other : n ≠ number := by
        rintro rfl
        exact still none rfl
      simp [Mutation.perform, closeChangeRequest, Std.ExtTreeMap.getElem?_erase, other]
  | commit text message change timestamp =>
      cases found : r.commitBase text with
      | error e => simp [Mutation.perform, commit, found]
      | ok both =>
          obtain ⟨target, base⟩ := both
          cases target with
          | branch name => simp [Mutation.perform, commit, found, extend, moveTarget, store]
          | changeRequest n =>
              have other : n ≠ number := by
                rintro rfl
                exact still (some (base.child message timestamp change).hash)
                  (by simp [Mutation.move?, found, Except.toOption, CommitTarget.ref])
              simp [Mutation.perform, commit, found, extend, moveTarget, store,
                Std.ExtTreeMap.getElem?_modify, other]
  | _ => rfl

theorem holding?_eq_of_head (r r' : Repository) {ref : Ref} (head : r'.headOf? ref = r.headOf? ref)
    (request : ∀ number, ref = .changeRequest number →
      r'.changeRequests[number]? = r.changeRequests[number]?) :
    r'.holding? ref = r.holding? ref := by
  cases ref with
  | branch name => exact congrArg (Option.map Holding.hash) head
  | tag name => exact congrArg (Option.map Holding.hash) head
  | changeRequest number => exact congrArg (Option.map Holding.request) (request number rfl)

/-- **A mutation changes what the ref holds that it moves, and nothing else.** -/
theorem holding?_of_moved {ref : Ref} {head : Option RevisionHash}
    (moved : m.move? r = some (ref, head)) :
    (m.perform r).2.holding? =
      Function.update r.holding? ref ((m.perform r).2.holding? ref) := by
  funext other
  by_cases same : other = ref
  · subst same
    rw [Function.update_self]
  · rw [Function.update_of_ne same]
    refine holding?_eq_of_head _ _ ?_ ?_
    · rw [headOf?_of_moved moved, Function.update_of_ne same]
    · rintro number rfl
      refine changeRequest_perform ?_
      intro h moved'
      rw [moved] at moved'
      cases moved'
      exact same rfl

theorem holding?_of_not_moved (still : m.move? r = none) :
    (m.perform r).2.holding? = r.holding? := by
  funext ref
  refine holding?_eq_of_head _ _ (congrFun (headOf?_of_not_moved still) ref) ?_
  rintro number -
  refine changeRequest_perform ?_
  rw [still]
  rintro head ⟨⟩

/-- A branch that is moved holds the hash that it is moved to. -/
theorem holding?_of_moved_branch {branch : String} {head : Option RevisionHash}
    (moved : m.move? r = some (.branch branch, head)) :
    (m.perform r).2.holding? = Function.update r.holding? (.branch branch) (head.map .hash) := by
  have here : (m.perform r).2.headOf? (.branch branch) = head := by
    rw [headOf?_of_moved moved, Function.update_self]
  rw [holding?_of_moved moved, ← here]
  rfl

/-- A tag that is moved holds the hash that it is moved to. -/
theorem holding?_of_moved_tag {tag : String} {head : Option RevisionHash}
    (moved : m.move? r = some (.tag tag, head)) :
    (m.perform r).2.holding? = Function.update r.holding? (.tag tag) (head.map .hash) := by
  have here : (m.perform r).2.headOf? (.tag tag) = head := by
    rw [headOf?_of_moved moved, Function.update_self]
  rw [holding?_of_moved moved, ← here]
  rfl

/-! ### The effect of a mutation -/

theorem isSome_holding?_branch {branch : String} :
    (r.holding? (.branch branch)).isSome = r.branches.contains branch := by
  simp [holding?]

theorem isSome_holding?_tag {tag : String} :
    (r.holding? (.tag tag)).isSome = r.tags.contains tag := by
  simp [holding?]

theorem isSome_holding?_changeRequest {number : UInt64} :
    (r.holding? (.changeRequest number)).isSome = r.changeRequests.contains number := by
  simp [holding?]

@[simp] theorem holding?_store (revision : Revision) :
    (r.store revision).holding? = r.holding? := by
  funext ref
  cases ref <;> rfl

/-- Moving a commit target that there is changes the hash that it holds and nothing else of it. -/
theorem holding?_moveTarget {target : CommitTarget} {old : RevisionHash} (hash : RevisionHash)
    (head : r.headOf? target.ref = some old) :
    (r.moveTarget target hash).holding? target.ref =
      (r.holding? target.ref).map (.pointTo hash) := by
  cases target with
  | branch name =>
      have held : r.branches[name]? = some old := head
      simp [moveTarget, CommitTarget.ref, holding?, held, Holding.pointTo]
  | changeRequest number =>
      simp only [moveTarget, CommitTarget.ref, holding?, Std.ExtTreeMap.getElem?_modify_self,
        Option.map_map]
      rfl

/-- A commit that finds what it builds on has its effect. -/
theorem WellFormed.effect_of_commit (wf : WellFormed r) {text message : String}
    {change : FileChange} {timestamp : Timestamp} {target : CommitTarget} {base : Revision}
    (found : r.commitBase text = .ok (target, base)) :
    Effect r ((Mutation.commit text message change timestamp).perform r).2
      (.commit text message change timestamp)
      (.hash (base.child message timestamp change).hash) := by
  obtain ⟨named, read⟩ := commitBase_ok_iff.1 found
  obtain ⟨old, head, before⟩ := Option.bind_eq_some_iff.1 read
  have built_on : base.hash = old := wf.hash_eq_key old base before
  have created : (Mutation.commit text message change timestamp).created? r =
      some (base.child message timestamp change) := by
    simp [Mutation.created?, found, Except.toOption]
  have moved : (Mutation.commit text message change timestamp).move? r =
      some (target.ref, some (base.child message timestamp change).hash) := by
    simp [Mutation.move?, found, Except.toOption]
  have set : ((Mutation.commit text message change timestamp).perform r).2.holding? target.ref =
      (r.holding? target.ref).map (.pointTo (base.child message timestamp change).hash) := by
    simp only [Mutation.perform, Mutation.answering_snd, commit, found, extend]
    rw [holding?_moveTarget _ (by rwa [headOf?_store]), holding?_store]
  have stored : ((Mutation.commit text message change timestamp).perform r).2.revisions[
      (base.child message timestamp change).hash]? =
        some (base.child message timestamp change) := by
    rw [revisions_of_created created, Std.ExtTreeMap.getElem?_insert_self]
  have parent : (base.child message timestamp change).parent = some old := congrArg some built_on
  refine .commit named head before ?_ stored parent rfl rfl ?_
  · rw [holding?_of_moved moved, set]
  · intro path
    exact FileChange.getElem?_apply change base.files path

theorem fst_deleteBranch (branch : String) :
    (r.deleteBranch branch).1 = (r.holding? (.branch branch)).isSome := by
  rw [isSome_holding?_branch, deleteBranch]
  split
  · next present => exact present.symm
  · next absent => exact (Bool.eq_false_iff.2 absent).symm

/-- A mutation that answers with a number has opened a change request under the next one. -/
theorem number_of_success {number : UInt64} (succeeded : (m.perform r).1 = .ok (.number number)) :
    number = r.lastChangeRequest + 1 := by
  cases m with
  | openChangeRequest branch title =>
      simp only [Mutation.perform, Mutation.answering, openChangeRequest] at succeeded
      split at succeeded <;> cases succeeded
      rfl
  | setPrimaryBranch branch =>
      simp only [Mutation.perform, Mutation.answering, setPrimaryBranch] at succeeded
      split at succeeded <;> cases succeeded
  | cloneBranch source copy =>
      simp only [Mutation.perform, Mutation.answering, cloneBranch] at succeeded
      split at succeeded <;> cases succeeded
  | createTag identifier tag =>
      simp only [Mutation.perform, Mutation.answering, createTag] at succeeded
      split at succeeded <;> cases succeeded
  | commit text message change timestamp =>
      simp only [Mutation.perform, Mutation.answering, commit] at succeeded
      split at succeeded <;> cases succeeded
  | _ => cases succeeded

/-- **A mutation that succeeds has its effect.** -/
theorem WellFormed.effect (wf : WellFormed r) {m : Mutation} {reply : Reply}
    (succeeded : (m.perform r).1 = .ok reply) : Effect r (m.perform r).2 m reply := by
  cases m with
  | setDescription text =>
      cases succeeded
      exact .setDescription (holding?_of_not_moved rfl)
  | setPrimaryBranch branch =>
      simp only [Mutation.perform, Mutation.answering, setPrimaryBranch] at succeeded
      split at succeeded
      · cases succeeded
        exact .setPrimaryBranch (holding?_of_not_moved rfl)
      · cases succeeded
  | createBranch branch timestamp =>
      have moved : (Mutation.createBranch branch timestamp).move? r =
          some (.branch branch, some (Revision.root timestamp).hash) := rfl
      have stored : ((Mutation.createBranch branch timestamp).perform r).2.revisions[
          (Revision.root timestamp).hash]? = some (.root timestamp) := by
        rw [revisions_of_created rfl, Std.ExtTreeMap.getElem?_insert_self]
      cases succeeded
      exact .createBranch (holding?_of_moved_branch moved) stored
  | cloneBranch source copy =>
      cases found : r.branches[source]? with
      | none =>
          simp only [Mutation.perform, Mutation.answering, cloneBranch, branchHead, found]
            at succeeded
          cases succeeded
      | some hash =>
          have head : r.holding? (.branch source) = some (.hash hash) := by simp [holding?, found]
          have moved : (Mutation.cloneBranch source copy).move? r =
              some (.branch copy, some hash) := by
            simp [Mutation.move?, found]
          simp only [Mutation.perform, Mutation.answering, cloneBranch, branchHead, found]
            at succeeded
          cases succeeded
          exact .cloneBranch head (holding?_of_moved_branch moved)
  | deleteBranch branch =>
      have moved : (Mutation.deleteBranch branch).move? r = some (.branch branch, none) := rfl
      simp only [Mutation.perform, fst_deleteBranch] at succeeded
      cases succeeded
      exact .deleteBranch (holding?_of_moved_branch moved)
  | createTag identifier tag =>
      cases found : r.resolve identifier with
      | error e =>
          simp only [Mutation.perform, Mutation.answering, createTag, found] at succeeded
          cases succeeded
      | ok revision =>
          have moved : (Mutation.createTag identifier tag).move? r =
              some (.tag tag, some revision.hash) := by
            simp [Mutation.move?, found, Except.toOption]
          simp only [Mutation.perform, Mutation.answering, createTag, found] at succeeded
          cases succeeded
          exact .createTag found (holding?_of_moved_tag moved)
  | deleteTag tag =>
      have moved : (Mutation.deleteTag tag).move? r = some (.tag tag, none) := rfl
      simp only [Mutation.perform, deleteTag, ← isSome_holding?_tag] at succeeded
      cases succeeded
      exact .deleteTag (holding?_of_moved_tag moved)
  | openChangeRequest branch title =>
      cases found : r.branches[branch]? with
      | none =>
          simp only [Mutation.perform, Mutation.answering, openChangeRequest, branchHead, found]
            at succeeded
          cases succeeded
      | some head =>
          have source : r.holding? (.branch branch) = some (.hash head) := by
            simp [holding?, found]
          have moved : (Mutation.openChangeRequest branch title).move? r =
              some (.changeRequest (r.lastChangeRequest + 1), some head) := by
            simp [Mutation.move?, found]
          simp only [Mutation.perform, Mutation.answering, openChangeRequest, branchHead, found]
            at succeeded
          cases succeeded
          refine .openChangeRequest source ?_
          rw [holding?_of_moved moved]
          simp [holding?, Mutation.perform, openChangeRequest, branchHead, found]
  | closeChangeRequest number =>
      have moved : (Mutation.closeChangeRequest number).move? r =
          some (.changeRequest number, none) := rfl
      simp only [Mutation.perform, closeChangeRequest, ← isSome_holding?_changeRequest]
        at succeeded
      cases succeeded
      refine .closeChangeRequest ?_
      rw [holding?_of_moved moved]
      simp [holding?, Mutation.perform, closeChangeRequest]
  | commit text message change timestamp =>
      cases found : r.commitBase text with
      | error e =>
          simp only [Mutation.perform, Mutation.answering, commit, found] at succeeded
          cases succeeded
      | ok both =>
          obtain ⟨target, base⟩ := both
          simp only [Mutation.perform, Mutation.answering, commit, found, extend] at succeeded
          cases succeeded
          exact wf.effect_of_commit found

/-- **Every mutation that succeeds has its effect, in every reachable repository**: it changes what
the ref that it names holds, as the rules of `Effect` say, and what no other ref holds.  The number
of a change request that it opens was not open before, as long as 64 bits hold the number of change
requests opened. -/
theorem effect_of_success (name : String) (start : Timestamp) (ms : List Mutation) (m : Mutation)
    (reply : Reply) (succeeded : (m.perform (reached name start ms)).1 = .ok reply) :
    let r := reached name start ms
    Effect r (m.perform r).2 m reply ∧
      ((create name start).opened ms + 1 < UInt64.size →
        ∀ number, reply = .number number → r.holding? (.changeRequest number) = none) := by
  intro r
  have wf : WellFormed r := wellFormed_reached name start ms
  refine ⟨wf.effect succeeded, ?_⟩
  rintro lasts number rfl
  have numbered : Numbered r _ := numbered_reached name start ms (Nat.lt_of_succ_lt lasts)
  rw [number_of_success succeeded, holding?, Option.map_eq_none_iff]
  exact Std.ExtTreeMap.getElem?_eq_none (numbered.number_fresh lasts)

/-- A commit to a change request has its effect, and so has opening another one, under a number that
was not open. -/
theorem effect_of_success_changeRequest :
    let ms : List Mutation := [.openChangeRequest "master" none]
    let r := reached "r" ⟨0⟩ ms
    let commit : Mutation := .commit "change-request/1" "m" (.add "a" [1]) ⟨1⟩
    let another : Mutation := .openChangeRequest "master" none
    let reply := Reply.hash ((Revision.root ⟨0⟩).child "m" ⟨1⟩ (.add "a" [1])).hash
    ((commit.perform r).1 = .ok reply ∧ Effect r (commit.perform r).2 commit reply) ∧
      (another.perform r).1 = .ok (.number 2) ∧ (create "r" ⟨0⟩).opened ms + 1 < UInt64.size ∧
        Effect r (another.perform r).2 another (.number 2) ∧
        r.holding? (.changeRequest 2) = none := by
  intro ms r commit another reply
  have committed : (commit.perform r).1 = .ok reply := by decide +kernel
  have opened : (another.perform r).1 = .ok (.number 2) := by decide +kernel
  have lasts : (create "r" ⟨0⟩).opened ms + 1 < UInt64.size := by decide +kernel
  obtain ⟨effect, -⟩ := effect_of_success "r" ⟨0⟩ ms commit reply committed
  obtain ⟨effect', fresh⟩ := effect_of_success "r" ⟨0⟩ ms another (.number 2) opened
  exact ⟨⟨committed, effect⟩, opened, lasts, effect', fresh lasts 2 rfl⟩

end Repository

end RevisionStore
