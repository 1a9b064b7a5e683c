/-
**What every reachable repository keeps: no hash dangles.**

Every ref points at a stored revision, every revision is stored under its own hash, its parent is
stored as well, and the primary branch is a branch.  The four are kept together by each mutation,
whatever its arguments and whether or not it succeeds, and nothing is assumed about the hashes: a
revision that takes the place of another one under the same hash keeps them too.

Main definitions:

* `Repository.WellFormed` — the invariant.

Main results:

* `Repository.WellFormed.perform` — **a mutation keeps the invariant**;
* `Repository.wellFormed_reached` — every run from a new repository keeps it;
* `Repository.no_hash_dangles` — with it, resolving and committing never meet a missing revision.
-/

import RevisionStore.Proofs.Repository.Resolution

set_option autoImplicit false

namespace RevisionStore.Repository

/-- Nothing that the repository holds points into the void. -/
structure WellFormed (r : Repository) : Prop where
  /-- A ref points at a stored revision. -/
  head_stored : ∀ ref hash, r.headOf? ref = some hash → hash ∈ r.revisions
  /-- A revision is stored under its own hash. -/
  hash_eq_key : ∀ (hash : RevisionHash) (revision : Revision),
    r.revisions[hash]? = some revision → revision.hash = hash
  /-- The parent of a stored revision is stored. -/
  parent_stored : ∀ (hash : RevisionHash) (revision : Revision) (parent : RevisionHash),
    r.revisions[hash]? = some revision → revision.parent = some parent → parent ∈ r.revisions
  /-- The primary branch is a branch. -/
  primary_exists : ∀ branch, r.primaryBranch = some branch → branch ∈ r.branches

/-! ### What is stored after a mutation -/

/-- A revision is stored after a mutation under the hash of the created revision, or where one was
stored before. -/
theorem mem_revisions_perform {r : Repository} {m : Mutation} {hash : RevisionHash} :
    hash ∈ (m.perform r).2.revisions ↔
      (∃ revision, m.created? r = some revision ∧ revision.hash = hash) ∨ hash ∈ r.revisions := by
  cases created : m.created? r with
  | none => simp [revisions_of_nothing_created created]
  | some revision => simp [revisions_of_created created, Std.ExtTreeMap.mem_insert]

/-- A mutation takes no hash out of the store. -/
theorem mem_revisions_perform_of_mem {r : Repository} {hash : RevisionHash} (m : Mutation)
    (stored : hash ∈ r.revisions) : hash ∈ (m.perform r).2.revisions :=
  mem_revisions_perform.2 (.inr stored)

/-- What is stored after a mutation is what it created, or was stored before. -/
theorem created_or_stored {r : Repository} {m : Mutation} {hash : RevisionHash}
    {revision : Revision} (stored : (m.perform r).2.revisions[hash]? = some revision) :
    (m.created? r = some revision ∧ revision.hash = hash) ∨
      r.revisions[hash]? = some revision := by
  cases created : m.created? r with
  | none =>
      rw [revisions_of_nothing_created created] at stored
      exact .inr stored
  | some new =>
      rw [revisions_of_created created, Std.ExtTreeMap.getElem?_insert] at stored
      split at stored
      · next same =>
          cases stored
          exact .inl ⟨rfl, Std.compare_eq_iff_eq.1 same⟩
      · exact .inr stored

/-! ### What a mutation needs -/

/-- A created revision has a parent that is stored, or none. -/
theorem parent_of_created {r : Repository} {m : Mutation} {revision : Revision}
    {parent : RevisionHash} (wf : WellFormed r) (created : m.created? r = some revision)
    (child : revision.parent = some parent) : parent ∈ r.revisions := by
  cases m with
  | createBranch branch timestamp =>
      cases created
      cases child
  | commit target message change timestamp =>
      obtain ⟨⟨ref, base⟩, found, rfl⟩ := Option.map_eq_some_iff.1 created
      cases child
      obtain ⟨hash, -, stored⟩ := Option.bind_eq_some_iff.1
        (toOption_commitBase_eq_some_iff.1 found).2
      rw [wf.hash_eq_key hash base stored]
      exact (Std.ExtTreeMap.getElem?_eq_some_iff.1 stored).1
  | _ => cases created

/-- A ref is moved to a hash that is stored by then. -/
theorem move_stored {r : Repository} {m : Mutation} {ref : Ref} {hash : RevisionHash}
    (wf : WellFormed r) (moved : m.move? r = some (ref, some hash)) :
    hash ∈ (m.perform r).2.revisions := by
  cases m with
  | createBranch branch timestamp =>
      cases moved
      exact mem_revisions_perform.2 (.inl ⟨_, rfl, rfl⟩)
  | cloneBranch source copy =>
      obtain ⟨head, found, same⟩ := Option.map_eq_some_iff.1 moved
      cases same
      exact mem_revisions_perform_of_mem _ (wf.head_stored (.branch source) hash found)
  | createTag identifier tag =>
      obtain ⟨revision, found, same⟩ := Option.map_eq_some_iff.1 moved
      cases same
      rw [toOption_resolve] at found
      obtain ⟨key, -, stored⟩ := Option.bind_eq_some_iff.1 found
      rw [wf.hash_eq_key key revision stored]
      exact mem_revisions_perform_of_mem _ (Std.ExtTreeMap.getElem?_eq_some_iff.1 stored).1
  | openChangeRequest branch title =>
      obtain ⟨head, found, same⟩ := Option.map_eq_some_iff.1 moved
      cases same
      exact mem_revisions_perform_of_mem _ (wf.head_stored (.branch branch) hash found)
  | commit target message change timestamp =>
      obtain ⟨⟨t, base⟩, found, same⟩ := Option.map_eq_some_iff.1 moved
      cases same
      refine mem_revisions_perform.2 (.inl ⟨_, ?_, rfl⟩)
      simp [Mutation.created?, found]
  | _ => cases moved

/-! ### The primary branch -/

/-- A branch is dropped by its deletion only. -/
theorem branch_stays {r : Repository} {m : Mutation} {branch : String}
    (present : branch ∈ r.branches) (kept : m ≠ .deleteBranch branch) :
    branch ∈ (m.perform r).2.branches := by
  rw [Std.ExtTreeMap.mem_iff_isSome_getElem?, ← headOf?_branch] at present ⊢
  cases moved : m.move? r with
  | none => rwa [headOf?_of_not_moved moved]
  | some both =>
      obtain ⟨ref, head⟩ := both
      rw [headOf?_of_moved moved]
      by_cases same : ref = .branch branch
      · subst same
        rw [Function.update_self]
        cases head with
        | some hash => rfl
        | none =>
            exfalso
            cases m with
            | deleteBranch b => cases moved; exact kept rfl
            | setDescription text => cases moved
            | setPrimaryBranch b => cases moved
            | createBranch b timestamp => cases moved
            | deleteTag tag => cases moved
            | closeChangeRequest number => cases moved
            | _ =>
                obtain ⟨_, -, impossible⟩ := Option.map_eq_some_iff.1 moved
                exact absurd (congrArg Prod.snd impossible) (by simp)
      · rwa [Function.update_of_ne (Ne.symm same)]

/-- A primary branch has just been made the primary one, or it was that before and has not been
deleted. -/
theorem primaryBranch_perform {r : Repository} {m : Mutation} {branch : String}
    (primary : (m.perform r).2.primaryBranch = some branch) :
    (m = .setPrimaryBranch branch ∧ branch ∈ r.branches) ∨
      (r.primaryBranch = some branch ∧ (branch ∈ r.branches → m ≠ .deleteBranch branch)) := by
  cases m with
  | setPrimaryBranch b =>
      simp only [Mutation.perform, Mutation.answering_snd, setPrimaryBranch] at primary
      split at primary
      · next present =>
          cases primary
          exact .inl ⟨rfl, present⟩
      · exact .inr ⟨primary, by simp⟩
  | deleteBranch b =>
      simp only [Mutation.perform, deleteBranch] at primary
      split at primary
      · next present =>
          simp only at primary
          split at primary
          · cases primary
          · next other =>
              refine .inr ⟨primary, ?_⟩
              rintro - ⟨⟩
              exact other primary
      · next absent =>
          refine .inr ⟨primary, ?_⟩
          rintro present ⟨⟩
          exact absent present
  | cloneBranch source copy =>
      simp only [Mutation.perform, Mutation.answering_snd, cloneBranch] at primary
      split at primary <;> exact .inr ⟨primary, by simp⟩
  | createTag identifier tag =>
      simp only [Mutation.perform, Mutation.answering_snd, createTag] at primary
      split at primary <;> exact .inr ⟨primary, by simp⟩
  | openChangeRequest b title =>
      simp only [Mutation.perform, Mutation.answering_snd, openChangeRequest] at primary
      split at primary <;> exact .inr ⟨primary, by simp⟩
  | commit target message change timestamp =>
      simp only [Mutation.perform, Mutation.answering_snd, commit] at primary
      split at primary
      · next target base found =>
          cases target <;> exact .inr ⟨primary, by simp⟩
      · exact .inr ⟨primary, by simp⟩
  | _ => exact .inr ⟨primary, by simp⟩

/-! ### The invariant -/

/-- **A mutation keeps the invariant**, whether or not it succeeds. -/
theorem WellFormed.perform {r : Repository} (wf : WellFormed r) (m : Mutation) :
    WellFormed (m.perform r).2 where
  head_stored ref hash head := by
    cases moved : m.move? r with
    | none =>
        rw [headOf?_of_not_moved moved] at head
        exact mem_revisions_perform_of_mem m (wf.head_stored ref hash head)
    | some both =>
        obtain ⟨target, new⟩ := both
        rw [headOf?_of_moved moved] at head
        by_cases same : ref = target
        · subst same
          rw [Function.update_self] at head
          subst head
          exact move_stored wf moved
        · rw [Function.update_of_ne same] at head
          exact mem_revisions_perform_of_mem m (wf.head_stored ref hash head)
  hash_eq_key hash revision stored := by
    rcases created_or_stored stored with ⟨-, same⟩ | before
    · exact same
    · exact wf.hash_eq_key hash revision before
  parent_stored hash revision parent stored child := by
    refine mem_revisions_perform_of_mem m ?_
    rcases created_or_stored stored with ⟨created, -⟩ | before
    · exact parent_of_created wf created child
    · exact wf.parent_stored hash revision parent before child
  primary_exists branch primary := by
    rcases primaryBranch_perform primary with ⟨rfl, present⟩ | ⟨before, kept⟩
    · exact branch_stays present (by simp)
    · have present := wf.primary_exists branch before
      exact branch_stays present (kept present)

/-- A new repository satisfies the invariant. -/
theorem wellFormed_create (name : String) (start : Timestamp) :
    WellFormed (create name start) where
  head_stored ref hash head := by
    rw [headOf?_create] at head
    by_cases same : ref = .branch defaultBranch
    · subst same
      rw [Function.update_self] at head
      cases head
      simp [revisions_create]
    · rw [Function.update_of_ne same] at head
      cases head
  hash_eq_key hash revision stored := by
    rw [revisions_create, Std.ExtTreeMap.getElem?_insert] at stored
    split at stored
    · next same =>
        cases stored
        exact Std.compare_eq_iff_eq.1 same
    · simp at stored
  parent_stored hash revision parent stored child := by
    rw [revisions_create, Std.ExtTreeMap.getElem?_insert] at stored
    split at stored
    · cases stored
      cases child
    · simp at stored
  primary_exists branch primary := by
    cases primary
    simp [create, createBranch]

/-- **Every run from a new repository keeps the invariant.** -/
theorem wellFormed_reached (name : String) (start : Timestamp) (ms : List Mutation) :
    WellFormed (reached name start ms) := by
  induction ms using List.reverseRecOn with
  | nil => exact wellFormed_create name start
  | append_singleton done m ih =>
      rw [reached_concat]
      exact ih.perform m

/-! ### Nothing is missing -/

/-- A hash that a text names is stored. -/
theorem WellFormed.named_stored {r : Repository} (wf : WellFormed r) {text : String}
    {hash : RevisionHash} (named : r.named? text = some hash) : hash ∈ r.revisions := by
  rcases mem_or_headOf?_of_named? named with stored | ⟨ref, head⟩
  · exact stored
  · exact wf.head_stored ref hash head

/-- The head of a ref reads as a revision with that hash. -/
theorem WellFormed.read_head {r : Repository} (wf : WellFormed r) {ref : Ref}
    {hash : RevisionHash} (head : r.headOf? ref = some hash) :
    ∃ revision, r.revisions[hash]? = some revision ∧ revision.hash = hash := by
  have stored := Std.ExtTreeMap.getElem?_eq_some_getElem (wf.head_stored ref hash head)
  exact ⟨_, stored, wf.hash_eq_key hash _ stored⟩

/-- A text that names a hash resolves to what is stored there. -/
theorem WellFormed.read_named {r : Repository} (wf : WellFormed r) {text : String}
    {hash : RevisionHash} (named : r.named? text = some hash) :
    ∃ revision, r.resolve text = .ok revision ∧ r.revisions[hash]? = some revision ∧
      revision.hash = hash := by
  have stored := Std.ExtTreeMap.getElem?_eq_some_getElem (wf.named_stored named)
  exact ⟨_, resolve_eq_ok_iff.2 ⟨hash, named, stored⟩, stored, wf.hash_eq_key hash _ stored⟩

/-- Where there is a place to commit to, there is something to build on. -/
theorem WellFormed.exists_commitBase {r : Repository} (wf : WellFormed r) {text : String}
    {target : CommitTarget} (named : r.commitTarget text = .ok target) :
    ∃ base, r.commitBase text = .ok (target, base) := by
  obtain ⟨hash, head, -⟩ := headOf?_commitTarget named
  obtain ⟨base, stored, -⟩ := wf.read_head head
  have read : r.read? target.ref = some base := by rw [read?, head, Option.bind_some, stored]
  exact ⟨base, commitBase_ok_iff.2 ⟨named, read⟩⟩

/-- A text that stands for a tag is the name of one. -/
theorem tag_of_classify {r : Repository} {text tag : String} (stands : r.classify text = .tag tag) :
    ∃ hash, r.tags[tag]? = some hash := by
  rw [classify_eq] at stands
  split at stands
  · cases stands
  · split at stands
    · cases stands
    · split at stands
      · next present =>
          cases stands
          exact ⟨_, Std.ExtTreeMap.getElem?_eq_some_getElem present⟩
      · split at stands <;> cases stands

/-- **No hash dangles in a reachable repository.**  Hence an identifier that is looked up to a hash
always resolves to the revision stored there, a text that stands for a tag always has its hash, and
a text that can be committed to always has a head, with a revision under it to build on. -/
theorem no_hash_dangles (name : String) (start : Timestamp) (ms : List Mutation) :
    let r := reached name start ms
    WellFormed r ∧
      (∀ text hash, r.hashOf (r.classify text) = .ok hash →
        ∃ revision, r.revisions[hash]? = some revision ∧ r.resolve text = .ok revision) ∧
      (∀ text tag, r.classify text = .tag tag → ∃ hash, r.hashOf (.tag tag) = .ok hash) ∧
      ∀ text target, r.commitTarget text = .ok target →
        ∃ hash base, r.targetHead target = .ok hash ∧ r.revisions[hash]? = some base ∧
          r.commitBase text = .ok (target, base) := by
  intro r
  have wf : WellFormed r := wellFormed_reached name start ms
  refine ⟨wf, ?_, ?_, ?_⟩
  · intro text hash found
    have named : r.named? text = some hash := by
      rw [← toOption_hashOf_classify, found]
      rfl
    have stored := Std.ExtTreeMap.getElem?_eq_some_getElem (wf.named_stored named)
    exact ⟨_, stored, resolve_eq_ok_iff.2 ⟨hash, named, stored⟩⟩
  · intro text tag stands
    obtain ⟨hash, found⟩ := tag_of_classify stands
    exact ⟨hash, by simp only [hashOf, found]⟩
  · intro text target named
    obtain ⟨hash, head, found⟩ := headOf?_commitTarget named
    obtain ⟨base, stored, -⟩ := wf.read_head head
    have read : r.read? target.ref = some base := by simp [read?, head, stored]
    exact ⟨hash, base, found, stored, commitBase_ok_iff.2 ⟨named, read⟩⟩

end RevisionStore.Repository
