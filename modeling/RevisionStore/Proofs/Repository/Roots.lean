/-
**Roots are never altered.**

A revision gives way to another one with the same hash, and under a collision-free digest that is
one that spells the same bytes.  Two children can spell the same bytes, but no child spells those of
a root, and two roots do so only if they are the same.  So whatever a run makes, its roots stay as
they are, and no commit is given the hash of one.

Main results:

* `Repository.root_or_child_of_made` — what a run makes is a root or has a parent;
* `Repository.eq_root_of_hash_eq` — without collisions, what has the hash of a root is that root;
* `Repository.digests_separate_roots` — **which revisions the digest input tells apart, and that
  every stored root is kept**.
-/

import RevisionStore.Proofs.DigestInput
import RevisionStore.Proofs.Repository.AppendOnly

set_option autoImplicit false

namespace RevisionStore.Repository

variable {name : String} {start : Timestamp} {ms : List Mutation}

/-! ### Roots and children -/

theorem root_or_child_of_created {r : Repository} {m : Mutation} {revision : Revision}
    (created : m.created? r = some revision) :
    (∃ t, revision = .root t) ∨ revision.parent ≠ none := by
  cases m with
  | createBranch branch timestamp =>
      cases created
      exact .inl ⟨timestamp, rfl⟩
  | commit target message change timestamp =>
      obtain ⟨⟨ref, base⟩, -, rfl⟩ := Option.map_eq_some_iff.1 created
      exact .inr (by simp [Revision.child])
  | _ => cases created

/-- **What a run makes is a root or has a parent.** -/
theorem root_or_child_of_made {revision : Revision} (made : revision ∈ revisionsMade name start ms) :
    (∃ t, revision = .root t) ∨ revision.parent ≠ none := by
  induction ms using List.reverseRecOn with
  | nil =>
      rw [revisionsMade_nil, List.mem_singleton] at made
      exact .inl ⟨start, made⟩
  | append_singleton done m ih =>
      rw [revisionsMade_concat, List.mem_append] at made
      rcases made with early | now
      · exact ih early
      · exact root_or_child_of_created (by simpa using now)

/-- A commit that succeeds answers with the hash of a created revision that has a parent. -/
theorem created?_of_commit {r : Repository} {target message : String} {change : FileChange}
    {timestamp : Timestamp} {hash : RevisionHash}
    (committed : (r.commit target message change timestamp).1 = .ok hash) :
    ∃ child, (Mutation.commit target message change timestamp).created? r = some child ∧
      child.parent ≠ none ∧ child.hash = hash := by
  obtain ⟨ref, base, found, same⟩ := commit_eq_ok_iff.1 committed
  exact ⟨base.child message timestamp change,
    by simp [Mutation.created?, found, Except.toOption], by simp [Revision.child], same⟩

/-! ### The hash of a root -/

/-- **Without collisions, what has the hash of a root is that root.** -/
theorem eq_root_of_hash_eq (free : CollisionFree (revisionsMade name start ms))
    {revision root : Revision} (made : revision ∈ revisionsMade name start ms)
    (root_made : root ∈ revisionsMade name start ms) (bare : root.parent = none)
    (same : revision.hash = root.hash) : revision = root := by
  have spelled := free revision made root root_made same
  obtain ⟨t, rfl⟩ := (root_or_child_of_made root_made).resolve_right (not_not_intro bare)
  rcases root_or_child_of_made made with ⟨u, rfl⟩ | child
  · rw [Revision.digestInput_root_inj.1 spelled]
  · exact absurd spelled.symm (Revision.digestInput_root_ne t child)

/-- No mutation alters a stored root. -/
theorem root_kept (free : CollisionFree (revisionsMade name start ms)) {done later : List Mutation}
    {m : Mutation} (split_at : ms = done ++ m :: later) {hash : RevisionHash} {root : Revision}
    (stored : (reached name start done).revisions[hash]? = some root)
    (bare : root.parent = none) :
    (m.perform (reached name start done)).2.revisions[hash]? = some root := by
  rcases kept_or_replaced (wellFormed_reached name start done) m stored with
    kept | ⟨new, created, replaced, same⟩
  · exact kept
  · obtain ⟨root_made, new_made⟩ := both_made stored created
    have sub := revisionsMade_subset_of_split name start split_at
    rwa [eq_root_of_hash_eq free (sub new_made) (sub root_made) bare same] at replaced

/-- No commit is given the hash of a root, be that made before the commit or after it. -/
theorem hash_ne_of_commit (free : CollisionFree (revisionsMade name start ms))
    {done later : List Mutation} {target message : String} {change : FileChange}
    {timestamp : Timestamp} {hash : RevisionHash}
    (split_at : ms = done ++ .commit target message change timestamp :: later)
    (committed : ((reached name start done).commit target message change timestamp).1 = .ok hash)
    {root : Revision} (root_made : root ∈ revisionsMade name start ms)
    (bare : root.parent = none) : root.hash ≠ hash := by
  obtain ⟨child, created, parent, rfl⟩ := created?_of_commit committed
  have made : child ∈ revisionsMade name start ms :=
    revisionsMade_subset_of_split name start split_at (by simp [created])
  intro same
  rw [eq_root_of_hash_eq free made root_made bare same.symm] at parent
  exact parent bare

/-- **What the digest input separates.**  No child spells the bytes of a root; two roots spell the
same bytes exactly if their times are the same; and with the same parent, or none, and the same
files, revisions spell the same bytes exactly if their times and the bytes of their messages are the
same.  Hence, if the digest takes no two different byte strings of a run to one hash, no operation
of the run alters a stored root, and no commit of it is given the hash of a root of the run. -/
theorem digests_separate_roots :
    (∀ (t : Timestamp) (child : Revision), child.parent ≠ none →
      (Revision.root t).digestInput ≠ child.digestInput) ∧
    (∀ t u : Timestamp,
      (Revision.root t).digestInput = (Revision.root u).digestInput ↔ t = u) ∧
    (∀ a b : Revision, a.parent = b.parent → a.files = b.files →
      (a.digestInput = b.digestInput ↔
        a.timestamp = b.timestamp ∧ a.messageBytes = b.messageBytes)) ∧
    ∀ (name : String) (start : Timestamp) (ms : List Mutation),
      CollisionFree (revisionsMade name start ms) →
      (∀ done m later, ms = done ++ m :: later →
        ∀ (hash : RevisionHash) (root : Revision),
          (reached name start done).revisions[hash]? = some root → root.parent = none →
          (m.perform (reached name start done)).2.revisions[hash]? = some root) ∧
      ∀ done target message change timestamp later hash,
        ms = done ++ .commit target message change timestamp :: later →
        ((reached name start done).commit target message change timestamp).1 = .ok hash →
        ∀ root ∈ revisionsMade name start ms, root.parent = none → root.hash ≠ hash := by
  refine ⟨fun t child parent => Revision.digestInput_root_ne t parent,
    fun t u => Revision.digestInput_root_inj,
    fun a b parent files => Revision.digestInput_eq_iff parent files, ?_⟩
  intro name start ms free
  refine ⟨fun done m later split_at hash root stored bare => root_kept free split_at stored bare,
    ?_⟩
  intro done target message change timestamp later hash split_at committed root made bare
  exact hash_ne_of_commit free split_at committed made bare

/-- The run whose last commit replaces another revision keeps its root, and that commit is not given
the hash of the root. -/
theorem digests_separate_roots_shifted :
    CollisionFree (revisionsMade "r" ⟨0⟩ shiftedBoundary) ∧
      (reached "r" ⟨0⟩ shiftedBoundary).revisions[(Revision.root ⟨0⟩).hash]? =
        some (.root ⟨0⟩) ∧
      (Revision.root ⟨0⟩).hash ≠ longPath.hash := by
  have split_at : shiftedBoundary =
      shiftedBoundary.take 2 ++ .commit "dev" "m" (.add "ab" [99]) ⟨1⟩ :: [] := rfl
  have stored : (reached "r" ⟨0⟩ (shiftedBoundary.take 2)).revisions[
      (Revision.root ⟨0⟩).hash]? = some (.root ⟨0⟩) := by decide +kernel
  have committed : ((reached "r" ⟨0⟩ (shiftedBoundary.take 2)).commit "dev" "m"
      (.add "ab" [99]) ⟨1⟩).1 = .ok longPath.hash := by decide +kernel
  obtain ⟨-, -, -, in_run⟩ := digests_separate_roots
  obtain ⟨kept, differs⟩ := in_run "r" ⟨0⟩ shiftedBoundary collisionFree_shiftedBoundary
  refine ⟨collisionFree_shiftedBoundary, ?_, ?_⟩
  · rw [split_at, reached_concat]
    exact kept _ _ _ split_at _ _ stored rfl
  · refine differs _ _ _ _ _ _ _ split_at committed _ ?_ rfl
    rw [revisionsMade_shiftedBoundary]
    exact List.mem_cons_self

end RevisionStore.Repository
