/-
**When the store of revisions is append-only.**

A revision is stored under the digest of its fields, and those are written one after the other
without anything between them.  Two different revisions can therefore spell the same bytes, and the
later one then takes the place of the earlier one.  This module says exactly when that does not
happen: a run keeps every stored revision as it is **if and only if** no two different revisions
that it creates have one hash, which under a collision-free digest means that no two of them spell
the same bytes.

Main definitions:

* `Faithful`, `CollisionFree`, `Unambiguous` — equal hashes come from equal revisions only, equal
  digests from equal bytes only, and equal bytes from equal revisions only;
* `Repository.Extends` — what one repository stores, another one stores as well;
* `Repository.KeepsRevisions` — every mutation of a run leaves what was stored as it was.

Main results:

* `Repository.keepsRevisions_iff_faithful` — **the exact condition**, without any assumption on the
  digest;
* `Repository.revisions_kept_iff_unambiguous` — the same for a collision-free digest, with what a
  commit then leaves alone and with what happens otherwise;
* `Repository.commit_alters_other_branch` — a run that does not keep its revisions.
-/

import RevisionStore.Proofs.Repository.WellFormed

set_option autoImplicit false

namespace RevisionStore

/-! ### Revisions and their hashes -/

/-- Equal hashes come from equal revisions only. -/
def Faithful (revisions : List Revision) : Prop :=
  ∀ a ∈ revisions, ∀ b ∈ revisions, a.hash = b.hash → a = b

/-- The digest takes no two different byte strings that the revisions spell to one hash. -/
def CollisionFree (revisions : List Revision) : Prop :=
  ∀ a ∈ revisions, ∀ b ∈ revisions,
    RevisionHash.digest a.digestInput = RevisionHash.digest b.digestInput →
      a.digestInput = b.digestInput

/-- No two different revisions spell the same byte string. -/
def Unambiguous (revisions : List Revision) : Prop :=
  ∀ a ∈ revisions, ∀ b ∈ revisions, a.digestInput = b.digestInput → a = b

instance (revisions : List Revision) : Decidable (Faithful revisions) :=
  inferInstanceAs (Decidable (∀ a ∈ revisions, ∀ b ∈ revisions, a.hash = b.hash → a = b))

theorem Faithful.mono {revisions more : List Revision} (faithful : Faithful more)
    (sub : revisions ⊆ more) : Faithful revisions :=
  fun a ha b hb => faithful a (sub ha) b (sub hb)

/-- Without collisions, revisions share a hash exactly if they spell the same bytes. -/
theorem faithful_iff_unambiguous {revisions : List Revision} (free : CollisionFree revisions) :
    Faithful revisions ↔ Unambiguous revisions := by
  constructor
  · intro faithful a ha b hb spelled
    exact faithful a ha b hb (congrArg RevisionHash.digest spelled)
  · intro unambiguous a ha b hb same
    exact unambiguous a ha b hb (free a ha b hb same)

namespace Repository

/-! ### What is stored was made -/

/-- A revision that the run stored is one that it made. -/
theorem made_of_stored {name : String} {start : Timestamp} {ms : List Mutation}
    {hash : RevisionHash} {revision : Revision}
    (stored : (reached name start ms).revisions[hash]? = some revision) :
    revision ∈ revisionsMade name start ms := by
  induction ms using List.reverseRecOn with
  | nil =>
      rw [reached_nil, revisions_create, Std.ExtTreeMap.getElem?_insert] at stored
      split at stored
      · cases stored
        simp
      · simp at stored
  | append_singleton done m ih =>
      rw [reached_concat] at stored
      rw [revisionsMade_concat, List.mem_append]
      rcases created_or_stored stored with ⟨created, -⟩ | before
      · exact .inr (by simp [created])
      · exact .inl (ih before)

/-! ### Keeping what is stored -/

/-- What `r` stores, `r'` stores as well. -/
def Extends (r r' : Repository) : Prop :=
  ∀ (hash : RevisionHash) (revision : Revision),
    r.revisions[hash]? = some revision → r'.revisions[hash]? = some revision

/-- Every mutation of the run leaves every stored revision as it was. -/
def KeepsRevisions (name : String) (start : Timestamp) (ms : List Mutation) : Prop :=
  ∀ done m later, ms = done ++ m :: later →
    Extends (reached name start done) (m.perform (reached name start done)).2

section Run

variable {name : String} {start : Timestamp}

/-- What is stored under a hash after a mutation is what was stored there before, or a created
revision with the same hash. -/
theorem kept_or_replaced {r : Repository} (wf : WellFormed r) (m : Mutation) {hash : RevisionHash}
    {revision : Revision} (stored : r.revisions[hash]? = some revision) :
    (m.perform r).2.revisions[hash]? = some revision ∨
      ∃ new, m.created? r = some new ∧ (m.perform r).2.revisions[hash]? = some new ∧
        new.hash = revision.hash := by
  cases created : m.created? r with
  | none => exact .inl (by rwa [revisions_of_nothing_created created])
  | some new =>
      rw [revisions_of_created created, Std.ExtTreeMap.getElem?_insert]
      split
      · next same =>
          have key : revision.hash = hash := wf.hash_eq_key hash revision stored
          exact .inr ⟨new, rfl, rfl, by rw [key, Std.compare_eq_iff_eq.1 same]⟩
      · exact .inl stored

/-- What a mutation finds stored, and what it creates, are among the revisions made up to it. -/
theorem both_made {done : List Mutation} {m : Mutation} {hash : RevisionHash}
    {revision new : Revision}
    (stored : (reached name start done).revisions[hash]? = some revision)
    (created : m.created? (reached name start done) = some new) :
    revision ∈ revisionsMade name start (done ++ [m]) ∧
      new ∈ revisionsMade name start (done ++ [m]) := by
  refine ⟨revisionsMade_subset_append name start done [m] (made_of_stored stored), ?_⟩
  simp [created]

/-- A mutation keeps what is stored if the revisions made so far, and by it, are told apart by their
hashes. -/
theorem extends_perform {done : List Mutation} {m : Mutation}
    (faithful : Faithful (revisionsMade name start (done ++ [m]))) :
    Extends (reached name start done) (m.perform (reached name start done)).2 := by
  intro hash revision stored
  rcases kept_or_replaced (wellFormed_reached name start done) m stored with
    kept | ⟨new, created, replaced, same⟩
  · exact kept
  · obtain ⟨old_made, new_made⟩ := both_made stored created
    rwa [faithful new new_made revision old_made same] at replaced

theorem KeepsRevisions.init {done : List Mutation} {m : Mutation}
    (keeps : KeepsRevisions name start (done ++ [m])) : KeepsRevisions name start done := by
  rintro early n later rfl
  exact keeps early n (later ++ [m]) (by simp)

/-- If the run keeps its revisions, whatever it made is still there at the end. -/
theorem stored_of_made {ms : List Mutation} (keeps : KeepsRevisions name start ms)
    {revision : Revision} (made : revision ∈ revisionsMade name start ms) :
    (reached name start ms).revisions[revision.hash]? = some revision := by
  induction ms using List.reverseRecOn with
  | nil =>
      rw [revisionsMade_nil, List.mem_singleton] at made
      subst made
      simp [revisions_create]
  | append_singleton done m ih =>
      rw [reached_concat]
      rw [revisionsMade_concat, List.mem_append] at made
      rcases made with early | now
      · exact keeps done m [] rfl _ _ (ih keeps.init early)
      · have created : m.created? (reached name start done) = some revision := by simpa using now
        simp [revisions_of_created created]

/-- **A run keeps its revisions exactly if their hashes tell them apart.** -/
theorem keepsRevisions_iff_faithful {ms : List Mutation} :
    KeepsRevisions name start ms ↔ Faithful (revisionsMade name start ms) := by
  constructor
  · intro keeps a ha b hb same
    have first := stored_of_made keeps ha
    have second := stored_of_made keeps hb
    rw [same] at first
    exact Option.some.inj (first.symm.trans second)
  · intro faithful done m later split_at
    exact extends_perform (faithful.mono (revisionsMade_subset_of_split name start split_at))

/-- A ref that a mutation does not move reads what it read before, if what is stored is kept. -/
theorem read?_perform {r : Repository} {m : Mutation} {ref : Ref} (wf : WellFormed r)
    (keeps : Extends r (m.perform r).2) (still : ∀ head, m.move? r ≠ some (ref, head)) :
    (m.perform r).2.read? ref = r.read? ref := by
  have same : (m.perform r).2.headOf? ref = r.headOf? ref := by
    cases moved : m.move? r with
    | none => rw [headOf?_of_not_moved moved]
    | some both =>
        obtain ⟨target, head⟩ := both
        rw [headOf?_of_moved moved, Function.update_of_ne]
        rintro rfl
        exact still head moved
  rw [read?, read?, same]
  cases head : r.headOf? ref with
  | none => rfl
  | some hash =>
      obtain ⟨revision, stored, -⟩ := wf.read_head head
      rw [Option.bind_some, Option.bind_some, stored, keeps hash revision stored]

/-- A commit moves the ref that its target stands for. -/
theorem move?_commit {r : Repository} {target message : String} {change : FileChange}
    {timestamp : Timestamp} {ref : Ref} {head : Option RevisionHash}
    (moved : (Mutation.commit target message change timestamp).move? r = some (ref, head)) :
    ∃ t, r.commitTarget target = .ok t ∧ ref = t.ref := by
  obtain ⟨⟨t, base⟩, found, same⟩ := Option.map_eq_some_iff.1 moved
  cases same
  exact ⟨t, (toOption_commitBase_eq_some_iff.1 found).1, rfl⟩

/-- What is stored under a hash after a mutation is what was stored there before, or a created
revision that spells the same bytes. -/
theorem kept_or_respelled {ms : List Mutation} (free : CollisionFree (revisionsMade name start ms))
    {done later : List Mutation} {m : Mutation} (split_at : ms = done ++ m :: later)
    {hash : RevisionHash} {revision : Revision}
    (stored : (reached name start done).revisions[hash]? = some revision) :
    (m.perform (reached name start done)).2.revisions[hash]? = some revision ∨
      ∃ new, m.created? (reached name start done) = some new ∧
        (m.perform (reached name start done)).2.revisions[hash]? = some new ∧
        new.digestInput = revision.digestInput := by
  rcases kept_or_replaced (wellFormed_reached name start done) m stored with
    kept | ⟨new, created, replaced, same⟩
  · exact .inl kept
  · obtain ⟨old_made, new_made⟩ := both_made stored created
    have sub := revisionsMade_subset_of_split name start split_at
    exact .inr ⟨new, created, replaced, free new (sub new_made) revision (sub old_made) same⟩

end Run

/-- **When revisions are immutable.**  Let the digest take no two different byte strings of the run
to one hash.  Then the run leaves every stored revision as it was exactly if no two different
revisions that it makes spell the same bytes; a commit then changes what its own ref reads and no
other.  In any case every stored hash stays stored, and what is stored there can only give way to a
created revision that spells the same bytes. -/
theorem revisions_kept_iff_unambiguous (name : String) (start : Timestamp) (ms : List Mutation)
    (free : CollisionFree (revisionsMade name start ms)) :
    (KeepsRevisions name start ms ↔ Unambiguous (revisionsMade name start ms)) ∧
      (Unambiguous (revisionsMade name start ms) →
        ∀ done target message change timestamp later,
          ms = done ++ .commit target message change timestamp :: later →
          ∀ ref, (∀ t, (reached name start done).commitTarget target = .ok t → ref ≠ t.ref) →
            ((Mutation.commit target message change timestamp).perform
              (reached name start done)).2.read? ref = (reached name start done).read? ref) ∧
      ∀ done m later, ms = done ++ m :: later →
        ∀ (hash : RevisionHash) (revision : Revision),
          (reached name start done).revisions[hash]? = some revision →
          (m.perform (reached name start done)).2.revisions[hash]? = some revision ∨
            ∃ new, m.created? (reached name start done) = some new ∧
              (m.perform (reached name start done)).2.revisions[hash]? = some new ∧
              new.digestInput = revision.digestInput := by
  have exactly : KeepsRevisions name start ms ↔ Unambiguous (revisionsMade name start ms) :=
    keepsRevisions_iff_faithful.trans (faithful_iff_unambiguous free)
  refine ⟨exactly, ?_, fun done m later split_at hash revision stored =>
    kept_or_respelled free split_at stored⟩
  intro unambiguous done target message change timestamp later split_at ref other
  have keeps := exactly.2 unambiguous done _ later split_at
  refine read?_perform (wellFormed_reached name start done) keeps ?_
  intro head moved
  obtain ⟨t, named, same⟩ := move?_commit moved
  exact other t named same

/-! ### A run that does not keep its revisions -/

/-- Two branches at one revision, with a commit on each: the files `a` and `ab` differ, but path and
content together spell `abc` in both. -/
def shiftedBoundary : List Mutation :=
  [.cloneBranch "master" "dev", .commit "master" "m" (.add "a" [98, 99]) ⟨1⟩,
    .commit "dev" "m" (.add "ab" [99]) ⟨1⟩]

/-- The revision of the commit on the first branch. -/
def shortPath : Revision := (Revision.root ⟨0⟩).child "m" ⟨1⟩ (.add "a" [98, 99])

/-- The revision of the commit on the second branch. -/
def longPath : Revision := (Revision.root ⟨0⟩).child "m" ⟨1⟩ (.add "ab" [99])

/-- The two spell the same bytes. -/
theorem digestInput_shortPath : shortPath.digestInput = longPath.digestInput := by
  have files : shortPath.files.bytes = longPath.files.bytes := by decide +kernel
  simp only [Revision.digestInput, files]
  rfl

theorem shortPath_ne_longPath : shortPath ≠ longPath := by
  intro same
  exact absurd (congrArg Revision.files same) (by decide +kernel)

theorem revisionsMade_shiftedBoundary :
    revisionsMade "r" ⟨0⟩ shiftedBoundary = [.root ⟨0⟩, shortPath, longPath] := by decide +kernel

theorem collisionFree_shiftedBoundary :
    CollisionFree (revisionsMade "r" ⟨0⟩ shiftedBoundary) := by
  have root : (Revision.root ⟨0⟩).hash ≠ longPath.hash := by decide +kernel
  have spelled : ∀ a ∈ revisionsMade "r" ⟨0⟩ shiftedBoundary,
      a = .root ⟨0⟩ ∨ a.digestInput = longPath.digestInput := by
    simp [revisionsMade_shiftedBoundary, digestInput_shortPath]
  intro a ha b hb same
  rcases spelled a ha with rfl | left <;> rcases spelled b hb with rfl | right
  · rfl
  · exact absurd (same.trans (congrArg RevisionHash.digest right)) root
  · exact absurd (same.symm.trans (congrArg RevisionHash.digest left)) root
  · exact left.trans right.symm

theorem not_unambiguous_shiftedBoundary :
    ¬ Unambiguous (revisionsMade "r" ⟨0⟩ shiftedBoundary) := by
  rw [revisionsMade_shiftedBoundary]
  intro unambiguous
  exact shortPath_ne_longPath
    (unambiguous shortPath (by simp) longPath (by simp) digestInput_shortPath)

/-- The exact condition applies to the run with the shifted boundary. -/
theorem revisions_kept_iff_unambiguous_shifted :
    CollisionFree (revisionsMade "r" ⟨0⟩ shiftedBoundary) ∧
      (KeepsRevisions "r" ⟨0⟩ shiftedBoundary ↔
        Unambiguous (revisionsMade "r" ⟨0⟩ shiftedBoundary)) :=
  ⟨collisionFree_shiftedBoundary,
    (revisions_kept_iff_unambiguous "r" ⟨0⟩ shiftedBoundary collisionFree_shiftedBoundary).1⟩

/-- **A commit on one branch can alter what another one reads**, although the digest makes no
collision: the last commit of the run replaces the head of the other branch. -/
theorem commit_alters_other_branch :
    CollisionFree (revisionsMade "r" ⟨0⟩ shiftedBoundary) ∧
      ¬ KeepsRevisions "r" ⟨0⟩ shiftedBoundary ∧
      (reached "r" ⟨0⟩ (shiftedBoundary.take 2)).read? (.branch "master") = some shortPath ∧
      (reached "r" ⟨0⟩ shiftedBoundary).read? (.branch "master") = some longPath := by
  refine ⟨collisionFree_shiftedBoundary, ?_, by decide +kernel, by decide +kernel⟩
  rw [keepsRevisions_iff_faithful, faithful_iff_unambiguous collisionFree_shiftedBoundary]
  exact not_unambiguous_shiftedBoundary

end Repository

end RevisionStore
