/-
**A hash is never lost.**

Whether or not two revisions share a hash, the store has an entry under the hash of every revision
that was ever created, and no other entry.  The written form of a hash goes before any branch and
any tag of that name, so that it leads to such an entry from the moment the hash is known, whatever
happens to the refs afterwards.

Main results:

* `Repository.mem_revisions_run_iff` — a run stores the hashes of what it creates, and what was
  stored before;
* `Repository.size_eq_of_mem_iff` — the number of entries is the number of different hashes;
* `Repository.hashes_never_lost` — **a hash that was once resolved resolves for ever**.
-/

import RevisionStore.Proofs.Repository.WellFormed
import Mathlib.Data.List.Dedup

set_option autoImplicit false

namespace RevisionStore.Repository

/-! ### What a run stores -/

theorem run_append (r : Repository) (done later : List Mutation) :
    r.run (done ++ later) = (r.run done).run later := by
  simp [run]

theorem reached_append (name : String) (start : Timestamp) (done later : List Mutation) :
    reached name start (done ++ later) = (reached name start done).run later :=
  run_append _ done later

/-- After a run there is an entry under a hash exactly if there was one before, or a revision with
that hash was created. -/
theorem mem_revisions_run_iff {r : Repository} {ms : List Mutation} {hash : RevisionHash} :
    hash ∈ (r.run ms).revisions ↔ hash ∈ r.revisions ∨ hash ∈ (r.made ms).map Revision.hash := by
  induction ms using List.reverseRecOn with
  | nil => simp [made]
  | append_singleton done m ih =>
      rw [run_concat, mem_revisions_perform, ih, made_append, List.map_append, List.mem_append]
      have last : hash ∈ ((r.run done).made [m]).map Revision.hash ↔
          ∃ revision, m.created? (r.run done) = some revision ∧ revision.hash = hash := by
        simp [made]
      rw [last]
      exact or_comm.trans or_assoc

/-- A run takes no hash out of the store. -/
theorem mem_revisions_run_of_mem {r : Repository} {hash : RevisionHash} (ms : List Mutation)
    (stored : hash ∈ r.revisions) : hash ∈ (r.run ms).revisions :=
  mem_revisions_run_iff.2 (.inl stored)

/-- The hashes that a new repository comes to store are those of the revisions created so far. -/
theorem mem_revisions_reached_iff {name : String} {start : Timestamp} {ms : List Mutation}
    {hash : RevisionHash} :
    hash ∈ (reached name start ms).revisions ↔
      hash ∈ (revisionsMade name start ms).map Revision.hash := by
  have first : hash ∈ (create name start).revisions ↔ hash = (Revision.root start).hash := by
    simp [revisions_create, eq_comm (a := hash)]
  rw [reached, mem_revisions_run_iff, first, revisionsMade, List.map_cons, List.mem_cons]

/-! ### How many entries there are -/

/-- The keys of the store, if they are the hashes of a list, are as many as the different ones among
these. -/
theorem size_eq_of_mem_iff {r : Repository} {hashes : List RevisionHash}
    (keys : ∀ hash, hash ∈ r.revisions ↔ hash ∈ hashes) :
    r.revisions.size = hashes.dedup.length := by
  have same : r.revisions.keys.Perm hashes.dedup := by
    refine (List.perm_ext_iff_of_nodup Std.ExtTreeMap.nodup_keys hashes.nodup_dedup).2 ?_
    intro hash
    rw [Std.ExtTreeMap.mem_keys, List.mem_dedup, keys]
  rw [← Std.ExtTreeMap.length_keys, same.length_eq]

/-- A repository that has every entry of another one has at least as many. -/
theorem size_le_of_subset {r r' : Repository}
    (kept : ∀ hash ∈ r.revisions, hash ∈ r'.revisions) : r.revisions.size ≤ r'.revisions.size := by
  rw [← Std.ExtTreeMap.length_keys, ← Std.ExtTreeMap.length_keys]
  refine List.Nodup.length_le_of_subset Std.ExtTreeMap.nodup_keys ?_
  intro hash here
  exact Std.ExtTreeMap.mem_keys.2 (kept hash (Std.ExtTreeMap.mem_keys.1 here))

/-! ### Hashes stay -/

/-- What a text resolves to is stored under its own hash. -/
theorem WellFormed.stored_of_resolve {r : Repository} (wf : WellFormed r) {text : String}
    {revision : Revision} (resolved : r.resolve text = .ok revision) :
    revision.hash ∈ r.revisions := by
  obtain ⟨hash, -, stored⟩ := resolve_eq_ok_iff.1 resolved
  rw [wf.hash_eq_key hash revision stored]
  exact (Std.ExtTreeMap.getElem?_eq_some_iff.1 stored).1

/-- The written form of a stored hash resolves to a revision with that hash. -/
theorem WellFormed.resolve_of_stored {r : Repository} (wf : WellFormed r) {hash : RevisionHash}
    (stored : hash ∈ r.revisions) :
    ∃ revision, r.resolve hash.toHex = .ok revision ∧ revision.hash = hash := by
  have entry := Std.ExtTreeMap.getElem?_eq_some_getElem stored
  exact ⟨_, resolve_toHex entry, wf.hash_eq_key hash _ entry⟩

/-- **Hashes are never lost.**  Take any run from a new repository and any continuation of it.  The
hashes that are stored are those of the revisions created so far, their number is that of the
different ones, and it does not go down.  If a text resolved to a revision, then ever after the forty
digits of that revision's hash resolve to a revision with that hash, whatever the continuation did to
the refs and whatever it named with these digits. -/
theorem hashes_never_lost (name : String) (start : Timestamp) (done later : List Mutation) :
    let r := reached name start done
    let r' := reached name start (done ++ later)
    (∀ hash, hash ∈ r.revisions ↔ ∃ revision ∈ revisionsMade name start done,
        revision.hash = hash) ∧
      r.revisions.size = ((revisionsMade name start done).map Revision.hash).dedup.length ∧
      r.revisions.size ≤ r'.revisions.size ∧
      ∀ text revision, r.resolve text = .ok revision →
        ∃ kept, r'.resolve revision.hash.toHex = .ok kept ∧ kept.hash = revision.hash := by
  intro r r'
  have stays : ∀ hash ∈ r.revisions, hash ∈ r'.revisions := by
    intro hash stored
    rw [show r' = r.run later from reached_append name start done later]
    exact mem_revisions_run_of_mem later stored
  refine ⟨fun hash => ?_, size_eq_of_mem_iff fun _ => mem_revisions_reached_iff,
    size_le_of_subset stays, ?_⟩
  · rw [mem_revisions_reached_iff, List.mem_map]
  · intro text revision resolved
    have stored := (wellFormed_reached name start done).stored_of_resolve resolved
    exact (wellFormed_reached name start _).resolve_of_stored (stays _ stored)

/-- The head of a branch that is dropped, and whose forty digits a branch and a tag with another
revision are named with afterwards, resolves by these digits as before. -/
theorem hashes_never_lost_decoys :
    let head := (Revision.root ⟨0⟩).child "m" ⟨1⟩ (.add "a" [1])
    let done : List Mutation := [.commit "master" "m" (.add "a" [1]) ⟨1⟩]
    let later : List Mutation :=
      [.deleteBranch "master", .createBranch head.hash.toHex ⟨2⟩,
        .createTag (Revision.root ⟨2⟩).hash.toHex head.hash.toHex]
    (reached "r" ⟨0⟩ done).resolve "master" = .ok head ∧
      ∃ kept, (reached "r" ⟨0⟩ (done ++ later)).resolve head.hash.toHex = .ok kept ∧
        kept.hash = head.hash := by
  intro head done later
  have resolved : (reached "r" ⟨0⟩ done).resolve "master" = .ok head := by decide +kernel
  obtain ⟨-, -, -, kept⟩ := hashes_never_lost "r" ⟨0⟩ done later
  exact ⟨resolved, kept "master" head resolved⟩

end RevisionStore.Repository
