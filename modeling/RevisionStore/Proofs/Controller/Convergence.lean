/-
**The same contents converge on the same hash.**

Every snapshot that a controller stores was built by changes from no files, and what a revision is
stored under is its hash.  Since the hash depends on what the changes add up to and not on the
changes, revisions that are alike are stored under one hash, whichever controllers and repositories
they are in and whatever was done there.

Main definitions:

* `Controller.StoresUnder` — some repository of a controller stores a revision under a hash.

Main results:

* `Repository.exists_built_of_made` — the snapshot of every revision that a run makes was built by
  changes;
* `Controller.content_determines_hash` — **changes that add up to the same contents lead to the same
  listing and the same hashes**, and revisions that are alike are stored under the same hash.
-/

import RevisionStore.Proofs.Contents
import RevisionStore.Proofs.Controller.Histories
import RevisionStore.Proofs.Repository.AppendOnly

set_option autoImplicit false

namespace RevisionStore

open FileChange

/-- **The snapshot of every revision that a run makes was built by changes.** -/
theorem Repository.exists_built_of_made {name : String} {start : Timestamp} {ms : List Mutation}
    {revision : Revision} (made : revision ∈ revisionsMade name start ms) :
    ∃ changes, revision.files = built changes := by
  induction ms using List.reverseRecOn generalizing revision with
  | nil =>
      rw [revisionsMade_nil, List.mem_singleton] at made
      subst made
      exact ⟨[], rfl⟩
  | append_singleton done m ih =>
      rw [revisionsMade_concat, List.mem_append, Option.mem_toList] at made
      rcases made with early | created
      · exact ih early
      · cases m with
        | createBranch branch timestamp =>
            cases created
            exact ⟨[], rfl⟩
        | commit target message change timestamp =>
            obtain ⟨⟨ref, base⟩, found, rfl⟩ := Option.map_eq_some_iff.1 created
            -- What a commit builds on is stored, and so it was made earlier in the run.
            obtain ⟨hash, -, stored⟩ := Option.bind_eq_some_iff.1
              (toOption_commitBase_eq_some_iff.1 found).2
            obtain ⟨changes, files⟩ := ih (made_of_stored stored)
            exact ⟨changes ++ [change], by rw [built_concat, ← files]; rfl⟩
        | _ => cases created

namespace Controller

/-- Some repository of the controller stores the revision under the hash. -/
def StoresUnder (c : Controller) (hash : RevisionHash) (revision : Revision) : Prop :=
  ∃ (name : String) (r : Repository),
    c.repositories[name]? = some r ∧ r.revisions[hash]? = some revision

variable {c : Controller} {hash : RevisionHash} {revision : Revision}

/-- A reachable controller stores a revision under its own hash. -/
theorem Reachable.hash_eq (reachable : c.Reachable) (stored : c.StoresUnder hash revision) :
    revision.hash = hash := by
  obtain ⟨name, r, found, here⟩ := stored
  exact (reachable.recorded.wellFormed found).hash_eq_key hash revision here

/-- What it stores was built by changes. -/
theorem Reachable.exists_built (reachable : c.Reachable) (stored : c.StoresUnder hash revision) :
    ∃ changes, revision.files = built changes := by
  obtain ⟨name, r, found, here⟩ := stored
  obtain ⟨start, ms, rfl⟩ := reachable.recorded name r found
  exact Repository.exists_built_of_made (Repository.made_of_stored here)

/-- **The contents determine the hash.**  If two lists of changes leave the same content at every
path, then the snapshots that they lead to list the same paths, in ascending order of their bytes
and each path that has a content once, and with the same parent, message and time they give the same
hash.  Every snapshot that a reachable controller stores was built by such a list; and revisions that
are alike have the same hash, and reachable controllers store them under it. -/
theorem content_determines_hash (first second : List FileChange)
    (same : ∀ path : String, (built first)[path]? = (built second)[path]?) :
    ((built first).keys = (built second).keys ∧
      (built first).keys.Pairwise (fun path later => Bytes.ofText path < Bytes.ofText later) ∧
      ∀ path, (built first).keys.count path = if (latest? first path).isSome then 1 else 0) ∧
    (∀ parent message timestamp,
      Revision.hash ⟨parent, message, timestamp, built first⟩ =
        Revision.hash ⟨parent, message, timestamp, built second⟩) ∧
    (∀ a b : Revision, a.Alike b → a.hash = b.hash) ∧
    (∀ c : Controller, c.Reachable → ∀ hash revision, c.StoresUnder hash revision →
      ∃ changes, revision.files = built changes) ∧
    ∀ c d : Controller, c.Reachable → d.Reachable → ∀ h k a b,
      c.StoresUnder h a → d.StoresUnder k b → a.Alike b → h = k := by
  have listings := Snapshot.toList_eq_of_contents same
  refine ⟨⟨?_, Snapshot.pairwise_keys _, ?_⟩, ?_, fun a b alike => alike.hash_eq, ?_, ?_⟩
  · rw [← Std.ExtTreeMap.map_fst_toList_eq_keys, listings, Std.ExtTreeMap.map_fst_toList_eq_keys]
  · intro path
    rw [Snapshot.count_keys, getElem?_built]
  · intro parent message timestamp
    exact Revision.Alike.hash_eq ⟨rfl, rfl, rfl, same⟩
  · intro c reachable hash revision stored
    exact reachable.exists_built stored
  · intro c d reached reached' h k a b stored stored' alike
    rw [← reached.hash_eq stored, alike.hash_eq, reached'.hash_eq stored']

/-- Two ways to the same three files. -/
theorem content_determines_hash_detour :
    let detour : List FileChange := [.add "b" [1], .add "é" [3], .remove "b", .add "a" [2],
      .remove "c", .add "b" [4]]
    let direct : List FileChange := [.add "a" [2], .add "b" [4], .add "é" [3]]
    (∀ path : String, (built detour)[path]? = (built direct)[path]?) ∧
      (built detour).keys = (built direct).keys ∧ (built detour).keys = ["a", "b", "é"] ∧
      Revision.hash ⟨none, none, ⟨0⟩, built detour⟩ =
        Revision.hash ⟨none, none, ⟨0⟩, built direct⟩ := by
  intro detour direct
  have built_same : built detour = built direct := by decide +kernel
  have same : ∀ path : String, (built detour)[path]? = (built direct)[path]? := by simp [built_same]
  obtain ⟨⟨keys, -⟩, hashes, -⟩ := content_determines_hash detour direct same
  exact ⟨same, keys, by decide +kernel, hashes none none ⟨0⟩⟩

end Controller

end RevisionStore
