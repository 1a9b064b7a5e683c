/-
**A walk along the parents that ends is no longer than the store.**

The loop that collects a log goes from each revision to its stored parent.  Where it goes next
depends on where it is, so that it cannot come back to a revision and end all the same.  All that it
visits is stored, each revision under its own hash.  So if it ends, whether or not two revisions of
the run share a hash, it visits at most as many revisions as are stored, and the log misses none of
them.

Main results:

* `Repository.Walk.unique`, `Repository.Walk.nodup` — a walk is determined by where it begins, and
  visits nothing twice;
* `Repository.WellFormed.length_walk_le` — **its length is bounded by the number of stored
  revisions**;
* `Repository.WellFormed.log_of_walk` — the log is what the loop collects, wherever it ends.
-/

import RevisionStore.Proofs.Repository.ParentChain
import Mathlib.Data.List.Nodup

set_option autoImplicit false

namespace RevisionStore.Repository

variable {r : Repository} {current : Option Revision} {revision : Revision}
  {visited visited' earlier later : List Revision} {text : String}

/-! ### Walks -/

/-- A walk is determined by where it begins. -/
theorem Walk.unique (walk : r.Walk current visited) (walk' : r.Walk current visited') :
    visited = visited' := by
  induction walk generalizing visited' with
  | stop =>
      cases walk'
      rfl
  | visit rest ih =>
      cases walk' with
      | visit rest' => rw [ih rest']

/-- From each revision that it visits, a walk goes on as one that begins there. -/
theorem Walk.of_append (walk : r.Walk current (earlier ++ revision :: later)) :
    r.Walk (some revision) (revision :: later) := by
  induction earlier generalizing current with
  | nil =>
      cases walk with
      | visit rest => exact .visit rest
  | cons first earlier ih =>
      cases walk with
      | visit rest => exact ih rest

/-- **A walk that ends visits nothing twice.** -/
theorem Walk.nodup (walk : r.Walk current visited) : visited.Nodup := by
  induction walk with
  | stop => exact List.nodup_nil
  | @visit revision later rest ih =>
      refine List.nodup_cons.2 ⟨fun again => ?_, ih⟩
      obtain ⟨earlier, behind, cut⟩ := List.append_of_mem again
      -- What comes behind the second visit would be all that comes behind the first.
      have back : r.Walk (some revision) (revision :: behind) := Walk.of_append (cut ▸ rest)
      have same : later = behind := (List.cons.inj ((Walk.visit rest).unique back)).2
      have longer := congrArg List.length cut
      rw [same, List.length_append, List.length_cons] at longer
      omega

/-! ### What a walk visits -/

/-- All that is visited is stored under its own hash, if that is so where the walk begins. -/
theorem WellFormed.walk_stored (wf : WellFormed r) (walk : r.Walk current visited)
    (stored : ∀ revision ∈ current, r.revisions[revision.hash]? = some revision) :
    ∀ revision ∈ visited, r.revisions[revision.hash]? = some revision := by
  induction walk with
  | stop => exact nofun
  | @visit revision later rest ih =>
      refine List.forall_mem_cons.2 ⟨stored revision rfl, ih fun parent found => ?_⟩
      obtain ⟨hash, -, there⟩ := Option.bind_eq_some_iff.1 (Option.mem_def.1 found)
      rw [wf.hash_eq_key hash parent there]
      exact there

/-- **A walk that ends is no longer than the store.** -/
theorem WellFormed.length_walk_le (wf : WellFormed r) (walk : r.Walk current visited)
    (stored : ∀ revision ∈ current, r.revisions[revision.hash]? = some revision) :
    visited.length ≤ r.revisions.size := by
  have all_stored := wf.walk_stored walk stored
  have hashes : (visited.map Revision.hash).Nodup := by
    refine List.Nodup.map_on (fun a here b there same => ?_) walk.nodup
    have a_stored := all_stored a here
    rw [same, all_stored b there] at a_stored
    exact (Option.some.inj a_stored).symm
  rw [← List.length_map Revision.hash, ← Std.ExtTreeMap.length_keys]
  refine hashes.length_le_of_subset fun hash here => ?_
  obtain ⟨revision, mem, rfl⟩ := List.mem_map.1 here
  exact Std.ExtTreeMap.mem_keys.2 (Std.ExtTreeMap.getElem?_eq_some_iff.1 (all_stored revision mem)).1

/-! ### The log -/

/-- **The log is what the loop collects**, if that ends. -/
theorem WellFormed.log_of_walk (wf : WellFormed r) (named : r.resolve text = .ok revision)
    (walk : r.Walk (some revision) visited) :
    r.log text = .ok (visited.map Revision.logEntry) := by
  have stored : ∀ start ∈ some revision, r.revisions[start.hash]? = some start := by
    rintro start ⟨⟩
    obtain ⟨hash, -, there⟩ := resolve_eq_ok_iff.1 named
    rwa [wf.hash_eq_key hash revision there]
  have collected : r.ancestry revision r.revisions.size = visited :=
    walk.ancestry_eq (wf.length_walk_le walk stored)
  rw [log, named]
  simp only [bind, Except.bind, pure, Except.pure, collected]

/-- The log begins with the revision that the text names. -/
theorem log_begins (named : r.resolve text = .ok revision) :
    ∃ older, r.log text = .ok (revision.logEntry :: older) := by
  obtain ⟨hash, -, there⟩ := resolve_eq_ok_iff.1 named
  have some_stored : r.revisions.size ≠ 0 := by
    rw [← Std.ExtTreeMap.length_keys, ne_eq, List.length_eq_zero_iff]
    have mem := Std.ExtTreeMap.mem_keys.2 (Std.ExtTreeMap.getElem?_eq_some_iff.1 there).1
    exact List.ne_nil_of_mem mem
  obtain ⟨bound, size⟩ := Nat.exists_eq_succ_of_ne_zero some_stored
  refine ⟨((r.parentOf revision).elim [] (r.ancestry · bound)).map Revision.logEntry, ?_⟩
  rw [log, named, size]
  simp only [bind, Except.bind, pure, Except.pure, ancestry_succ, List.map_cons]

end RevisionStore.Repository
