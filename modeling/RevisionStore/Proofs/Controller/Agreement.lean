/-
**All ways of reading tell the same story.**

The hash of a name, its history, the kind and the content of a path, the list of files, the time of
the last change and a checkout are read by calls of their own.  They look the same revision up, so
that they fail together, and what they give fits together where they succeed.

Main definitions:

* `Controller.ReadsFail` — every way of reading fails, with one error;
* `Controller.ReadsAgree` — **every way of reading succeeds, and they agree**.

Main results:

* `Controller.readsFail_of_revision`, `Controller.readsAgree_of_revision` — one of the two holds,
  depending on whether there is a revision;
* `Controller.reads_tell_one_story` — **so it is in every reachable controller**, and the history is
  all that the loop collects, if that ends.
-/

import RevisionStore.Proofs.Checkout.Overlay
import RevisionStore.Proofs.Contents
import RevisionStore.Proofs.Controller.Histories
import RevisionStore.Proofs.PathKind
import RevisionStore.Proofs.Repository.WalkLength

set_option autoImplicit false

namespace RevisionStore.Controller

variable {c : Controller} {repository identifier : String}

/-! ### Failing together, and agreeing -/

/-- Every way of reading fails with the error `e`; the time of the last change is none. -/
structure ReadsFail (c : Controller) (repository identifier : String) (e : StoreError) : Prop where
  resolve : c.resolve repository identifier = .error e
  log : c.log repository identifier = .error e
  stat : ∀ path, c.stat repository identifier path = .error e
  fileContent : ∀ path, c.fileContent repository identifier path = .error e
  listFiles : c.listFiles repository identifier = .error e
  checkout : (c.checkout .memory repository identifier).run ∅ = (.error e, ∅)
  lastModified : c.lastModified repository identifier = none

/-- Every way of reading succeeds, and they agree: on the hash, on the newest line of the history
with the time of the last change, and for each path on whether it is a file and with which content.
A checkout into empty memory leaves `files` there. -/
structure ReadsAgree (c : Controller) (repository identifier : String) (hash : RevisionHash)
    (newest : LogEntry) (older : List LogEntry) (paths : List String) (files : Snapshot) :
    Prop where
  resolve : c.resolve repository identifier = .ok hash
  log : c.log repository identifier = .ok (newest :: older)
  hash_newest : newest.hash = hash
  lastModified : c.lastModified repository identifier = some newest.timestamp
  listFiles : c.listFiles repository identifier = .ok paths
  ascending : paths.Pairwise fun path later => Bytes.ofText path < Bytes.ofText later
  checkout : (c.checkout .memory repository identifier).run ∅ = (.ok hash, files)
  fileContent : ∀ path, c.fileContent repository identifier path = .ok files[path]?
  mem_paths_iff : ∀ path, path ∈ paths ↔ ∃ content, files[path]? = some content
  stat : ∀ path, ∃ kind, c.stat repository identifier path = .ok kind ∧
    (kind = .file ↔ path ∈ paths)

/-! ### One revision -/

/-- The history of a revision begins with it. -/
theorem log_of_revision {revision : Revision}
    (named : c.revision repository identifier = .ok revision) :
    ∃ older, c.log repository identifier = .ok (revision.logEntry :: older) := by
  obtain ⟨r, found, named⟩ := bind_eq_ok_iff.1 named
  obtain ⟨older, log⟩ := Repository.log_begins named
  exact ⟨older, bind_eq_ok_iff.2 ⟨r, found, log⟩⟩

/-- A revision that is not there has no history. -/
theorem log_of_error {e : StoreError} (failed : c.revision repository identifier = .error e) :
    c.log repository identifier = .error e := by
  rcases bind_eq_error_iff.1 failed with missing | ⟨r, found, unnamed⟩
  · exact bind_eq_error_iff.2 (.inl missing)
  · exact bind_eq_error_iff.2 (.inr ⟨r, found, bind_eq_error_iff.2 (.inl unnamed)⟩)

/-- **Where there is no revision, every way of reading fails alike.** -/
theorem readsFail_of_revision {e : StoreError}
    (failed : c.revision repository identifier = .error e) : c.ReadsFail repository identifier e where
  resolve := by rw [resolve_eq, failed]; rfl
  log := log_of_error failed
  stat path := by rw [stat_eq, failed]; rfl
  fileContent path := by rw [fileContent_eq, failed]; rfl
  listFiles := by rw [listFiles_eq, failed]; rfl
  checkout := by rw [checkout_memory_run, snapshot_eq, failed]; rfl
  lastModified := by rw [lastModified_eq, failed]; rfl

/-- **Where there is one, every way of reading tells of it.** -/
theorem readsAgree_of_revision {revision : Revision}
    (named : c.revision repository identifier = .ok revision) :
    ∃ older, c.ReadsAgree repository identifier revision.hash revision.logEntry older
      revision.files.keys revision.files := by
  obtain ⟨older, log⟩ := log_of_revision named
  have mem_keys : ∀ path, path ∈ revision.files.keys ↔ path ∈ revision.files := fun _ =>
    Std.ExtTreeMap.mem_keys
  refine ⟨older, ?_, log, rfl, ?_, ?_, Snapshot.pairwise_keys _, ?_, ?_, ?_, ?_⟩
  · rw [resolve_eq, named]
    rfl
  · rw [lastModified_eq, named]
    rfl
  · rw [listFiles_eq, named]
    rfl
  · rw [checkout_memory_run, snapshot_eq, named]
    simp only [Except.map, Snapshot.empty_union]
  · intro path
    rw [fileContent_eq, named]
    rfl
  · intro path
    rw [mem_keys, Std.ExtTreeMap.mem_iff_isSome_getElem?, Option.isSome_iff_exists]
  · intro path
    refine ⟨revision.files.kind path, ?_, ?_⟩
    · rw [stat_eq, named]
      rfl
    · rw [mem_keys, Snapshot.kind_eq_file_iff]

/-! ### Reachable controllers -/

/-- **All ways of reading tell the same story**, in every reachable controller and for every name.
Either all of them fail with the same error, and there is no time of the last change, or all of them
succeed and agree.  And if the loop that collects the history ends, then what it has collected is
the history that they agree on. -/
theorem reads_tell_one_story (reachable : c.Reachable) (repository identifier : String) :
    ((∃ e, c.ReadsFail repository identifier e) ∨
      ∃ hash newest older paths files,
        c.ReadsAgree repository identifier hash newest older paths files) ∧
    ∀ r revision visited, c.find repository = .ok r → r.resolve identifier = .ok revision →
      r.Walk (some revision) visited →
        c.log repository identifier = .ok (visited.map Revision.logEntry) := by
  constructor
  · cases named : c.revision repository identifier with
    | error e => exact .inl ⟨e, readsFail_of_revision named⟩
    | ok revision =>
        obtain ⟨older, agree⟩ := readsAgree_of_revision named
        exact .inr ⟨_, _, older, _, _, agree⟩
  · intro r revision visited found named walk
    have wf := reachable.recorded.wellFormed (find_eq_ok_iff.1 found)
    exact bind_eq_ok_iff.2 ⟨r, found, wf.log_of_walk named walk⟩

/-- A repository in which a tag and a branch have the same name, and not the same revision. -/
def twiceNamed : Controller :=
  let calls : List (Call Unit) :=
    [.createRepository "r", .addFile "r" "master" "m" "a" [1], .createTag "r" "master" "v",
      .addFile "r" "master" "n" "b" [2], .cloneBranch "r" "master" "v"]
  (runCalls () (.withClock (.stepping ⟨0⟩ 1)) calls).1

/-- The revision that was tagged there. -/
def tagged : Revision := (Revision.root ⟨0⟩).child "m" ⟨1⟩ (.add "a" [1])

theorem find_twiceNamed :
    ((twiceNamed.find "r").map fun r =>
        (r.resolve "v", r.parentOf (tagged.child "n" ⟨2⟩ (.add "b" [2])), r.parentOf tagged)) =
      .ok (.ok (tagged.child "n" ⟨2⟩ (.add "b" [2])), some tagged, some (.root ⟨0⟩)) := by
  decide +kernel

/-- All ways of reading tell of the branch. -/
theorem reads_tell_one_story_twiceNamed :
    twiceNamed.Reachable ∧
      (∃ hash newest older paths files,
        twiceNamed.ReadsAgree "r" "v" hash newest older paths files) ∧
      twiceNamed.log "r" "v" = .ok ([tagged.child "n" ⟨2⟩ (.add "b" [2]), tagged,
        .root ⟨0⟩].map Revision.logEntry) := by
  have reachable : twiceNamed.Reachable := (Reachable.start _).runCalls () _
  obtain ⟨r, found, facts⟩ := map_eq_ok_iff.1 find_twiceNamed
  obtain ⟨named, parents⟩ := Prod.mk.inj facts
  obtain ⟨parent, grandparent⟩ := Prod.mk.inj parents
  have walk : r.Walk (some (tagged.child "n" ⟨2⟩ (.add "b" [2])))
      [tagged.child "n" ⟨2⟩ (.add "b" [2]), tagged, .root ⟨0⟩] := by
    refine .visit ?_
    rw [parent]
    refine .visit ?_
    rw [grandparent]
    exact .visit .stop
  obtain ⟨story, history⟩ := reads_tell_one_story reachable "r" "v"
  have log := history r _ _ found named walk
  refine ⟨reachable, ?_, log⟩
  rcases story with ⟨e, fail⟩ | agree
  · cases fail.log.symm.trans log
  · exact agree

end RevisionStore.Controller
