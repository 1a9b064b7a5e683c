/-
**Directories follow the files.**

A directory is not stored anywhere.  A path is one because it is not a file and some file begins with
it and a slash, so that a commit, which touches one path, can change the kind of every path above.
What it can do to them is stated here for each of the two changes, in terms of the files before it;
along a chain of commits the files are those whose last change has put them there.

Main definitions:

* `Snapshot.Beneath` — a path begins with another one and a slash;
* `Revision.descend`, `Revision.Live` — the revision that a chain of commits leads to, and **the
  files that are still there after it**.

Main results:

* `Snapshot.kind_eq_file_iff`, `Snapshot.kind_eq_directory_iff`, `Snapshot.kind_eq_absent_iff` — the
  three kinds of path;
* `Snapshot.kind_insert` — what one more file does to the kind of a path;
* `Revision.mem_files_descend_iff` — the files after a chain of commits;
* `Revision.directories_follow_files` — **the kind of every path after a commit, and after a chain of
  commits**.
-/

import RevisionStore.Proofs.Repository.Chronicle
import Mathlib.Data.List.Basic
import Mathlib.Data.List.Induction

set_option autoImplicit false

namespace RevisionStore

/-! ### Beneath a path -/

namespace Snapshot

/-- The path begins with `directory` and a slash, whatever there is behind it. -/
def Beneath (directory path : String) : Prop := ∃ rest, path = directory ++ "/" ++ rest

theorem liesBeneath_iff {directory path : String} :
    liesBeneath directory path = true ↔ Beneath directory path := by
  rw [liesBeneath, List.isPrefixOf_iff_prefix]
  constructor
  · rintro ⟨rest, text⟩
    exact ⟨.ofList rest, by simp [← String.toList_inj, ← text]⟩
  · rintro ⟨rest, rfl⟩
    exact ⟨rest.toList, by simp⟩

instance (directory path : String) : Decidable (Beneath directory path) :=
  decidable_of_iff _ liesBeneath_iff

/-! ### The kind of a path -/

variable {files : Snapshot} {q : String}

theorem any_liesBeneath_iff :
    files.keys.any (liesBeneath q) = true ↔ ∃ f ∈ files, Beneath q f := by
  simp only [List.any_eq_true, Std.ExtTreeMap.mem_keys, liesBeneath_iff]

theorem kind_eq_file_iff : files.kind q = .file ↔ q ∈ files := by
  rw [← Std.ExtTreeMap.contains_iff_mem, kind]
  split
  · next here => exact iff_of_true rfl here
  · next absent => exact iff_of_false (by split <;> simp) absent

/-- **A path is a directory exactly if it is not a file and a file lies beneath it.** -/
theorem kind_eq_directory_iff :
    files.kind q = .directory ↔ q ∉ files ∧ ∃ f ∈ files, Beneath q f := by
  rw [← any_liesBeneath_iff, ← Std.ExtTreeMap.contains_iff_mem, kind]
  split
  · next here => exact iff_of_false (by simp) fun both => both.1 here
  · next absent =>
      split
      · next beneath => exact iff_of_true rfl ⟨absent, beneath⟩
      · next nothing => exact iff_of_false (by simp) fun both => nothing both.2

theorem kind_eq_absent_iff :
    files.kind q = .absent ↔ q ∉ files ∧ ∀ f ∈ files, ¬ Beneath q f := by
  have neither : files.kind q = .absent ↔ files.kind q ≠ .file ∧ files.kind q ≠ .directory := by
    cases files.kind q <;> simp
  rw [neither, ne_eq, ne_eq, kind_eq_file_iff, kind_eq_directory_iff]
  simp only [not_and, not_exists]
  exact and_congr_right fun absent => ⟨fun h => h absent, fun h _ => h⟩

/-- **One more file** is a file, the paths above it that are none are directories, and every other
path is what it was. -/
theorem kind_insert (files : Snapshot) (p q : String) (content : Bytes) :
    kind (files.insert p content) q =
      if q = p then .file else if q ∉ files ∧ Beneath q p then .directory else files.kind q := by
  have mem_insert : ∀ f, f ∈ files.insert p content ↔ f = p ∨ f ∈ files := by
    intro f
    rw [Std.ExtTreeMap.mem_insert, Std.compare_eq_iff_eq, eq_comm]
  split
  · next here => exact kind_eq_file_iff.2 ((mem_insert q).2 (.inl here))
  · next elsewhere =>
      have same : q ∈ files.insert p content ↔ q ∈ files := by
        rw [mem_insert, or_iff_right elsewhere]
      split
      · next above =>
          exact kind_eq_directory_iff.2
            ⟨same.not.2 above.1, p, (mem_insert p).2 (.inl rfl), above.2⟩
      · next apart =>
          -- A path that is no file and is not above the new one has the same files beneath it.
          cases kind_before : files.kind q with
          | file => exact kind_eq_file_iff.2 (same.2 (kind_eq_file_iff.1 kind_before))
          | directory =>
              obtain ⟨absent, f, here, beneath⟩ := kind_eq_directory_iff.1 kind_before
              exact kind_eq_directory_iff.2
                ⟨same.not.2 absent, f, (mem_insert f).2 (.inr here), beneath⟩
          | absent =>
              obtain ⟨absent, nothing⟩ := kind_eq_absent_iff.1 kind_before
              refine kind_eq_absent_iff.2 ⟨same.not.2 absent, fun f here beneath => ?_⟩
              rcases (mem_insert f).1 here with rfl | before
              · exact apart ⟨absent, beneath⟩
              · exact nothing f before beneath

/-- Without one file, the others are there. -/
theorem mem_erase_iff {p f : String} : f ∈ files.erase p ↔ f ∈ files ∧ f ≠ p := by
  rw [Std.ExtTreeMap.mem_erase, ne_eq, Std.compare_eq_iff_eq, and_comm, eq_comm]

end Snapshot

/-! ### Chains of commits -/

namespace Revision

open Snapshot (Beneath)

/-- The revision that commits lead to, one after the other. -/
def descend (r : Revision) (edits : List Edit) : Revision :=
  edits.foldl (fun r e => r.child e.message e.timestamp e.change) r

@[simp] theorem descend_nil (r : Revision) : r.descend [] = r := rfl

@[simp] theorem descend_concat (r : Revision) (edits : List Edit) (e : Edit) :
    r.descend (edits ++ [e]) = (r.descend edits).child e.message e.timestamp e.change := by
  simp [descend]

/-- A file is live after some commits if the last one to touch it has added it, or if it was there
before and none has touched it. -/
inductive Live (r : Revision) (edits : List Edit) (path : String) : Prop
  | added {earlier later : List Edit} {e : Edit} {content : Bytes}
      (cut : edits = earlier ++ e :: later) (adds : e.change = .add path content)
      (last : ∀ other ∈ later, other.change.path ≠ path) : Live r edits path
  | kept (before : path ∈ r.files) (untouched : ∀ e ∈ edits, e.change.path ≠ path) :
      Live r edits path

variable {r : Revision} {edits : List Edit} {e : Edit} {path : String}

/-- Before the first commit the files are those of the revision. -/
theorem live_nil_iff : Live r [] path ↔ path ∈ r.files := by
  constructor
  · rintro (⟨cut, -, -⟩ | ⟨before, -⟩)
    · exact absurd cut (by simp)
    · exact before
  · exact fun before => .kept before (by simp)

/-- A file is live after one more commit if this one has added it, or if it was live before and this
one is about another path. -/
theorem live_concat_iff :
    Live r (edits ++ [e]) path ↔
      (∃ content, e.change = .add path content) ∨ Live r edits path ∧ e.change.path ≠ path := by
  constructor
  · rintro (⟨cut, adds, last⟩ | ⟨before, untouched⟩)
    · next earlier later e' content =>
        rcases List.eq_nil_or_concat' later with rfl | ⟨middle, newest, rfl⟩
        · obtain ⟨-, same⟩ := List.append_inj' cut rfl
          obtain rfl := (List.cons.inj same).1
          exact .inl ⟨content, adds⟩
        · rw [← List.cons_append, ← List.append_assoc] at cut
          obtain ⟨rfl, same⟩ := List.append_inj' cut rfl
          obtain rfl := (List.cons.inj same).1
          obtain ⟨last, last_new⟩ := List.forall_mem_append.1 last
          exact .inr ⟨.added rfl adds last, last_new e (List.mem_singleton_self e)⟩
    · obtain ⟨untouched, untouched_new⟩ := List.forall_mem_append.1 untouched
      exact .inr ⟨.kept before untouched, untouched_new e (List.mem_singleton_self e)⟩
  · rintro (⟨content, adds⟩ | ⟨⟨cut, adds, last⟩ | ⟨before, untouched⟩, other⟩)
    · exact .added rfl adds (by simp)
    · next earlier later e' content =>
        have cut' : edits ++ [e] = earlier ++ e' :: (later ++ [e]) := by simp [cut]
        exact .added cut' adds (List.forall_mem_append.2 ⟨last, by simpa using other⟩)
    · exact .kept before (List.forall_mem_append.2 ⟨untouched, by simpa using other⟩)

/-- **The files after a chain of commits are the live ones.** -/
theorem mem_files_descend_iff : path ∈ (r.descend edits).files ↔ Live r edits path := by
  induction edits using List.reverseRecOn with
  | nil => exact live_nil_iff.symm
  | append_singleton edits e ih =>
      have after : path ∈ (r.descend (edits ++ [e])).files ↔
          ((e.change.apply (r.descend edits).files)[path]?).isSome := by
        rw [descend_concat, Std.ExtTreeMap.mem_iff_isSome_getElem?]
        rfl
      rw [after, FileChange.getElem?_apply, live_concat_iff]
      by_cases touches : path = e.change.path
      · -- The commit decides alone whether the path is a file.
        subst touches
        rw [if_pos rfl]
        cases e.change <;> simp [FileChange.content?, FileChange.path]
      · rw [if_neg touches, ← Std.ExtTreeMap.mem_iff_isSome_getElem?, ih, or_iff_right,
          and_iff_left (Ne.symm touches)]
        rintro ⟨content, adds⟩
        exact touches (by rw [adds, FileChange.path])

/-! ### Kinds after commits -/

/-- **Directories follow the files.**  After a commit that adds `p`, this path is a file, a path that
was no file and that `p` lies beneath is a directory, and every other path is what it was.  After a
commit that removes `p`, the files are the other ones; any other path is a directory if one of these
lies beneath it, and is nothing if not.  So after a chain of commits a path is a file exactly if it
is live, and a directory exactly if it is not and a live file lies beneath it. -/
theorem directories_follow_files (r : Revision) (q : String) :
    (∀ message timestamp p content,
      (r.child message timestamp (.add p content)).files.kind q =
        if q = p then .file
        else if q ∉ r.files ∧ Beneath q p then .directory
        else r.files.kind q) ∧
    (∀ message timestamp p,
      let kind := (r.child message timestamp (.remove p)).files.kind q
      (kind = .file ↔ q ∈ r.files ∧ q ≠ p) ∧
      (kind = .directory ↔ (q = p ∨ q ∉ r.files) ∧ ∃ f ∈ r.files, f ≠ p ∧ Beneath q f) ∧
      (kind = .absent ↔ (q = p ∨ q ∉ r.files) ∧ ¬ ∃ f ∈ r.files, f ≠ p ∧ Beneath q f)) ∧
    ∀ edits,
      ((r.descend edits).files.kind q = .file ↔ Live r edits q) ∧
      ((r.descend edits).files.kind q = .directory ↔
        ¬ Live r edits q ∧ ∃ f, Live r edits f ∧ Beneath q f) := by
  refine ⟨fun _ _ p content => Snapshot.kind_insert r.files p q content, ?_, ?_⟩
  · intro message timestamp p kind
    have gone : q ∉ r.files.erase p ↔ q = p ∨ q ∉ r.files := by
      rw [Snapshot.mem_erase_iff, not_and_or, not_not, or_comm]
    have beneath : (∃ f ∈ r.files.erase p, Beneath q f) ↔
        ∃ f ∈ r.files, f ≠ p ∧ Beneath q f := by
      simp only [Snapshot.mem_erase_iff, and_assoc]
    have nothing : (∀ f ∈ r.files.erase p, ¬ Beneath q f) ↔
        ¬ ∃ f ∈ r.files, f ≠ p ∧ Beneath q f := by
      rw [← beneath]
      simp only [not_exists, not_and]
    exact ⟨Snapshot.kind_eq_file_iff.trans Snapshot.mem_erase_iff,
      Snapshot.kind_eq_directory_iff.trans (and_congr gone beneath),
      Snapshot.kind_eq_absent_iff.trans (and_congr gone nothing)⟩
  · intro edits
    refine ⟨Snapshot.kind_eq_file_iff.trans mem_files_descend_iff,
      Snapshot.kind_eq_directory_iff.trans (and_congr mem_files_descend_iff.not ?_)⟩
    simp only [mem_files_descend_iff]

/-- A slash at the end or twice in a row separates like any other. -/
example :
    let files := ((root ⟨0⟩).child "m" ⟨1⟩ (.add "a//b/" [])).files
    ["a//b/", "a//b", "a/", "a", "a//", ""].map files.kind =
      [.file, .directory, .directory, .directory, .absent, .absent] := by
  decide +kernel

end Revision

end RevisionStore
