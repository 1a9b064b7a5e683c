/-
**A snapshot is written down by its contents alone.**

However a snapshot came about, it holds for each path what the last change to that path left there.
Listing it puts each of these files once, in the order of the paths' bytes, and only one list does
that.  So revisions with the same parent, message and time whose files have the same contents spell
the same bytes.

Main definitions:

* `FileChange.built`, `FileChange.latest?` — the snapshot that changes lead to, and what the last
  change to a path leaves there;
* `Snapshot.Lists` — a list has exactly the files of given contents, **in ascending order of the
  paths' bytes**;
* `Revision.Alike` — the same parent, message, time and contents.

Main results:

* `FileChange.getElem?_built` — the snapshot holds what the last changes leave;
* `Snapshot.Lists.unique`, `Snapshot.lists_toList` — contents are listed in one way only, and a
  snapshot is listed in that way;
* `Revision.Alike.hash_eq` — **revisions that are alike have the same hash**.
-/

import RevisionStore.Proofs.DigestInput
import RevisionStore.Proofs.TextOrder
import Mathlib.Data.List.Induction
import Mathlib.Data.List.Sort

set_option autoImplicit false

namespace RevisionStore

/-! ### What changes add up to -/

namespace FileChange

/-- The snapshot that changes lead to, one after the other, beginning with no files. -/
def built (changes : List FileChange) : Snapshot :=
  changes.foldl (fun files change => change.apply files) ∅

/-- What the last of the changes to a path leaves there. -/
def latest? (changes : List FileChange) (path : String) : Option Bytes :=
  (changes.reverse.find? (path = ·.path)).bind content?

@[simp] theorem built_nil : built [] = ∅ := rfl

@[simp] theorem built_concat (changes : List FileChange) (change : FileChange) :
    built (changes ++ [change]) = change.apply (built changes) := by
  simp [built]

theorem latest?_concat (changes : List FileChange) (change : FileChange) (path : String) :
    latest? (changes ++ [change]) path =
      if path = change.path then change.content? else latest? changes path := by
  rw [latest?, List.reverse_append, List.reverse_singleton, List.singleton_append, List.find?_cons]
  by_cases here : path = change.path
  · simp [here]
  · simp [here, latest?]

/-- **The snapshot holds what the last changes leave.** -/
theorem getElem?_built (changes : List FileChange) (path : String) :
    (built changes)[path]? = latest? changes path := by
  induction changes using List.reverseRecOn with
  | nil => rfl
  | append_singleton changes change ih =>
      rw [built_concat, getElem?_apply, latest?_concat, ih]

end FileChange

/-! ### Listings -/

namespace Snapshot

/-- The list has exactly the files of the contents, in ascending order of the paths' bytes. -/
structure Lists (files : List (String × Bytes)) (contents : String → Option Bytes) : Prop where
  ascending : files.Pairwise fun file later => Bytes.ofText file.1 < Bytes.ofText later.1
  mem_iff : ∀ path content, (path, content) ∈ files ↔ contents path = some content

/-- **Contents are listed in one way only.** -/
theorem Lists.unique {files files' : List (String × Bytes)} {contents : String → Option Bytes}
    (lists : Lists files contents) (lists' : Lists files' contents) : files = files' := by
  have : Std.Irrefl fun file later : String × Bytes =>
      Bytes.ofText file.1 < Bytes.ofText later.1 := ⟨fun _ => List.lt_irrefl _⟩
  have : Std.Antisymm fun file later : String × Bytes =>
      Bytes.ofText file.1 < Bytes.ofText later.1 :=
    ⟨fun _ _ before after => absurd after (List.lt_asymm before)⟩
  refine List.Pairwise.eq_of_mem_iff lists.ascending lists'.ascending ?_
  rintro ⟨path, content⟩
  rw [lists.mem_iff, lists'.mem_iff]

/-- **A snapshot is listed in that way.** -/
theorem lists_toList (files : Snapshot) : Lists files.toList (files[·]?) where
  ascending := files.ordered_keys_toList.imp fun before =>
    Bytes.ofText_lt_iff.2 (compare_lt_iff_lt.1 before)
  mem_iff _ _ := Std.ExtTreeMap.mem_toList_iff_getElem?_eq_some

theorem toList_eq_of_contents {files files' : Snapshot}
    (same : ∀ path : String, files[path]? = files'[path]?) : files.toList = files'.toList := by
  have lists' := lists_toList files'
  rw [← funext same] at lists'
  exact (lists_toList files).unique lists'

/-- The paths of a snapshot are in ascending order of their bytes. -/
theorem pairwise_keys (files : Snapshot) :
    files.keys.Pairwise fun path later => Bytes.ofText path < Bytes.ofText later := by
  rw [← Std.ExtTreeMap.map_fst_toList_eq_keys, List.pairwise_map]
  exact (lists_toList files).ascending

/-- Each path with a content is listed once, and no other. -/
theorem count_keys (files : Snapshot) (path : String) :
    files.keys.count path = if files[path]?.isSome then 1 else 0 := by
  split
  · next present =>
      rw [← Std.ExtTreeMap.mem_iff_isSome_getElem?, ← Std.ExtTreeMap.mem_keys] at present
      exact List.count_eq_one_of_mem Std.ExtTreeMap.nodup_keys present
  · next absent =>
      rw [← Std.ExtTreeMap.mem_iff_isSome_getElem?, ← Std.ExtTreeMap.mem_keys] at absent
      exact List.count_eq_zero_of_not_mem absent

end Snapshot

/-! ### Hashes -/

/-- The revisions have the same parent, message and time, and each path has the same content. -/
structure Revision.Alike (a b : Revision) : Prop where
  parent : a.parent = b.parent
  message : a.message = b.message
  timestamp : a.timestamp = b.timestamp
  contents : ∀ path : String, a.files[path]? = b.files[path]?

/-- Revisions that are alike spell the same bytes. -/
theorem Revision.Alike.digestInput_eq {a b : Revision} (alike : a.Alike b) :
    a.digestInput = b.digestInput := by
  have files : a.files.bytes = b.files.bytes := by
    rw [Snapshot.bytes, Snapshot.bytes, Snapshot.toList_eq_of_contents alike.contents]
  rw [Revision.digestInput_eq, Revision.digestInput_eq, parentBytes, parentBytes, messageBytes,
    messageBytes, alike.parent, alike.message, alike.timestamp, files]

/-- **Revisions that are alike have the same hash.** -/
theorem Revision.Alike.hash_eq {a b : Revision} (alike : a.Alike b) : a.hash = b.hash :=
  congrArg RevisionHash.digest alike.digestInput_eq

end RevisionStore
