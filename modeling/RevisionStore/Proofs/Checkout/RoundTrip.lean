/-
**Reading back what a checkout has written.**

The paths of a snapshot are texts, and a file system tells them apart by their steps only.  A file
is found again where it was written, whatever is written after it, but of the paths with the same
steps the one that comes last in the order of texts has its content there in the end.  So a checkout
into an empty directory that succeeds is read back as it was exactly if no two paths with the same
steps have different contents.

Main definitions:

* `FileTree.content?` — the content of the file at an entry;
* `FileTree.Reads` — a path leads below a root, and reads what is there from now on;
* `Destination.lastAt` — what the last of some files has at given steps;
* `Snapshot.IsLastAt` — of the paths with these steps, the one that is written last.

Main results:

* `Destination.write_ok` — what one file that was written changes, and how it is read;
* `Destination.writeAll_ok` — the same for all files, one after the other;
* `Controller.checkout_reads_back` — **what can be read after a checkout**, and when that is the
  snapshot.
-/

import RevisionStore.Proofs.Checkout.Confinement
import Mathlib.Data.String.Basic
import Mathlib.Order.Bounds.Basic

set_option autoImplicit false

namespace RevisionStore

open FileTree RevisionStore.Path

variable {t t' : FileTree} {top : List String} {current : List String} {root path : String}
  {content : Bytes}

/-! ### Contents -/

/-- The content of the file at an entry, if there is a file. -/
def FileTree.content? (t : FileTree) (names : List String) : Option Bytes :=
  match t.entry? names with
  | some (.file content) => some content
  | _ => none

theorem FileTree.content?_eq_some_iff {names : List String} :
    t.content? names = some content ↔ t.entry? names = some (.file content) := by
  unfold content?
  split
  · next there => simp [there]
  · next other => simpa using other content

/-- New directories have no content. -/
theorem FileTree.GrowsBelow.content?_eq (grows : GrowsBelow top t t') (names : List String) :
    t'.content? names = t.content? names := by
  rcases grows names with same | ⟨-, absent, made⟩
  · rw [content?, same, content?]
  · rw [content?, made, content?, absent]

/-- The path leads below the root to its steps, and reads the file there, now and later as long as no
directory goes away. -/
structure FileTree.Reads (t : FileTree) (current : List String) (root : String) (top : List String)
    (path : String) : Prop where
  leads : t.LeadsTo current (join root path) (top ++ steps path)
  read : ∀ later stored, KeepsDirectories t later →
    later.content? (top ++ steps path) = some stored →
    later.readFile current (join root path) = .ok stored

theorem FileTree.Reads.mono (kept : KeepsDirectories t t') (reads : t.Reads current root top path) :
    t'.Reads current root top path :=
  ⟨reads.leads.mono kept, fun later stored kept' =>
    reads.read later stored fun names there => kept' names (kept names there)⟩

namespace Destination

/-! ### One file -/

/-- If an accepted path leads anywhere, then so does the root, and the path leads below. -/
theorem exists_leadsTo_root (accepted : staysInside path = true) {names : List String}
    (leads : t.LeadsTo current (join root path) names) :
    ∃ top, t.LeadsTo current root top ∧ names = top ++ steps path := by
  obtain ⟨relative, -⟩ := steps_down accepted
  have starts : startOf current (join root path) = startOf current root :=
    startOf_congr (isAbsolute_join relative)
  have cut : steps (join root path) = steps root ++ steps path := steps_join relative
  rcases List.eq_nil_or_concat' (steps path) with dots | ⟨above, last, ends⟩
  · -- A path of dots alone leads where the root does.
    rw [dots, List.append_nil] at cut
    exact ⟨names, leads.congr starts.symm cut.symm, by rw [dots, List.append_nil]⟩
  · have ⟨directory, entered, _⟩ := leads
    rw [cut, ends, ← List.append_assoc, List.dropLast_concat, starts] at entered
    obtain ⟨top, before, -⟩ := enter_append_ok_iff.1 entered
    have based := leadsTo_of_enter before
    exact ⟨top, based, leadsTo_join based accepted leads⟩

/-- **A file that was written** has its content at its steps below the root, and nothing else has a
new content.  As long as no directory goes away, reading at its path gives what is there. -/
theorem write_ok
    (run : ((folder (fileSystem current) root).write path content).run t = (.ok (), t')) :
    ∃ top, t'.LeadsTo current root top ∧ KeepsDirectories t t' ∧
      (∀ names, t'.content? names =
        if names = top ++ steps path then some content else t.content? names) ∧
      t'.Reads current root top path := by
  cases accepted : staysInside path with
  | false =>
      rw [folder_write_refused accepted] at run
      cases run
  | true =>
      have grows := onTheWay_growsAlong current root path t
      rcases folder_write_cases current root accepted t content with
        ⟨above, e, failed⟩ | ⟨t'', written, done⟩
      · rw [failed] at run
        cases run
      · rw [done] at run
        cases run
        -- The file could be written, and so its path leads somewhere by now.
        obtain ⟨directory, name, names, found, -, -, -⟩ := writeFile_ok written
        obtain ⟨top, based, -⟩ := exists_leadsTo_root accepted (endsIn_of_locate found).leadsTo
        obtain ⟨leads, -, changed⟩ := writeFile_join based accepted written
        have unchanged := (writeFile_staysBelow based accepted written).kept
        refine ⟨top, based.mono unchanged, fun names there =>
          unchanged names (grows.keepsDirectories names there), ?_, leads.mono unchanged, ?_⟩
        · intro names
          rw [content?, changed, ← grows.growsBelow.content?_eq]
          by_cases here : names = top ++ steps path
          · rw [if_pos here, if_pos here]
          · rw [if_neg here, if_neg here, content?]
        · intro later stored kept' there
          have still : KeepsDirectories (onTheWay current root path t) later :=
            fun names here => kept' names (unchanged names here)
          exact readFile_of_writeFile written leads still (content?_eq_some_iff.1 there)

/-! ### All files -/

/-- The content of the last of some files whose path has these steps. -/
def lastAt (below : List String) : List (String × Bytes) → Option Bytes
  | [] => none
  | (path, content) :: rest =>
    (lastAt below rest).or (if steps path = below then some content else none)

theorem lastAt_eq_none_iff {below : List String} {files : List (String × Bytes)} :
    lastAt below files = none ↔ ∀ file ∈ files, steps file.1 ≠ below := by
  induction files with
  | nil => simp [lastAt]
  | cons file rest ih => simp [lastAt, ih, and_comm]

/-- Of files in the order of their paths, the last at some steps has the greatest path. -/
theorem exists_greatest_of_lastAt {below : List String} {files : List (String × Bytes)}
    (sorted : files.Pairwise fun file later => file.1 < later.1)
    (last : lastAt below files = some content) :
    ∃ path, (path, content) ∈ files ∧ steps path = below ∧
      ∀ file ∈ files, steps file.1 = below → file.1 ≤ path := by
  induction files with
  | nil => cases last
  | cons file rest ih =>
      obtain ⟨before, sorted⟩ := List.pairwise_cons.1 sorted
      rw [lastAt] at last
      cases later : lastAt below rest with
      | none =>
          have alone := lastAt_eq_none_iff.1 later
          rw [later, Option.none_or] at last
          split at last
          · next same =>
              obtain rfl := Option.some.inj last
              refine ⟨file.1, List.mem_cons_self, same, fun other mem at_below => ?_⟩
              rcases List.mem_cons.1 mem with rfl | behind
              · exact le_rfl
              · exact absurd at_below (alone other behind)
          · cases last
      | some stored =>
          rw [later, Option.some_or] at last
          obtain ⟨path, mem, same, greatest⟩ := ih sorted (later.trans last)
          refine ⟨path, List.mem_cons_of_mem _ mem, same, fun other here at_below => ?_⟩
          rcases List.mem_cons.1 here with rfl | behind
          · exact (before _ mem).le
          · exact greatest other behind at_below

/-- Where files were written, every directory is still there. -/
theorem writeAll_keepsDirectories {files : List (String × Bytes)}
    (run : ((folder (fileSystem current) root).writeAll files).run t = (.ok (), t')) :
    KeepsDirectories t t' := by
  induction files generalizing t with
  | nil =>
      cases run
      exact fun _ there => there
  | cons file rest ih =>
      obtain ⟨path, content⟩ := file
      rw [writeAll_cons_run] at run
      split at run
      · next middle written =>
          obtain ⟨_, -, kept, -, -⟩ := write_ok written
          exact fun names there => ih run names (kept names there)
      · cases run

/-- From the first file on that was written, the root leads somewhere. -/
theorem exists_leadsTo_of_writeAll {files : List (String × Bytes)} {file : String × Bytes}
    (here : file ∈ files)
    (run : ((folder (fileSystem current) root).writeAll files).run t = (.ok (), t')) :
    ∃ top, t'.LeadsTo current root top := by
  cases files with
  | nil => cases here
  | cons first rest =>
      obtain ⟨path, content⟩ := first
      rw [writeAll_cons_run] at run
      split at run
      · next middle written =>
          obtain ⟨top, based, -⟩ := write_ok written
          exact ⟨top, based.mono (writeAll_keepsDirectories run)⟩
      · cases run

/-- **Writing files one after the other**: each entry below the root has the content of the last
file that was written there, every other entry has the content that it had, and every path reads what
is at its steps.  It is enough that the root leads somewhere in the end. -/
theorem writeAll_ok {files : List (String × Bytes)} (based : t'.LeadsTo current root top)
    (run : ((folder (fileSystem current) root).writeAll files).run t = (.ok (), t')) :
    (∀ below, t'.content? (top ++ below) = (lastAt below files).or (t.content? (top ++ below))) ∧
      (∀ names, ¬ top <+: names → t'.content? names = t.content? names) ∧
      ∀ file ∈ files, t'.Reads current root top file.1 := by
  induction files generalizing t with
  | nil =>
      cases run
      exact ⟨fun _ => rfl, fun _ _ => rfl, nofun⟩
  | cons file rest ih =>
      obtain ⟨path, content⟩ := file
      rw [writeAll_cons_run] at run
      split at run
      · next middle written =>
          have kept := writeAll_keepsDirectories run
          obtain ⟨_, based', -, changed, read⟩ := write_ok written
          obtain rfl := based.unique (based'.mono kept)
          obtain ⟨changed', outside', read'⟩ := ih run
          refine ⟨fun below => ?_, fun names apart => ?_, ?_⟩
          · rw [changed', changed, lastAt, Option.or_assoc]
            congr 1
            simp only [List.append_cancel_left_eq, eq_comm (a := below)]
            split <;> rfl
          · have elsewhere : names ≠ top ++ steps path := by
              rintro rfl
              exact apart (List.prefix_append top _)
            rw [outside' names apart, changed, if_neg elsewhere]
          · exact List.forall_mem_cons.2 ⟨read.mono kept, read'⟩
      · cases run

end Destination

/-! ### Snapshots -/

/-- Of the paths of a snapshot with these steps, this is the greatest, and so the one whose file is
written last. -/
def Snapshot.IsLastAt (files : Snapshot) (below : List String) (path : String) : Prop :=
  IsGreatest {other | other ∈ files ∧ steps other = below} path

namespace Snapshot

variable {files : Snapshot} {below : List String}

theorem pairwise_lt_toList (files : Snapshot) :
    files.toList.Pairwise fun file later => file.1 < later.1 :=
  files.ordered_keys_toList.imp fun smaller => compare_lt_iff_lt.1 smaller

theorem exists_isLastAt (last : Destination.lastAt below files.toList = some content) :
    ∃ path, files.IsLastAt below path ∧ files[path]? = some content := by
  obtain ⟨path, mem, same, greatest⟩ :=
    Destination.exists_greatest_of_lastAt (pairwise_lt_toList files) last
  have there := Std.ExtTreeMap.mem_toList_iff_getElem?_eq_some.1 mem
  obtain ⟨in_files, -⟩ := Std.ExtTreeMap.getElem?_eq_some_iff.1 there
  refine ⟨path, ⟨⟨in_files, same⟩, ?_⟩, there⟩
  rintro other ⟨here, at_below⟩
  have entry := Std.ExtTreeMap.getElem?_eq_some_getElem here
  exact greatest _ (Std.ExtTreeMap.mem_toList_iff_getElem?_eq_some.2 entry) at_below

/-- What the files of a snapshot leave at some steps when they are written one after the other. -/
theorem lastAt_toList_eq_some_iff :
    Destination.lastAt below files.toList = some content ↔
      ∃ path, files.IsLastAt below path ∧ files[path]? = some content := by
  refine ⟨exists_isLastAt, ?_⟩
  rintro ⟨path, isLast, there⟩
  cases last : Destination.lastAt below files.toList with
  | none =>
      have mem := Std.ExtTreeMap.mem_toList_iff_getElem?_eq_some.2 there
      exact absurd isLast.1.2 (Destination.lastAt_eq_none_iff.1 last _ mem)
  | some stored =>
      obtain ⟨other, isLast', there'⟩ := exists_isLastAt last
      rw [isLast'.unique isLast, there] at there'
      exact there'.symm

/-- If every path reads what the last path with its steps has, then every path reads its own content
exactly if paths with the same steps have the same. -/
theorem read_own_iff {read : String → Except FileError Bytes}
    (reads : ∀ path ∈ files, ∃ last content, files.IsLastAt (steps path) last ∧
      files[last]? = some content ∧ read path = .ok content) :
    (∀ path content, files[path]? = some content → read path = .ok content) ↔
      ∀ path ∈ files, ∀ other ∈ files, steps path = steps other →
        files[path]? = files[other]? := by
  constructor
  · intro own path here other here' same
    have stored : ∀ path ∈ files, ∀ content, read path = .ok content →
        files[path]? = some content := by
      intro path here content reading
      have entry := Std.ExtTreeMap.getElem?_eq_some_getElem here
      rw [own path _ entry] at reading
      rw [entry, Except.ok.inj reading]
    -- Both paths read what the last one with their steps has.
    obtain ⟨last, content, isLast, there, reading⟩ := reads path here
    obtain ⟨last', content', isLast', there', reading'⟩ := reads other here'
    rw [← same] at isLast'
    rw [isLast'.unique isLast] at there'
    rw [stored path here content reading, stored other here' content' reading', ← there, there']
  · intro agree path content there
    obtain ⟨here, -⟩ := Std.ExtTreeMap.getElem?_eq_some_iff.1 there
    obtain ⟨last, stored, isLast, there', reading⟩ := reads path here
    rw [agree path here last isLast.1.1 isLast.1.2.symm, there'] at there
    rw [reading, Option.some.inj there]

end Snapshot

/-- **Writing a snapshot** where there is no file at the root or below: the files are then those of
the last path at each steps, and every path reads what the last path with its steps has. -/
theorem Destination.writeAll_snapshot {files : Snapshot} (based : t.LeadsTo current root top)
    (empty : ∀ below, t.content? (top ++ below) = none)
    (run : ((folder (fileSystem current) root).writeAll files.toList).run t = (.ok (), t')) :
    (∀ below content, t'.content? (top ++ below) = some content ↔
      ∃ path, files.IsLastAt below path ∧ files[path]? = some content) ∧
    ∀ path ∈ files, ∃ last content, files.IsLastAt (steps path) last ∧
      files[last]? = some content ∧ t'.readFile current (join root path) = .ok content := by
  obtain ⟨contents, -, read⟩ := writeAll_ok (based.mono (writeAll_keepsDirectories run)) run
  have contents : ∀ below, t'.content? (top ++ below) = lastAt below files.toList := by
    intro below
    rw [contents, empty, Option.or_none]
  refine ⟨fun below content => by rw [contents, Snapshot.lastAt_toList_eq_some_iff], ?_⟩
  intro path here
  have mem := Std.ExtTreeMap.mem_toList_iff_getElem?_eq_some.2
    (Std.ExtTreeMap.getElem?_eq_some_getElem here)
  cases stored : lastAt (steps path) files.toList with
  | none => exact absurd rfl (lastAt_eq_none_iff.1 stored _ mem)
  | some content =>
      obtain ⟨last, isLast, there⟩ := Snapshot.exists_isLastAt stored
      exact ⟨last, content, isLast, there,
        (read _ mem).read t' content (fun _ kept => kept) ((contents _).trans stored)⟩

/-! ### Checkouts -/

namespace Controller

/-- **What can be read after a checkout.**  Take a checkout that succeeds, into a directory with no
file in it (which may be missing as long as the one above is there).  The files at the root and
below are then exactly these: at the steps of each path of the snapshot, the content that the
greatest path with these steps has.  That is what reading at each path gives.  So all files are read
back as they are in the snapshot if and only if no two paths with the same steps have different
contents. -/
theorem checkout_reads_back (c : Controller) (repository identifier : String)
    (current : List String) (root : String) {t t' : FileTree} {top : List String}
    {hash : RevisionHash} (based : t.LeadsTo current root top)
    (empty : ∀ below, t.content? (top ++ below) = none)
    (run : (c.checkout (Destination.folder (fileSystem current) root) repository identifier).run t =
      (.ok hash, t')) :
    ∃ files, c.snapshot repository identifier = .ok (hash, files) ∧
      (∀ below content, t'.content? (top ++ below) = some content ↔
        ∃ path, files.IsLastAt below path ∧ files[path]? = some content) ∧
      (∀ path ∈ files, ∃ last content, files.IsLastAt (steps path) last ∧
        files[last]? = some content ∧ t'.readFile current (join root path) = .ok content) ∧
      ((∀ path content, files[path]? = some content →
          t'.readFile current (join root path) = .ok content) ↔
        ∀ path ∈ files, ∀ other ∈ files, steps path = steps other →
          files[path]? = files[other]?) := by
  rw [checkout_run] at run
  split at run
  · next hash' files found =>
      rcases written : ((Destination.folder (fileSystem current) root).writeAll files.toList).run t
        with ⟨e | _, after⟩ <;> rw [written] at run <;> cases run
      obtain ⟨contents, reads⟩ := Destination.writeAll_snapshot based empty written
      exact ⟨files, found, contents, reads, Snapshot.read_own_iff reads⟩
  · cases run

/-- A repository with the two paths `./a` and `a`, which have the same steps. -/
def aliased : Controller :=
  let c := (Controller.withClock (.stepping ⟨0⟩ 1)).createRepository "r" |>.2
  let c := (c.addFile "r" "master" "m" "./a" [1]).2
  (c.addFile "r" "master" "m" "a" [2]).2

/-- A tree with an empty directory `w` and nothing else. -/
def emptyDirectory : FileTree := (∅ : FileTree).insert ["w"] .directory

theorem content?_emptyDirectory (names : List String) : emptyDirectory.content? names = none := by
  unfold content? emptyDirectory
  rw [entry?_insert ∅ (by decide)]
  by_cases here : names = ["w"]
  · rw [if_pos here]
  · rw [if_neg here, entry?]
    by_cases root : names = []
    · rw [if_pos root]
    · rw [if_neg root]
      simp

/-- A checkout of both paths succeeds, and cannot be read back. -/
theorem checkout_reads_back_aliased :
    let checkout :=
      (aliased.checkout (Destination.folder (fileSystem []) "w") "r" "master").run emptyDirectory
    emptyDirectory.LeadsTo [] "w" ["w"] ∧ checkout.1.isOk = true ∧
      ∃ hash files, aliased.snapshot "r" "master" = .ok (hash, files) ∧
        ¬ ∀ path content, files[path]? = some content →
          readFile checkout.2 [] (join "w" path) = .ok content := by
  intro checkout
  have based : emptyDirectory.LeadsTo [] "w" ["w"] := ⟨[], by decide +kernel, by decide +kernel⟩
  obtain ⟨succeeds, stored⟩ : checkout.1.isOk = true ∧
      ((aliased.snapshot "r" "master").map fun snapshot =>
        (snapshot.2["./a"]?, snapshot.2["a"]?)) = .ok (some [1], some [2]) := by decide +kernel
  refine ⟨based, succeeds, ?_⟩
  obtain ⟨hash, success⟩ : ∃ hash, checkout.1 = .ok hash := by
    cases outcome : checkout.1 with
    | ok hash => exact ⟨hash, rfl⟩
    | error e => simp [outcome, Except.isOk, Except.toBool] at succeeds
  have run : checkout = (.ok hash, checkout.2) := Prod.ext success rfl
  obtain ⟨files, found, -, -, all_iff⟩ := checkout_reads_back aliased "r" "master" [] "w" based
    (fun below => content?_emptyDirectory _) run
  rw [found] at stored
  obtain ⟨first, second⟩ : files["./a"]? = some [1] ∧ files["a"]? = some [2] := by
    simpa [Except.map] using stored
  refine ⟨hash, files, found, fun own => ?_⟩
  obtain ⟨here, -⟩ := Std.ExtTreeMap.getElem?_eq_some_iff.1 first
  obtain ⟨here', -⟩ := Std.ExtTreeMap.getElem?_eq_some_iff.1 second
  have agree := all_iff.1 own "./a" here "a" here' (by decide)
  rw [first, second] at agree
  exact absurd agree (by decide)

/-- The file of the first path is overwritten by that of the second, and nothing fails: reading it
back gives what the second path has. -/
theorem checkout_overwrites_alias :
    let checkout :=
      (aliased.checkout (Destination.folder (fileSystem []) "w") "r" "master").run emptyDirectory
    checkout.1 = aliased.resolve "r" "master" ∧ checkout.1.isOk = true ∧
      aliased.fileContent "r" "master" "./a" = .ok (some [1]) ∧
      readFile checkout.2 [] (join "w" "./a") = .ok [2] := by
  decide +kernel

end Controller

end RevisionStore
