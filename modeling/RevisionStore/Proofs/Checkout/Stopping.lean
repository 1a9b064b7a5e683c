/-
**A checkout that fails stops at one file.**

A checkout into a directory writes the files of a snapshot in the order of their paths, and it fails
at the first that is refused.  What it leaves is then known exactly.  The files before that one are
where they belong, of those with the same steps the last; no other file has changed; nothing is gone;
and all that the attempt itself can have done is to make directories that the refused path passes.
The root of the checkout need not lead anywhere beforehand: once a file has been written below it, it
does.

Main definitions:

* `Snapshot.IsLastBefore` — of the paths with given steps, **the last before a path**;
* `Destination.StopsAt` — what a checkout that stops at a path leaves.

Main results:

* `Destination.content?_of_written` — what files leave that were written, wherever the root led
  before;
* `Destination.failed_write` — a write that fails makes directories that its path passes, at most;
* `Controller.failed_checkout_stops` — **where a failing checkout stops, and what it leaves**.
-/

import RevisionStore.Proofs.Checkout.RoundTrip
import RevisionStore.Proofs.TextOrder

set_option autoImplicit false

namespace RevisionStore

open FileTree RevisionStore.Path

variable {t t' : FileTree} {current : List String} {root path : String} {content : Bytes}
  {e : StoreError}

namespace Destination

/-! ### The files before -/

/-- **Files that were written** take no file away, and an entry whose content is another one is where
one of their paths leads. -/
theorem content?_of_written {files : List (String × Bytes)}
    (run : ((folder (fileSystem current) root).writeAll files).run t = (.ok (), t'))
    (names : List String) :
    t'.content? names = t.content? names ∨
      (t'.content? names).isSome ∧
        ∃ file ∈ files, t'.LeadsTo current (join root file.1) names := by
  rcases List.eq_nil_or_concat' files with rfl | ⟨front, last, cut⟩
  · cases run
    exact .inl rfl
  · obtain ⟨top, based⟩ := exists_leadsTo_of_writeAll (by simp [cut] : last ∈ files) run
    obtain ⟨contents, outside, reads⟩ := writeAll_ok based run
    by_cases inside : top <+: names
    · obtain ⟨below, rfl⟩ := inside
      rw [contents]
      cases stored : lastAt below files with
      | none => exact .inl rfl
      | some content =>
          obtain ⟨file, here, rfl⟩ : ∃ file ∈ files, steps file.1 = below := by
            by_contra none_there
            rw [lastAt_eq_none_iff.2 (by simpa using none_there)] at stored
            cases stored
          exact .inr ⟨rfl, file, here, (reads file here).leads⟩
    · exact .inl (outside names inside)

/-! ### The attempt that fails -/

/-- **A write that fails makes directories that its path passes, at most**, and says whether the path
itself was the reason. -/
theorem failed_write
    (run : ((folder (fileSystem current) root).write path content).run t = (.error e, t')) :
    GrowsAlong current (join root path) t t' ∧
      (staysInside path = false → e = .invalidPath path) ∧
      (staysInside path = true → ∃ place cause, e = .checkoutFailed place cause) := by
  cases accepted : staysInside path with
  | false =>
      rw [folder_write_refused accepted] at run
      cases run
      exact ⟨.refl current _ t, fun _ => rfl, nofun⟩
  | true =>
      rcases folder_write_cases current root accepted t content with
        ⟨place, cause, failed⟩ | ⟨t'', -, done⟩
      · rw [failed] at run
        cases run
        exact ⟨onTheWay_growsAlong current root path t, nofun, fun _ => ⟨place, cause, rfl⟩⟩
      · rw [done] at run
        cases run

end Destination

/-! ### Snapshots -/

/-- Of the paths of a snapshot with these steps that come before `stop`, this is the last one.  All
are taken in the order of their bytes. -/
structure Snapshot.IsLastBefore (files : Snapshot) (stop : String) (below : List String)
    (path : String) : Prop where
  mem : path ∈ files
  before : Bytes.ofText path < Bytes.ofText stop
  steps_eq : steps path = below
  greatest : ∀ other ∈ files, Bytes.ofText other < Bytes.ofText stop → steps other = below →
    Bytes.ofText other ≤ Bytes.ofText path

namespace Snapshot

variable {files : Snapshot} {earlier later : List (String × Bytes)} {file : String × Bytes}

/-- The files listed before one are those whose paths come before its path. -/
theorem mem_earlier_iff (cut : files.toList = earlier ++ file :: later) {q : String}
    {stored : Bytes} :
    (q, stored) ∈ earlier ↔
      files[q]? = some stored ∧ Bytes.ofText q < Bytes.ofText file.1 := by
  have sorted := pairwise_lt_toList files
  rw [cut] at sorted
  obtain ⟨-, behind, order⟩ := List.pairwise_append.1 sorted
  rw [← Std.ExtTreeMap.mem_toList_iff_getElem?_eq_some, cut, Bytes.ofText_lt_iff,
    List.mem_append, List.mem_cons]
  constructor
  · intro here
    exact ⟨.inl here, order _ here _ List.mem_cons_self⟩
  · rintro ⟨here | rfl | here, before⟩
    · exact here
    · exact absurd before (lt_irrefl _)
    · exact absurd before ((List.pairwise_cons.1 behind).1 _ here).not_gt

/-- What the files listed before one leave at some steps is what the last path with these steps
has. -/
theorem exists_isLastBefore (cut : files.toList = earlier ++ file :: later) {below : List String}
    (last : Destination.lastAt below earlier = some content) :
    ∃ path, files.IsLastBefore file.1 below path ∧ files[path]? = some content := by
  have sorted := pairwise_lt_toList files
  rw [cut] at sorted
  obtain ⟨path, here, same, greatest⟩ :=
    Destination.exists_greatest_of_lastAt (List.pairwise_append.1 sorted).1 last
  obtain ⟨there, before⟩ := (mem_earlier_iff cut).1 here
  refine ⟨path, ⟨(Std.ExtTreeMap.getElem?_eq_some_iff.1 there).1, before, same, ?_⟩, there⟩
  intro other mem before' at_below
  have entry := Std.ExtTreeMap.getElem?_eq_some_getElem mem
  have listed := (mem_earlier_iff cut).2 ⟨entry, before'⟩
  exact fun smaller => (greatest _ listed at_below).not_gt (Bytes.ofText_lt_iff.1 smaller)

end Snapshot

/-! ### Checkouts -/

/-- What a checkout of some files into the directory `root` leaves that stops at the path `p` with an
error, between the tree before it and the tree after it. -/
structure Destination.StopsAt (current : List String) (root : String) (files : Snapshot)
    (p : String) (t : FileTree) (e : StoreError) (t' : FileTree) : Prop where
  mem : p ∈ files
  /-- The path is the reason where it is empty, begins with a slash or has a step up. -/
  invalid : p = "" ∨ p.toList.head? = some '/' ∨ ".." ∈ pieces p → e = .invalidPath p
  /-- Otherwise the file could not be written. -/
  failed : ¬ (p = "" ∨ p.toList.head? = some '/' ∨ ".." ∈ pieces p) →
    ∃ place cause, e = .checkoutFailed place cause
  /-- A path before `p` reads what the last one before `p` with its steps has. -/
  written : ∀ q ∈ files, Bytes.ofText q < Bytes.ofText p →
    ∃ last content, files.IsLastBefore p (steps q) last ∧ files[last]? = some content ∧
      t'.readFile current (join root q) = .ok content
  /-- Where no path before `p` leads, there is the content that was there, or none as before. -/
  unchanged : ∀ names,
    (∀ q ∈ files, Bytes.ofText q < Bytes.ofText p → ¬ t'.LeadsTo current (join root q) names) →
    t'.content? names = t.content? names
  /-- No directory goes away. -/
  keepsDirectories : KeepsDirectories t t'
  /-- No file goes away. -/
  keepsFiles : ∀ names, (t.content? names).isSome → (t'.content? names).isSome
  /-- When the files before `p` have been written, the attempt at `p` makes directories on the way
  to it, at most. -/
  attempt : ∃ earlier content later middle, files.toList = earlier ++ (p, content) :: later ∧
    ((folder (fileSystem current) root).writeAll earlier).run t = (.ok (), middle) ∧
    ((folder (fileSystem current) root).write p content).run middle = (.error e, t') ∧
    GrowsAlong current (join root p) middle t'

namespace Destination

variable {files : Snapshot} {earlier later : List (String × Bytes)} {file : String × Bytes}
  {middle : FileTree}

/-- Every path before one reads what the last with its steps has, once the files before have been
written and directories on some way have been made. -/
theorem readFile_of_earlier (cut : files.toList = earlier ++ file :: later)
    (written : ((folder (fileSystem current) root).writeAll earlier).run t = (.ok (), middle))
    (grows : GrowsAlong current path middle t') {q : String} (here : q ∈ files)
    (before : Bytes.ofText q < Bytes.ofText file.1) :
    ∃ last content, files.IsLastBefore file.1 (steps q) last ∧ files[last]? = some content ∧
      t'.readFile current (join root q) = .ok content := by
  have entry := Std.ExtTreeMap.getElem?_eq_some_getElem here
  have mem := (Snapshot.mem_earlier_iff cut).2 ⟨entry, before⟩
  obtain ⟨top, based⟩ := exists_leadsTo_of_writeAll mem written
  obtain ⟨contents, -, reads⟩ := writeAll_ok based written
  cases last : lastAt (steps q) earlier with
  | none => exact absurd rfl (lastAt_eq_none_iff.1 last _ mem)
  | some content =>
      obtain ⟨path, isLast, there⟩ := Snapshot.exists_isLastBefore cut last
      refine ⟨path, content, isLast, there, ?_⟩
      refine (reads _ mem).read t' content grows.keepsDirectories ?_
      rw [grows.growsBelow.content?_eq, contents, last, Option.some_or]

/-- Writing a snapshot that fails stops at one of its paths. -/
theorem stopsAt_of_writeAll
    (run : ((folder (fileSystem current) root).writeAll files.toList).run t = (.error e, t')) :
    ∃ p, StopsAt current root files p t e t' := by
  obtain ⟨earlier, ⟨p, content⟩, later, middle, cut, done, refused⟩ :=
    writeAll_eq_error_iff.1 run
  obtain ⟨grows, invalid, failed⟩ := failed_write refused
  have same : ∀ names, t'.content? names = middle.content? names := grows.growsBelow.content?_eq
  refine ⟨p, ?_, fun bad => invalid (staysInside_eq_false_iff.2 bad), fun good => failed ?_,
    fun q here before => readFile_of_earlier cut done grows here before, ?_, ?_, ?_,
    earlier, content, later, middle, cut, done, refused, grows⟩
  · have here : (p, content) ∈ files.toList := by simp [cut]
    rw [Std.ExtTreeMap.mem_toList_iff_getElem?_eq_some] at here
    exact (Std.ExtTreeMap.getElem?_eq_some_iff.1 here).1
  · rwa [← staysInside_eq_false_iff, Bool.not_eq_false] at good
  · intro names nowhere
    rw [same]
    rcases content?_of_written done names with unchanged | ⟨-, ⟨q, stored⟩, mem, leads⟩
    · exact unchanged
    · obtain ⟨there, before⟩ := (Snapshot.mem_earlier_iff cut).1 mem
      have here := (Std.ExtTreeMap.getElem?_eq_some_iff.1 there).1
      exact absurd (leads.mono grows.keepsDirectories) (nowhere q here before)
  · exact fun names there => grows.keepsDirectories names (writeAll_keepsDirectories done names there)
  · intro names there
    rw [same]
    rcases content?_of_written done names with unchanged | ⟨present, -⟩
    · rwa [unchanged]
    · exact present

end Destination

namespace Controller

/-- **Where a failing checkout stops, and what it leaves.**  Whatever the snapshot that an identifier
names, whatever there is in the tree and wherever the root leads in it: if the checkout fails, then
at one path of the snapshot, which is the reason for the error exactly where a directory does not
accept it.  Every path before it, in the order of the paths' bytes, reads the content of the last
such path with the same steps, and every other file has the content that it had.  No directory and
no file has gone, and the attempt at the path itself has made at most directories that it passes. -/
theorem failed_checkout_stops (c : Controller) (repository identifier : String)
    (current : List String) (root : String) {t t' : FileTree} {hash : RevisionHash}
    {files : Snapshot} {e : StoreError}
    (named : c.snapshot repository identifier = .ok (hash, files))
    (run : (c.checkout (Destination.folder (fileSystem current) root) repository identifier).run t =
      (.error e, t')) :
    ∃ p, Destination.StopsAt current root files p t e t' := by
  rw [checkout_run, named] at run
  dsimp only at run
  refine Destination.stopsAt_of_writeAll ?_
  rcases written : ((Destination.folder (fileSystem current) root).writeAll files.toList).run t
    with ⟨e' | _, after⟩ <;> rw [written] at run <;> cases run
  rfl

/-- A repository with two paths that have the same steps, and between them and a last one a path with
a slash at its end. -/
def slashed : Controller :=
  let c := (Controller.withClock (.fixed ⟨0⟩)).createRepository "r" |>.2
  let c := (c.addFile "r" "master" "m" "./a" [1]).2
  let c := (c.addFile "r" "master" "m" "a" [2]).2
  let c := (c.addFile "r" "master" "m" "d/e/" [3]).2
  (c.addFile "r" "master" "m" "z" [4]).2

/-- A tree with a directory `w` and one file in it. -/
def oneFile : FileTree := ((∅ : FileTree).insert ["w"] .directory).insert ["w", "a"] (.file [0])

/-- The checkout of the one into the other. -/
def slashedCheckout : Except StoreError RevisionHash × FileTree :=
  (slashed.checkout (Destination.folder (fileSystem []) "w") "r" "master").run oneFile

theorem slashedCheckout_left :
    (slashed.snapshot "r" "master").isOk = true ∧
      slashedCheckout.1 = .error (.checkoutFailed "w/d/e/" .isADirectory) ∧
      entry? slashedCheckout.2 ["w", "a"] = some (.file [2]) ∧
      entry? slashedCheckout.2 ["w", "d"] = some .directory ∧
      entry? slashedCheckout.2 ["w", "z"] = none := by
  decide +kernel

/-- A path with a slash at its end cannot be a file.  The checkout that stops there has made the
directory above it, has written the two paths before it over the file that was there, and has not
come to the path behind it. -/
theorem failed_checkout_stops_slash :
    (∃ hash files p, slashed.snapshot "r" "master" = .ok (hash, files) ∧
      slashedCheckout.1 = .error (.checkoutFailed "w/d/e/" .isADirectory) ∧
      Destination.StopsAt [] "w" files p oneFile (.checkoutFailed "w/d/e/" .isADirectory)
        slashedCheckout.2) ∧
    entry? slashedCheckout.2 ["w", "a"] = some (.file [2]) ∧
      entry? slashedCheckout.2 ["w", "d"] = some .directory ∧
      entry? slashedCheckout.2 ["w", "z"] = none := by
  obtain ⟨succeeds, failed, left⟩ := slashedCheckout_left
  obtain ⟨⟨hash, files⟩, named⟩ := exists_of_isOk succeeds
  obtain ⟨p, stops⟩ := failed_checkout_stops slashed "r" "master" [] "w" named
    (Prod.fst_eq_iff.1 failed)
  exact ⟨⟨hash, files, p, named, failed, stops⟩, left⟩

end Controller

end RevisionStore
