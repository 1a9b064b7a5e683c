/-
**A checkout into a directory stays there.**

A path is accepted by what it says, piece by piece, but the file is written at the joined path as
it is, and the directories above it are made from its parent.  All three agree on the steps of the
path.  So whatever the paths of a snapshot are, and wherever a checkout stops, the tree has changed
at the root of the checkout and below it only.

Main definitions:

* `FileTree.StaysBelow` — the second tree differs at an entry and below it only, and has kept its
  directories;
* `Destination.onTheWay` — the tree once the directories on the way to a file have been made.

Main results:

* `Destination.folder_write_cases` — all that writing one file can do;
* `Destination.writeAll_eq_error_iff` — writing files fails exactly at one after others that were
  written;
* `Destination.writeAll_staysBelow` — **writing files changes nothing outside**, step by step;
* `Controller.checkout_stays_below_root` — which paths are accepted, and what a checkout leaves
  alone.
-/

import RevisionStore.Checkout
import RevisionStore.Proofs.Files.Directories

set_option autoImplicit false

namespace RevisionStore

open FileTree RevisionStore.Path

variable {t t' t'' : FileTree} {top : List String} {current : List String} {root path : String}
  {content : Bytes}

/-! ### Staying below -/

/-- The second tree is different at `top` and below only, and every directory is still there. -/
structure FileTree.StaysBelow (top : List String) (t t' : FileTree) : Prop where
  kept : KeepsDirectories t t'
  outside : ∀ names, ¬ top <+: names → t'.entry? names = t.entry? names

namespace FileTree.StaysBelow

theorem refl (top : List String) (t : FileTree) : StaysBelow top t t :=
  ⟨fun _ there => there, fun _ _ => rfl⟩

theorem trans (first : StaysBelow top t t') (last : StaysBelow top t' t'') :
    StaysBelow top t t'' :=
  ⟨fun names there => last.kept names (first.kept names there),
    fun names apart => (last.outside names apart).trans (first.outside names apart)⟩

end FileTree.StaysBelow

theorem FileTree.GrowsBelow.staysBelow (grows : GrowsBelow top t t') : StaysBelow top t t' :=
  ⟨grows.keepsDirectories, fun _ apart => grows.outside apart⟩

namespace Destination

/-! ### One file -/

/-- The tree once the directories on the way to a file have been made, as far as they can be. -/
def onTheWay (current : List String) (root path : String) (t : FileTree) : FileTree :=
  match parent? (join root path) with
  | some above => (((fileSystem current).createDirectories above).run t).2
  | none => t

/-- A path that could leave is refused at once. -/
theorem folder_write_refused (refused : staysInside path = false) (t : FileTree)
    (content : Bytes) :
    ((folder (fileSystem current) root).write path content).run t =
      (.error (.invalidPath path), t) := by
  simp only [folder, refused]
  rfl

/-- The file itself, with the error put into words: it is written, or everything stays as it is. -/
theorem writeFile_cases (current : List String) (path : String) (content : Bytes) (t : FileTree) :
    (∃ above e, StateT.run (m := Id) (do
        let written ← (fileSystem current).writeFile path content
        pure (written.mapError (StoreError.checkoutFailed path))) t =
          (.error (.checkoutFailed above e), t)) ∨
      ∃ t', t.writeFile current path content = .ok t' ∧
        StateT.run (m := Id) (do
          let written ← (fileSystem current).writeFile path content
          pure (written.mapError (StoreError.checkoutFailed path))) t = (.ok (), t') := by
  have run : ((fileSystem current).writeFile path content).run t =
      perform (·.writeFile current path content) t := rfl
  rw [run_bind, run, perform]
  cases t.writeFile current path content with
  | ok t' => exact .inr ⟨t', rfl, rfl⟩
  | error e => exact .inl ⟨path, e, rfl⟩

/-- **All that writing a file can do** at any other path: the directories on the way are made, and
if all goes well the file is written. -/
theorem folder_write_cases (current : List String) (root : String)
    (accepted : staysInside path = true) (t : FileTree) (content : Bytes) :
    (∃ above e, ((folder (fileSystem current) root).write path content).run t =
        (.error (.checkoutFailed above e), onTheWay current root path t)) ∨
      ∃ t', (onTheWay current root path t).writeFile current (join root path) content = .ok t' ∧
        ((folder (fileSystem current) root).write path content).run t = (.ok (), t') := by
  unfold onTheWay
  simp only [folder, accepted, Bool.not_true, Bool.false_eq_true, if_false]
  cases parent? (join root path) with
  | none => exact writeFile_cases current (join root path) content t
  | some above =>
      dsimp only
      rw [run_bind]
      rcases ((fileSystem current).createDirectories above).run t with ⟨e | _, middle⟩
      · exact .inl ⟨above, e, rfl⟩
      · exact writeFile_cases current (join root path) content middle

/-! ### Where the file is -/

/-- The steps of an accepted path go down. -/
theorem steps_down (accepted : staysInside path = true) :
    isAbsolute path = false ∧ ".." ∉ steps path := by
  obtain ⟨-, relative, down⟩ := staysInside_iff.1 accepted
  rw [ne_eq, ← isAbsolute_iff, Bool.not_eq_true] at relative
  exact ⟨relative, fun up => down (List.mem_of_mem_filter up)⟩

/-- The directories that are made on the way to a file are passed by its path. -/
theorem onTheWay_growsAlong (current : List String) (root path : String) (t : FileTree) :
    GrowsAlong current (join root path) t (onTheWay current root path t) := by
  unfold onTheWay
  split
  · next parent => exact createDirectories_growsAlong parent t
  · exact .refl current _ t

/-- So they are made below the root. -/
theorem onTheWay_growsBelow (based : t.LeadsTo current root top)
    (accepted : staysInside path = true) : GrowsBelow top t (onTheWay current root path t) := by
  obtain ⟨relative, down⟩ := steps_down accepted
  exact (onTheWay_growsAlong current root path t).below based
    (startOf_congr (isAbsolute_join relative)) (steps_join relative) down

/-- A file at an accepted path is below the root, at the steps of the path. -/
theorem leadsTo_join (based : t.LeadsTo current root top) (accepted : staysInside path = true)
    {names : List String} (leads : t.LeadsTo current (join root path) names) :
    names = top ++ steps path := by
  obtain ⟨relative, down⟩ := steps_down accepted
  exact based.below (startOf_congr (isAbsolute_join relative)) (steps_join relative) down leads

/-- **What a file that was written has changed** in the tree with the directories on the way. -/
theorem writeFile_join (based : t.LeadsTo current root top) (accepted : staysInside path = true)
    (written : t.writeFile current (join root path) content = .ok t') :
    t.LeadsTo current (join root path) (top ++ steps path) ∧
      t.entry? (top ++ steps path) ≠ some .directory ∧
      ∀ names, t'.entry? names =
        if names = top ++ steps path then some (.file content) else t.entry? names := by
  obtain ⟨directory, name, names, found, short, vacant, rfl⟩ := writeFile_ok written
  obtain ⟨rfl, -⟩ := namesOf_ok short
  have leads := (endsIn_of_locate found).leadsTo
  have here := leadsTo_join based accepted leads
  have below_root : top ++ steps path ≠ [] := by
    rw [← here]
    simp
  rw [here] at leads vacant ⊢
  exact ⟨leads, vacant, entry?_insert t below_root _⟩

theorem writeFile_staysBelow (based : t.LeadsTo current root top)
    (accepted : staysInside path = true)
    (written : t.writeFile current (join root path) content = .ok t') : StaysBelow top t t' := by
  obtain ⟨-, no_directory, changed⟩ := writeFile_join based accepted written
  constructor
  · intro names there
    rw [changed, if_neg, there]
    rintro rfl
    exact no_directory there
  · intro names apart
    rw [changed, if_neg]
    rintro rfl
    exact apart (List.prefix_append top _)

/-- **Writing one file changes nothing outside**, whether or not it succeeds. -/
theorem write_staysBelow (based : t.LeadsTo current root top) (path : String) (content : Bytes) :
    StaysBelow top t (((folder (fileSystem current) root).write path content).run t).2 := by
  cases accepted : staysInside path with
  | false =>
      rw [folder_write_refused accepted]
      exact .refl top t
  | true =>
      have grows := onTheWay_growsBelow based accepted
      rcases folder_write_cases current root accepted t content with
        ⟨above, e, run⟩ | ⟨t', written, run⟩
      · rw [run]
        exact grows.staysBelow
      · rw [run]
        exact grows.staysBelow.trans
          (writeFile_staysBelow (based.mono grows.keepsDirectories) accepted written)

/-- The path of a file is the reason to refuse it exactly where it could leave. -/
theorem folder_write_invalidPath_iff (t : FileTree) (path : String) (content : Bytes) :
    (((folder (fileSystem current) root).write path content).run t).1 = .error (.invalidPath path) ↔
      staysInside path = false := by
  cases accepted : staysInside path with
  | false => simp [folder_write_refused accepted]
  | true =>
      rcases folder_write_cases current root accepted t content with
        ⟨above, e, run⟩ | ⟨t', -, run⟩ <;> simp [run]

/-! ### All files -/

/-- Writing several files: the first, and then the others if it is written. -/
theorem writeAll_cons_run {σ : Type} (destination : Destination (StateM σ)) (path : String)
    (content : Bytes) (rest : List (String × Bytes)) (t : σ) :
    (destination.writeAll ((path, content) :: rest)).run t =
      match (destination.write path content).run t with
      | (.ok (), t') => (destination.writeAll rest).run t'
      | (.error e, t') => (.error e, t') := by
  rw [writeAll, run_bind]
  rcases (destination.write path content).run t with ⟨_ | _, t'⟩ <;> rfl

/-- **Writing files fails exactly at one after others that were written**, and the files behind it
are not tried. -/
theorem writeAll_eq_error_iff {σ : Type} {destination : Destination (StateM σ)}
    {files : List (String × Bytes)} {place place' : σ} {e : StoreError} :
    (destination.writeAll files).run place = (.error e, place') ↔
      ∃ earlier file later middle, files = earlier ++ file :: later ∧
        (destination.writeAll earlier).run place = (.ok (), middle) ∧
        (destination.write file.1 file.2).run middle = (.error e, place') := by
  induction files generalizing place with
  | nil =>
      refine iff_of_false (fun failed => by cases failed) ?_
      rintro ⟨earlier, file, later, middle, cut, -⟩
      simp at cut
  | cons first rest ih =>
      obtain ⟨path, content⟩ := first
      rw [writeAll_cons_run]
      constructor
      · intro failed
        split at failed
        · next middle written =>
            obtain ⟨earlier, file, later, middle', rfl, done, refused⟩ := ih.1 failed
            refine ⟨(path, content) :: earlier, file, later, middle', rfl, ?_, refused⟩
            rw [writeAll_cons_run, written]
            exact done
        · next e' middle refused =>
            cases failed
            exact ⟨[], (path, content), rest, place, rfl, rfl, refused⟩
      · rintro ⟨earlier, file, later, middle, cut, done, refused⟩
        cases earlier with
        | nil =>
            cases cut
            cases done
            rw [refused]
        | cons first earlier =>
            obtain ⟨rfl, rfl⟩ := List.cons.inj cut
            rw [writeAll_cons_run] at done
            split at done
            · next middle' written =>
                exact ih.2 ⟨earlier, file, later, middle, rfl, done, refused⟩
            · cases done

/-- **Writing files changes nothing outside**, wherever it stops. -/
theorem writeAll_staysBelow (files : List (String × Bytes)) (based : t.LeadsTo current root top) :
    StaysBelow top t (((folder (fileSystem current) root).writeAll files).run t).2 := by
  induction files generalizing t with
  | nil => exact .refl top t
  | cons file rest ih =>
      obtain ⟨path, content⟩ := file
      have one := write_staysBelow based path content
      rw [writeAll_cons_run]
      split
      · next t' written =>
          rw [written] at one
          exact one.trans (ih (based.mono one.kept))
      · next e t' failed =>
          rw [failed] at one
          exact one

end Destination

/-! ### Checkouts -/

namespace Controller

/-- A checkout writes the files of the snapshot, and nothing if there is none. -/
theorem checkout_run {σ : Type} (c : Controller) (destination : Destination (StateM σ))
    (repository identifier : String) (t : σ) :
    (c.checkout destination repository identifier).run t =
      match c.snapshot repository identifier with
      | .ok (hash, files) =>
        (((destination.writeAll files.toList).run t).1.map fun _ => hash,
          ((destination.writeAll files.toList).run t).2)
      | .error e => (.error e, t) := by
  unfold checkout
  cases c.snapshot repository identifier <;> rfl

/-- **Which paths a directory accepts, and what a checkout into it leaves alone.**  A path is
accepted unless it is empty, begins with a slash, or has a step up among its pieces; it is refused
for nothing else.  And if the directory above the root of the checkout is there, then whatever the
snapshot is, and whether or not the checkout succeeds, every entry that is neither the root nor
below it stays as it was. -/
theorem checkout_stays_below_root (current : List String) (root : String) {t : FileTree}
    {top : List String} (based : t.LeadsTo current root top) :
    (∀ path,
      (staysInside path = true ↔
        path ≠ "" ∧ path.toList.head? ≠ some '/' ∧ ".." ∉ pieces path) ∧
      ∀ content t',
        (((Destination.folder (fileSystem current) root).write path content).run t').1 =
            .error (.invalidPath path) ↔ staysInside path = false) ∧
    ∀ (c : Controller) (repository identifier : String) (names : List String), ¬ top <+: names →
      entry? ((c.checkout (Destination.folder (fileSystem current) root) repository identifier).run
        t).2 names = t.entry? names := by
  refine ⟨fun path => ⟨staysInside_iff, fun content t' =>
    Destination.folder_write_invalidPath_iff t' path content⟩, ?_⟩
  intro c repository identifier names apart
  rw [checkout_run]
  split
  · next hash files _ =>
      exact (Destination.writeAll_staysBelow files.toList based).outside names apart
  · rfl

/-- A checkout that stops at a path with steps up has written a file, and made its directory, but
has left the file alone that the path would lead to. -/
theorem checkout_stays_below_root_stepUp :
    let c := (Controller.withClock (.stepping ⟨0⟩ 1)).createRepository "r" |>.2
    let c := (c.addFile "r" "master" "m" "a" [1]).2
    let c := (c.addFile "r" "master" "m" "b/../../keep" [2]).2
    let t : FileTree := (∅ : FileTree).insert ["keep"] (.file [3])
    let checkout := (c.checkout (Destination.folder (fileSystem []) "out") "r" "master").run t
    t.LeadsTo [] "out" ["out"] ∧ checkout.1 = .error (.invalidPath "b/../../keep") ∧
      entry? checkout.2 ["out", "a"] = some (.file [1]) ∧
      entry? checkout.2 ["keep"] = some (.file [3]) := by
  intro c₀ c₁ c t checkout
  have based : t.LeadsTo [] "out" ["out"] := ⟨[], by decide +kernel, by decide +kernel⟩
  have stops : checkout.1 = .error (.invalidPath "b/../../keep") ∧
      entry? checkout.2 ["out", "a"] = some (.file [1]) := by decide +kernel
  have kept := (checkout_stays_below_root [] "out" based).2 c "r" "master" ["keep"] (by decide)
  exact ⟨based, stops.1, stops.2, kept.trans (by decide +kernel)⟩

end Controller

end RevisionStore
