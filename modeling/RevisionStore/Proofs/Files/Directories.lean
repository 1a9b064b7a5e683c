/-
**Making the directories on the way to a path.**

Before a file is written, the parent of its path is made with all that is missing above it.  Each of
these paths has some of the steps of the file's path and not all of them.  So a directory that is new
is one that the file's path passes, and this holds whatever there is in the tree, whether or not all
of the directories can be made, and with nothing assumed about where the path begins.  If it begins
with one that leads somewhere, and goes down from there, then all that is new is there and below:
what the path passes before that was there already.

Main definitions:

* `FileTree.Passes` — **a path leads through a directory** before its last step;
* `FileTree.GrowsAlong` — the second tree has more directories that a path passes, and nothing else
  is different;
* `FileTree.GrowsBelow` — the second tree has more directories below an entry, and nothing else is
  different.

Main results:

* `FileTree.createFirst_growsAlong` — making directories above a path, step by step;
* `FileTree.createDirectories_growsAlong` — **what making the parent of a path can change**;
* `FileTree.GrowsAlong.below` — where the path goes down from a root, new directories are there and
  below.
-/

import RevisionStore.Proofs.Files.Tree

set_option autoImplicit false

namespace RevisionStore.FileTree

open RevisionStore.Path (steps isStep)

variable {t t' t'' : FileTree} {top current names : List String} {path dir : String}

/-! ### Growth -/

/-- The second tree has more directories, at `top` or below, and nothing else is different. -/
def GrowsBelow (top : List String) (t t' : FileTree) : Prop :=
  ∀ names, t'.entry? names = t.entry? names ∨
    (top <+: names ∧ t.entry? names = none ∧ t'.entry? names = some .directory)

namespace GrowsBelow

theorem keepsDirectories (grows : GrowsBelow top t t') : KeepsDirectories t t' := by
  intro names there
  rcases grows names with same | ⟨-, -, made⟩
  · exact same.trans there
  · exact made

theorem outside (grows : GrowsBelow top t t') {names : List String} (apart : ¬ top <+: names) :
    t'.entry? names = t.entry? names := by
  rcases grows names with same | ⟨inside, -⟩
  · exact same
  · exact absurd inside apart

end GrowsBelow

/-! ### Passing through a directory -/

/-- The path leads through the directory `names`: some of its steps lead there, the last of them by
its name, but not all. -/
def Passes (t : FileTree) (current : List String) (path : String) (names : List String) : Prop :=
  ∃ above name below, steps path = above ++ [name] ++ below ∧ below ≠ [] ∧ name ≠ ".." ∧
    t.enter (startOf current path) (above ++ [name]) = .ok names

theorem Passes.mono (kept : KeepsDirectories t t') (passes : t.Passes current path names) :
    t'.Passes current path names := by
  obtain ⟨above, name, below, cut, more, not_up, entered⟩ := passes
  exact ⟨above, name, below, cut, more, not_up, enter_mono kept entered⟩

/-- What a path passes on the way to where it leads was there before any other directory. -/
theorem LeadsTo.present {root : String} (based : t.LeadsTo current root top)
    (kept : KeepsDirectories t t') (passes : t'.Passes current root names) :
    t.entry? names = some .directory := by
  obtain ⟨directory, before, -⟩ := based
  obtain ⟨above, name, more, cut, some_more, not_up, entered⟩ := passes
  have here : name ∈ steps root := by simp [cut]
  have step : isStep name = true := Path.isStep_of_mem_steps here
  rw [cut, List.dropLast_append_of_ne_nil some_more] at before
  obtain ⟨middle, reached, -⟩ := enter_append_ok_iff.1 before
  -- In the larger tree the same steps lead to the same directory.
  have there := enter_mono kept reached
  rw [entered] at there
  cases there
  obtain ⟨_, -, one⟩ := enter_append_ok_iff.1 reached
  exact (enter_one_down step not_up one).1

/-- The second tree has more directories that the path passes, and nothing else is different. -/
def GrowsAlong (current : List String) (path : String) (t t' : FileTree) : Prop :=
  ∀ names, t'.entry? names = t.entry? names ∨
    (t.entry? names = none ∧ t'.entry? names = some .directory ∧ t'.Passes current path names)

namespace GrowsAlong

theorem refl (current : List String) (path : String) (t : FileTree) :
    GrowsAlong current path t t := fun _ => .inl rfl

/-- Such growth is growth below the root of the tree. -/
theorem growsBelow (grows : GrowsAlong current path t t') : GrowsBelow [] t t' := by
  intro names
  rcases grows names with same | ⟨absent, made, -⟩
  · exact .inl same
  · exact .inr ⟨List.nil_prefix, absent, made⟩

theorem keepsDirectories (grows : GrowsAlong current path t t') : KeepsDirectories t t' :=
  grows.growsBelow.keepsDirectories

theorem trans (first : GrowsAlong current path t t') (last : GrowsAlong current path t' t'') :
    GrowsAlong current path t t'' := by
  intro names
  rcases first names with same | ⟨absent, made, passes⟩
  · rcases last names with same' | ⟨absent, made, passes⟩
    · exact .inl (same'.trans same)
    · exact .inr ⟨same ▸ absent, made, passes⟩
  · exact .inr ⟨absent, last.keepsDirectories _ made, passes.mono last.keepsDirectories⟩

/-- **Where the path goes down from a root**, the new directories are where the root leads, and
below.  A directory that the path passes before it comes there was there before. -/
theorem below {root : String} {below : List String} (grows : GrowsAlong current path t t')
    (based : t.LeadsTo current root top) (starts : startOf current path = startOf current root)
    (cut : steps path = steps root ++ below) (down : ".." ∉ below) : GrowsBelow top t t' := by
  intro names
  rcases grows names with same | ⟨absent, made, above, name, more, cut', -, not_up, entered⟩
  · exact .inl same
  · refine .inr ⟨?_, absent, made⟩
    have all_steps : ∀ p ∈ above ++ [name] ++ more, isStep p = true := by
      intro p here
      rw [← cut'] at here
      exact Path.isStep_of_mem_steps here
    rw [starts] at entered
    rw [cut] at cut'
    rcases List.append_eq_append_iff.1 cut' with ⟨passed, whole, rest⟩ | ⟨left, whole, rest⟩
    · -- The root has been reached, or passed as well.
      rw [whole] at entered
      have all_down : ∀ p ∈ passed, isStep p = true ∧ p ≠ ".." := by
        intro p here
        refine ⟨all_steps p ?_, ?_⟩
        · rw [whole]
          simp [here]
        · rintro rfl
          exact down (by simp [rest, here])
      rw [(based.mono grows.keepsDirectories).enter_below all_down entered]
      exact List.prefix_append top passed
    · by_cases reached : left = []
      · rw [reached, List.append_nil] at whole
        rw [← whole] at entered
        obtain rfl := (based.mono grows.keepsDirectories).unique (leadsTo_of_enter entered)
        exact List.prefix_refl _
      · -- The root lies further down, and so the directory was there.
        have present := based.present grows.keepsDirectories
          ⟨above, name, left, whole, reached, not_up, entered⟩
        rw [absent] at present
        cases present

end GrowsAlong

/-! ### Running -/

theorem run_bind {σ α β : Type} (first : StateM σ α) (next : α → StateM σ β) (t : σ) :
    (first >>= next).run t = (next (first.run t).1).run (first.run t).2 := rfl

/-- Making the first of some directories: those after it are made only if something is missing. -/
theorem createFirst_run (t : FileTree) (current : List String) (path : String)
    (above : List String) :
    ((fileSystem current).createFirst (path :: above)).run t =
      if path = "" then (.ok (), t)
      else match t.makeDirectory current path with
        | .ok t' => (.ok (), t')
        | .error .notFound =>
          match ((fileSystem current).createFirst above).run t with
          | (.ok (), t') => ((fileSystem current).ensureDirectory path).run t'
          | (.error e, t') => (.error e, t')
        | .error e => (if t.isDirectory current path then .ok () else .error e, t) := by
  have made : ((fileSystem current).makeDirectory path).run t =
      perform (·.makeDirectory current path) t := rfl
  by_cases nothing : path = ""
  · rw [if_pos nothing, FileSystem.createFirst, if_pos nothing]
    rfl
  · rw [if_neg nothing, FileSystem.createFirst, if_neg nothing, run_bind, made, perform]
    cases t.makeDirectory current path with
    | ok t' => rfl
    | error e =>
        cases e with
        | notFound =>
            dsimp only
            rw [run_bind]
            rcases ((fileSystem current).createFirst above).run t with ⟨_ | _, t'⟩ <;> rfl
        | _ => rfl

theorem ensureDirectory_run (t : FileTree) (current : List String) (path : String) :
    ((fileSystem current).ensureDirectory path).run t =
      match t.makeDirectory current path with
      | .ok t' => (.ok (), t')
      | .error e => (if t.isDirectory current path then .ok () else .error e, t) := by
  have made : ((fileSystem current).makeDirectory path).run t =
      perform (·.makeDirectory current path) t := rfl
  rw [FileSystem.ensureDirectory, run_bind, made, perform]
  cases t.makeDirectory current path <;> rfl

/-! ### Directories on the way -/

/-- The directory `dir` lies on the way to `path`, and is not where that ends. -/
def Above (current : List String) (path dir : String) : Prop :=
  startOf current dir = startOf current path ∧ steps dir <+: (steps path).dropLast

theorem makeDirectory_growsAlong (above : Above current path dir)
    (made : t.makeDirectory current dir = .ok t') : GrowsAlong current path t t' := by
  obtain ⟨starts, rest, cut⟩ := above
  obtain ⟨front, name, names, ends, not_up, entered, vacant, changed⟩ := makeDirectory_ok made
  have path_steps : steps path ≠ [] := by
    intro nothing
    simp [nothing, ends] at cut
  have whole : steps path = front ++ [name] ++ (rest ++ [(steps path).getLast path_steps]) := by
    rw [← ends, ← List.append_assoc, cut, List.dropLast_append_getLast]
  intro others
  rw [changed]
  split
  · next same =>
      subst same
      exact .inr ⟨vacant, rfl, front, name, _, whole, by simp, not_up, starts ▸ entered⟩
  · exact .inl rfl

theorem ensureDirectory_growsAlong (above : Above current path dir) (t : FileTree) :
    GrowsAlong current path t (((fileSystem current).ensureDirectory dir).run t).2 := by
  rw [ensureDirectory_run]
  split
  · next made => exact makeDirectory_growsAlong above made
  · exact .refl current path t

/-- Making the first of some directories, those after it being made first where they are needed. -/
theorem createFirst_growsAlong {dirs : List String} (above : ∀ dir ∈ dirs, Above current path dir)
    (t : FileTree) :
    GrowsAlong current path t (((fileSystem current).createFirst dirs).run t).2 := by
  induction dirs generalizing t with
  | nil => exact .refl current path t
  | cons dir dirs ih =>
      obtain ⟨first, others⟩ := List.forall_mem_cons.1 above
      rw [createFirst_run]
      split
      · exact .refl current path t
      · split
        · next made => exact makeDirectory_growsAlong first made
        · have grown := ih others t
          split
          · next made =>
              rw [made] at grown
              exact grown.trans (ensureDirectory_growsAlong first _)
          · next failed =>
              rw [failed] at grown
              exact grown
        · exact .refl current path t

/-- **What making the parent of a path can change**: directories that the path passes, and nothing
else. -/
theorem createDirectories_growsAlong {parent : String} (found : Path.parent? path = some parent)
    (t : FileTree) :
    GrowsAlong current path t (((fileSystem current).createDirectories parent).run t).2 := by
  obtain ⟨absolute, fewer⟩ := Path.parent?_spec found
  refine createFirst_growsAlong (fun dir here => ?_) t
  obtain ⟨absolute', begins⟩ := Path.mem_ancestorsWithin here
  rw [fewer] at begins
  exact ⟨startOf_congr (absolute'.trans absolute), begins⟩

end RevisionStore.FileTree
