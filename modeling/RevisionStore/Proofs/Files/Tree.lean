/-
**What the operations on a tree of files do, and what they leave alone.**

Where a path ends depends on its steps: all but the last have to lead through directories, and the
last one names an entry of the directory that they end in.  An operation that succeeds puts one entry
there and leaves all others alone; one that fails leaves the tree as it is.  Directories, once there,
stay, so that what a path leads to does not change while a tree grows.

Main definitions:

* `FileTree.LeadsTo` — **the entry that a path leads to**, whether or not there is one;
* `FileTree.EndsIn` — the path ends in a name, of this directory;
* `FileTree.KeepsDirectories` — the directories of one tree are directories of another one.

Main results:

* `FileTree.LeadsTo.below` — **a path below a root leads below what the root leads to**;
* `FileTree.makeDirectory_ok`, `FileTree.writeFile_ok` — the one entry that an operation puts in
  place;
* `FileTree.readFile_of_writeFile` — a file that was written is read by the same path.
-/

import RevisionStore.Files.Tree
import RevisionStore.Proofs.Files.Path

set_option autoImplicit false

namespace RevisionStore

open RevisionStore.Path (steps isStep)

namespace FileTree

variable {t t' : FileTree} {current : List String}

/-! ### Walking -/

/-- A walk goes on from where its first piece leads. -/
theorem enter_cons_ok_iff (p : String) (ps : List String) {names directory : List String} :
    t.enter names (p :: ps) = .ok directory ↔
      ∃ middle, t.enter names [p] = .ok middle ∧ t.enter middle ps = .ok directory := by
  simp only [enter]
  split
  · simp
  · split
    · simp
    · split
      · simp
      · split <;> simp

/-- **Where one piece leads**: a step up to the directory above, any other step to a directory of
that name, and filling nowhere. -/
theorem enter_one_ok_iff {names directory : List String} {p : String} :
    t.enter names [p] = .ok directory ↔
      (isStep p = false ∧ directory = names) ∨
        (p = ".." ∧ directory = names.dropLast) ∨
        (isStep p = true ∧ p ≠ ".." ∧ p.utf8ByteSize ≤ longestName ∧
          t.entry? (names ++ [p]) = some .directory ∧ directory = names ++ [p]) := by
  have up_is_step : isStep ".." = true := by decide
  by_cases filling : isStep p = false
  · have not_up : p ≠ ".." := by
      rintro rfl
      exact Bool.false_ne_true (filling.symm.trans up_is_step)
    have filler : Path.isFiller p = true := by simpa [isStep] using filling
    simp [enter, filler, filling, not_up, eq_comm (a := names)]
  · have step : isStep p = true := by simpa using filling
    have no_filler : Path.isFiller p = false := by simpa [isStep] using step
    by_cases up : p = ".."
    · subst up
      simp [enter, no_filler, up_is_step, eq_comm (a := names.dropLast)]
    · by_cases long : longestName < p.utf8ByteSize
      · simp [enter, no_filler, step, up, long, Nat.not_le.2 long]
      · cases there : t.entry? (names ++ [p]) with
        | none => simp [enter, no_filler, step, up, long, there]
        | some entry =>
            cases entry with
            | file content => simp [enter, no_filler, step, up, long, there]
            | directory =>
                simp [enter, no_filler, step, up, long, Nat.not_lt.1 long, there,
                  eq_comm (a := names ++ [p])]

/-- A step that is not one up leads to a directory of that name. -/
theorem enter_one_down {names directory : List String} {p : String} (step : isStep p = true)
    (not_up : p ≠ "..") (entered : t.enter names [p] = .ok directory) :
    t.entry? directory = some .directory ∧ directory = names ++ [p] := by
  rcases enter_one_ok_iff.1 entered with ⟨filling, -⟩ | ⟨up, -⟩ | ⟨-, -, -, there, rfl⟩
  · exact absurd (filling.symm.trans step) Bool.false_ne_true
  · exact absurd up not_up
  · exact ⟨there, rfl⟩

/-- A walk can be cut in two. -/
theorem enter_append_ok_iff {names ps qs directory : List String} :
    t.enter names (ps ++ qs) = .ok directory ↔
      ∃ middle, t.enter names ps = .ok middle ∧ t.enter middle qs = .ok directory := by
  induction ps generalizing names with
  | nil => simp [enter]
  | cons p ps ih =>
      rw [List.cons_append, enter_cons_ok_iff]
      simp only [ih, enter_cons_ok_iff p ps]
      constructor
      · rintro ⟨first, one, middle, before, after⟩
        exact ⟨middle, ⟨first, one, before⟩, after⟩
      · rintro ⟨middle, ⟨first, one, before⟩, after⟩
        exact ⟨first, one, middle, before, after⟩

/-- Filling leads nowhere. -/
theorem enter_filter_ok_iff {names ps directory : List String} :
    t.enter names (ps.filter isStep) = .ok directory ↔ t.enter names ps = .ok directory := by
  induction ps generalizing names with
  | nil => rfl
  | cons p ps ih =>
      rw [enter_cons_ok_iff]
      by_cases step : isStep p = true
      · rw [List.filter_cons_of_pos step, enter_cons_ok_iff]
        simp only [ih]
      · have stays : t.enter names [p] = .ok names :=
          enter_one_ok_iff.2 (.inl ⟨Bool.eq_false_iff.2 step, rfl⟩)
        rw [List.filter_cons_of_neg step, ih, stays]
        simp

/-- A walk down is an extension of where it begins. -/
theorem enter_of_downward {names ps directory : List String}
    (down : ∀ p ∈ ps, isStep p = true ∧ p ≠ "..") (entered : t.enter names ps = .ok directory) :
    directory = names ++ ps := by
  induction ps generalizing names with
  | nil =>
      cases entered
      exact (List.append_nil _).symm
  | cons p ps ih =>
      obtain ⟨step, not_up⟩ := down p List.mem_cons_self
      obtain ⟨middle, one, rest⟩ := (enter_cons_ok_iff p ps).1 entered
      obtain ⟨-, rfl⟩ := enter_one_down step not_up one
      rw [ih (fun q here => down q (List.mem_cons_of_mem _ here)) rest, List.append_assoc]
      rfl

/-- The directories of `t` are directories of `t'`. -/
def KeepsDirectories (t t' : FileTree) : Prop :=
  ∀ names, t.entry? names = some .directory → t'.entry? names = some .directory

/-- A walk leads to the same directory as long as no directory goes away. -/
theorem enter_mono (kept : KeepsDirectories t t') {names ps directory : List String}
    (entered : t.enter names ps = .ok directory) : t'.enter names ps = .ok directory := by
  induction ps generalizing names with
  | nil => exact entered
  | cons p ps ih =>
      obtain ⟨middle, one, rest⟩ := (enter_cons_ok_iff p ps).1 entered
      refine (enter_cons_ok_iff p ps).2 ⟨middle, ?_, ih rest⟩
      rcases enter_one_ok_iff.1 one with filling | up | ⟨step, not_up, short, there, same⟩
      · exact enter_one_ok_iff.2 (.inl filling)
      · exact enter_one_ok_iff.2 (.inr (.inl up))
      · exact enter_one_ok_iff.2 (.inr (.inr ⟨step, not_up, short, kept _ there, same⟩))

/-! ### Where a path leads -/

/-- The directory that a path is taken from. -/
def startOf (current : List String) (path : String) : List String :=
  if Path.isAbsolute path then [] else current

theorem startOf_congr {path path' : String} (same : Path.isAbsolute path = Path.isAbsolute path') :
    startOf current path = startOf current path' := by
  rw [startOf, same, startOf]

/-- The entry that one more step leads to, if there is one more. -/
def follow (directory : List String) : Option String → List String
  | none => directory
  | some step => if step = ".." then directory.dropLast else directory ++ [step]

/-- The path leads to the entry `names`: all its steps but the last lead through directories that
are there, and the last one names the entry, which need not be there. -/
def LeadsTo (t : FileTree) (current : List String) (path : String) (names : List String) : Prop :=
  ∃ directory, t.enter (startOf current path) (steps path).dropLast = .ok directory ∧
    names = follow directory (steps path).getLast?

variable {path : String} {names : List String}

/-- A path leads to one entry only. -/
theorem LeadsTo.unique {others : List String} (leads : t.LeadsTo current path names)
    (leads' : t.LeadsTo current path others) : names = others := by
  obtain ⟨directory, entered, rfl⟩ := leads
  obtain ⟨directory', entered', rfl⟩ := leads'
  rw [entered] at entered'
  cases entered'
  rfl

theorem LeadsTo.mono (kept : KeepsDirectories t t') (leads : t.LeadsTo current path names) :
    t'.LeadsTo current path names := by
  obtain ⟨directory, entered, rfl⟩ := leads
  exact ⟨directory, enter_mono kept entered, rfl⟩

/-- Two paths lead to the same if they begin at the same directory and have the same steps. -/
theorem LeadsTo.congr {root : String} (leads : t.LeadsTo current root names)
    (starts : startOf current path = startOf current root) (same : steps path = steps root) :
    t.LeadsTo current path names := by
  unfold LeadsTo at leads ⊢
  rwa [starts, same]

/-- A path whose steps all lead through directories leads to the directory that they end in. -/
theorem leadsTo_of_enter (entered : t.enter (startOf current path) (steps path) = .ok names) :
    t.LeadsTo current path names := by
  rcases List.eq_nil_or_concat' (steps path) with nothing | ⟨above, last, cut⟩
  · rw [nothing] at entered
    exact ⟨names, by rwa [nothing], by rw [nothing]; rfl⟩
  · have here : last ∈ steps path := by simp [cut]
    rw [cut] at entered
    obtain ⟨directory, before, one⟩ := enter_append_ok_iff.1 entered
    refine ⟨directory, by simpa [cut] using before, ?_⟩
    rw [cut, List.getLast?_concat, follow]
    rcases enter_one_ok_iff.1 one with ⟨filling, -⟩ | ⟨up, rfl⟩ | ⟨-, not_up, -, -, rfl⟩
    · exact absurd (filling.symm.trans (Path.isStep_of_mem_steps here)) Bool.false_ne_true
    · rw [if_pos up]
    · rw [if_neg not_up]

/-- A walk down from a root ends below what the root leads to. -/
theorem LeadsTo.enter_below {root : String} {top below : List String}
    (based : t.LeadsTo current root top) (down : ∀ p ∈ below, isStep p = true ∧ p ≠ "..")
    (entered : t.enter (startOf current root) (steps root ++ below) = .ok names) :
    names = top ++ below := by
  obtain ⟨middle, before, after⟩ := enter_append_ok_iff.1 entered
  rw [based.unique (leadsTo_of_enter before)]
  exact enter_of_downward down after

/-- **A path below a root leads below what the root leads to.** -/
theorem LeadsTo.below {root : String} {top below : List String}
    (based : t.LeadsTo current root top) (starts : startOf current path = startOf current root)
    (cut : steps path = steps root ++ below) (down : ".." ∉ below)
    (leads : t.LeadsTo current path names) : names = top ++ below := by
  rcases List.eq_nil_or_concat' below with rfl | ⟨above, last, rfl⟩
  · rw [List.append_nil] at cut ⊢
    exact leads.unique (based.congr starts cut)
  · obtain ⟨directory, entered, rfl⟩ := leads
    have inner : (steps path).dropLast = steps root ++ above := by
      rw [cut, ← List.append_assoc, List.dropLast_concat]
    rw [inner, starts] at entered
    have all_down : ∀ p ∈ above, isStep p = true ∧ p ≠ ".." := by
      intro p here
      have on_the_way : p ∈ steps path := by simp [cut, here]
      refine ⟨Path.isStep_of_mem_steps on_the_way, ?_⟩
      rintro rfl
      exact down (List.mem_append_left _ here)
    have not_up : last ≠ ".." := by
      rintro rfl
      exact down (by simp)
    rw [based.enter_below all_down entered, cut, ← List.append_assoc, List.getLast?_concat, follow,
      if_neg not_up, List.append_assoc]

/-! ### Where a path ends -/

/-- The path ends in a name of the directory `directory`, whether or not something is there. -/
def EndsIn (t : FileTree) (current : List String) (path : String) (directory : List String)
    (name : String) : Prop :=
  ∃ above, steps path = above ++ [name] ∧ name ≠ ".." ∧
    t.enter (startOf current path) above = .ok directory

theorem EndsIn.leadsTo {directory : List String} {name : String}
    (ends : t.EndsIn current path directory name) :
    t.LeadsTo current path (directory ++ [name]) := by
  obtain ⟨above, cut, not_up, entered⟩ := ends
  refine ⟨directory, by rwa [cut, List.dropLast_concat], ?_⟩
  rw [cut, List.getLast?_concat, follow, if_neg not_up]

/-- The pieces of a path without the slashes at its end. -/
def body (path : String) : List String := (Path.pieces path).rdropWhile (· = "")

/-- The slashes at the end are no steps. -/
theorem filter_body (path : String) : (body path).filter isStep = steps path := by
  rw [steps, body]
  generalize Path.pieces path = ps
  induction ps using List.reverseRecOn with
  | nil => rfl
  | append_singleton ps p ih =>
      rw [List.rdropWhile_concat]
      split
      · next empty =>
          obtain rfl : p = "" := by simpa using empty
          rw [ih, List.filter_append, List.filter_cons_of_neg (by decide)]
          exact (List.append_nil _).symm
      · rfl

/-- Why a path is not followed at all. -/
def refusal? (path : String) : Option FileError :=
  if path.toList.contains '\x00' then some .nulInName
  else if path = "" then some .notFound
  else if longestPath < path.utf8ByteSize then some .nameTooLong
  else none

/-- Where a path ends whose last piece is found in a directory. -/
def placeIn (directory : List String) (path last : String) : Place :=
  if last = "." then .directory directory
  else if last = ".." then .directory directory.dropLast
  else .name directory last ((body path).length < (Path.pieces path).length)

/-- **Following a path**: after the checks all pieces but the last are entered. -/
theorem locate_eq (t : FileTree) (current : List String) (path : String) :
    t.locate current path =
      match refusal? path, (body path).getLast? with
      | some e, _ => .error e
      | none, none => .ok (.directory (startOf current path))
      | none, some last =>
        (t.enter (startOf current path) (body path).dropLast).map (placeIn · path last) := by
  have cut : ((Path.pieces path).reverse.dropWhile (· = "")).reverse = body path := rfl
  simp only [locate, refusal?, bind, Except.bind, throw, throwThe, MonadExceptOf.throw, pure,
    Except.pure, cut, startOf]
  split
  · rfl
  · split
    · rfl
    · split
      · rfl
      · cases (body path).getLast? with
        | none => rfl
        | some last =>
            dsimp only
            split
            · next failed => rw [failed]; rfl
            · next directory entered =>
                rw [entered, Except.map, placeIn]
                split
                · rfl
                · split <;> rfl

/-- A path is followed to the same place as long as no directory goes away. -/
theorem locate_mono (kept : KeepsDirectories t t') {place : Place}
    (found : t.locate current path = .ok place) : t'.locate current path = .ok place := by
  rw [locate_eq] at found ⊢
  cases refused : refusal? path with
  | some e => simp [refused] at found
  | none =>
      cases ends : (body path).getLast? with
      | none => simpa [refused, ends] using found
      | some last =>
          rw [refused, ends] at found
          cases entered : t.enter (startOf current path) (body path).dropLast with
          | error e => simp [entered, Except.map] at found
          | ok directory =>
              dsimp only at found ⊢
              rwa [enter_mono kept entered, ← entered]

theorem placeIn_eq_name {middle directory : List String} {last name : String} {slash : Bool}
    (place : placeIn middle path last = .name directory name slash) :
    last ≠ "." ∧ last ≠ ".." ∧ middle = directory ∧ last = name := by
  unfold placeIn at place
  split at place
  · cases place
  · split at place
    · cases place
    · next no_dot not_up =>
        cases place
        exact ⟨no_dot, not_up, rfl, rfl⟩

/-- The last piece of a body is the last step, unless it is a dot. -/
theorem steps_of_body {last : String} (ends : (body path).getLast? = some last)
    (no_dot : last ≠ ".") : steps path = (body path).dropLast.filter isStep ++ [last] := by
  obtain ⟨above, cut⟩ := List.getLast?_eq_some_iff.1 ends
  have some_text : last ≠ "" := by
    have some_piece : body path ≠ [] := by simp [cut]
    have kept : ¬decide ((body path).getLast some_piece = "") = true :=
      List.rdropWhile_last_not (· = "") (Path.pieces path) some_piece
    simpa [cut] using kept
  have step : isStep last = true := by simp [isStep, Path.isFiller, some_text, no_dot]
  rw [← filter_body, cut, List.dropLast_concat, List.filter_append, List.filter_cons_of_pos step,
    List.filter_nil]

/-- A path that is followed to a name ends in it. -/
theorem endsIn_of_locate {directory : List String} {name : String} {slash : Bool}
    (found : t.locate current path = .ok (.name directory name slash)) :
    t.EndsIn current path directory name := by
  rw [locate_eq] at found
  split at found
  · cases found
  · cases found
  · next last _ ends =>
      cases entered : t.enter (startOf current path) (body path).dropLast with
      | error e => simp [entered, Except.map] at found
      | ok middle =>
          simp only [entered, Except.map, Except.ok.injEq] at found
          obtain ⟨no_dot, not_up, rfl, rfl⟩ := placeIn_eq_name found
          exact ⟨_, steps_of_body ends no_dot, not_up, enter_filter_ok_iff.2 entered⟩

/-! ### Operations -/

/-- After an entry was put somewhere, it is there and everything else is as before. -/
theorem entry?_insert (t : FileTree) {names : List String} (below_root : names ≠ [])
    (entry : Entry) (others : List String) :
    entry? (t.insert names entry) others =
      if others = names then some entry else t.entry? others := by
  unfold entry?
  by_cases same : others = names
  · subst same
    rw [if_neg below_root, if_pos rfl, Std.ExtTreeMap.getElem?_insert_self]
  · rw [if_neg same]
    by_cases root : others = []
    · rw [if_pos root, if_pos root]
    · have apart : compare names others ≠ .eq := by
        rw [ne_eq, Std.LawfulEqCmp.compare_eq_iff_eq]
        exact fun h => same h.symm
      rw [if_neg root, if_neg root, Std.ExtTreeMap.getElem?_insert, if_neg apart]

theorem namesOf_ok {directory names : List String} {name : String}
    (found : namesOf directory name = .ok names) :
    names = directory ++ [name] ∧ name.utf8ByteSize ≤ longestName := by
  unfold namesOf at found
  split at found
  · cases found
  · next fits => exact ⟨(Except.ok.inj found).symm, Nat.not_lt.1 fits⟩

/-- **A directory that was made** is where all steps of the path lead, the last one by its name, and
it is the only new entry. -/
theorem makeDirectory_ok (made : t.makeDirectory current path = .ok t') :
    ∃ above name names, steps path = above ++ [name] ∧ name ≠ ".." ∧
      t'.enter (startOf current path) (above ++ [name]) = .ok names ∧ t.entry? names = none ∧
      ∀ others, t'.entry? others = if others = names then some .directory else t.entry? others := by
  obtain ⟨place, found, made⟩ := bind_eq_ok_iff.1 made
  cases place with
  | directory names => cases made
  | name directory name slash =>
      obtain ⟨names, short, made⟩ := bind_eq_ok_iff.1 made
      obtain ⟨rfl, allowed⟩ := namesOf_ok short
      cases there : t.entry? (directory ++ [name]) with
      | some entry =>
          rw [there] at made
          cases made
      | none =>
          rw [there] at made
          cases made
          have changed := entry?_insert t (by simp : directory ++ [name] ≠ []) .directory
          have kept : KeepsDirectories t (t.insert (directory ++ [name]) .directory) := by
            intro others here
            rw [changed, if_neg, here]
            rintro rfl
            rw [there] at here
            cases here
          obtain ⟨above, cut, not_up, entered⟩ := endsIn_of_locate found
          have here : name ∈ steps path := by simp [cut]
          have step : isStep name = true := Path.isStep_of_mem_steps here
          refine ⟨above, name, _, cut, not_up, ?_, there, changed⟩
          refine enter_append_ok_iff.2 ⟨directory, enter_mono kept entered, ?_⟩
          exact enter_one_ok_iff.2
            (.inr (.inr ⟨step, not_up, allowed, (changed _).trans (if_pos rfl), rfl⟩))

/-- **A file that was written** is where the path ends, and no directory was there. -/
theorem writeFile_ok {content : Bytes} (written : t.writeFile current path content = .ok t') :
    ∃ directory name names, t.locate current path = .ok (.name directory name false) ∧
      namesOf directory name = .ok names ∧ t.entry? names ≠ some .directory ∧
      t' = t.insert names (.file content) := by
  obtain ⟨place, found, written⟩ := bind_eq_ok_iff.1 written
  cases place with
  | directory names => cases written
  | name directory name slash =>
      cases slash with
      | true => cases written
      | false =>
          obtain ⟨names, short, written⟩ := bind_eq_ok_iff.1 written
          refine ⟨directory, name, names, found, short, ?_⟩
          rcases there : t.entry? names with _ | _ | _ <;> rw [there] at written <;> cases written
          · exact ⟨by simp, rfl⟩
          · exact ⟨by simp, rfl⟩

/-- **A file that was written is read by the same path** as long as no directory goes away. -/
theorem readFile_of_writeFile {later : FileTree} {content stored : Bytes}
    (written : t.writeFile current path content = .ok t') (leads : t.LeadsTo current path names)
    (kept : KeepsDirectories t later) (there : later.entry? names = some (.file stored)) :
    later.readFile current path = .ok stored := by
  obtain ⟨directory, name, names', found, short, -, -⟩ := writeFile_ok written
  obtain rfl : names = names' :=
    (leads.unique (endsIn_of_locate found).leadsTo).trans (namesOf_ok short).1.symm
  refine bind_eq_ok_iff.2 ⟨_, locate_mono kept found, bind_eq_ok_iff.2 ⟨_, short, ?_⟩⟩
  rw [there]
  rfl

end FileTree

end RevisionStore
