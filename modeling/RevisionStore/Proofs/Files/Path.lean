/-
**Where a path leads, step by step.**

Of the pieces of a path only some say anything: those that are neither empty nor a single dot.  What
a path means to a system without links depends on these steps alone, and on whether it begins at the
root.  Joining appends steps, the parent has one step less, and a path stays inside a directory if it
is not absolute and has no step up.

Main definitions:

* `Path.steps` — **the pieces that say something**.

Main results:

* `Path.steps_join` — the steps of a joined path are those of both, one after the other;
* `Path.parent?_spec` — the parent has the same steps but the last;
* `Path.mem_ancestorsWithin` — so have all that a path leads up to, some of its first steps;
* `Path.staysInside_iff` — **which paths stay inside**.
-/

import RevisionStore.Files.Path
import Mathlib.Data.List.DropRight

set_option autoImplicit false

namespace RevisionStore.Path

/-! ### Pieces -/

theorem pieces_ne_nil (path : String) : pieces path ≠ [] := by
  rw [pieces, ne_eq, List.map_eq_nil_iff]
  exact List.splitOn_ne_nil '/' path.toList

/-- Two texts with a slash between them have the pieces of both. -/
theorem pieces_append_slash (left right : String) :
    pieces (left ++ "/" ++ right) = pieces left ++ pieces right := by
  have text : (left ++ "/" ++ right).toList = left.toList ++ '/' :: right.toList := by simp
  rw [pieces, text, List.splitOn_append_cons_self, List.map_append]
  rfl

theorem not_mem_of_mem_splitOn {c : Char} {text piece : List Char} (h : piece ∈ text.splitOn c) :
    c ∉ piece := by
  induction text generalizing piece with
  | nil =>
      rw [List.splitOn_nil, List.mem_singleton] at h
      subst h
      exact List.not_mem_nil
  | cons d text ih =>
      rw [List.splitOn_cons_eq_if_modifyHead] at h
      split at h
      · rcases List.mem_cons.1 h with rfl | later
        · exact List.not_mem_nil
        · exact ih later
      · next other =>
          obtain ⟨first, rest, cut⟩ := List.exists_cons_of_ne_nil (List.splitOn_ne_nil c text)
          rw [cut, List.modifyHead_cons] at h
          rw [cut] at ih
          rcases List.mem_cons.1 h with rfl | later
          · rw [List.mem_cons, not_or]
            exact ⟨fun same => other (by simp [same]), ih List.mem_cons_self⟩
          · exact ih (List.mem_cons_of_mem _ later)

/-- A piece has no slash. -/
theorem slash_not_mem_of_mem_pieces {path piece : String} (h : piece ∈ pieces path) :
    '/' ∉ piece.toList := by
  obtain ⟨chars, cut, rfl⟩ := List.mem_map.1 h
  rw [String.toList_ofList]
  exact not_mem_of_mem_splitOn cut

/-- The path of some pieces has these pieces. -/
theorem pieces_ofPieces {ps : List String} (slashless : ∀ p ∈ ps, '/' ∉ p.toList)
    (some_piece : ps ≠ []) : pieces (ofPieces ps) = ps := by
  have text : (ofPieces ps).toList = ['/'].intercalate (ps.map String.toList) := by
    rw [ofPieces, String.toList_intercalate]
    rfl
  have cut : (['/'].intercalate (ps.map String.toList)).splitOn '/' = ps.map String.toList := by
    refine List.splitOn_intercalate '/' ?_ (by simpa using some_piece)
    intro chars here
    obtain ⟨p, mem, rfl⟩ := List.mem_map.1 here
    exact slashless p mem
  rw [pieces, text, cut, List.map_map]
  exact (List.map_congr_left fun p _ => String.ofList_toList).trans (List.map_id _)

theorem isAbsolute_iff {path : String} : isAbsolute path = true ↔ path.toList.head? = some '/' := by
  unfold isAbsolute
  cases path.toList with
  | nil => simp
  | cons c rest => simp [eq_comm (a := '/')]

/-- The first piece of an absolute path is empty, and there are more. -/
theorem pieces_of_isAbsolute {path : String} (absolute : isAbsolute path = true) :
    ∃ rest, pieces path = "" :: rest ∧ rest ≠ [] := by
  obtain ⟨below, text⟩ := List.head?_eq_some_iff.1 (isAbsolute_iff.1 absolute)
  refine ⟨(below.splitOn '/').map String.ofList, ?_, ?_⟩
  · simp [pieces, text, List.splitOn_cons_eq_if_modifyHead]
  · rw [ne_eq, List.map_eq_nil_iff]
    exact List.splitOn_ne_nil '/' below

/-- The first piece of a path is empty only if the path is, or is absolute. -/
theorem first_ne_empty {path first : String} {rest : List String} (some_text : path ≠ "")
    (relative : isAbsolute path = false) (cut : pieces path = first :: rest) : first ≠ "" := by
  rw [← Bool.not_eq_true, isAbsolute_iff] at relative
  cases text : path.toList with
  | nil => exact absurd (String.toList_eq_nil_iff.1 text) some_text
  | cons c chars =>
      have here : (c == '/') = false := by simpa [text] using relative
      obtain ⟨piece, others, split⟩ :=
        List.exists_cons_of_ne_nil (List.splitOn_ne_nil '/' chars)
      rw [pieces, text, List.splitOn_cons_eq_if_modifyHead, here, split,
        List.modifyHead_cons] at cut
      simp only [Bool.false_eq_true, if_false, List.map_cons, List.cons.injEq] at cut
      rw [← cut.1]
      simp [← String.toList_inj]

/-! ### Steps -/

/-- Does the piece say something where it stands behind a slash? -/
def isStep (piece : String) : Bool := !isFiller piece

/-- The pieces of a path that say something: names, and steps up. -/
def steps (path : String) : List String := (pieces path).filter isStep

@[simp] theorem steps_empty : steps "" = [] := by decide

theorem isStep_of_mem_steps {path step : String} (h : step ∈ steps path) : isStep step = true :=
  List.of_mem_filter h

theorem steps_append_slash (left right : String) :
    steps (left ++ "/" ++ right) = steps left ++ steps right := by
  rw [steps, pieces_append_slash, List.filter_append]
  rfl

/-- **The steps of a joined path are those of both**, one after the other. -/
theorem steps_join {root path : String} (relative : isAbsolute path = false) :
    steps (join root path) = steps root ++ steps path := by
  unfold join
  split
  · next alone =>
      have empty : root = "" := by simpa [relative] using alone
      rw [empty, steps_empty, List.nil_append]
  · split
    · next slash =>
        obtain ⟨before, text⟩ := List.getLast?_eq_some_iff.1 slash
        have cut : root = String.ofList before ++ "/" := by
          simp [← String.toList_inj, text]
        have bare : steps root = steps (String.ofList before) := by
          rw [cut, ← String.append_empty (s := String.ofList before ++ "/"), steps_append_slash,
            steps_empty, List.append_nil]
        rw [bare, cut, steps_append_slash]
    · rw [steps_append_slash]

/-- A joined path begins where the first part does. -/
theorem isAbsolute_join {root path : String} (relative : isAbsolute path = false) :
    isAbsolute (join root path) = isAbsolute root := by
  unfold join
  split
  · next alone =>
      have empty : root = "" := by simpa [relative] using alone
      rw [relative, empty]
      rfl
  · next both =>
      have some_text : root.toList ≠ [] := by simpa [relative] using both
      obtain ⟨c, chars, text⟩ := List.exists_cons_of_ne_nil some_text
      split <;> simp [isAbsolute, text, List.isPrefixOf]

/-! ### Parents -/

theorem trimmed_concat (ps : List String) (p : String) :
    trimmed (ps ++ [p]) = if isFiller p then trimmed ps else ps ++ [p] :=
  List.rdropWhile_concat isFiller ps p

/-- What is left when the filling at the end has gone ends in a step. -/
theorem trimmed_ends (ps : List String) :
    trimmed ps = [] ∨ ∃ above last, trimmed ps = above ++ [last] ∧ isStep last = true := by
  induction ps using List.reverseRecOn with
  | nil => exact .inl rfl
  | append_singleton ps p ih =>
      rw [trimmed_concat]
      split
      · exact ih
      · next step => exact .inr ⟨ps, p, rfl, by simpa [isStep] using step⟩

/-- It says the same as before. -/
theorem filter_trimmed (ps : List String) : (trimmed ps).filter isStep = ps.filter isStep := by
  induction ps using List.reverseRecOn with
  | nil => rfl
  | append_singleton ps p ih =>
      rw [trimmed_concat]
      split
      · next filling =>
          rw [ih, List.filter_append, List.filter_cons_of_neg (by simp [isStep, filling])]
          simp
      · rfl

/-- Without its last piece it says everything but the last step. -/
theorem filter_dropLast_trimmed (ps : List String) :
    (trimmed ps).dropLast.filter isStep = (ps.filter isStep).dropLast := by
  rw [← filter_trimmed ps]
  rcases trimmed_ends ps with nothing | ⟨above, last, ends, step⟩
  · rw [nothing]
    rfl
  · rw [ends, List.filter_append, List.filter_cons_of_pos step, List.filter_nil,
      List.dropLast_concat, List.dropLast_concat]

theorem subset_of_trimmed (ps : List String) : trimmed ps ⊆ ps :=
  (List.rdropWhile_prefix isFiller ps).subset

/-- The pieces of a path between the first one and the last step, without filling at the end. -/
def between (rest : List String) : List String := trimmed (trimmed rest).dropLast

theorem filter_between (rest : List String) :
    (between rest).filter isStep = (rest.filter isStep).dropLast := by
  rw [between, filter_trimmed, filter_dropLast_trimmed]

theorem slash_not_mem_of_mem_between {path first p : String} {rest : List String}
    (cut : pieces path = first :: rest) (h : p ∈ between rest) : '/' ∉ p.toList := by
  have behind : p ∈ rest :=
    subset_of_trimmed _ ((List.dropLast_sublist _).subset (subset_of_trimmed _ h))
  have here : p ∈ pieces path := by
    rw [cut]
    exact List.mem_cons_of_mem _ behind
  exact slash_not_mem_of_mem_pieces here

/-- The parent of an absolute path, from its pieces. -/
theorem parent?_of_absolute {path : String} {rest : List String} (absolute : isAbsolute path = true)
    (cut : pieces path = "" :: rest) :
    parent? path = if trimmed rest = [] then none else some ("/" ++ ofPieces (between rest)) := by
  unfold parent?
  rw [cut]
  exact if_pos absolute

/-- The parent of a relative path, from its pieces. -/
theorem parent?_of_relative {path first : String} {rest : List String} (some_text : path ≠ "")
    (relative : isAbsolute path = false) (cut : pieces path = first :: rest) :
    parent? path =
      if trimmed rest = [] then some "" else some (ofPieces (first :: between rest)) := by
  unfold parent?
  rw [cut]
  exact (if_neg (by simp [relative])).trans (if_neg some_text)

/-- The parent of an absolute path is absolute, and has the same steps but the last. -/
theorem parent?_spec_of_absolute {path above : String} (absolute : isAbsolute path = true)
    (parent : parent? path = some above) :
    isAbsolute above = true ∧ steps above = (steps path).dropLast := by
  obtain ⟨rest, cut, -⟩ := pieces_of_isAbsolute absolute
  have all : steps path = rest.filter isStep := by
    rw [steps, cut, List.filter_cons_of_neg (by decide)]
  rw [parent?_of_absolute absolute cut] at parent
  split at parent
  · cases parent
  · obtain rfl := Option.some.inj parent
    refine ⟨by simp [isAbsolute, List.isPrefixOf], ?_⟩
    rw [all, ← filter_between]
    by_cases nothing : between rest = []
    · rw [nothing]
      decide
    · have these : pieces ("/" ++ ofPieces (between rest)) = "" :: between rest := by
        rw [← String.empty_append (s := "/"), pieces_append_slash,
          pieces_ofPieces (fun _ => slash_not_mem_of_mem_between cut) nothing]
        rfl
      rw [steps, these, List.filter_cons_of_neg (by decide)]

/-- The pieces of the parent of a relative path. -/
theorem pieces_above {path first : String} {rest : List String} (cut : pieces path = first :: rest) :
    pieces (ofPieces (first :: between rest)) = first :: between rest := by
  refine pieces_ofPieces (fun p here => ?_) (List.cons_ne_nil _ _)
  rcases List.mem_cons.1 here with rfl | behind
  · have here : p ∈ pieces path := by
      rw [cut]
      exact List.mem_cons_self
    exact slash_not_mem_of_mem_pieces here
  · exact slash_not_mem_of_mem_between cut behind

/-- The parent of a relative path is relative, and has the same steps but the last. -/
theorem parent?_spec_of_relative {path above : String} (relative : isAbsolute path = false)
    (parent : parent? path = some above) :
    isAbsolute above = false ∧ steps above = (steps path).dropLast := by
  have some_text : path ≠ "" := by
    rintro rfl
    cases parent
  obtain ⟨first, rest, cut⟩ := List.exists_cons_of_ne_nil (pieces_ne_nil path)
  have first_text := first_ne_empty some_text relative cut
  have all : steps path = [first].filter isStep ++ rest.filter isStep := by
    rw [steps, cut, ← List.filter_append]
    rfl
  rw [parent?_of_relative some_text relative cut] at parent
  split at parent
  · next bare =>
      obtain rfl := Option.some.inj parent
      refine ⟨rfl, ?_⟩
      rw [all, ← filter_trimmed rest, bare]
      by_cases step : isStep first = true <;> simp [step]
  · next deep =>
      obtain rfl := Option.some.inj parent
      have these := pieces_above cut
      have some_step : rest.filter isStep ≠ [] := by
        rw [← filter_trimmed]
        obtain nothing | ⟨front, last, ends, step⟩ := trimmed_ends rest
        · exact absurd nothing deep
        · simp [ends, step]
      refine ⟨?_, ?_⟩
      · rw [← Bool.not_eq_true]
        intro absolute
        obtain ⟨others, split, -⟩ := pieces_of_isAbsolute absolute
        rw [these] at split
        exact first_text (List.cons.inj split).1
      · rw [all, List.dropLast_append_of_ne_nil some_step, ← filter_between, steps, these,
          ← List.filter_append]
        rfl

/-- **The parent begins where the path does, and has the same steps but the last.** -/
theorem parent?_spec {path above : String} (parent : parent? path = some above) :
    isAbsolute above = isAbsolute path ∧ steps above = (steps path).dropLast := by
  cases absolute : isAbsolute path with
  | true => exact parent?_spec_of_absolute absolute parent
  | false => exact parent?_spec_of_relative absolute parent

/-- What a path leads up to begins where the path does, with some of its first steps. -/
theorem mem_ancestorsWithin {path above : String} {bound : ℕ}
    (here : above ∈ ancestorsWithin path bound) :
    isAbsolute above = isAbsolute path ∧ steps above <+: steps path := by
  induction bound generalizing path with
  | zero => cases here
  | succ bound ih =>
      rcases List.mem_cons.1 here with rfl | further
      · exact ⟨rfl, List.prefix_refl _⟩
      · split at further
        · next parent found =>
            obtain ⟨absolute, fewer⟩ := parent?_spec found
            obtain ⟨absolute', begins⟩ := ih further
            rw [fewer] at begins
            exact ⟨absolute'.trans absolute, begins.trans (List.dropLast_prefix _)⟩
        · cases further

/-! ### Staying inside -/

/-- The only piece behind a slash that does not lead down, or nowhere, is the step up. -/
theorem isDownward_ofPiece? {p : String} {c : Component} (spelled : Component.ofPiece? p = some c) :
    c.isDownward = true ↔ p ≠ ".." := by
  unfold Component.ofPiece? at spelled
  split at spelled
  · cases spelled
  · split at spelled
    · next up =>
        cases spelled
        simp [up, Component.isDownward]
    · next other =>
        cases spelled
        simp [other, Component.isDownward]

theorem all_isDownward_iff (ps : List String) :
    (ps.filterMap Component.ofPiece?).all Component.isDownward = true ↔ ".." ∉ ps := by
  simp only [List.all_eq_true, List.mem_filterMap, forall_exists_index, and_imp]
  constructor
  · intro down here
    have up : Component.ofPiece? ".." = some .up := by decide
    exact absurd (down .up ".." here up) (by decide)
  · intro absent c p here spelled
    refine (isDownward_ofPiece? spelled).2 ?_
    rintro rfl
    exact absent here

/-- A path that does not begin at the root says what its pieces say, and perhaps that it begins
here. -/
theorem all_isDownward_components {path : String} (relative : isAbsolute path = false) :
    (components path).all Component.isDownward = true ↔ ".." ∉ pieces path := by
  unfold components
  rw [if_neg (by simp [relative])]
  split
  · next rest cut =>
      rw [cut, List.all_cons, Component.isDownward, Bool.true_and, all_isDownward_iff]
      simp
  · exact all_isDownward_iff _

/-- **Which paths stay inside**: those that are not empty, do not begin with a slash and have no
step up. -/
theorem staysInside_iff {path : String} :
    staysInside path = true ↔
      path ≠ "" ∧ path.toList.head? ≠ some '/' ∧ ".." ∉ pieces path := by
  rw [staysInside, Bool.and_eq_true, decide_eq_true_iff, ne_eq (path.toList.head?),
    ← isAbsolute_iff]
  refine and_congr_right fun _ => ?_
  cases absolute : isAbsolute path with
  | true => simp [components, absolute, Component.isDownward]
  | false => simp [all_isDownward_components absolute]

/-- So a path can leave that is empty, begins with a slash or has a step up. -/
theorem staysInside_eq_false_iff {path : String} :
    staysInside path = false ↔
      path = "" ∨ path.toList.head? = some '/' ∨ ".." ∈ pieces path := by
  rw [← Bool.not_eq_true, staysInside_iff]
  tauto

end RevisionStore.Path
