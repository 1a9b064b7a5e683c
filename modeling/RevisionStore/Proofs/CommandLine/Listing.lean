/-
**What the listings of a repository print.**

A listing asks the store for names first and then for each of them, and in a store that a fixture
has made every one of these questions has an answer.  There is one entry for each branch, tag and
open change request, in ascending order.  A branch is shown with its own head, and a change request
with what it was opened with.  A tag is shown with the hash that its name resolves to, which need
not be the hash that the tag points at: a stored hash and a branch of that name come first.

Names and titles are printed as they are, and a line break in one of them is printed too.  What is
behind it is then a line of its own, which may begin as that of the primary branch does.

Main definitions:

* `CommandLine.branchLine`, `CommandLine.tagLine`, `CommandLine.changeRequestLine` — one entry of
  each listing;
* `CommandLine.marked` — a line that begins with a star.

Main results:

* `CommandLine.branchLines_eq`, `CommandLine.tagLines_eq`, `CommandLine.changeRequestLines_eq` — the
  entries of each listing;
* `CommandLine.countP_marked` — how many lines are marked;
* `CommandLine.listings_of_accepted` — **the listings of a repository that a fixture has made**;
* `CommandLine.listings_broken_by_name` — **a name with a line break makes two lines, and a second
  one that is marked**;
* `CommandLine.tags_shown_by_name` — **a tag is shown with what its name denotes**, which is the
  hash that was recorded unless the name is that of a stored hash or of a branch;
* `CommandLine.tags_shows_branch` — **in place of a tag the head of a branch is shown**.
-/

import RevisionStore.Proofs.CommandLine.Lines
import RevisionStore.Proofs.Controller.Provenance
import RevisionStore.Proofs.Controller.Refusal
import RevisionStore.Proofs.Fixture.Replay
import RevisionStore.Proofs.HashText
import Mathlib.Data.String.Basic

set_option autoImplicit false

namespace RevisionStore.CommandLine

open Controller (Call latest? runCalls)

variable {c : Controller} {name : String} {r : Repository}

/-! ### Order -/

theorem pairwise_lt_keys {α : Type} (entries : Std.ExtTreeMap String α) :
    entries.keys.Pairwise (· < ·) :=
  entries.ordered_keys.imp fun smaller => compare_lt_iff_lt.1 smaller

theorem nodup_keys {α : Type} (entries : Std.ExtTreeMap String α) : entries.keys.Nodup :=
  (pairwise_lt_keys entries).imp fun smaller => ne_of_lt smaller

/-! ### Entries -/

/-- The first twelve digits of a hash. -/
def firstDigits (h : RevisionHash) : String := String.ofList (h.toHex.toList.take 12)

/-- What stands in front of the name of a branch: a star if it is the primary one, and its head. -/
def branchFront (primary : Option String) (entry : String × RevisionHash) : String :=
  (if primary = some entry.1 then "* " else "  ") ++ firstDigits entry.2 ++ " "

/-- The entry of a branch with its head. -/
def branchLine (primary : Option String) (entry : String × RevisionHash) : String :=
  branchFront primary entry ++ entry.1

/-- The entry of a tag with a hash. -/
def tagLine (entry : String × RevisionHash) : String := firstDigits entry.2 ++ " " ++ entry.1

/-- The entry of a change request with its baseline and its title. -/
def changeRequestLine (entry : UInt64 × String × String) : String :=
  "#" ++ toString entry.1.toNat ++ " -> " ++ entry.2.1 ++ ": " ++ entry.2.2

theorem mapM_eq_ok {ε α β : Type} {f : α → Except ε β} {g : α → β} {items : List α}
    (each : ∀ item ∈ items, f item = .ok (g item)) : items.mapM f = .ok (items.map g) := by
  induction items with
  | nil => rfl
  | cons item items ih =>
      obtain ⟨first, others⟩ := List.forall_mem_cons.1 each
      rw [List.mapM_cons, first, ih others]
      rfl

/-- Every branch is shown with its own head. -/
theorem branchLines_eq (found : c.repositories[name]? = some r) :
    branchLines c name = .ok (r.branches.toList.map (branchLine r.primaryBranch)) := by
  have primary : c.primaryBranch name = .ok r.primaryBranch := Controller.inspect_of_found found _
  have names : c.listBranches name = .ok r.branches.keys := Controller.inspect_of_found found _
  simp only [branchLines, primary, names, bind, Except.bind]
  rw [← Std.ExtTreeMap.map_fst_toList_eq_keys, List.mapM_map]
  refine mapM_eq_ok ?_
  rintro ⟨branch, head⟩ here
  have points := Std.ExtTreeMap.mem_toList_iff_getElem?_eq_some.1 here
  have head_eq : c.branchHead name branch = .ok head := by
    rw [Controller.branchHead, Controller.inspect_of_found found, Repository.branchHead, points]
  simp only [Function.comp_apply, head_eq]
  rfl

section

variable {number : UInt64} {request : ChangeRequest}

theorem changeRequestBaseline_eq (found : c.repositories[name]? = some r)
    (isOpen : r.changeRequests[number]? = some request) :
    c.changeRequestBaseline name number = .ok (some request.baseline) := by
  rw [Controller.changeRequestBaseline, Controller.inspect_of_found found, isOpen]
  rfl

theorem changeRequestTitle_eq (found : c.repositories[name]? = some r)
    (isOpen : r.changeRequests[number]? = some request) :
    c.changeRequestTitle name number = .ok (some request.title) := by
  rw [Controller.changeRequestTitle, Controller.inspect_of_found found, isOpen]
  rfl

end

/-- Every open change request is shown with its own baseline and title. -/
theorem changeRequestLines_eq (found : c.repositories[name]? = some r) :
    changeRequestLines c name =
      .ok (r.changeRequests.toList.map fun (number, request) =>
        changeRequestLine (number, request.baseline, request.title)) := by
  have names : c.listChangeRequests name = .ok r.changeRequests.keys :=
    Controller.inspect_of_found found _
  simp only [changeRequestLines, names, bind, Except.bind]
  rw [← Std.ExtTreeMap.map_fst_toList_eq_keys, List.mapM_map]
  refine mapM_eq_ok ?_
  rintro ⟨number, request⟩ here
  have isOpen := Std.ExtTreeMap.mem_toList_iff_getElem?_eq_some.1 here
  simp only [Function.comp_apply, changeRequestBaseline_eq found isOpen,
    changeRequestTitle_eq found isOpen]
  rfl

/-! The name of a tag always denotes something. -/

theorem exists_named_of_tag {tag : String} {recorded : RevisionHash}
    (points : r.tags[tag]? = some recorded) : ∃ hash, r.named? tag = some hash := by
  rw [← Option.isSome_iff_exists, Repository.named?, Repository.headOf?_tag, points]
  simp

theorem resolve_of_named (wf : r.WellFormed) {text : String} {hash : RevisionHash}
    (named : r.named? text = some hash) : (r.resolve text).map Revision.hash = .ok hash := by
  obtain ⟨revision, resolved, -, same⟩ := wf.read_named named
  rw [resolved]
  exact congrArg Except.ok same

/-- The tags, each with the hash that its name denotes. -/
def shownTags (r : Repository) : List (String × RevisionHash) :=
  r.tags.toList.map fun (tag, recorded) => (tag, (r.named? tag).getD recorded)

/-- A tag that is shown is there, and its name denotes the hash that it is shown with. -/
theorem mem_shownTags {tag : String} {hash : RevisionHash} (here : (tag, hash) ∈ shownTags r) :
    r.Denotes tag hash ∧ ∃ recorded, r.tags[tag]? = some recorded := by
  obtain ⟨⟨_, recorded⟩, among, same⟩ := List.mem_map.1 here
  cases same
  have points := Std.ExtTreeMap.mem_toList_iff_getElem?_eq_some.1 among
  obtain ⟨hash, named⟩ := exists_named_of_tag points
  refine ⟨?_, recorded, points⟩
  rw [named]
  exact Repository.named?_eq_some_iff.1 named

theorem map_fst_shownTags (r : Repository) : (shownTags r).map Prod.fst = r.tags.keys := by
  rw [shownTags, List.map_map, ← Std.ExtTreeMap.map_fst_toList_eq_keys]
  rfl

/-- Every tag is shown with the hash that its name denotes. -/
theorem tagLines_eq (wf : r.WellFormed) (found : c.repositories[name]? = some r) :
    tagLines c name = .ok ((shownTags r).map tagLine) := by
  have names : c.listTags name = .ok r.tags.keys := Controller.inspect_of_found found _
  simp only [tagLines, names, bind, Except.bind]
  rw [← Std.ExtTreeMap.map_fst_toList_eq_keys, List.mapM_map, shownTags, List.map_map]
  refine mapM_eq_ok ?_
  rintro ⟨tag, recorded⟩ here
  obtain ⟨hash, named⟩ :=
    exists_named_of_tag (Std.ExtTreeMap.mem_toList_iff_getElem?_eq_some.1 here)
  have resolved : c.resolve name tag = .ok hash := by
    rw [Controller.resolve, Controller.inspect_of_found found, resolve_of_named wf named]
  simp only [Function.comp_apply, resolved, named]
  rfl

/-! ### Line breaks -/

theorem break_not_mem_firstDigits (h : RevisionHash) : '\n' ∉ (firstDigits h).toList := by
  rw [firstDigits, String.toList_ofList]
  intro here
  have lower := List.all_eq_true.1 (Hex.all_isLowercase_encode h.bytes) _
    (List.mem_of_mem_take here)
  exact absurd lower (by decide)

theorem break_not_mem_branchFront (primary : Option String) (entry : String × RevisionHash) :
    '\n' ∉ (branchFront primary entry).toList := by
  have digits := break_not_mem_firstDigits entry.2
  unfold branchFront
  split_ifs <;> simp [digits]

/-- The entry of a branch has the line breaks of its name and no others. -/
theorem break_not_mem_branchLine_iff {primary : Option String} {entry : String × RevisionHash} :
    '\n' ∉ (branchLine primary entry).toList ↔ '\n' ∉ entry.1.toList := by
  have front := break_not_mem_branchFront primary entry
  rw [branchLine, String.toList_append, List.mem_append, not_or]
  exact and_iff_right front

/-- The entry of a change request has the line breaks of its baseline and of its title. -/
theorem break_not_mem_changeRequestLine_iff {entry : UInt64 × String × String} :
    '\n' ∉ (changeRequestLine entry).toList ↔
      '\n' ∉ entry.2.1.toList ∧ '\n' ∉ entry.2.2.toList := by
  have number : '\n' ∉ Nat.toDigits 10 entry.1.toNat := by
    intro here
    have digit := Nat.isDigit_of_mem_toDigits (by decide) (by decide) here
    exact absurd digit (by decide)
  simp [changeRequestLine, number]

/-! ### The mark of the primary branch -/

/-- The line begins with a star and a space. -/
def marked (line : String) : Bool := "* ".toList.isPrefixOf line.toList

theorem marked_branchFront (primary : Option String) (entry : String × RevisionHash)
    (rest : String) :
    marked (branchFront primary entry ++ rest) = decide (primary = some entry.1) := by
  unfold marked branchFront
  split
  · next same => simp [same]
  · next other => simp [other, List.isPrefixOf]

/-- Of the lines of a branch the first one is marked if the branch is the primary one.  The others
are what the name of the branch has behind its line breaks. -/
theorem countP_marked_rows (primary : Option String) (entry : String × RevisionHash) :
    (rows (branchLine primary entry)).countP marked =
      (if primary = some entry.1 then 1 else 0) + (rows entry.1).tail.countP marked := by
  obtain ⟨first, others, cut⟩ := List.exists_cons_of_ne_nil (rows_ne_nil entry.1)
  rw [branchLine, rows_append (break_not_mem_branchFront primary entry) cut, cut, List.tail_cons,
    List.countP_cons, marked_branchFront, Nat.add_comm]
  simp only [decide_eq_true_eq]

theorem countP_marked_flatMap (primary : Option String) (entries : List (String × RevisionHash)) :
    (entries.flatMap fun entry => rows (branchLine primary entry)).countP marked =
      entries.countP (fun entry => primary = some entry.1) +
        (entries.flatMap fun entry => (rows entry.1).tail).countP marked := by
  induction entries with
  | nil => rfl
  | cons entry entries ih =>
      rw [List.flatMap_cons, List.flatMap_cons, List.countP_append, List.countP_append, ih,
        countP_marked_rows, List.countP_cons]
      simp only [decide_eq_true_eq]
      omega

/-- Names without line breaks make no lines beyond the first one of each. -/
theorem flatMap_tail_rows_eq_nil {entries : List (String × RevisionHash)}
    (plain : ∀ entry ∈ entries, '\n' ∉ entry.1.toList) :
    (entries.flatMap fun entry => (rows entry.1).tail) = [] := by
  refine List.flatMap_eq_nil_iff.2 fun entry here => ?_
  rw [rows_of_plain (plain entry here), List.tail_cons]

/-- There is one primary branch, if any. -/
theorem countP_primary (wf : r.WellFormed) :
    r.branches.toList.countP (fun entry => r.primaryBranch = some entry.1) =
      if r.primaryBranch.isSome then 1 else 0 := by
  have names : r.branches.toList.countP (fun entry => r.primaryBranch = some entry.1) =
      r.branches.keys.countP fun branch => decide (r.primaryBranch = some branch) := by
    rw [← Std.ExtTreeMap.map_fst_toList_eq_keys, List.countP_map]
    rfl
  rw [names]
  cases primary : r.primaryBranch with
  | none => simp
  | some branch =>
      have there : branch ∈ r.branches.keys :=
        Std.ExtTreeMap.mem_keys.2 (wf.primary_exists branch primary)
      have once : r.branches.keys.count branch = 1 := List.count_eq_one_of_mem (nodup_keys _) there
      simp only [Option.some.injEq, Option.isSome_some, if_true]
      rw [← once, List.count]
      exact congrArg (List.countP · _) (funext fun other => by rw [Bool.beq_comm, beq_eq_decide])

/-- **How many lines are marked**: that of the primary branch, and those that the names of branches
make behind their line breaks and that begin in the same way. -/
theorem countP_marked (wf : r.WellFormed) :
    (lines (String.join (r.branches.toList.map fun entry =>
        branchLine r.primaryBranch entry ++ "\n"))).countP marked =
      (if r.primaryBranch.isSome then 1 else 0) +
        (r.branches.toList.flatMap fun entry => (rows entry.1).tail).countP marked := by
  rw [lines_join, countP_marked_flatMap, countP_primary wf]

/-! ### The listings of a store -/

/-- The open change requests, each with its baseline and its title. -/
def openings (r : Repository) : List (UInt64 × String × String) :=
  r.changeRequests.toList.map fun (number, request) => (number, request.baseline, request.title)

theorem map_fst_openings (r : Repository) : (openings r).map Prod.fst = r.changeRequests.keys := by
  rw [openings, List.map_map, ← Std.ExtTreeMap.map_fst_toList_eq_keys]
  rfl

/-- A command that only reads the store prints what it reads. -/
theorem run_of_output? {command : Command} {answer : Except Failure Bytes}
    (output : command.output? c = some answer) {m : Type → Type} [Monad m] (files : FileSystem m) :
    command.run files c = pure answer := by
  cases command with
  | checkout => cases output
  | repositories | branches | tags | changeRequests | resolve | log | stat | cat =>
      exact congrArg (fun answer => (pure (answer.getD (.ok [])) : m _)) output

theorem run_branches (found : c.repositories[name]? = some r) {m : Type → Type} [Monad m]
    (files : FileSystem m) :
    (Command.branches name).run files c =
      pure (.ok (Bytes.ofText (String.join
        (r.branches.toList.map fun entry => branchLine r.primaryBranch entry ++ "\n")))) := by
  refine run_of_output? ?_ files
  rw [← asLines_map, Command.output?, branchLines_eq found]
  rfl

theorem run_tags (wf : r.WellFormed) (found : c.repositories[name]? = some r) {m : Type → Type}
    [Monad m] (files : FileSystem m) :
    (Command.tags name).run files c =
      pure (.ok (Bytes.ofText (String.join
        ((shownTags r).map fun entry => tagLine entry ++ "\n")))) := by
  refine run_of_output? ?_ files
  rw [← asLines_map, Command.output?, tagLines_eq wf found]
  rfl

theorem run_changeRequests (found : c.repositories[name]? = some r) {m : Type → Type} [Monad m]
    (files : FileSystem m) :
    (Command.changeRequests name).run files c =
      pure (.ok (Bytes.ofText (String.join
        ((openings r).map fun entry => changeRequestLine entry ++ "\n")))) := by
  refine run_of_output? ?_ files
  rw [← asLines_map, Command.output?, changeRequestLines_eq found, openings, List.map_map]
  rfl

/-- **The listings of every repository that there is after a fixture was applied**, whether or not
the fixture got to its end.  All of them succeed.  For each branch, in ascending order, the first
twelve digits of its own head are printed and then its name, with a star in front if it is the
primary branch, and a line break behind.  So there is one line for each branch exactly if no name
has a line break, and one marked line if there is a primary branch and none otherwise, besides those
that names make behind their line breaks.  For each open change request, in ascending order, the
baseline and the title are printed that it was opened with by the latest call that was answered with
its number; both are there, so that nothing has to stand in for them.  There is one line for each of
these exactly if no baseline and no title has a line break. -/
theorem listings_of_accepted (fixture : Fixture) (accepted : fixture.Accepted) (clock : Clock) :
    let c := (fixture.apply (.withClock clock)).2
    ∃ calls carried, fixture.file.calls? = some calls ∧ carried <+: calls ∧
      ((fixture.apply (.withClock clock)).1 = .ok () → carried = calls) ∧
      c = (runCalls () (.withClock clock) (carried.map Prod.snd)).1 ∧
      ∀ name r, c.repositories[name]? = some r →
        ∀ (m : Type → Type) [Monad m] (files : FileSystem m),
          (∃ printed, (Command.tags name).run files c = pure (.ok printed)) ∧
          (∃ (shown : List (String × RevisionHash)) (text : String),
            (shown.map Prod.fst).Pairwise (· < ·) ∧
            (∀ branch head, (branch, head) ∈ shown ↔ r.branches[branch]? = some head) ∧
            text = String.join (shown.map fun entry => branchLine r.primaryBranch entry ++ "\n") ∧
            (Command.branches name).run files c = pure (.ok (Bytes.ofText text)) ∧
            (lines text = shown.map (branchLine r.primaryBranch) ↔
              ∀ entry ∈ shown, '\n' ∉ entry.1.toList) ∧
            (lines text).countP marked = (if r.primaryBranch.isSome then 1 else 0) +
              (shown.flatMap fun entry => (rows entry.1).tail).countP marked) ∧
          ∃ (shown : List (UInt64 × String × String)) (text : String),
            (shown.map Prod.fst).Pairwise (· < ·) ∧
            (∀ number, number ∈ shown.map Prod.fst ↔ number ∈ r.changeRequests) ∧
            text = String.join (shown.map fun entry => changeRequestLine entry ++ "\n") ∧
            (Command.changeRequests name).run files c = pure (.ok (Bytes.ofText text)) ∧
            (lines text = shown.map changeRequestLine ↔
              ∀ entry ∈ shown, '\n' ∉ entry.2.1.toList ∧ '\n' ∉ entry.2.2.toList) ∧
            ∀ number baseline title, (number, baseline, title) ∈ shown →
              latest? (Call.opened? name number) () (.withClock clock) (carried.map Prod.snd) =
                  some (baseline, title) ∧
                c.changeRequestBaseline name number = .ok (some baseline) ∧
                c.changeRequestTitle name number = .ok (some title) := by
  intro c
  obtain ⟨calls, planned⟩ := Fixture.File.exists_calls accepted.validate_eq_ok
  obtain ⟨carried, first, complete, same⟩ :=
    (Fixture.replays_apply planned (.withClock clock)).exists_carried
  refine ⟨calls, carried, planned, first, complete, same, fun name r found m _ files => ?_⟩
  have reachable : c.Reachable := by
    rw [show c = _ from same]
    exact (Controller.Reachable.start clock).runCalls () _
  have wf : r.WellFormed := reachable.recorded.wellFormed found
  refine ⟨⟨_, run_tags wf found files⟩, ⟨r.branches.toList, _, ?_, ?_, rfl,
    run_branches found files, ?_, countP_marked wf⟩, openings r, _, ?_, ?_, rfl,
    run_changeRequests found files, ?_, ?_⟩
  · rw [Std.ExtTreeMap.map_fst_toList_eq_keys]
    exact pairwise_lt_keys r.branches
  · exact fun branch head => Std.ExtTreeMap.mem_toList_iff_getElem?_eq_some
  · simp only [lines_join_eq_iff, break_not_mem_branchLine_iff]
  · rw [map_fst_openings]
    exact r.changeRequests.ordered_keys.imp fun smaller => Std.compare_eq_lt.1 smaller
  · exact fun number => by rw [map_fst_openings, Std.ExtTreeMap.mem_keys]
  · simp only [lines_join_eq_iff, break_not_mem_changeRequestLine_iff]
  · intro number baseline title here
    obtain ⟨⟨_, request⟩, among, entry⟩ := List.mem_map.1 here
    cases entry
    have isOpen := Std.ExtTreeMap.mem_toList_iff_getElem?_eq_some.1 among
    refine ⟨?_, changeRequestBaseline_eq found isOpen, changeRequestTitle_eq found isOpen⟩
    rw [show c = _ from same] at found
    exact Controller.latest?_opened found isOpen

/-- A primary branch that was deleted is not marked again when a branch of its name is made, and a
change request at the new one is listed. -/
theorem listings_of_accepted_remade :
    let text := "[[repository]]\nname = \"r\"\n\n" ++
      "[[repository.step]]\nop = \"delete-branch\"\nname = \"master\"\n\n" ++
      "[[repository.step]]\nop = \"create-branch\"\nname = \"master\"\n\n" ++
      "[[repository.step]]\nop = \"open-change-request\"\nbranch = \"master\"\ntitle = \"t\"\n"
    let fixture : Fixture := ⟨⟨none, [⟨"r", none, none,
      [.deleteBranch "master", .createBranch "master", .openChangeRequest "master" (some "t")]⟩]⟩,
      none⟩
    let c := (fixture.apply (.withClock (.fixed ⟨0⟩))).2
    Fixture.parse text = .ok fixture ∧
      (∃ (shown : List (String × RevisionHash)) (text : String),
        (∃ head, ("master", head) ∈ shown) ∧
        text = String.join (shown.map fun entry => branchLine none entry ++ "\n") ∧
        (Command.branches "r").run (FileTree.fileSystem []) c = pure (.ok (Bytes.ofText text)) ∧
        lines text = shown.map (branchLine none) ∧ (lines text).countP marked = 0) ∧
      ∃ (shown : List (UInt64 × String × String)) (text : String),
        (1, "master", "t") ∈ shown ∧
        text = String.join (shown.map fun entry => changeRequestLine entry ++ "\n") ∧
        (Command.changeRequests "r").run (FileTree.fileSystem []) c =
          pure (.ok (Bytes.ofText text)) ∧
        lines text = shown.map changeRequestLine := by
  intro text fixture c
  have read : Fixture.parse text = .ok fixture := by decide +kernel
  have facts : c.repositories["r"]?.map
      (fun r => (r.primaryBranch, r.branches.keys, r.changeRequests.keys)) =
        some (none, ["master"], [1]) := by
    decide +kernel
  obtain ⟨r, found, all⟩ := Option.map_eq_some_iff.1 facts
  obtain ⟨no_primary, both⟩ := Prod.ext_iff.1 all
  obtain ⟨branches, numbers⟩ := Prod.ext_iff.1 both
  simp only at no_primary branches numbers
  have accepted : fixture.Accepted := .inl ⟨text, read⟩
  obtain ⟨_, _, -, -, -, -, listings⟩ := listings_of_accepted fixture accepted (.fixed ⟨0⟩)
  obtain ⟨-, ⟨shown, printed, -, heads, spelled, run, each, marks⟩,
    requests, printed', -, opened, spelled', run', each', entries⟩ :=
    listings "r" r found (StateM FileTree) (FileTree.fileSystem [])
  rw [no_primary] at spelled each marks
  have plain : ∀ entry ∈ shown, '\n' ∉ entry.1.toList := by
    intro entry here
    have among : entry.1 ∈ r.branches.keys :=
      Std.ExtTreeMap.mem_keys.2 (Std.ExtTreeMap.getElem?_eq_some_iff.1 ((heads _ _).1 here)).1
    rw [branches, List.mem_singleton] at among
    rw [among]
    decide
  have only : ∀ number baseline title, (number, baseline, title) ∈ requests →
      number = 1 ∧ baseline = "master" ∧ title = "t" := by
    intro number baseline title here
    have among : number ∈ r.changeRequests.keys :=
      Std.ExtTreeMap.mem_keys.2 ((opened number).1 (List.mem_map_of_mem here))
    rw [numbers, List.mem_singleton] at among
    subst among
    obtain ⟨-, at_branch, titled⟩ := entries 1 baseline title here
    have at_branch' : c.changeRequestBaseline "r" 1 = .ok (some "master") := by decide +kernel
    have titled' : c.changeRequestTitle "r" 1 = .ok (some "t") := by decide +kernel
    cases at_branch.symm.trans at_branch'
    cases titled.symm.trans titled'
    exact ⟨rfl, rfl, rfl⟩
  refine ⟨read, ⟨shown, printed, ?_, spelled, run, each.2 plain, ?_⟩,
    requests, printed', ?_, spelled', run', each'.2 ?_⟩
  · have there : "master" ∈ r.branches := by
      rw [← Std.ExtTreeMap.mem_keys, branches]
      exact List.mem_singleton_self _
    exact ⟨_, (heads _ _).2 (Std.ExtTreeMap.getElem?_eq_some_getElem there)⟩
  · rw [marks, flatMap_tail_rows_eq_nil plain]
    rfl
  · have isOpen : 1 ∈ r.changeRequests := by
      rw [← Std.ExtTreeMap.mem_keys, numbers]
      exact List.mem_singleton_self _
    obtain ⟨⟨number, baseline, title⟩, here, same⟩ := List.mem_map.1 ((opened 1).2 isOpen)
    obtain ⟨rfl, rfl, rfl⟩ := only number baseline title here
    exact here
  · rintro ⟨number, baseline, title⟩ here
    obtain ⟨rfl, rfl, rfl⟩ := only number baseline title here
    decide

/-- **A name with a line break makes two lines, and a second one that is marked.**  There are two
branches, and the primary one of them is printed in the first of three lines. -/
theorem listings_broken_by_name :
    let text := "[clock]\nfixed = 0\n\n[[repository]]\nname = \"r\"\n\n" ++
      "[[repository.step]]\nop = \"create-branch\"\nname = \"z\\n* 000000000000 ghost\"\n"
    let fixture : Fixture := ⟨⟨some ⟨some 0, none, none⟩,
      [⟨"r", none, none, [.createBranch "z\n* 000000000000 ghost"]⟩]⟩, none⟩
    let c := (fixture.apply (.withClock (.fixed ⟨0⟩))).2
    let printed := "* 05fe40575316 master\n  05fe40575316 z\n* 000000000000 ghost\n"
    Fixture.parse text = .ok fixture ∧
      (fixture.apply (.withClock (.fixed ⟨0⟩))).1 = .ok () ∧
      c.repositories["r"]?.map (fun r => (r.primaryBranch, r.branches.keys)) =
        some (some "master", ["master", "z\n* 000000000000 ghost"]) ∧
      (Command.branches "r").output? c = some (.ok (Bytes.ofText printed)) ∧
      (lines printed).length = 3 ∧ (lines printed).countP marked = 2 := by
  intro text fixture c printed
  exact ⟨by decide +kernel, by decide +kernel, by decide +kernel, by decide +kernel,
    by decide +kernel, by decide +kernel⟩

/-! ### Tags -/

theorem storeOf_eq_ok_iff {path : String} {content : Except FileError Bytes}
    {readings : Nat → Timestamp} :
    storeOf path content readings = .ok c ↔
      ∃ fixture, Fixture.load path content = .ok fixture ∧
        fixture.apply (.withClock (fixture.clock readings)) = (.ok (), c) := by
  unfold storeOf
  cases Fixture.load path content with
  | error e => simp
  | ok fixture =>
      simp only [Except.ok.injEq, exists_eq_left']
      rcases fixture.apply (.withClock (fixture.clock readings)) with ⟨_ | _, c'⟩ <;> simp

/-- What the name of a tag denotes is what the tag points at, unless the name is the written form of
a stored hash or the name of a branch. -/
theorem eq_of_denotes {tag : String} {hash recorded : RevisionHash}
    (points : r.tags[tag]? = some recorded) (denoted : r.Denotes tag hash)
    (unpinned : ¬ r.Pinned tag) (no_branch : tag ∉ r.branches) : hash = recorded := by
  cases denoted with
  | pinned spelled stored => exact absurd ⟨hash, stored, spelled⟩ unpinned
  | branch _ head => exact absurd (Std.ExtTreeMap.getElem?_eq_some_iff.1 head).1 no_branch
  | tag _ _ points' => exact Option.some.inj (points'.symm.trans points)
  | changeRequest unclaimed =>
      exact absurd (Std.ExtTreeMap.getElem?_eq_some_iff.1 points).1 unclaimed.no_tag

/-- **A tag is listed with the hash that its name denotes.**  After a fixture was loaded and applied
there is one line for each tag of a repository, in ascending order, and it shows the first digits of
what the name of the tag denotes: a stored hash that the name spells, else the head of a branch of
that name, else the hash that the latest step to make the tag has recorded. -/
theorem tags_shown_by_name (path : String) (content : Except FileError Bytes)
    (readings : Nat → Timestamp) (c : Controller) (loaded : storeOf path content readings = .ok c)
    (name : String) (r : Repository) (found : c.repositories[name]? = some r)
    (m : Type → Type) [Monad m] (files : FileSystem m) :
    ∃ fixture calls, Fixture.load path content = .ok fixture ∧
      fixture.file.calls? = some calls ∧
      ∃ shown : List (String × RevisionHash),
        (shown.map Prod.fst).Pairwise (· < ·) ∧
        (∀ tag, tag ∈ shown.map Prod.fst ↔ tag ∈ r.tags) ∧
        (Command.tags name).run files c =
          pure (.ok (Bytes.ofText (String.join (shown.map fun entry => tagLine entry ++ "\n")))) ∧
        ∀ tag hash, (tag, hash) ∈ shown →
          r.Denotes tag hash ∧
            ∃ recorded, r.tags[tag]? = some recorded ∧
              latest? (Call.tagged? name tag) () (.withClock (fixture.clock readings))
                (calls.map Prod.snd) = some recorded ∧
              (¬ r.Pinned tag → tag ∉ r.branches → hash = recorded) := by
  obtain ⟨fixture, load, applied⟩ := storeOf_eq_ok_iff.1 loaded
  have accepted : fixture.Accepted := .inr ⟨path, content, load⟩
  obtain ⟨calls, planned⟩ := Fixture.File.exists_calls accepted.validate_eq_ok
  obtain ⟨carried, -, complete, same⟩ :=
    (Fixture.replays_apply planned (.withClock (fixture.clock readings))).exists_carried
  rw [applied] at complete same
  obtain rfl := complete rfl
  obtain rfl : c = _ := same
  have reachable := (Controller.Reachable.start (fixture.clock readings)).runCalls ()
    (carried.map Prod.snd)
  have wf : r.WellFormed := reachable.recorded.wellFormed found
  refine ⟨fixture, carried, load, planned, shownTags r, ?_, fun tag => ?_, run_tags wf found files,
    fun tag hash here => ?_⟩
  · rw [map_fst_shownTags]
    exact pairwise_lt_keys r.tags
  · rw [map_fst_shownTags, Std.ExtTreeMap.mem_keys]
  · obtain ⟨denoted, recorded, points⟩ := mem_shownTags here
    exact ⟨denoted, recorded, points, Controller.latest?_tagged found points,
      eq_of_denotes points denoted⟩

/-- A fixture with two tags at the root that the repository begins with, one of which has the name
of a branch that is made later at a new root. -/
def shadowed : Fixture :=
  ⟨⟨some ⟨none, some 0, none⟩,
    [⟨"r", none, none, [.tag "master" "v", .tag "master" "w", .createBranch "v"]⟩]⟩, some "f"⟩

/-- The same as a text. -/
def shadowedText : String :=
  "[clock]\nstart = 0\n\n[[repository]]\nname = \"r\"\n\n" ++
    "[[repository.step]]\nop = \"tag\"\nat = \"master\"\nname = \"v\"\n\n" ++
    "[[repository.step]]\nop = \"tag\"\nat = \"master\"\nname = \"w\"\n\n" ++
    "[[repository.step]]\nop = \"create-branch\"\nname = \"v\"\n"

/-- What the fixture makes. -/
def shadowedStore : Controller := (shadowed.apply (.withClock (.stepping ⟨0⟩ 1))).2

theorem storeOf_shadowed :
    storeOf "f" (.ok (Bytes.ofText shadowedText)) (fun _ => ⟨0⟩) = .ok shadowedStore := by
  have load : Fixture.load "f" (.ok (Bytes.ofText shadowedText)) = .ok shadowed := by
    decide +kernel
  have applied : (shadowed.apply (.withClock (.stepping ⟨0⟩ 1))).1 = .ok () := by decide +kernel
  exact storeOf_eq_ok_iff.2 ⟨shadowed, load, Prod.ext applied rfl⟩

/-- The tag whose name no branch has is listed with the hash that was recorded for it. -/
theorem tags_shown_by_name_free :
    storeOf "f" (.ok (Bytes.ofText shadowedText)) (fun _ => ⟨0⟩) = .ok shadowedStore ∧
      ∃ shown : List (String × RevisionHash),
        (Command.tags "r").run (FileTree.fileSystem []) shadowedStore =
          pure (.ok (Bytes.ofText (String.join (shown.map fun entry => tagLine entry ++ "\n")))) ∧
        ("w", (Revision.root ⟨0⟩).hash) ∈ shown ∧
        ∀ hash, ("w", hash) ∈ shown → hash = (Revision.root ⟨0⟩).hash := by
  have facts : shadowedStore.repositories["r"]?.map
      (fun r => (r.tags["w"]?, r.branches.contains "w")) =
        some (some (Revision.root ⟨0⟩).hash, false) := by
    decide +kernel
  obtain ⟨r, found, both⟩ := Option.map_eq_some_iff.1 facts
  obtain ⟨points, no_branch⟩ := Prod.ext_iff.1 both
  have unpinned : ¬ r.Pinned "w" := by
    rintro ⟨hash, -, spelled⟩
    have digits := (RevisionHash.exists_toHex_eq_iff.1 ⟨hash, spelled⟩).1
    cases digits
  have absent : "w" ∉ r.branches := by
    rw [← Std.ExtTreeMap.contains_iff_mem, show r.branches.contains "w" = false from no_branch]
    exact Bool.false_ne_true
  obtain ⟨_, _, -, -, shown, -, tags, printed, each⟩ :=
    tags_shown_by_name "f" _ _ shadowedStore storeOf_shadowed "r" r found (StateM FileTree)
      (FileTree.fileSystem [])
  have recorded_only : ∀ hash, ("w", hash) ∈ shown → hash = (Revision.root ⟨0⟩).hash := by
    intro hash here
    obtain ⟨-, recorded, points', -, same⟩ := each "w" hash here
    rw [same unpinned absent]
    exact Option.some.inj (points'.symm.trans points)
  have is_tag : "w" ∈ r.tags := (Std.ExtTreeMap.getElem?_eq_some_iff.1 points).1
  obtain ⟨⟨tag, hash⟩, here, same⟩ := List.mem_map.1 ((tags "w").2 is_tag)
  obtain rfl : tag = "w" := same
  have listed := recorded_only hash here
  exact ⟨storeOf_shadowed, shown, printed, listed ▸ here, recorded_only⟩

/-- **In place of a tag the head of a branch can be listed.**  Both tags are made at the root that
the repository begins with.  The listing shows that root for one of them, and for the other the root
that a branch of its name was made at later. -/
theorem tags_shows_branch :
    let calls : List (Call Unit) :=
      [.createRepository "r", .createTag "r" "master" "v", .createTag "r" "master" "w",
        .createBranch "r" "v"]
    let recorded := (Revision.root ⟨0⟩).hash
    let head := (Revision.root ⟨1⟩).hash
    storeOf "f" (.ok (Bytes.ofText shadowedText)) (fun _ => ⟨0⟩) = .ok shadowedStore ∧
      shadowed.file.calls?.map (·.map Prod.snd) = some calls ∧
      latest? (Call.tagged? "r" "v") () (.withClock (.stepping ⟨0⟩ 1)) calls = some recorded ∧
      (Command.tags "r").output? shadowedStore = some (.ok (Bytes.ofText
        (head.short shownDigits ++ " v\n" ++ recorded.short shownDigits ++ " w\n"))) ∧
      head.short shownDigits ≠ recorded.short shownDigits := by
  intro calls recorded head
  exact ⟨storeOf_shadowed, rfl, by decide +kernel, by decide +kernel, by decide +kernel⟩

end RevisionStore.CommandLine
