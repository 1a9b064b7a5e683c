/-
**When a call is refused, and with which error.**

A call that names a repository is refused where the repository is not there, where the repository
lacks what the call needs, and for nothing else; only a checkout can fail later, while its files are
being written.  The creation of a repository is refused where the repository is there.  The question
when a revision was last modified is never refused: it is answered with nothing where it cannot be
answered.

Main definitions:

* `Controller.Call.needsRepository`, `Controller.Call.need` — does a call need the repository that
  it names, and what does it need of it;
* `Controller.Refuses` — **which calls are refused**, one rule for each reason;
* `Destination.FolderError` — why a directory refuses a file.

Main results:

* `Controller.Call.run_of_absent` — a call that needs its repository fails where that is missing;
* `Controller.Call.run_eq_error_iff` — where it is there, a call fails if its need is not met;
* `Destination.writeAll_folder_error` — a directory refuses only paths that it does not accept and
  those that cannot be written;
* `Controller.calls_refused_exactly` — **a call fails exactly as the rules say**, in every reachable
  controller;
* `Controller.neutral_answer_and_checkout` — a call about a missing repository need not fail, and a
  checkout fails where the identifier names nothing.
-/

import RevisionStore.Proofs.Checkout.Confinement
import RevisionStore.Proofs.Controller.Histories
import RevisionStore.Proofs.Repository.Need

set_option autoImplicit false

namespace RevisionStore

/-! ### What destinations refuse -/

namespace Destination

variable {σ : Type}

/-- Why a directory refuses a file: the path is not one that it accepts, or writing it failed. -/
def FolderError (e : StoreError) : Prop :=
  (∃ path, e = .invalidPath path) ∨ ∃ path cause, e = .checkoutFailed path cause

theorem folderError_of_mapError {path : String} {result : Except FileError Unit} {e : StoreError}
    (failed : result.mapError (.checkoutFailed path) = .error e) : FolderError e := by
  cases result with
  | ok _ => cases failed
  | error cause => cases failed; exact .inr ⟨path, cause, rfl⟩

theorem folderError_of_write {files : FileSystem (StateM σ)} {root path : String} {content : Bytes}
    {place : σ} {e : StoreError}
    (refused : (((folder files root).write path content).run place).1 = .error e) :
    FolderError e := by
  by_cases accepted : Path.staysInside path = true
  · simp only [folder, accepted, Bool.not_true, Bool.false_eq_true, if_false] at refused
    split at refused
    · next above _ =>
        -- The directories on the way come first.
        rw [FileTree.run_bind] at refused
        rcases made : (files.createDirectories above).run place with ⟨cause | _, place'⟩
        · rw [made] at refused
          cases refused
          exact .inr ⟨above, cause, rfl⟩
        · rw [made] at refused
          exact folderError_of_mapError refused
    · exact folderError_of_mapError refused
  · simp only [folder, accepted] at refused
    cases refused
    exact .inl ⟨path, rfl⟩

theorem writeAll_folder_error {files : FileSystem (StateM σ)} {root : String}
    {written : List (String × Bytes)} {place : σ} {e : StoreError}
    (refused : (((folder files root).writeAll written).run place).1 = .error e) :
    FolderError e := by
  obtain ⟨_, file, _, middle, -, -, failed⟩ := writeAll_eq_error_iff.1 (Prod.ext refused rfl)
  exact folderError_of_write (congrArg Prod.fst failed)

end Destination

namespace Controller

variable {σ : Type} {place : σ} {c : Controller} {call : Call σ} {name : String} {e : StoreError}

/-! ### What a call needs -/

/-- Does the call need the repository that it names?  One that creates it does not, nor does one
that has a neutral answer. -/
def Call.needsRepository : Call σ → Bool
  | createRepository _ | lastModified _ _ | listRepositories => false
  | _ => true

/-- What the call needs of the repository that it names. -/
def Call.need : Call σ → Need
  | setPrimaryBranch _ branch => .branch branch
  | cloneBranch _ source _ => .branch source
  | openChangeRequest _ branch _ => .branch branch
  | branchHead _ branch => .branch branch
  | changeRequestHead _ number => .changeRequest number
  | addFile _ target _ _ _ => .target target
  | removeFile _ target _ _ => .target target
  | createTag _ identifier _ => .identifier identifier
  | resolve _ identifier => .identifier identifier
  | checkout _ _ identifier => .identifier identifier
  | log _ identifier => .identifier identifier
  | stat _ identifier _ => .identifier identifier
  | fileContent _ identifier _ => .identifier identifier
  | listFiles _ identifier => .identifier identifier
  | _ => .nothing

theorem Call.need_of_mutation {now : Timestamp} {m : Mutation}
    (carries : call.mutation? now = some m) : call.need = m.need := by
  cases call <;> cases carries <;> rfl

/-! ### Refusals -/

/-- The refusals of a controller, one rule for each reason. -/
inductive Refuses (c : Controller) (place : σ) : Call σ → StoreError → Prop
  | repositoryExists {name : String} (present : name ∈ c.repositories) :
      Refuses c place (.createRepository name) (.repositoryExists name)
  | unknownRepository {call : Call σ} {name : String} (names : call.repository? = some name)
      (needed : call.needsRepository = true) (absent : name ∉ c.repositories) :
      Refuses c place call (.unknownRepository name)
  | unmet {call : Call σ} {name : String} {r : Repository} {e : StoreError}
      (names : call.repository? = some name) (found : c.repositories[name]? = some r)
      (unmet : call.need.Unmet r e) : Refuses c place call e
  | notWritten {destination : Destination (StateM σ)} {name identifier : String} {r : Repository}
      {revision : Revision} {e : StoreError} (found : c.repositories[name]? = some r)
      (named : r.resolve identifier = .ok revision)
      (refused : ((destination.writeAll revision.files.toList).run place).1 = .error e) :
      Refuses c place (.checkout destination name identifier) e

/-! ### Calls about a repository that is missing -/

theorem inspect_of_absent {α : Type} (absent : c.repositories[name]? = none)
    (look : Repository → Except StoreError α) :
    c.inspect name look = .error (.unknownRepository name) := by
  rw [inspect, find, absent]
  rfl

theorem inspect_of_found {α : Type} {r : Repository} (found : c.repositories[name]? = some r)
    (look : Repository → Except StoreError α) : c.inspect name look = look r := by
  rw [inspect, find, found]
  rfl

theorem looking_eq_error_iff {α : Type} {answer : α → Answer} {r : Repository}
    (found : c.repositories[name]? = some r) (look : Repository → Except StoreError α) :
    (looking answer c (c.inspect name look)).1 = .error e ↔ look r = .error e := by
  rw [inspect_of_found found]
  exact map_eq_error_iff

/-- Looking at what is there in any case needs nothing. -/
theorem looking_ok_eq_error_iff {α : Type} {answer : α → Answer} {r : Repository}
    (found : c.repositories[name]? = some r) {look : Repository → α} :
    (looking answer c (c.inspect name fun r => .ok (look r))).1 = .error e ↔
      Need.nothing.Unmet r e :=
  (looking_eq_error_iff found _).trans (iff_of_false (by rintro ⟨⟩) Need.not_unmet_nothing)

/-- Looking at a revision needs a name of one. -/
theorem looking_resolve_eq_error_iff {α : Type} {answer : α → Answer} {r : Repository}
    (wf : r.WellFormed) (found : c.repositories[name]? = some r) {identifier : String}
    {look : Revision → α} :
    (looking answer c (c.inspect name fun r => (r.resolve identifier).map look)).1 = .error e ↔
      (Need.identifier identifier).Unmet r e :=
  (looking_eq_error_iff found _).trans (map_eq_error_iff.trans wf.resolve_eq_error_iff)

theorem edit_fst_of_missing {α : Type} {e : StoreError} (missing : c.find name = .error e)
    (change : Repository → Except StoreError α × Repository) :
    (c.edit name change).1 = .error e := by
  rw [edit_of_missing missing]

/-- **A call that needs its repository fails where that is missing.** -/
theorem Call.run_of_absent (names : call.repository? = some name)
    (needed : call.needsRepository = true) (absent : c.repositories[name]? = none) :
    (call.run place c).1.1 = .error (.unknownRepository name) := by
  have missing : c.find name = .error (.unknownRepository name) := by rw [find, absent]
  cases call with
  | createRepository => cases needed
  | lastModified => cases needed
  | listRepositories => cases needed
  | deleteRepository =>
      cases names
      simp only [run, answering, Controller.deleteRepository, contains_of_absent absent]
      rfl
  | createBranch =>
      cases names
      simp only [run, answering, Controller.createBranch, missing]
      rfl
  | addFile =>
      cases names
      simp only [run, answering, Controller.addFile, Controller.commit, missing]
      rfl
  | removeFile =>
      cases names
      simp only [run, answering, Controller.removeFile, Controller.commit, missing]
      rfl
  | checkout destination repository identifier =>
      cases names
      have nothing := inspect_of_absent absent fun r =>
        (r.resolve identifier).map fun revision => (revision.hash, revision.files)
      simp only [run, looking, answering, checkout_run, snapshot, nothing]
      rfl
  | setDescription => cases names; exact map_eq_error_iff.2 (edit_fst_of_missing missing _)
  | setPrimaryBranch => cases names; exact map_eq_error_iff.2 (edit_fst_of_missing missing _)
  | cloneBranch => cases names; exact map_eq_error_iff.2 (edit_fst_of_missing missing _)
  | deleteBranch => cases names; exact map_eq_error_iff.2 (edit_fst_of_missing missing _)
  | createTag => cases names; exact map_eq_error_iff.2 (edit_fst_of_missing missing _)
  | deleteTag => cases names; exact map_eq_error_iff.2 (edit_fst_of_missing missing _)
  | openChangeRequest => cases names; exact map_eq_error_iff.2 (edit_fst_of_missing missing _)
  | closeChangeRequest => cases names; exact map_eq_error_iff.2 (edit_fst_of_missing missing _)
  -- The rest only look.
  | _ => cases names; exact map_eq_error_iff.2 (inspect_of_absent absent _)

/-! ### Calls about a repository that is there -/

/-- The creation of a repository fails where that is there. -/
theorem Call.run_createRepository_eq_error_iff :
    ((Call.createRepository name).run place c).1.1 = .error e ↔
      name ∈ c.repositories ∧ e = .repositoryExists name := by
  refine map_eq_error_iff.trans ?_
  rw [Controller.createRepository]
  by_cases present : name ∈ c.repositories <;> simp [present, eq_comm (a := e)]

/-- A checkout of a repository that is there fails where the identifier names nothing, and where a
file is refused. -/
theorem Call.run_checkout_eq_error_iff {r : Repository} (wf : r.WellFormed)
    (found : c.repositories[name]? = some r) {destination : Destination (StateM σ)}
    {identifier : String} :
    ((Call.checkout destination name identifier).run place c).1.1 = .error e ↔
      (Need.identifier identifier).Unmet r e ∨
        ∃ revision, r.resolve identifier = .ok revision ∧
          ((destination.writeAll revision.files.toList).run place).1 = .error e := by
  have run : ((Call.checkout destination name identifier).run place c).1.1 =
      ((c.checkout destination name identifier).run place).1.map .hash := rfl
  rw [run, map_eq_error_iff, ← wf.resolve_eq_error_iff, checkout_run, snapshot,
    inspect_of_found found]
  cases r.resolve identifier with
  | error e' => simp [Except.map]
  | ok revision => exact map_eq_error_iff.trans (by simp)

/-- **Any other call about a repository that is there fails exactly where its need is not met.** -/
theorem Call.run_eq_error_iff {r : Repository} (wf : r.WellFormed)
    (names : call.repository? = some name) (found : c.repositories[name]? = some r)
    (no_creation : ∀ name, call ≠ .createRepository name)
    (no_checkout : ∀ destination name identifier, call ≠ .checkout destination name identifier) :
    (call.run place c).1.1 = .error e ↔ call.need.Unmet r e := by
  cases carries : call.mutation? c.clock.read.1 with
  | some m =>
      rw [call.need_of_mutation carries, ← wf.perform_eq_error_iff,
        answer_of_mutation names found carries]
      exact map_eq_error_iff
  | none =>
      cases call with
      | listRepositories => cases names
      | createRepository => exact absurd rfl (no_creation _)
      | checkout => exact absurd rfl (no_checkout _ _ _)
      | deleteRepository =>
          cases names
          rw [run, Controller.deleteRepository, if_pos (contains_of_found found)]
          exact iff_of_false (by rintro ⟨⟩) Need.not_unmet_nothing
      | lastModified => exact iff_of_false (by rintro ⟨⟩) Need.not_unmet_nothing
      | branchHead =>
          cases names
          exact (looking_eq_error_iff found _).trans Repository.branchHead_eq_error_iff
      | changeRequestHead =>
          cases names
          exact (looking_eq_error_iff found _).trans Repository.changeRequestHead_eq_error_iff
      | log =>
          cases names
          refine (looking_eq_error_iff found _).trans (Iff.trans ?_ wf.resolve_eq_error_iff)
          rw [Repository.log]
          cases r.resolve _ <;> simp [bind, Except.bind, pure, Except.pure]
      | resolve => cases names; exact looking_resolve_eq_error_iff wf found
      | stat => cases names; exact looking_resolve_eq_error_iff wf found
      | fileContent => cases names; exact looking_resolve_eq_error_iff wf found
      | listFiles => cases names; exact looking_resolve_eq_error_iff wf found
      | description => cases names; exact looking_ok_eq_error_iff found
      | primaryBranch => cases names; exact looking_ok_eq_error_iff found
      | listBranches => cases names; exact looking_ok_eq_error_iff found
      | listTags => cases names; exact looking_ok_eq_error_iff found
      | changeRequestBaseline => cases names; exact looking_ok_eq_error_iff found
      | changeRequestTitle => cases names; exact looking_ok_eq_error_iff found
      | listChangeRequests => cases names; exact looking_ok_eq_error_iff found
      | changeRequestsTargeting => cases names; exact looking_ok_eq_error_iff found
      | _ => cases carries

/-! ### The rules -/

/-- What the rules refuse fails. -/
theorem Refuses.run_eq_error (recorded : c.Recorded) (refuses : c.Refuses place call e) :
    (call.run place c).1.1 = .error e := by
  cases refuses with
  | repositoryExists present => exact Call.run_createRepository_eq_error_iff.2 ⟨present, rfl⟩
  | unknownRepository names needed absent =>
      exact Call.run_of_absent names needed (Std.ExtTreeMap.getElem?_eq_none absent)
  | @unmet _ name r _ names found unmet =>
      have wf := recorded.wellFormed found
      cases call with
      | createRepository => cases unmet
      | checkout => cases names; exact (Call.run_checkout_eq_error_iff wf found).2 (.inl unmet)
      | _ => exact (Call.run_eq_error_iff wf names found (by simp) (by simp)).2 unmet
  | notWritten found named refused =>
      exact (Call.run_checkout_eq_error_iff (recorded.wellFormed found) found).2
        (.inr ⟨_, named, refused⟩)

/-- What fails, the rules refuse. -/
theorem Refuses.of_run_eq_error (recorded : c.Recorded)
    (failed : (call.run place c).1.1 = .error e) : c.Refuses place call e := by
  cases names : call.repository? with
  | none =>
      cases call with
      | listRepositories => cases failed
      | _ => cases names
  | some name =>
      cases found : c.repositories[name]? with
      | none =>
          have absent : name ∉ c.repositories := (getElem?_eq_none_iff _ _).1 found
          cases needed : call.needsRepository with
          | true =>
              cases (Call.run_of_absent names needed found).symm.trans failed
              exact .unknownRepository names needed absent
          | false =>
              cases call with
              | createRepository =>
                  cases names
                  exact absurd (Call.run_createRepository_eq_error_iff.1 failed).1 absent
              | lastModified => cases failed
              | listRepositories => cases failed
              | _ => cases needed
      | some r =>
          have wf := recorded.wellFormed found
          cases call with
          | createRepository =>
              obtain ⟨present, rfl⟩ := Call.run_createRepository_eq_error_iff.1 failed
              exact .repositoryExists present
          | checkout =>
              cases names
              rcases (Call.run_checkout_eq_error_iff wf found).1 failed with
                unmet | ⟨revision, named, refused⟩
              · exact .unmet rfl found unmet
              · exact .notWritten found named refused
          | _ =>
              exact .unmet names found
                ((Call.run_eq_error_iff wf names found (by simp) (by simp)).1 failed)

/-- What is refused is a repository that exists, or something that could not be found in the
repository that the call names, or a file that the destination of a checkout refused. -/
theorem Refuses.cause (recorded : c.Recorded) (names : call.repository? = some name)
    (refuses : c.Refuses place call e) :
    (call = .createRepository name ∧ e = .repositoryExists name) ∨
      (e.isNotFound = true ∧ e.repository? = some name) ∨
      ∃ destination identifier files, call = .checkout destination name identifier ∧
        ((destination.writeAll files).run place).1 = .error e := by
  cases refuses with
  | repositoryExists present =>
      cases names
      exact .inl ⟨rfl, rfl⟩
  | unknownRepository names' needed absent =>
      cases names.symm.trans names'
      exact .inr (.inl ⟨rfl, rfl⟩)
  | unmet names' found unmet =>
      cases names.symm.trans names'
      have told := unmet.repository?_eq
      rw [recorded.name_eq found] at told
      exact .inr (.inl ⟨unmet.isNotFound, told⟩)
  | notWritten found named refused =>
      cases names
      exact .inr (.inr ⟨_, _, _, rfl, refused⟩)

/-- There is no time of last modification where the repository is missing, and where the identifier
names nothing in it. -/
theorem lastModified_eq_none_iff (recorded : c.Recorded) {identifier : String} :
    c.lastModified name identifier = none ↔
      name ∉ c.repositories ∨
        ∃ r e, c.repositories[name]? = some r ∧ (Need.identifier identifier).Unmet r e := by
  rw [lastModified]
  cases found : c.repositories[name]? with
  | none =>
      rw [inspect_of_absent found]
      exact iff_of_true rfl (.inl ((getElem?_eq_none_iff _ _).1 found))
  | some r =>
      have present : name ∈ c.repositories := (Std.ExtTreeMap.getElem?_eq_some_iff.1 found).1
      have wf := recorded.wellFormed found
      rw [inspect_of_found found]
      cases resolved : r.resolve identifier with
      | error e => exact iff_of_true rfl (.inr ⟨r, e, rfl, wf.resolve_eq_error_iff.1 resolved⟩)
      | ok revision =>
          refine iff_of_false (by rintro ⟨⟩) ?_
          rintro (absent | ⟨r', e, same, unmet⟩)
          · exact absent present
          · cases same
            cases resolved.symm.trans (wf.resolve_eq_error_iff.2 unmet)

/-- **A call fails exactly as the rules say**, in every reachable controller.  What the error tells
is that the repository to be created exists, or that something could not be found, and then it tells
of the repository that the call names; it is something else only where the destination of a checkout
refused a file, which a directory does for a path that it does not accept and for a file that cannot
be written.  The time of last modification is answered in any case: there is none where the
repository is missing and where the identifier names nothing in it. -/
theorem calls_refused_exactly {c : Controller} (reachable : c.Reachable) {σ : Type} (place : σ)
    (call : Call σ) :
    (∀ e, (call.run place c).1.1 = .error e ↔ c.Refuses place call e) ∧
      ∀ name, call.repository? = some name →
        (∀ e, c.Refuses place call e →
          (call = .createRepository name ∧ e = .repositoryExists name) ∨
            (e.isNotFound = true ∧ e.repository? = some name) ∨
            ∃ destination identifier files, call = .checkout destination name identifier ∧
              ((destination.writeAll files).run place).1 = .error e) ∧
        (∀ files root identifier e, call = .checkout (.folder files root) name identifier →
          c.Refuses place call e →
            (e.isNotFound = true ∧ e.repository? = some name) ∨ Destination.FolderError e) ∧
        ∀ identifier, call = .lastModified name identifier →
          ∃ time, (call.run place c).1.1 = .ok (.time? time) ∧
            (time = none ↔ name ∉ c.repositories ∨
              ∃ r e, c.repositories[name]? = some r ∧ (Need.identifier identifier).Unmet r e) := by
  have recorded := reachable.recorded
  refine ⟨fun e => ⟨Refuses.of_run_eq_error recorded, Refuses.run_eq_error recorded⟩,
    fun name names => ⟨fun e => Refuses.cause recorded names, ?_, ?_⟩⟩
  · rintro files root identifier e rfl refuses
    rcases refuses.cause recorded names with
      ⟨⟨⟩, -⟩ | found | ⟨destination, _, written, same, refused⟩
    · exact .inl found
    · cases same
      exact .inr (Destination.writeAll_folder_error refused)
  · rintro identifier rfl
    exact ⟨_, rfl, lastModified_eq_none_iff recorded⟩

/-- A commit to a change request that is not open fails for that reason. -/
theorem calls_refused_exactly_closed :
    let c := ((Controller.withClock (.fixed ⟨0⟩)).createRepository "r").2
    let call : Call Unit := .addFile "r" "change-request/07" "m" "a" [1]
    c.Reachable ∧ call.repository? = some "r" ∧
      c.Refuses () call (.unknownChangeRequest "r" 7) ∧
      (StoreError.unknownChangeRequest "r" 7).isNotFound = true := by
  intro c call
  have reachable : c.Reachable :=
    (Reachable.start (.fixed ⟨0⟩)).call () (.createRepository "r")
  obtain ⟨exactly, about⟩ := calls_refused_exactly reachable () call
  have refuses : c.Refuses () call (.unknownChangeRequest "r" 7) :=
    (exactly _).1 (by decide +kernel)
  refine ⟨reachable, rfl, refuses, ?_⟩
  rcases (about "r" rfl).1 _ refuses with ⟨creation, -⟩ | found | ⟨_, _, _, checkout, -⟩
  · exact absurd creation (by simp [call])
  · exact found.1
  · exact absurd checkout (by simp [call])

/-- **A call about a repository need not fail where that is missing, and may fail where it is
there.**  When a missing repository was last modified is answered with nothing, and a checkout of
what an identifier does not name is refused. -/
theorem neutral_answer_and_checkout :
    let c := ((Controller.withClock (.fixed ⟨0⟩)).createRepository "r").2
    let modified : Call Snapshot := .lastModified "s" "master"
    let checkout : Call Snapshot := .checkout .memory "r" "nope"
    (modified.repository? = some "s" ∧ "s" ∉ c.repositories ∧
      (modified.run ∅ c).1.1 = .ok (.time? none)) ∧
    checkout.repository? = some "r" ∧ "r" ∈ c.repositories ∧
      (checkout.run ∅ c).1.1 = .error (.unknownIdentifier "r" "nope") := by
  decide +kernel

end Controller

end RevisionStore
