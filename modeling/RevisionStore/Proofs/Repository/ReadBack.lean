/-
**What a commit target reads as afterwards.**

The name of a commit target and the name of a revision are told apart by rules of their own.  A
commit goes to the branch of a name, else to the open change request that the name spells; reading
looks for a stored hash and for a tag as well, the hash before the branch and the tag before the
change request.  So what was committed can be read under the name that it was committed to, except
where a branch goes by the written form of a stored hash, or a tag by the name of a change request.

Main definitions:

* `Repository.ResolvesTo` — a text resolves to the revision stored under a hash;
* `Repository.Committable` — the text is the name of a branch or of an open change request.

Main results:

* `ChangeRequest.Names.toHex_ne` — no hash is written like the name of a change request;
* `Repository.WellFormed.exists_commit_iff` — a commit succeeds exactly on those names;
* `Repository.headOf?_commit` — it points its target at the hash that it answers with, and no other
  ref elsewhere;
* `Repository.commit_reads_back` — **what the target of a commit points at and resolves to
  afterwards**.
-/

import RevisionStore.Proofs.Repository.Priority

set_option autoImplicit false

namespace RevisionStore

/-- No hash is written like the name of a change request, whose letters are not all digits. -/
theorem ChangeRequest.Names.toHex_ne {text : String} {value : Nat} (named : Names text value)
    (hash : RevisionHash) : hash.toHex ≠ text := by
  rintro rfl
  obtain ⟨digits, spelled, -⟩ := named
  have lower : hash.toHex.toList.all Hex.isLowercase = true := Hex.all_isLowercase_encode hash.bytes
  rw [spelled, List.all_append, Bool.and_eq_true] at lower
  exact absurd lower.1 (by decide)

namespace Repository

/-- The text resolves to the revision that is stored under the hash. -/
def ResolvesTo (r : Repository) (text : String) (hash : RevisionHash) : Prop :=
  ∃ revision, r.resolve text = .ok revision ∧ r.revisions[hash]? = some revision ∧
    revision.hash = hash

/-- The text is the name of a branch, or of an open change request. -/
def Committable (r : Repository) (text : String) : Prop :=
  text ∈ r.branches ∨ ∃ number ∈ r.changeRequests, ChangeRequest.Names text number.toNat

variable {r : Repository} {text message : String} {change : FileChange} {timestamp : Timestamp}
  {hash : RevisionHash}

/-- A text that denotes a hash resolves to what is stored there. -/
theorem WellFormed.resolvesTo (wf : WellFormed r) (denoted : r.Denotes text hash) :
    r.ResolvesTo text hash :=
  wf.read_named (named?_eq_some_iff.2 denoted)

/-! ### Which texts can be committed to -/

theorem exists_commitTarget_iff : (∃ target, r.commitTarget text = .ok target) ↔
    r.Committable text := by
  simp only [commitTarget_ok_iff, ChangeRequest.number?_eq_some_iff]
  constructor
  · rintro ⟨target, ⟨-, stored⟩ | ⟨number, -, -, named, isOpen⟩⟩
    · exact .inl stored
    · exact .inr ⟨number, isOpen, named⟩
  · intro committable
    by_cases stored : text ∈ r.branches
    · exact ⟨_, .inl ⟨rfl, stored⟩⟩
    · obtain ⟨number, isOpen, named⟩ := committable.resolve_left stored
      exact ⟨_, .inr ⟨number, rfl, stored, named, isOpen⟩⟩

/-- **A commit succeeds exactly on the names of branches and of open change requests.** -/
theorem WellFormed.exists_commit_iff (wf : WellFormed r) :
    (∃ hash, (r.commit text message change timestamp).1 = .ok hash) ↔ r.Committable text := by
  rw [← exists_commitTarget_iff]
  constructor
  · rintro ⟨hash, committed⟩
    obtain ⟨target, base, found, -⟩ := commit_eq_ok_iff.1 committed
    exact ⟨target, (commitBase_ok_iff.1 found).1⟩
  · rintro ⟨target, named⟩
    obtain ⟨base, found⟩ := wf.exists_commitBase named
    exact ⟨_, commit_eq_ok_iff.2 ⟨target, base, found, rfl⟩⟩

/-! ### Where the refs point afterwards -/

/-- **A commit points its target at the hash that it answers with**, and no other ref elsewhere. -/
theorem headOf?_commit (committed : (r.commit text message change timestamp).1 = .ok hash) :
    ∃ target, r.commitTarget text = .ok target ∧
      (r.commit text message change timestamp).2.headOf? =
        Function.update r.headOf? target.ref (some hash) := by
  obtain ⟨target, base, found, rfl⟩ := commit_eq_ok_iff.1 committed
  refine ⟨target, (commitBase_ok_iff.1 found).1, ?_⟩
  have moved : (Mutation.commit text message change timestamp).move? r =
      some (target.ref, some (base.child message timestamp change).hash) := by
    simp [Mutation.move?, found, Except.toOption]
  exact headOf?_of_moved moved

theorem branchHead_eq_ok_iff {branch : String} :
    r.branchHead branch = .ok hash ↔ r.headOf? (.branch branch) = some hash := by
  rw [branchHead, headOf?_branch]
  cases r.branches[branch]? <;> simp

theorem changeRequestHead_eq_ok_iff {number : UInt64} :
    r.changeRequestHead number = .ok hash ↔ r.headOf? (.changeRequest number) = some hash := by
  rw [changeRequestHead, headOf?_changeRequest]
  cases r.changeRequests[number]? <;> simp

/-! ### What is read -/

/-- A branch at a hash reads as that hash, unless its name is the written form of a stored one. -/
theorem WellFormed.reads_branch (wf : WellFormed r) (head : r.headOf? (.branch text) = some hash) :
    (∀ pinned ∈ r.revisions, pinned.toHex = text → r.ResolvesTo text pinned) ∧
      (¬ r.Pinned text → r.ResolvesTo text hash) :=
  ⟨fun _ stored spelled => wf.resolvesTo (.pinned spelled stored),
    fun unpinned => wf.resolvesTo (.branch unpinned head)⟩

/-- An open change request at a hash reads as that hash, unless a branch or a tag has its name. -/
theorem WellFormed.reads_changeRequest (wf : WellFormed r) {number : UInt64}
    (named : ChangeRequest.Names text number.toNat) (no_branch : text ∉ r.branches)
    (head : r.headOf? (.changeRequest number) = some hash) :
    (∀ tagged, r.tags[text]? = some tagged → r.ResolvesTo text tagged) ∧
      (text ∉ r.tags → r.ResolvesTo text hash) := by
  have unpinned : ¬ r.Pinned text := fun ⟨pinned, _, spelled⟩ => named.toHex_ne pinned spelled
  refine ⟨fun tagged recorded => wf.resolvesTo (.tag unpinned no_branch recorded), ?_⟩
  intro no_tag
  obtain ⟨request, isOpen, rfl⟩ := Option.map_eq_some_iff.1 head
  exact wf.resolvesTo (.changeRequest ⟨unpinned, no_branch, no_tag⟩ named isOpen)

/-- **Commit targets and names of revisions agree up to what goes before them.**  In a reachable
repository a commit succeeds exactly if its text is the name of a branch or of an open change
request.  If it is a branch, that points at the new hash afterwards, and the text resolves to the
revision there, unless it is the written form of a stored hash, and then to what is stored under
that.  If it is not, it is the name of an open change request, which points at the new hash
afterwards, and the text resolves to the revision there, unless a tag has that name, and then to
what the tag points at. -/
theorem commit_reads_back (name : String) (start : Timestamp) (ms : List Mutation)
    (text message : String) (change : FileChange) (timestamp : Timestamp) :
    let r := reached name start ms
    let outcome := r.commit text message change timestamp
    ((∃ hash, outcome.1 = .ok hash) ↔ r.Committable text) ∧
      ∀ hash, outcome.1 = .ok hash →
        (text ∈ r.branches →
          outcome.2.branchHead text = .ok hash ∧
          (∀ pinned ∈ outcome.2.revisions, pinned.toHex = text →
            outcome.2.ResolvesTo text pinned) ∧
          (¬ outcome.2.Pinned text → outcome.2.ResolvesTo text hash)) ∧
        (text ∉ r.branches →
          ∃ number ∈ r.changeRequests, ChangeRequest.Names text number.toNat ∧
            outcome.2.changeRequestHead number = .ok hash ∧
            (∀ tagged, outcome.2.tags[text]? = some tagged →
              outcome.2.ResolvesTo text tagged) ∧
            (text ∉ outcome.2.tags → outcome.2.ResolvesTo text hash)) := by
  intro r outcome
  have wf : WellFormed r := wellFormed_reached name start ms
  have after : WellFormed outcome.2 := wf.perform (.commit text message change timestamp)
  refine ⟨wf.exists_commit_iff, fun hash committed => ?_⟩
  obtain ⟨target, named, heads⟩ := headOf?_commit committed
  have head : outcome.2.headOf? target.ref = some hash := by rw [heads, Function.update_self]
  rcases commitTarget_ok_iff.1 named with ⟨rfl, stored⟩ | ⟨number, rfl, no_branch, read, isOpen⟩
  · exact ⟨fun _ => ⟨branchHead_eq_ok_iff.2 head, after.reads_branch head⟩, absurd stored⟩
  · refine ⟨fun stored => absurd stored no_branch, fun _ => ⟨number, isOpen, ?_⟩⟩
    have form := ChangeRequest.number?_eq_some_iff.1 read
    have no_branch_after : text ∉ outcome.2.branches := by
      rw [← headOf?_branch_eq_none_iff, heads, Function.update_of_ne (by rintro ⟨⟩),
        headOf?_branch_eq_none_iff]
      exact no_branch
    exact ⟨form, changeRequestHead_eq_ok_iff.2 head,
      after.reads_changeRequest form no_branch_after head⟩

/-- A branch that goes by the written form of the hash of its head, and a tag that goes by the name
of an open change request. -/
def crossNamed : List Mutation :=
  [.cloneBranch "master" (Revision.root ⟨0⟩).hash.toHex, .openChangeRequest "master" none,
    .createTag "master" "change-request/1"]

/-- A commit to either of the two succeeds, and the name resolves to the root as before. -/
theorem commit_reads_back_crossNamed :
    let r := reached "r" ⟨0⟩ crossNamed
    let root := Revision.root ⟨0⟩
    let hash := (root.child "m" ⟨1⟩ (.add "a" [1])).hash
    let toBranch := r.commit root.hash.toHex "m" (.add "a" [1]) ⟨1⟩
    let toRequest := r.commit "change-request/1" "m" (.add "a" [1]) ⟨1⟩
    (toBranch.1 = .ok hash ∧ toBranch.2.branchHead root.hash.toHex = .ok hash ∧
      toBranch.2.ResolvesTo root.hash.toHex root.hash) ∧
      toRequest.1 = .ok hash ∧ toRequest.2.changeRequestHead 1 = .ok hash ∧
      toRequest.2.ResolvesTo "change-request/1" root.hash := by
  intro r root hash toBranch toRequest
  have committed : toBranch.1 = .ok hash ∧ root.hash.toHex ∈ r.branches ∧
      root.hash ∈ toBranch.2.revisions := by decide +kernel
  have committed' : toRequest.1 = .ok hash ∧ "change-request/1" ∉ r.branches ∧
      toRequest.2.tags["change-request/1"]? = some root.hash ∧
      toRequest.2.changeRequestHead 1 = .ok hash := by decide +kernel
  obtain ⟨-, reads⟩ := commit_reads_back "r" ⟨0⟩ crossNamed root.hash.toHex "m" (.add "a" [1]) ⟨1⟩
  obtain ⟨-, reads'⟩ := commit_reads_back "r" ⟨0⟩ crossNamed "change-request/1" "m" (.add "a" [1])
    ⟨1⟩
  obtain ⟨points, pinned, -⟩ := (reads hash committed.1).1 committed.2.1
  obtain ⟨number, -, -, -, tagged, -⟩ := (reads' hash committed'.1).2 committed'.2.1
  exact ⟨⟨committed.1, points, pinned _ committed.2.2 rfl⟩, committed'.1, committed'.2.2.2,
    tagged _ committed'.2.2.1⟩

end Repository

end RevisionStore
