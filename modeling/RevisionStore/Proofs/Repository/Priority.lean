/-
**Resolving a text follows the documented order.**

A text can be the written form of a stored hash, the name of a branch, the name of a tag and the
name of a change request at once.  The rules for that are stated here one by one, each with the
conditions under which it applies, and resolving a text is shown to give a result exactly if the
rules do.  That the revision is there once the hash is found is what the invariant of reachable
repositories is for.

Main definitions:

* `Repository.Denotes` — the hash that a text denotes: a stored hash, else the head of a branch,
  else the hash of a tag, else the head of an open change request;
* `Repository.Unclaimed` — the text is neither of the first three;
* `Repository.Resolves` — **what resolving a text gives**, the two errors included.

Main results:

* `Repository.named?_eq_some_iff` — looking a text up finds the hash that the rules say;
* `Repository.resolve_of_closed`, `Repository.resolve_of_unnamed` — the two errors, and when they
  arise;
* `Repository.resolve_follows_order` — **resolving is the rules**, in every reachable repository.
-/

import RevisionStore.Proofs.ChangeRequestName
import RevisionStore.Proofs.Repository.WellFormed

set_option autoImplicit false

namespace RevisionStore.Repository

/-! ### The rules -/

/-- The text is the written form of a stored hash. -/
def Pinned (r : Repository) (text : String) : Prop := ∃ hash ∈ r.revisions, hash.toHex = text

/-- Neither a stored hash nor a branch nor a tag goes by the text. -/
structure Unclaimed (r : Repository) (text : String) : Prop where
  unpinned : ¬ r.Pinned text
  no_branch : text ∉ r.branches
  no_tag : text ∉ r.tags

/-- The hash that a text denotes, one rule for each kind of name.  A rule applies only where none of
those before it does. -/
inductive Denotes (r : Repository) (text : String) : RevisionHash → Prop
  | pinned {hash : RevisionHash} (spelled : hash.toHex = text) (stored : hash ∈ r.revisions) :
      Denotes r text hash
  | branch {hash : RevisionHash} (unpinned : ¬ r.Pinned text)
      (head : r.branches[text]? = some hash) : Denotes r text hash
  | tag {hash : RevisionHash} (unpinned : ¬ r.Pinned text) (no_branch : text ∉ r.branches)
      (recorded : r.tags[text]? = some hash) : Denotes r text hash
  | changeRequest {number : UInt64} {request : ChangeRequest} (unclaimed : r.Unclaimed text)
      (named : ChangeRequest.Names text number.toNat)
      (isOpen : r.changeRequests[number]? = some request) : Denotes r text request.head

/-- What resolving a text gives: the revision stored under the hash that the text denotes, or one of
two errors. -/
inductive Resolves (r : Repository) (text : String) : Except StoreError Revision → Prop
  | found {hash : RevisionHash} {revision : Revision} (denoted : r.Denotes text hash)
      (stored : r.revisions[hash]? = some revision) : Resolves r text (.ok revision)
  | closed {number : UInt64} (unclaimed : r.Unclaimed text)
      (named : ChangeRequest.Names text number.toNat) (not_open : number ∉ r.changeRequests) :
      Resolves r text (.error (.unknownChangeRequest r.name number))
  | unknown (unclaimed : r.Unclaimed text)
      (unnamed : ∀ number : UInt64, ¬ ChangeRequest.Names text number.toNat) :
      Resolves r text (.error (.unknownIdentifier r.name text))

/-! ### The hash that a text denotes -/

variable {r : Repository} {text : String}

theorem pinned?_eq_none_iff : r.pinned? text = none ↔ ¬ r.Pinned text := by
  constructor
  · rintro nothing ⟨hash, stored, spelled⟩
    have pinned := pinned?_eq_some_iff.2 ⟨RevisionHash.parse_eq_ok_iff.2 spelled, stored⟩
    rw [nothing] at pinned
    cases pinned
  · intro unpinned
    rw [Option.eq_none_iff_forall_ne_some]
    intro hash pinned
    obtain ⟨spelled, stored⟩ := pinned?_eq_some_iff.1 pinned
    exact unpinned ⟨hash, stored, RevisionHash.parse_eq_ok_iff.1 spelled⟩

theorem headOf?_branch_eq_none_iff : r.headOf? (.branch text) = none ↔ text ∉ r.branches := by
  rw [headOf?_branch, getElem?_eq_none_iff]

theorem headOf?_tag_eq_none_iff : r.headOf? (.tag text) = none ↔ text ∉ r.tags := by
  rw [headOf?_tag, getElem?_eq_none_iff]

theorem unclaimed_iff : r.Unclaimed text ↔
    r.pinned? text = none ∧ r.headOf? (.branch text) = none ∧ r.headOf? (.tag text) = none := by
  rw [pinned?_eq_none_iff, headOf?_branch_eq_none_iff, headOf?_tag_eq_none_iff]
  exact ⟨fun ⟨p, b, t⟩ => ⟨p, b, t⟩, fun ⟨p, b, t⟩ => ⟨p, b, t⟩⟩

/-- **The first of the four lookups finds the hash that the rules say.** -/
theorem named?_eq_some_iff {hash : RevisionHash} :
    r.named? text = some hash ↔ r.Denotes text hash := by
  simp only [named?, Option.or_eq_some_iff, pinned?_eq_none_iff, headOf?_branch_eq_none_iff,
    headOf?_tag_eq_none_iff]
  constructor
  · rintro (pinned | ⟨unpinned, head | ⟨no_branch, recorded | ⟨no_tag, request⟩⟩⟩)
    · obtain ⟨spelled, stored⟩ := pinned?_eq_some_iff.1 pinned
      exact .pinned (RevisionHash.parse_eq_ok_iff.1 spelled) stored
    · exact .branch unpinned head
    · exact .tag unpinned no_branch recorded
    · obtain ⟨number, named, head⟩ := Option.bind_eq_some_iff.1 request
      obtain ⟨request, isOpen, rfl⟩ := Option.map_eq_some_iff.1 head
      exact .changeRequest ⟨unpinned, no_branch, no_tag⟩
        (ChangeRequest.number?_eq_some_iff.1 named) isOpen
  · intro denoted
    cases denoted with
    | pinned spelled stored =>
        exact .inl (pinned?_eq_some_iff.2 ⟨RevisionHash.parse_eq_ok_iff.2 spelled, stored⟩)
    | branch unpinned head => exact .inr ⟨unpinned, .inl head⟩
    | tag unpinned no_branch recorded => exact .inr ⟨unpinned, .inr ⟨no_branch, .inl recorded⟩⟩
    | changeRequest unclaimed named isOpen =>
        refine .inr ⟨unclaimed.unpinned, .inr ⟨unclaimed.no_branch, .inr ⟨unclaimed.no_tag, ?_⟩⟩⟩
        rw [ChangeRequest.number?_eq_some_iff.2 named, Option.bind_some, headOf?_changeRequest,
          isOpen, Option.map_some]

/-! ### The errors -/

/-- A text that is unclaimed stands for the change request that it names, or for nothing. -/
theorem classify_of_unclaimed (unclaimed : r.Unclaimed text) :
    r.classify text = (ChangeRequest.number? text).elim (.unrecognized text) .changeRequest := by
  rw [classify_eq, pinned?_eq_none_iff.2 unclaimed.unpinned]
  simp only [unclaimed.no_branch, unclaimed.no_tag, if_false]
  cases ChangeRequest.number? text <;> rfl

theorem resolve_of_closed {number : UInt64} (unclaimed : r.Unclaimed text)
    (named : ChangeRequest.Names text number.toNat) (not_open : number ∉ r.changeRequests) :
    r.resolve text = .error (.unknownChangeRequest r.name number) := by
  have missing : r.changeRequests[number]? = none := Std.ExtTreeMap.getElem?_eq_none not_open
  rw [resolve, classify_of_unclaimed unclaimed, ChangeRequest.number?_eq_some_iff.2 named]
  simp only [Option.elim_some, hashOf, changeRequestHead, missing]
  rfl

theorem resolve_of_unnamed (unclaimed : r.Unclaimed text)
    (unnamed : ∀ number : UInt64, ¬ ChangeRequest.Names text number.toNat) :
    r.resolve text = .error (.unknownIdentifier r.name text) := by
  have unread : ChangeRequest.number? text = none := by
    rw [Option.eq_none_iff_forall_ne_some]
    intro number read
    exact unnamed number (ChangeRequest.number?_eq_some_iff.1 read)
  rw [resolve, classify_of_unclaimed unclaimed, unread]
  rfl

/-- A text that denotes no hash is unclaimed, and if it names a change request, that is not open. -/
theorem unclaimed_of_not_named (nothing : r.named? text = none) : r.Unclaimed text ∧
    ∀ number : UInt64, ChangeRequest.Names text number.toNat → number ∉ r.changeRequests := by
  simp only [named?, Option.or_eq_none_iff] at nothing
  obtain ⟨pinned, branch, tag, request⟩ := nothing
  refine ⟨unclaimed_iff.2 ⟨pinned, branch, tag⟩, ?_⟩
  intro number named
  rw [ChangeRequest.number?_eq_some_iff.2 named, Option.bind_some, headOf?_changeRequest,
    Option.map_eq_none_iff] at request
  exact (getElem?_eq_none_iff _ _).1 request

/-! ### Resolving -/

/-- What resolving gives is what the rules say. -/
theorem WellFormed.resolves (wf : WellFormed r) (text : String) :
    r.Resolves text (r.resolve text) := by
  cases named : r.named? text with
  | some hash =>
      obtain ⟨revision, resolved, stored, -⟩ := wf.read_named named
      rw [resolved]
      exact .found (named?_eq_some_iff.1 named) stored
  | none =>
      obtain ⟨unclaimed, closed⟩ := unclaimed_of_not_named named
      by_cases request : ∃ number : UInt64, ChangeRequest.Names text number.toNat
      · obtain ⟨number, form⟩ := request
        rw [resolve_of_closed unclaimed form (closed number form)]
        exact .closed unclaimed form (closed number form)
      · have unnamed := not_exists.1 request
        rw [resolve_of_unnamed unclaimed unnamed]
        exact .unknown unclaimed unnamed

/-- What the rules say is what resolving gives. -/
theorem Resolves.resolve_eq {result : Except StoreError Revision}
    (resolves : r.Resolves text result) : r.resolve text = result := by
  cases resolves with
  | found denoted stored => exact resolve_eq_ok_iff.2 ⟨_, named?_eq_some_iff.2 denoted, stored⟩
  | closed unclaimed named not_open => exact resolve_of_closed unclaimed named not_open
  | unknown unclaimed unnamed => exact resolve_of_unnamed unclaimed unnamed

/-- **Resolving follows the documented order.**  In a reachable repository, whatever the text:
resolving gives a result exactly if the rules do, and the hash that the text denotes, if it denotes
one, is that of a stored revision, so that resolving the text succeeds with it.  A text is the
written form of a hash exactly if it is forty lowercase digits, and the errors tell the name that
the repository was made with. -/
theorem resolve_follows_order (name : String) (start : Timestamp) (ms : List Mutation)
    (text : String) :
    let r := reached name start ms
    (∀ result, r.resolve text = result ↔ r.Resolves text result) ∧
      (∀ hash, r.Denotes text hash →
        ∃ revision, r.resolve text = .ok revision ∧ r.revisions[hash]? = some revision ∧
          revision.hash = hash) ∧
      ((∃ hash : RevisionHash, hash.toHex = text) ↔
        text.length = 40 ∧ text.toList.all Hex.isLowercase = true) ∧
      r.name = name := by
  intro r
  have wf : WellFormed r := wellFormed_reached name start ms
  refine ⟨fun result => ⟨?_, Resolves.resolve_eq⟩, ?_, RevisionHash.exists_toHex_eq_iff,
    name_reached name start ms⟩
  · rintro rfl
    exact wf.resolves text
  · intro hash denoted
    have named := named?_eq_some_iff.2 denoted
    have stored := Std.ExtTreeMap.getElem?_eq_some_getElem (wf.named_stored named)
    exact ⟨_, resolve_eq_ok_iff.2 ⟨hash, named, stored⟩, stored, wf.hash_eq_key hash _ stored⟩

end RevisionStore.Repository
