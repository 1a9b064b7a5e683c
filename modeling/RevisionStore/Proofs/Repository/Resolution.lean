/-
**What a text names in a repository.**

An identifier is looked up in a fixed order.  Here that order is written as one choice between four
lookups, and looking up the class of a text is shown to be that choice, for every repository and
every text.

Main definitions:

* `Repository.pinned?` — the stored hash that a text spells;
* `Repository.named?` — the hash that a text names: a stored hash, a branch, a tag, or an open
  change request, **the first that there is**.

Main results:

* `Repository.toOption_hashOf_classify` — classifying a text and looking it up is `named?`;
* `Repository.toOption_resolve` — resolving reads the revision that is stored there;
* `Repository.resolve_toHex` — the written form of a stored hash resolves to what is stored there.
-/

import RevisionStore.Proofs.HashText
import RevisionStore.Proofs.Repository.Mutation

set_option autoImplicit false

namespace RevisionStore.Repository

/-- The stored hash that a text spells. -/
def pinned? (r : Repository) (text : String) : Option RevisionHash :=
  (RevisionHash.parse text).toOption.filter (r.revisions.contains ·)

/-- The hash that a text names. -/
def named? (r : Repository) (text : String) : Option RevisionHash :=
  (r.pinned? text).or <| (r.headOf? (.branch text)).or <| (r.headOf? (.tag text)).or <|
    (ChangeRequest.number? text).bind fun number => r.headOf? (.changeRequest number)

theorem pinned?_eq_some_iff {r : Repository} {text : String} {hash : RevisionHash} :
    r.pinned? text = some hash ↔ RevisionHash.parse text = .ok hash ∧ hash ∈ r.revisions := by
  unfold pinned?
  cases RevisionHash.parse text with
  | error e => simp [Except.toOption]
  | ok h =>
      simp only [Except.toOption, Option.filter_eq_some_iff, Option.some.injEq, Except.ok.injEq,
        Std.ExtTreeMap.contains_iff_mem]

/-- A text stands for a stored hash exactly if it spells one. -/
theorem classify_eq (r : Repository) (text : String) :
    r.classify text = match r.pinned? text with
      | some hash => .hash hash
      | none =>
        if text ∈ r.branches then .branch text
        else if text ∈ r.tags then .tag text
        else match ChangeRequest.number? text with
          | some number => .changeRequest number
          | none => .unrecognized text := by
  unfold classify pinned?
  cases RevisionHash.parse text with
  | error e => rfl
  | ok h =>
      by_cases stored : h ∈ r.revisions
      · simp only [Except.toOption, Option.filter_some, Std.ExtTreeMap.contains_iff_mem, stored,
          if_true]
      · cases ChangeRequest.number? text <;>
          simp only [Except.toOption, Option.filter_some, Std.ExtTreeMap.contains_iff_mem, stored,
            if_false]

/-- **Classifying a text and looking it up takes the first of four.** -/
theorem toOption_hashOf_classify (r : Repository) (text : String) :
    (r.hashOf (r.classify text)).toOption = r.named? text := by
  rw [classify_eq, named?]
  cases r.pinned? text with
  | some hash => rfl
  | none =>
      simp only [Option.none_or, headOf?_branch, headOf?_tag]
      cases branch : r.branches[text]? with
      | some hash =>
          have stored : text ∈ r.branches := (Std.ExtTreeMap.getElem?_eq_some_iff.1 branch).1
          simp only [if_pos stored, hashOf, branchHead, branch, Except.toOption, Option.some_or]
      | none =>
          have absent : text ∉ r.branches := by
            simp [Std.ExtTreeMap.mem_iff_isSome_getElem?, branch]
          simp only [absent, if_false, Option.none_or]
          cases tag : r.tags[text]? with
          | some hash =>
              have stored : text ∈ r.tags := (Std.ExtTreeMap.getElem?_eq_some_iff.1 tag).1
              simp only [if_pos stored, hashOf, tag, Except.toOption, Option.some_or]
          | none =>
              have untagged : text ∉ r.tags := by
                simp [Std.ExtTreeMap.mem_iff_isSome_getElem?, tag]
              simp only [untagged, if_false, Option.none_or]
              cases ChangeRequest.number? text with
              | none => rfl
              | some number =>
                  simp only [hashOf, changeRequestHead, Option.bind_some, headOf?_changeRequest]
                  cases r.changeRequests[number]? <;> rfl

/-- Resolving a text reads the revision stored under the hash that it names. -/
theorem toOption_resolve (r : Repository) (text : String) :
    (r.resolve text).toOption = (r.named? text).bind fun hash => r.revisions[hash]? := by
  rw [← toOption_hashOf_classify, resolve]
  cases r.hashOf (r.classify text) with
  | error e => rfl
  | ok hash =>
      simp only [bind, Except.bind, Except.toOption, Option.bind_some]
      cases r.revisions[hash]? <;> rfl

theorem resolve_eq_ok_iff {r : Repository} {text : String} {revision : Revision} :
    r.resolve text = .ok revision ↔
      ∃ hash, r.named? text = some hash ∧ r.revisions[hash]? = some revision := by
  rw [← Option.bind_eq_some_iff, ← toOption_resolve]
  cases r.resolve text <;> simp [Except.toOption]

/-- The written form of a stored hash names that hash, whatever branches and tags there are. -/
theorem named?_toHex {r : Repository} {hash : RevisionHash} (stored : hash ∈ r.revisions) :
    r.named? hash.toHex = some hash := by
  have pinned := pinned?_eq_some_iff.2 ⟨RevisionHash.parse_toHex hash, stored⟩
  rw [named?, pinned, Option.some_or]

/-- **The written form of a stored hash resolves to what is stored there.** -/
theorem resolve_toHex {r : Repository} {hash : RevisionHash} {revision : Revision}
    (stored : r.revisions[hash]? = some revision) : r.resolve hash.toHex = .ok revision := by
  have key : hash ∈ r.revisions := (Std.ExtTreeMap.getElem?_eq_some_iff.1 stored).1
  exact resolve_eq_ok_iff.2 ⟨hash, named?_toHex key, stored⟩

/-- A named hash is stored already, or some ref points at it. -/
theorem mem_or_headOf?_of_named? {r : Repository} {text : String} {hash : RevisionHash}
    (named : r.named? text = some hash) :
    hash ∈ r.revisions ∨ ∃ ref, r.headOf? ref = some hash := by
  simp only [named?, Option.or_eq_some_iff] at named
  rcases named with pinned | ⟨-, branch | ⟨-, tag | ⟨-, request⟩⟩⟩
  · exact .inl (pinned?_eq_some_iff.1 pinned).2
  · exact .inr ⟨_, branch⟩
  · exact .inr ⟨_, tag⟩
  · obtain ⟨number, -, head⟩ := Option.bind_eq_some_iff.1 request
    exact .inr ⟨_, head⟩

end RevisionStore.Repository
