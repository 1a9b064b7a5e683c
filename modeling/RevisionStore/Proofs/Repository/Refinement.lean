/-
**The store of revisions refines the chronicle of histories.**

A repository keeps revisions under their hashes and finds a parent, a snapshot and a line of history
by following hashes; a chronicle keeps whole histories.  As long as different revisions have
different hashes the two tell the same story: `Agrees` relates them, every mutation keeps the
relation, and hence a run of a repository and the same run of a chronicle agree at every ref.

Main definitions:

* `Agrees` — **the simulation relation** between a chronicle and a repository.

Main results:

* `Agrees.perform` — a mutation keeps the relation;
* `Agrees.ancestry_top` — following parents from the newest revision of a history visits the
  revisions of that history;
* `Repository.refines_chronicle` — **the head, the snapshot and the log of every ref are those of
  its history**.
-/

import RevisionStore.Proofs.Repository.AppendOnly
import RevisionStore.Proofs.Repository.Chronicle

set_option autoImplicit false

namespace RevisionStore

/-- The chronicle and the repository have the same refs, and the repository stores the revisions of
the histories that were built. -/
structure Agrees (c : Chronicle) (r : Repository) : Prop where
  /-- A ref points at the hash of its history. -/
  heads : ∀ ref, r.headOf? ref = (c.refs ref).map History.hash
  /-- The next change request gets the same number. -/
  number : r.lastChangeRequest = c.lastNumber
  /-- The history of a ref was built. -/
  ref_built : ∀ ref h, c.refs ref = some h → h ∈ c.built
  /-- What a history was built from was built. -/
  earlier_built : ∀ (h : History) (e : Edit), h.extend e ∈ c.built → h ∈ c.built
  /-- The newest revision of every history that was built is stored under the history's hash. -/
  top_stored : ∀ h ∈ c.built, r.revisions[h.hash]? = some h.top
  /-- Every stored hash is that of a history that was built. -/
  stored_built : ∀ hash ∈ r.revisions, ∃ h ∈ c.built, h.hash = hash

namespace Agrees

variable {c : Chronicle} {r : Repository}

/-! ### Names -/

/-- A text names the same in both. -/
theorem named? (agrees : Agrees c r) (text : String) :
    r.named? text = (c.named? text).map History.hash := by
  have pinned : r.pinned? text = ((RevisionHash.parse text).toOption.bind fun hash =>
      c.built.find? (·.hash = hash)).map History.hash := by
    unfold Repository.pinned?
    cases (RevisionHash.parse text).toOption with
    | none => rfl
    | some hash =>
        rw [Option.filter_some, Option.bind_some]
        cases found : c.built.find? (·.hash = hash) with
        | some h =>
            have same : h.hash = hash := by simpa using List.find?_some found
            have stored := agrees.top_stored h (List.mem_of_find?_eq_some found)
            rw [same] at stored
            have key : hash ∈ r.revisions := (Std.ExtTreeMap.getElem?_eq_some_iff.1 stored).1
            simp [key, same]
        | none =>
            have absent : hash ∉ r.revisions := by
              intro stored
              obtain ⟨h, built, same⟩ := agrees.stored_built hash stored
              exact absurd same (by simpa using List.find?_eq_none.1 found h built)
            simp [absent]
  have request : ∀ number : Option UInt64,
      (number.bind fun n => r.headOf? (.changeRequest n)) =
        (number.bind fun n => c.refs (.changeRequest n)).map History.hash := by
    intro number
    cases number with
    | none => rfl
    | some n =>
        rw [Option.bind_some, Option.bind_some]
        exact agrees.heads (.changeRequest n)
  rw [Repository.named?, Chronicle.named?, Option.map_or, Option.map_or, Option.map_or, ← pinned,
    ← agrees.heads, ← agrees.heads, ← request]

/-- A named history was built. -/
theorem built_of_named (agrees : Agrees c r) {text : String} {h : History}
    (named : c.named? text = some h) : h ∈ c.built := by
  simp only [Chronicle.named?, Option.or_eq_some_iff] at named
  rcases named with pinned | ⟨-, branch | ⟨-, tag | ⟨-, request⟩⟩⟩
  · obtain ⟨hash, -, found⟩ := Option.bind_eq_some_iff.1 pinned
    exact List.mem_of_find?_eq_some found
  · exact agrees.ref_built _ h branch
  · exact agrees.ref_built _ h tag
  · obtain ⟨number, -, found⟩ := Option.bind_eq_some_iff.1 request
    exact agrees.ref_built _ h found

/-- Resolving a text reads the newest revision of the history that it names. -/
theorem resolve (agrees : Agrees c r) (text : String) :
    (r.resolve text).toOption = (c.named? text).map History.top := by
  rw [Repository.toOption_resolve, agrees.named?]
  cases named : c.named? text with
  | none => rfl
  | some h => exact agrees.top_stored h (agrees.built_of_named named)

/-- A ref reads as the newest revision of its history. -/
theorem read? (agrees : Agrees c r) (ref : Ref) :
    r.read? ref = (c.refs ref).map History.top := by
  rw [Repository.read?, agrees.heads]
  cases found : c.refs ref with
  | none => rfl
  | some h => exact agrees.top_stored h (agrees.ref_built ref h found)

/-! ### Commits -/

theorem mem_branches (agrees : Agrees c r) {branch : String} :
    branch ∈ r.branches ↔ (c.refs (.branch branch)).isSome := by
  rw [Std.ExtTreeMap.mem_iff_isSome_getElem?, ← Repository.headOf?_branch, agrees.heads,
    Option.isSome_map]

theorem mem_changeRequests (agrees : Agrees c r) {number : UInt64} :
    number ∈ r.changeRequests ↔ (c.refs (.changeRequest number)).isSome := by
  have heads := congrArg Option.isSome (agrees.heads (.changeRequest number))
  rw [Repository.headOf?_changeRequest, Option.isSome_map, Option.isSome_map] at heads
  rw [Std.ExtTreeMap.mem_iff_isSome_getElem?, heads]

/-- Both know the same targets of a commit. -/
theorem commitTarget_iff (agrees : Agrees c r) {text : String} {ref : Ref} {h : History} :
    c.target? text = some (ref, h) ↔
      ∃ t, r.commitTarget text = .ok t ∧ t.ref = ref ∧ c.refs ref = some h := by
  simp only [Repository.commitTarget_ok_iff, agrees.mem_branches, agrees.mem_changeRequests,
    Chronicle.target?, Option.or_eq_some_iff, Option.map_eq_some_iff, Option.bind_eq_some_iff]
  constructor
  · rintro (⟨k, found, same⟩ | ⟨absent, number, named, k, found, same⟩)
    · cases same
      exact ⟨_, .inl ⟨rfl, by simp [found]⟩, rfl, found⟩
    · cases same
      exact ⟨_, .inr ⟨number, rfl, by simpa using absent, named, by simp [found]⟩, rfl, found⟩
  · rintro ⟨t, ⟨rfl, -⟩ | ⟨number, rfl, absent, named, -⟩, rfl, found⟩
    · exact .inl ⟨h, found, rfl⟩
    · exact .inr ⟨by simpa using absent, number, named, h, found, rfl⟩

/-- A commit has nothing to build on in both, or it builds on the newest revision of the history of
its target. -/
theorem commitBase_cases (agrees : Agrees c r) (text : String) :
    ((r.commitBase text).toOption = none ∧ c.target? text = none) ∨
      ∃ t h, (r.commitBase text).toOption = some (t, h.top) ∧ c.target? text = some (t.ref, h) := by
  cases target : c.target? text with
  | some both =>
      obtain ⟨ref, h⟩ := both
      obtain ⟨t, named, rfl, found⟩ := agrees.commitTarget_iff.1 target
      have read : r.read? t.ref = some h.top := by
        rw [agrees.read?, found]
        rfl
      exact .inr ⟨t, h, Repository.toOption_commitBase_eq_some_iff.2 ⟨named, read⟩, rfl⟩
  | none =>
      cases based : (r.commitBase text).toOption with
      | none => exact .inl ⟨rfl, rfl⟩
      | some both =>
          obtain ⟨t, base⟩ := both
          obtain ⟨named, read⟩ := Repository.toOption_commitBase_eq_some_iff.1 based
          rw [agrees.read?] at read
          obtain ⟨h, found, -⟩ := Option.map_eq_some_iff.1 read
          rw [agrees.commitTarget_iff.2 ⟨t, named, rfl, found⟩] at target
          cases target

/-! ### One mutation -/

/-- The revision that a mutation creates is the newest one of the history that it builds. -/
theorem created? (agrees : Agrees c r) (m : Mutation) :
    m.created? r = (c.built? m).map History.top := by
  cases m with
  | createBranch branch start => rfl
  | commit target message change timestamp =>
      rcases agrees.commitBase_cases target with ⟨base, found⟩ | ⟨t, h, base, found⟩
      · simp [Mutation.created?, Chronicle.built?, base, found]
      · simp [Mutation.created?, Chronicle.built?, base, found, History.top_extend]
  | _ => rfl

/-- A mutation moves the ref whose history it replaces, to the hash of the new history. -/
theorem move? (agrees : Agrees c r) (m : Mutation) :
    m.move? r = (c.move? m).map fun (ref, h) => (ref, h.map History.hash) := by
  cases m with
  | cloneBranch source copy =>
      have head := agrees.heads (.branch source)
      rw [Repository.headOf?_branch] at head
      rw [Mutation.move?, Chronicle.move?, head, Option.map_map, Option.map_map]
      rfl
  | openChangeRequest branch title =>
      have head := agrees.heads (.branch branch)
      rw [Repository.headOf?_branch] at head
      rw [Mutation.move?, Chronicle.move?, head, Option.map_map, Option.map_map, agrees.number]
      rfl
  | createTag identifier tag =>
      rw [Mutation.move?, Chronicle.move?, agrees.resolve, Option.map_map, Option.map_map]
      simp [Function.comp_def]
  | commit target message change timestamp =>
      rcases agrees.commitBase_cases target with ⟨base, found⟩ | ⟨t, h, base, found⟩
      · simp [Mutation.move?, Chronicle.move?, base, found]
      · simp [Mutation.move?, Chronicle.move?, base, found, History.hash_extend]
  | _ => rfl

theorem opens (agrees : Agrees c r) (m : Mutation) : m.opens r = c.opens m := by
  cases m with
  | openChangeRequest branch title =>
      rw [Bool.eq_iff_iff, Mutation.opens, Chronicle.opens, Std.ExtTreeMap.contains_iff_mem]
      exact agrees.mem_branches
  | _ => rfl

/-- A history with a commit that a mutation builds extends one that was built before. -/
theorem built_of_extend_built (agrees : Agrees c r) {m : Mutation} {h : History} {e : Edit}
    (builds : c.built? m = some (h.extend e)) : h ∈ c.built := by
  cases m with
  | createBranch branch start => cases builds
  | commit target message change timestamp =>
      obtain ⟨⟨ref, k⟩, found, same⟩ := Option.map_eq_some_iff.1 builds
      obtain ⟨t, -, -, stands⟩ := agrees.commitTarget_iff.1 found
      rw [← History.extend_inj same]
      exact agrees.ref_built ref k stands
  | _ => cases builds

/-- A ref gets a history that was built, now or before. -/
theorem built_of_move (agrees : Agrees c r) {m : Mutation} {ref : Ref} {h : History}
    (moved : c.move? m = some (ref, some h)) : h ∈ (c.step m).built := by
  rw [Chronicle.step, List.mem_append, Option.mem_toList]
  cases m with
  | createBranch branch start =>
      cases moved
      exact .inl rfl
  | cloneBranch source copy =>
      obtain ⟨k, found, same⟩ := Option.map_eq_some_iff.1 moved
      cases same
      exact .inr (agrees.ref_built _ _ found)
  | createTag identifier tag =>
      obtain ⟨k, found, same⟩ := Option.map_eq_some_iff.1 moved
      cases same
      exact .inr (agrees.built_of_named found)
  | openChangeRequest branch title =>
      obtain ⟨k, found, same⟩ := Option.map_eq_some_iff.1 moved
      cases same
      exact .inr (agrees.ref_built _ _ found)
  | commit target message change timestamp =>
      obtain ⟨k, found, same⟩ := Option.map_eq_some_iff.1 moved
      cases same
      exact .inl (by simp [Chronicle.built?, found])
  | _ => cases moved

/-- **A mutation keeps the relation**, unless it builds a history that shares its hash with one that
ends in a different revision. -/
theorem perform (agrees : Agrees c r) (m : Mutation)
    (told : ∀ k, c.built? m = some k → ∀ h ∈ c.built, k.hash = h.hash → k.top = h.top) :
    Agrees (c.step m) (m.perform r).2 where
  heads ref := by
    rw [Repository.headOf?_perform, agrees.move?, Chronicle.step]
    cases c.move? m with
    | none => exact agrees.heads ref
    | some both =>
        obtain ⟨target, h⟩ := both
        by_cases same : ref = target
        · subst same
          simp
        · simpa [Function.update_of_ne same] using agrees.heads ref
  number := by
    rw [Repository.lastChangeRequest_perform, agrees.opens, agrees.number]
    rfl
  ref_built ref h found := by
    cases moved : c.move? m with
    | none =>
        simp only [Chronicle.step, moved, Option.elim_none] at found
        exact List.mem_append_right _ (agrees.ref_built ref h found)
    | some both =>
        obtain ⟨target, k⟩ := both
        simp only [Chronicle.step, moved, Option.elim_some] at found
        by_cases same : ref = target
        · subst same
          rw [Function.update_self] at found
          subst found
          exact agrees.built_of_move moved
        · rw [Function.update_of_ne same] at found
          exact List.mem_append_right _ (agrees.ref_built ref h found)
  earlier_built h e built := by
    refine List.mem_append_right _ ?_
    rcases List.mem_append.1 built with new | old
    · exact agrees.built_of_extend_built (Option.mem_toList.1 new)
    · exact agrees.earlier_built h e old
  top_stored h built := by
    rw [Repository.revisions_perform, agrees.created?]
    rw [Chronicle.step, List.mem_append, Option.mem_toList] at built
    cases builds : c.built? m with
    | none =>
        rw [builds] at built
        exact agrees.top_stored h (by simpa using built)
    | some k =>
        simp only [Option.map_some, Option.elim_some, Std.ExtTreeMap.getElem?_insert,
          History.hash_top, Std.compare_eq_iff_eq]
        split
        · next same =>
            rcases built with new | old
            · rw [builds] at new
              cases new
              rfl
            -- The entry of an older history is replaced, by a revision equal to it.
            · rw [told k builds h old same]
        · next other =>
            rcases built with new | old
            · rw [builds] at new
              cases new
              exact absurd rfl other
            · exact agrees.top_stored h old
  stored_built hash stored := by
    rcases Repository.mem_revisions_perform.1 stored with ⟨revision, created, same⟩ | before
    · rw [agrees.created?] at created
      obtain ⟨h, builds, rfl⟩ := Option.map_eq_some_iff.1 created
      exact ⟨h, List.mem_append_left _ (Option.mem_toList.2 builds), by rw [← same, h.hash_top]⟩
    · obtain ⟨h, built, same⟩ := agrees.stored_built hash before
      exact ⟨h, List.mem_append_right _ built, same⟩

/-! ### The walk along the parents -/

/-- Histories with one hash end in one revision. -/
theorem top_eq_of_hash_eq (agrees : Agrees c r) {h k : History} (mem : h ∈ c.built)
    (mem' : k ∈ c.built) (same : h.hash = k.hash) : h.top = k.top := by
  have stored := agrees.top_stored h mem
  rw [same, agrees.top_stored k mem'] at stored
  exact (Option.some.inj stored).symm

/-- Histories with one hash have equally many commits.  The parent of the newest revision is the
hash of the history before it, so the two can be taken apart together. -/
theorem length_eq_of_hash_eq (agrees : Agrees c r) {start start' : Timestamp}
    {edits edits' : List Edit} (mem : ⟨start, edits⟩ ∈ c.built) (mem' : ⟨start', edits'⟩ ∈ c.built)
    (same : History.hash ⟨start, edits⟩ = History.hash ⟨start', edits'⟩) :
    edits.length = edits'.length := by
  have tops := congrArg Revision.parent (agrees.top_eq_of_hash_eq mem mem' same)
  induction edits generalizing edits' with
  | nil =>
      cases edits' with
      | nil => rfl
      | cons e' earlier' => cases tops
  | cons e earlier ih =>
      cases edits' with
      | nil => cases tops
      | cons e' earlier' =>
          have before := agrees.earlier_built ⟨start, earlier⟩ e mem
          have before' := agrees.earlier_built ⟨start', earlier'⟩ e' mem'
          have shorter : History.hash ⟨start, earlier⟩ = History.hash ⟨start', earlier'⟩ :=
            Option.some.inj tops
          rw [List.length_cons, List.length_cons, ih before before' shorter
            (congrArg Revision.parent (agrees.top_eq_of_hash_eq before before' shorter))]

/-- What a history was built from was built. -/
theorem built_of_mem_upTo (agrees : Agrees c r) {start : Timestamp} {edits : List Edit}
    {k : History} (built : ⟨start, edits⟩ ∈ c.built) (mem : k ∈ History.upTo start edits) :
    k ∈ c.built := by
  induction edits with
  | nil =>
      rw [History.upTo, List.mem_singleton] at mem
      rwa [mem]
  | cons e earlier ih =>
      rcases List.mem_cons.1 mem with rfl | deeper
      · exact built
      · exact ih (agrees.earlier_built ⟨start, earlier⟩ e built) deeper

/-- No hash occurs twice along a history. -/
theorem nodup_upTo (agrees : Agrees c r) {start : Timestamp} {edits : List Edit}
    (built : ⟨start, edits⟩ ∈ c.built) :
    ((History.upTo start edits).map History.hash).Nodup := by
  induction edits with
  | nil => simp [History.upTo]
  | cons e earlier ih =>
      have before := agrees.earlier_built ⟨start, earlier⟩ e built
      rw [History.upTo, List.map_cons, List.nodup_cons]
      refine ⟨?_, ih before⟩
      -- An earlier history with the hash of this one would have as many commits.
      intro again
      obtain ⟨k, mem, same⟩ := List.mem_map.1 again
      have equal : k.edits.length = (e :: earlier).length :=
        agrees.length_eq_of_hash_eq (agrees.built_of_mem_upTo before mem) built same
      have shorter := History.length_le_of_mem_upTo mem
      rw [equal, List.length_cons] at shorter
      exact absurd shorter (Nat.not_succ_le_self _)

/-- A history has at most as many revisions as are stored. -/
theorem length_lineage_le (agrees : Agrees c r) {h : History} (built : h ∈ c.built) :
    h.lineage.length ≤ r.revisions.size := by
  rw [← List.length_map History.hash, ← Std.ExtTreeMap.length_keys]
  refine List.Nodup.length_le_of_subset (agrees.nodup_upTo built) ?_
  intro hash mem
  obtain ⟨k, along, rfl⟩ := List.mem_map.1 mem
  have stored := agrees.top_stored k (agrees.built_of_mem_upTo built along)
  exact Std.ExtTreeMap.mem_keys.2 (Std.ExtTreeMap.getElem?_eq_some_iff.1 stored).1

/-- Following parents from the newest revision of a history visits the revisions of that history. -/
theorem ancestry_top (agrees : Agrees c r) {start : Timestamp} {edits : List Edit}
    (built : ⟨start, edits⟩ ∈ c.built) (bound : Nat) :
    r.ancestry (History.top ⟨start, edits⟩) bound =
      ((History.upTo start edits).map History.top).take bound := by
  induction edits generalizing bound with
  | nil =>
      cases bound with
      | zero => rfl
      | succ bound =>
          have root : r.parentOf (History.top ⟨start, []⟩) = none := rfl
          simp [Repository.ancestry_succ, root, History.upTo]
  | cons e earlier ih =>
      have before := agrees.earlier_built ⟨start, earlier⟩ e built
      cases bound with
      | zero => rfl
      | succ bound =>
          have parent : r.parentOf (History.top ⟨start, e :: earlier⟩) =
              some (History.top ⟨start, earlier⟩) := agrees.top_stored _ before
          rw [Repository.ancestry_succ, parent, Option.elim_some, ih before, History.upTo,
            List.map_cons, List.take_succ_cons]

/-- The log of the hash of a history is the log of the history. -/
theorem log_toHex (agrees : Agrees c r) {h : History} (built : h ∈ c.built) :
    r.log h.hash.toHex = .ok h.log := by
  have whole : (h.lineage.map History.top).length ≤ r.revisions.size := by
    rw [List.length_map]
    exact agrees.length_lineage_le built
  have walk : r.ancestry h.top r.revisions.size = h.lineage.map History.top :=
    (agrees.ancestry_top built _).trans (List.take_of_length_le whole)
  rw [Repository.log, Repository.resolve_toHex (agrees.top_stored h built), h.log_eq_map_lineage]
  simp only [bind, Except.bind, pure, Except.pure, walk, List.map_map]
  rfl

/-! ### Runs -/

theorem beginning (name : String) (start : Timestamp) :
    Agrees (.beginning start) (.create name start) where
  heads ref := by
    rw [Repository.headOf?_create, Chronicle.beginning]
    by_cases same : ref = .branch defaultBranch
    · subst same
      simp only [Function.update_self]
      rfl
    · simp [Function.update_of_ne same]
  number := rfl
  ref_built ref h found := by
    by_cases same : ref = .branch defaultBranch
    · subst same
      simp only [Chronicle.beginning, Function.update_self] at found
      cases found
      exact List.mem_singleton_self _
    · simp [Chronicle.beginning, Function.update_of_ne same] at found
  earlier_built h e built := by
    cases List.mem_singleton.1 built
  top_stored h built := by
    rw [List.mem_singleton.1 built, Repository.revisions_create]
    exact Std.ExtTreeMap.getElem?_insert_self
  stored_built hash stored := by
    rw [Repository.revisions_create, Std.ExtTreeMap.mem_insert] at stored
    rcases stored with same | nothing
    · exact ⟨_, List.mem_singleton_self _, Std.compare_eq_iff_eq.1 same⟩
    · simp at nothing

/-- **A run and its chronicle agree**, as long as the revisions that the run makes are told apart by
their hashes. -/
theorem reached {name : String} {start : Timestamp} {ms : List Mutation}
    (faithful : Faithful (Repository.revisionsMade name start ms)) :
    Agrees (.reached start ms) (.reached name start ms) := by
  induction ms using List.reverseRecOn with
  | nil => exact beginning name start
  | append_singleton done m ih =>
      have early : Faithful (Repository.revisionsMade name start done) :=
        faithful.mono (Repository.revisionsMade_subset_append name start done [m])
      have agrees := ih early
      rw [Chronicle.reached_concat, Repository.reached_concat]
      refine agrees.perform m ?_
      -- Both revisions were made in the run: the one by `m`, the other since it is stored.
      intro k builds h built same
      have created : m.created? (.reached name start done) = some k.top := by
        rw [agrees.created?, builds]
        rfl
      rw [Repository.revisionsMade_concat, created] at faithful
      have made := Repository.made_of_stored (agrees.top_stored h built)
      exact faithful k.top (by simp) h.top (by simp [made]) (by simpa using same)

end Agrees

/-- **The store of revisions refines the chronicle of histories.**  In a run whose revisions are
told apart by their hashes, after every step and for every ref: the head is the hash chained along
the history of the ref, the revision stored under it holds the files that the changes of the history
add up to, and its log is that of the history, one line for each commit and one for the root. -/
theorem Repository.refines_chronicle (name : String) (start : Timestamp) (ms : List Mutation)
    (faithful : Faithful (revisionsMade name start ms)) (done later : List Mutation)
    (split_at : ms = done ++ later) (ref : Ref) :
    let r := reached name start done
    let c := Chronicle.reached start done
    r.headOf? ref = (c.refs ref).map History.hash ∧
      ∀ h, c.refs ref = some h →
        (∃ revision, r.revisions[h.hash]? = some revision ∧ revision.files = h.snapshot) ∧
          r.log h.hash.toHex = .ok h.log ∧ h.log.length = h.edits.length + 1 := by
  intro r c
  subst split_at
  have agrees : Agrees c r :=
    Agrees.reached (faithful.mono (revisionsMade_subset_append name start done later))
  refine ⟨agrees.heads ref, ?_⟩
  intro h found
  have built := agrees.ref_built ref h found
  exact ⟨⟨h.top, agrees.top_stored h built, h.files_top⟩, agrees.log_toHex built, h.length_log⟩

/-- A clone with a commit on it, kept by a tag when the clone is dropped. -/
def Repository.taggedClone : List Mutation :=
  [.cloneBranch "master" "dev", .commit "dev" "m" (.add "a" [1]) ⟨1⟩, .createTag "dev" "v",
    .deleteBranch "dev"]

/-- The refinement applies to the tagged clone: the tag has the history of the dropped branch. -/
theorem Repository.refines_chronicle_taggedClone :
    let h : History := ⟨⟨0⟩, [⟨"m", ⟨1⟩, .add "a" [1]⟩]⟩
    Faithful (revisionsMade "r" ⟨0⟩ taggedClone) ∧
      (reached "r" ⟨0⟩ taggedClone).headOf? (.branch "dev") = none ∧
      (reached "r" ⟨0⟩ taggedClone).headOf? (.tag "v") = some h.hash ∧
      (reached "r" ⟨0⟩ taggedClone).log h.hash.toHex = .ok h.log := by
  intro h
  have faithful : Faithful (revisionsMade "r" ⟨0⟩ taggedClone) := by decide +kernel
  have kept : (Chronicle.reached ⟨0⟩ taggedClone).refs (.tag "v") = some h := rfl
  obtain ⟨gone, -⟩ := refines_chronicle "r" ⟨0⟩ taggedClone faithful taggedClone [] rfl
    (.branch "dev")
  obtain ⟨head, story⟩ := refines_chronicle "r" ⟨0⟩ taggedClone faithful taggedClone [] rfl
    (.tag "v")
  refine ⟨faithful, gone, ?_, (story h kept).2.1⟩
  rw [head, kept]
  rfl

end RevisionStore
