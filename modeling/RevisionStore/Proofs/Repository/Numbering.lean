/-
**Numbers of change requests are given out once.**

The number of a change request is one more than the last, whatever has been closed in between.  As
long as 64 bits hold the number of change requests that a run opens, the last number is that
count, and no number that is open exceeds it; so the next one is not open.

Main definitions:

* `Repository.opened` — how many change requests a list of mutations opens;
* `Repository.Numbered` — the invariant: the numbers given out so far are those up to a count.

Main results:

* `Repository.Numbered.perform` — a mutation keeps the invariant while numbers last;
* `Repository.numbered_reached` — hence a run from a new repository keeps it;
* `Repository.Numbered.number_fresh` — **the number of a new change request was not open before**.
-/

import RevisionStore.Proofs.Repository.Mutation

set_option autoImplicit false

namespace RevisionStore.Repository

/-- How many change requests a list of mutations opens. -/
def opened (r : Repository) : List Mutation → Nat
  | [] => 0
  | m :: ms => (m.opens r).toNat + opened (m.perform r).2 ms

theorem opened_concat (r : Repository) (done : List Mutation) (m : Mutation) :
    r.opened (done ++ [m]) = r.opened done + (m.opens (r.run done)).toNat := by
  induction done generalizing r with
  | nil => simp [opened]
  | cons n done ih => simp [opened, run, ih, Nat.add_assoc]

/-- The last number is the count of change requests opened so far, and none that is open has a
higher one. -/
structure Numbered (r : Repository) (count : Nat) : Prop where
  last_eq : r.lastChangeRequest.toNat = count
  open_le : ∀ number ∈ r.changeRequests, number.toNat ≤ count

theorem mem_changeRequests_iff {r : Repository} {number : UInt64} :
    number ∈ r.changeRequests ↔ (r.headOf? (.changeRequest number)).isSome := by
  rw [headOf?_changeRequest, Option.isSome_map, Std.ExtTreeMap.mem_iff_isSome_getElem?]

/-- A change request is open after a mutation because it was before, or because the mutation has
opened it, under the number after the last one. -/
theorem open_or_opened {r : Repository} {m : Mutation} {number : UInt64}
    (isOpen : number ∈ (m.perform r).2.changeRequests) :
    number ∈ r.changeRequests ∨ (m.opens r = true ∧ number = r.lastChangeRequest + 1) := by
  rw [mem_changeRequests_iff] at isOpen ⊢
  cases moved : m.move? r with
  | none =>
      rw [headOf?_of_not_moved moved] at isOpen
      exact .inl isOpen
  | some both =>
      obtain ⟨ref, head⟩ := both
      rw [headOf?_of_moved moved] at isOpen
      by_cases same : ref = .changeRequest number
      · subst same
        rw [Function.update_self] at isOpen
        cases m with
        | openChangeRequest branch title =>
            obtain ⟨hash, found, placed⟩ := Option.map_eq_some_iff.1 moved
            cases placed
            exact .inr ⟨Std.ExtTreeMap.contains_iff_mem.2
              (Std.ExtTreeMap.getElem?_eq_some_iff.1 found).1, rfl⟩
        | commit text message change timestamp =>
            obtain ⟨⟨target, base⟩, found, placed⟩ := Option.map_eq_some_iff.1 moved
            have named := (toOption_commitBase_eq_some_iff.1 found).1
            obtain ⟨hash, head, -⟩ := headOf?_commitTarget named
            rw [show target.ref = .changeRequest number from congrArg Prod.fst placed] at head
            exact .inl (by rw [head, Option.isSome_some])
        | closeChangeRequest n =>
            cases moved
            cases isOpen
        | cloneBranch source copy =>
            obtain ⟨hash, -, placed⟩ := Option.map_eq_some_iff.1 moved
            cases placed
        | createTag identifier tag =>
            obtain ⟨revision, -, placed⟩ := Option.map_eq_some_iff.1 moved
            cases placed
        | _ => cases moved
      · rw [Function.update_of_ne (Ne.symm same)] at isOpen
        exact .inl isOpen

/-- The number after the last one, as long as there is one. -/
theorem Numbered.toNat_next {r : Repository} {count : Nat} (numbered : Numbered r count)
    (lasts : count + 1 < UInt64.size) : (r.lastChangeRequest + 1).toNat = count + 1 := by
  rw [UInt64.toNat_add, numbered.last_eq]
  exact Nat.mod_eq_of_lt lasts

/-- **A mutation keeps the invariant**, as long as there is a next number. -/
theorem Numbered.perform {r : Repository} {count : Nat} (numbered : Numbered r count) (m : Mutation)
    (lasts : count + (m.opens r).toNat < UInt64.size) :
    Numbered (m.perform r).2 (count + (m.opens r).toNat) := by
  have next : m.opens r = true → (r.lastChangeRequest + 1).toNat = count + 1 := by
    intro opens
    rw [opens] at lasts
    exact numbered.toNat_next lasts
  constructor
  · rw [lastChangeRequest_perform]
    split
    · next opens => rw [next opens, opens, Bool.toNat_true]
    · next still => rw [numbered.last_eq, Bool.eq_false_iff.2 still, Bool.toNat_false, Nat.add_zero]
  · intro number isOpen
    rcases open_or_opened isOpen with before | ⟨opens, rfl⟩
    · exact Nat.le_add_right_of_le (numbered.open_le number before)
    · rw [opens, Bool.toNat_true]
      exact Nat.le_of_eq (next opens)

/-- **Every run from a new repository keeps the invariant**, as long as numbers last. -/
theorem numbered_reached (name : String) (start : Timestamp) (ms : List Mutation)
    (lasts : (create name start).opened ms < UInt64.size) :
    Numbered (reached name start ms) ((create name start).opened ms) := by
  induction ms using List.reverseRecOn with
  | nil => exact ⟨rfl, fun number isOpen => by simp [create, createBranch, store, empty] at isOpen⟩
  | append_singleton done m ih =>
      rw [opened_concat] at lasts ⊢
      rw [reached_concat]
      exact (ih (Nat.lt_of_le_of_lt (Nat.le_add_right _ _) lasts)).perform m lasts

/-- **The number of a new change request was not open before.** -/
theorem Numbered.number_fresh {r : Repository} {count : Nat} (numbered : Numbered r count)
    (lasts : count + 1 < UInt64.size) : r.lastChangeRequest + 1 ∉ r.changeRequests := by
  intro isOpen
  have bound := numbered.open_le _ isOpen
  rw [numbered.toNat_next lasts] at bound
  exact Nat.not_succ_le_self count bound

end RevisionStore.Repository
