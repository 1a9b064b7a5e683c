/-
**Runs of calls: what each call of a run answers.**

A run is told by what its calls answer and by the controller that it ends with, and it goes on where
it left off when more calls follow.  What a repository stores is only ever added to, until the
repository is deleted.

Main definitions:

* `Controller.Call.reply` — what a call gives, as a function of the place that a checkout goes to;
* `Controller.answers` — what the calls of a run answer, in order;
* `Controller.Completes` — every call of a run succeeds;
* `Controller.Holds` — a repository stores something under a hash.

Main results:

* `Controller.runCalls_append`, `Controller.completes_cons` — a run in two parts;
* `Controller.stores_runCalls` — **a run stores the revisions that it creates and nothing else**;
* `Controller.Call.holds_run`, `Controller.holds_runCalls` — **and what a repository stores is not
  lost**, as long as the repository is not deleted.
-/

import RevisionStore.Proofs.Controller.Readings

set_option autoImplicit false

namespace RevisionStore.Controller

variable {σ : Type} {place : σ} {c : Controller}

/-! ### One call -/

/-- What a call gives, by the state of the place that a checkout would go to: its answer, and that
place afterwards. -/
def Call.reply (c : Controller) (call : Call σ) (place : σ) : Except StoreError Answer × σ :=
  ((call.run place c).1.1, (call.run place c).2)

/-- What a call makes of the controller does not depend on where a checkout goes. -/
theorem Call.after_congr (call : Call σ) (place place' : σ) (c : Controller) :
    (call.run place c).1.2 = (call.run place' c).1.2 := by
  cases call <;> rfl

/-! ### Runs -/

/-- What the calls of a run answer, in order. -/
def answers (place : σ) (c : Controller) : List (Call σ) → List (Except StoreError Answer)
  | [] => []
  | call :: calls =>
    (call.run place c).1.1 :: answers (call.run place c).2 (call.run place c).1.2 calls

/-- Every call of the run succeeds. -/
def Completes (place : σ) (c : Controller) (calls : List (Call σ)) : Prop :=
  ∀ answer ∈ answers place c calls, answer.isOk = true

theorem runCalls_append (place : σ) (c : Controller) (done later : List (Call σ)) :
    runCalls place c (done ++ later) =
      runCalls (runCalls place c done).2 (runCalls place c done).1 later := by
  induction done generalizing place c with
  | nil => rfl
  | cons call done ih => exact ih _ _

@[simp] theorem completes_nil (place : σ) (c : Controller) : Completes place c [] := by
  intro answer here
  cases here

theorem completes_cons {call : Call σ} {calls : List (Call σ)} :
    Completes place c (call :: calls) ↔
      (call.run place c).1.1.isOk = true ∧
        Completes (call.run place c).2 (call.run place c).1.2 calls := by
  simp only [Completes, answers, List.forall_mem_cons]

/-- **A run stores the revisions that it creates and nothing else.** -/
theorem stores_runCalls {calls : List (Call σ)} {name : String} {revision : Revision}
    (stored : (runCalls place c calls).1.Stores name revision) :
    c.Stores name revision ∨ revision ∈ made place c calls := by
  induction calls generalizing place c with
  | nil => exact .inl stored
  | cons call calls ih =>
      rw [made, List.mem_append]
      rcases ih stored with before | later
      · rcases Call.stores_run before with before | ⟨-, created⟩
        · exact .inl before
        · exact .inr (.inl (by rw [created]; exact List.mem_singleton_self _))
      · exact .inr (.inr later)

/-! ### What is kept -/

/-- The repository of this name stores a revision under the hash. -/
def Holds (c : Controller) (name : String) (hash : RevisionHash) : Prop :=
  ∃ stored, c.revisions? name = some stored ∧ hash ∈ stored

variable {name : String} {hash : RevisionHash}

theorem Holds.exists_stores (held : c.Holds name hash) : ∃ revision, c.Stores name revision := by
  obtain ⟨stored, found, here⟩ := held
  exact ⟨stored[hash],
    stores_iff.2 ⟨stored, found, hash, Std.ExtTreeMap.getElem?_eq_some_getElem here⟩⟩

/-- What is created is stored. -/
theorem Creates.holds_new {repository : String} {new : Revision} {after : Controller}
    (creates : Creates c repository new after) : after.Holds repository new.hash := by
  obtain ⟨-, r, rfl, revisions⟩ := creates
  refine ⟨r.revisions, congrArg _ Std.ExtTreeMap.getElem?_insert_self, ?_⟩
  rw [Std.ExtTreeMap.mem_iff_isSome_getElem?, revisions, if_pos rfl]
  rfl

/-- What is created stands beside what there was before. -/
theorem Creates.holds {repository : String} {new : Revision} {after : Controller}
    (creates : Creates c repository new after) (held : c.Holds name hash) :
    after.Holds name hash := by
  obtain ⟨-, r, rfl, revisions⟩ := creates
  obtain ⟨stored, found, here⟩ := held
  rw [Holds, revisions?, getElem?_put]
  split
  · next same =>
      subst same
      obtain ⟨before, at_name, rfl⟩ := Option.map_eq_some_iff.1 found
      refine ⟨r.revisions, rfl, ?_⟩
      rw [Std.ExtTreeMap.mem_iff_isSome_getElem?, revisions]
      split
      · rfl
      · rwa [at_name, Option.bind_some, ← Std.ExtTreeMap.mem_iff_isSome_getElem?]
  · exact ⟨stored, found, here⟩

/-- **A call loses no hash of a repository that it does not delete.** -/
theorem Call.holds_run {call : Call σ} (stays : ¬ call.deletes name) (held : c.Holds name hash) :
    (call.run place c).1.2.Holds name hash := by
  cases result : (call.run place c).1.1 with
  | error e => rwa [run_of_error result]
  | ok a =>
      cases should : call.creates with
      | some repository =>
          obtain ⟨new, creates, -⟩ := creates_of_ok should result
          exact creates.holds held
      | none => rwa [Holds, revisions?_run should stays]

/-- **So does a run of such calls.** -/
theorem holds_runCalls {calls : List (Call σ)} (stay : ∀ call ∈ calls, ¬ call.deletes name)
    (held : c.Holds name hash) : (runCalls place c calls).1.Holds name hash := by
  induction calls generalizing place c with
  | nil => exact held
  | cons call calls ih =>
      obtain ⟨first, others⟩ := List.forall_mem_cons.1 stay
      exact ih others (call.holds_run first held)

end RevisionStore.Controller
