/-
**Checkouts into memory lie on top of each other.**

Memory refuses no file, so a checkout into it succeeds exactly where the identifier resolves, and
writing the files of a snapshot one after the other amounts to a union of maps in which the snapshot
goes first.  What memory holds after any number of checkouts, from any controllers and with anything
done to these in between, is therefore at each path what the last of the snapshots has there that
has anything.

Main definitions:

* `Session`, `Session.run` — controllers and one place in memory, and what is done with them;
* `Session.taken` — **the snapshots that the checkouts of a session take**, each as it is at its
  time.

Main results:

* `Destination.writeAll_memory_toList` — writing a snapshot to memory is a union;
* `Controller.checkout_memory_run` — what a checkout into memory answers and leaves;
* `Session.memory_run` — the run lemma: at each path the last of the snapshots taken that has
  something there, or what there was before;
* `Session.checkouts_overlay` — **memory after checkouts, and each checkout by itself**.
-/

import RevisionStore.Proofs.Checkout.Confinement
import RevisionStore.Proofs.Controller.Views
import Mathlib.Logic.Function.Basic

set_option autoImplicit false

namespace RevisionStore

/-! ### Writing to memory -/

/-- On top of nothing there are the files alone. -/
theorem Snapshot.empty_union (files : Snapshot) : (∅ : Snapshot) ∪ files = files := by
  refine Std.ExtTreeMap.ext_getElem? fun path => ?_
  rw [Std.ExtTreeMap.getElem?_union, Std.ExtTreeMap.getElem?_empty, Option.or_none]

/-- Files that are on top already are not changed by being put there again. -/
theorem Snapshot.union_union_self (place files : Snapshot) :
    place ∪ files ∪ files = place ∪ files := by
  refine Std.ExtTreeMap.ext_getElem? fun path => ?_
  simp only [Std.ExtTreeMap.getElem?_union, ← Option.or_assoc, Option.or_self]

namespace Destination

theorem writeAll_memory_run (files : List (String × Bytes)) (place : Snapshot) :
    (memory.writeAll files).run place = (.ok (), place.insertMany files) := by
  induction files generalizing place with
  | nil =>
      rw [Std.ExtTreeMap.insertMany_nil]
      rfl
  | cons file rest ih =>
      obtain ⟨path, content⟩ := file
      have one : (memory.write path content).run place = (.ok (), place.insert path content) := rfl
      rw [writeAll_cons_run, one, Std.ExtTreeMap.insertMany_cons]
      exact ih _

/-- **Writing a snapshot to memory is a union** in which the snapshot goes before what was there. -/
theorem writeAll_memory_toList (files place : Snapshot) :
    (memory.writeAll files.toList).run place = (.ok (), place ∪ files) := by
  have same : place.insertMany files.toList = place ∪ files := by
    refine Std.ExtTreeMap.ext_getElem? fun path => ?_
    rw [Std.ExtTreeMap.getElem?_union]
    cases there : files[path]? with
    | some content =>
        have listed := Std.ExtTreeMap.mem_toList_iff_getElem?_eq_some.2 there
        rw [Std.ExtTreeMap.getElem?_insertMany_list_of_mem Std.ReflCmp.compare_self
          Std.ExtTreeMap.distinct_keys_toList listed, Option.some_or]
    | none =>
        have unlisted : (files.toList.map Prod.fst).contains path = false := by
          rw [Std.ExtTreeMap.map_fst_toList_eq_keys, List.contains_eq_mem, decide_eq_false_iff_not,
            Std.ExtTreeMap.mem_keys, Std.ExtTreeMap.mem_iff_isSome_getElem?, there]
          exact Bool.false_ne_true
        rw [Std.ExtTreeMap.getElem?_insertMany_list_of_contains_eq_false unlisted, Option.none_or]
  rw [writeAll_memory_run, same]

end Destination

namespace Controller

/-- **What a checkout into memory answers and leaves.** -/
theorem checkout_memory_run (c : Controller) (repository identifier : String) (place : Snapshot) :
    (c.checkout .memory repository identifier).run place =
      match c.snapshot repository identifier with
      | .ok (hash, files) => (.ok hash, place ∪ files)
      | .error e => (.error e, place) := by
  rw [checkout_run]
  cases c.snapshot repository identifier with
  | error e => rfl
  | ok found => simp only [Destination.writeAll_memory_toList, Except.map]

/-- A checkout into memory answers what resolving answers. -/
theorem fst_checkout_memory (c : Controller) (repository identifier : String) (place : Snapshot) :
    ((c.checkout .memory repository identifier).run place).1 = c.resolve repository identifier := by
  rw [checkout_memory_run, snapshot_eq, resolve_eq]
  cases c.revision repository identifier <;> rfl

end Controller

/-! ### Sessions -/

/-- Controllers, and one place in memory that their checkouts go to. -/
structure Session (ι : Type) where
  controllers : ι → Controller
  memory : Snapshot

namespace Session

/-- What is done with the controllers: a checkout into the memory, or anything that changes one of
them, as each of its operations does. -/
inductive Step (ι : Type) where
  | checkout (i : ι) (repository identifier : String)
  | operate (i : ι) (operation : Controller → Controller)

variable {ι : Type} [DecidableEq ι]

/-- The session after a step. -/
def apply (s : Session ι) : Step ι → Session ι
  | .checkout i repository identifier =>
    { s with
      memory := (((s.controllers i).checkout .memory repository identifier).run s.memory).2 }
  | .operate i operation =>
    { s with controllers := Function.update s.controllers i (operation (s.controllers i)) }

/-- The session after some steps, one after the other. -/
def run (s : Session ι) (steps : List (Step ι)) : Session ι := steps.foldl apply s

/-- The snapshot that a step takes: a checkout that succeeds takes the one that its identifier names
at the time. -/
def snapshot? (s : Session ι) : Step ι → Option Snapshot
  | .checkout i repository identifier =>
    ((s.controllers i).snapshot repository identifier).toOption.map Prod.snd
  | .operate _ _ => none

/-- The snapshots that the checkouts among some steps take, in order. -/
def taken (s : Session ι) : List (Step ι) → List Snapshot
  | [] => []
  | step :: later => (s.snapshot? step).toList ++ (s.apply step).taken later

/-- One step puts the snapshot that it takes on top of what memory holds. -/
theorem memory_apply (s : Session ι) (step : Step ι) (path : String) :
    (s.apply step).memory[path]? =
      ((s.snapshot? step).toList.findSome? (·[path]?)).or s.memory[path]? := by
  cases step with
  | checkout i repository identifier =>
      rw [apply, snapshot?, Controller.checkout_memory_run]
      cases (s.controllers i).snapshot repository identifier with
      | error e => rfl
      | ok found =>
          simp only [Except.toOption, Option.map_some, Option.toList_some, List.findSome?_singleton,
            Std.ExtTreeMap.getElem?_union]
  | operate i operation => rfl

/-- **Memory holds at each path what the last of the snapshots taken has there**, of those that have
anything, and what it held before where there is none. -/
theorem memory_run (s : Session ι) (steps : List (Step ι)) (path : String) :
    (s.run steps).memory[path]? =
      ((s.taken steps).reverse.findSome? (·[path]?)).or s.memory[path]? := by
  induction steps generalizing s with
  | nil => rfl
  | cons step later ih =>
      have first : (s.snapshot? step).toList.reverse = (s.snapshot? step).toList := by
        cases s.snapshot? step <;> rfl
      have run : s.run (step :: later) = (s.apply step).run later := rfl
      rw [run, ih, memory_apply, taken, List.reverse_append, List.findSome?_append, first,
        Option.or_assoc]

/-- **Memory after checkouts, and each checkout by itself.**  Begin with any controllers and with
nothing in memory, and let checkouts into it follow, with anything done to the controllers in
between.  Memory then holds a path exactly if one of the snapshots taken has it, with the content
that it has in the last of these.  Each checkout answers what resolving answers at the time; if it
fails it leaves memory as it is; if it succeeds, the files of the snapshot go on top, and they are
all that there is if memory was empty; and to repeat it changes nothing. -/
theorem checkouts_overlay (controllers : ι → Controller) (steps : List (Step ι)) :
    let s : Session ι := ⟨controllers, ∅⟩
    (∀ path, path ∈ (s.run steps).memory ↔ ∃ files ∈ s.taken steps, path ∈ files) ∧
    (∀ path : String,
      (s.run steps).memory[path]? = (s.taken steps).reverse.findSome? (·[path]?)) ∧
    ∀ (c : Controller) (repository identifier : String) (memory : Snapshot),
      let write := (c.checkout .memory repository identifier).run
      (write memory).1 = c.resolve repository identifier ∧
      (∀ e, (write memory).1 = .error e → (write memory).2 = memory) ∧
      (∀ hash, (write memory).1 = .ok hash →
        ∃ files, c.snapshot repository identifier = .ok (hash, files) ∧
          (∀ path, c.fileContent repository identifier path = .ok files[path]?) ∧
          (write memory).2 = memory ∪ files ∧ (write ∅).2 = files) ∧
      write (write memory).2 = write memory := by
  intro s
  have held : ∀ path : String, (s.run steps).memory[path]? =
      (s.taken steps).reverse.findSome? (·[path]?) := by
    intro path
    rw [memory_run, Std.ExtTreeMap.getElem?_empty, Option.or_none]
  refine ⟨fun path => ?_, held, fun c repository identifier memory => ?_⟩
  · rw [Std.ExtTreeMap.mem_iff_isSome_getElem?, held, List.isSome_findSome?, List.any_reverse,
      List.any_eq_true]
    simp only [Std.ExtTreeMap.isSome_getElem?_eq_contains, Std.ExtTreeMap.contains_iff_mem]
  · intro write
    have answers := c.fst_checkout_memory repository identifier memory
    have wrote := c.checkout_memory_run repository identifier
    have reads := c.fileContent_eq repository identifier
    rw [Controller.snapshot_eq] at wrote ⊢
    cases named : c.revision repository identifier with
    | error e =>
        rw [named] at wrote
        have same : ∀ place, write place = (.error e, place) := wrote
        refine ⟨answers, fun _ _ => by rw [same], fun hash succeeded => ?_, by rw [same, same]⟩
        rw [same] at succeeded
        cases succeeded
    | ok revision =>
        rw [named] at wrote
        have put : ∀ place, write place = (.ok revision.hash, place ∪ revision.files) := wrote
        refine ⟨answers, fun e failed => ?_, fun hash succeeded => ?_, ?_⟩
        · rw [put] at failed
          cases failed
        · rw [put] at succeeded
          cases succeeded
          refine ⟨revision.files, rfl, fun path => ?_, by rw [put], ?_⟩
          · rw [reads, named]
            rfl
          · rw [put, Snapshot.empty_union]
        · rw [put, put, Snapshot.union_union_self]

end Session

end RevisionStore
