/-
**The life of a controller: live from its creation until it is closed.**

What befalls controllers and registries is told as a list of events.  If no identifier is given
twice, a registry lists exactly those controllers that were created in it and not closed there
since, be it explicitly or by the guard of a scope.  Closing one that is listed drops its
repositories for whoever holds its identifier, and works once; closing one that is not listed does
nothing.  Every other controller is left alone.

Main definitions:

* `World.Event`, `World.run` — **what befalls controllers and registries, and where it leads**;
* `World.Event.created?`, `World.Fresh` — the identifier that an event gives, and no identifier
  being given twice;
* `World.Event.Lists`, `World.Event.Closes`, `World.Live` — a controller is created in a registry,
  closed there, and **created there and not closed since**.

Main results:

* `World.withController_eq_run` — a scope is a run of events between its creation and its drop;
* `World.mem_registry_run_iff` — a registry lists the controllers that are live in it;
* `World.isSome_controllers_run_iff` — every controller that was created is there for good;
* `World.Live.never_again` — what has been closed is never live again;
* `World.controllers_live_until_closed` — **the life of the controllers in every run**.
-/

import RevisionStore.Registry
import Mathlib.Data.List.Induction
import Mathlib.Data.List.Nodup

set_option autoImplicit false

namespace RevisionStore.World

/-! ### Events -/

/-- What befalls controllers and registries.  A handle of a controller is its identifier; an
operation through a handle is any change of its controller. -/
inductive Event where
  | detached (id : ControllerId) (clock : Clock)
  | create (number : Nat) (id : ControllerId) (clock : Clock)
  | createScoped (number : Nat) (id : ControllerId) (clock : Clock)
  | dropGuard (number : Nat) (id : ControllerId)
  | close (number : Nat) (id : ControllerId)
  | operate (id : ControllerId) (operation : Controller → Controller)
  | lookup (number : Nat) (id : ControllerId)
  | all (number : Nat)
  | count (number : Nat)

/-- The world after an event.  A scope opens as a creation and ends, when its guard is dropped, as a
closing whose answer nobody reads. -/
def apply (w : World) : Event → World
  | .detached id clock => w.detached id clock
  | .create number id clock | .createScoped number id clock => w.create number id clock
  | .dropGuard number id | .close number id => (w.close number id).2
  | .operate id operation =>
    match w.onController id fun c => ((), operation c) with
    | some ((), w) => w
    | none => w
  | .lookup _ _ | .all _ | .count _ => w

/-- The world after some events, one after the other. -/
def run (w : World) (events : List Event) : World := events.foldl apply w

theorem run_append (w : World) (done later : List Event) :
    w.run (done ++ later) = (w.run done).run later := List.foldl_append

theorem run_concat (w : World) (done : List Event) (e : Event) :
    w.run (done ++ [e]) = (w.run done).apply e := run_append w done [e]

/-- A scope is what happens in it, between the creation of its controller and the drop of its
guard. -/
theorem withController_eq_run {α : Type} (w : World) (number : Nat) (id : ControllerId)
    (clock : Clock) {body : World → α × World} {events : List Event}
    (does : (body (w.create number id clock)).2 = (w.create number id clock).run events) :
    (w.withController number id clock body).2 =
      w.run (.createScoped number id clock :: events ++ [.dropGuard number id]) := by
  rw [run_concat]
  exact congrArg (fun w => (w.close number id).2) does

/-! ### Identifiers -/

/-- The identifier that the event gives to a new controller. -/
def Event.created? : Event → Option ControllerId
  | .detached id _ | .create _ id _ | .createScoped _ id _ => some id
  | _ => none

/-- The identifiers given in some events. -/
def created (events : List Event) : List ControllerId := events.filterMap Event.created?

/-- No identifier is given twice. -/
def Fresh (events : List Event) : Prop := (created events).Nodup

theorem created_append (done later : List Event) :
    created (done ++ later) = created done ++ created later := List.filterMap_append

theorem mem_created_iff {events : List Event} {id : ControllerId} :
    id ∈ created events ↔ ∃ e ∈ events, e.created? = some id := List.mem_filterMap

theorem mem_created_singleton_iff {e : Event} {id : ControllerId} :
    id ∈ created [e] ↔ e.created? = some id := by
  simp [mem_created_iff]

theorem Fresh.left {done later : List Event} (fresh : Fresh (done ++ later)) : Fresh done := by
  rw [Fresh, created_append] at fresh
  exact fresh.of_append_left

/-- What is given later has not been given before. -/
theorem Fresh.not_mem_of_later {done later : List Event} (fresh : Fresh (done ++ later))
    {id : ControllerId} (here : id ∈ created later) : id ∉ created done := by
  rw [Fresh, created_append] at fresh
  exact fun before => (List.disjoint_of_nodup_append fresh) before here

/-! ### Being live -/

/-- The event creates the controller in the registry. -/
def Event.Lists (number : Nat) (id : ControllerId) : Event → Prop
  | .create number' id' _ | .createScoped number' id' _ => number' = number ∧ id' = id
  | _ => False

/-- The event closes the controller in the registry, explicitly or by dropping its guard. -/
def Event.Closes (number : Nat) (id : ControllerId) : Event → Prop
  | .close number' id' | .dropGuard number' id' => number' = number ∧ id' = id
  | _ => False

/-- The controller was created in the registry and has not been closed there since. -/
def Live (events : List Event) (number : Nat) (id : ControllerId) : Prop :=
  ∃ before e after, events = before ++ e :: after ∧ e.Lists number id ∧
    ∀ later ∈ after, ¬ later.Closes number id

section

variable {events : List Event} {e : Event} {number : Nat} {id : ControllerId}

theorem Event.created?_of_lists (lists : e.Lists number id) : e.created? = some id := by
  cases e <;> simp_all [Event.Lists, Event.created?]

theorem Event.not_lists_of_closes {number' : Nat} {id' : ControllerId}
    (closes : e.Closes number id) : ¬ e.Lists number' id' := by
  cases e <;> simp_all [Event.Lists, Event.Closes]

theorem not_live_nil : ¬ Live [] number id := by
  rintro ⟨before, e, after, split, -⟩
  simp at split

/-- A controller is live after an event that creates it, or if it was live before and the event does
not close it. -/
theorem live_concat_iff :
    Live (events ++ [e]) number id ↔
      e.Lists number id ∨ Live events number id ∧ ¬ e.Closes number id := by
  constructor
  · rintro ⟨before, e', after, split, lists, stays⟩
    rcases List.eq_nil_or_concat' after with rfl | ⟨after, last, rfl⟩
    · obtain ⟨-, same⟩ := List.append_inj' split rfl
      cases same
      exact .inl lists
    · rw [← List.cons_append, ← List.append_assoc] at split
      obtain ⟨rfl, same⟩ := List.append_inj' split rfl
      cases same
      obtain ⟨stays, stays_last⟩ := List.forall_mem_append.1 stays
      exact .inr ⟨⟨before, e', after, rfl, lists, stays⟩, stays_last e (List.mem_singleton_self e)⟩
  · rintro (lists | ⟨⟨before, e', after, rfl, lists, stays⟩, stays_last⟩)
    · exact ⟨events, e, [], rfl, lists, by simp⟩
    · refine ⟨before, e', after ++ [e], by simp, lists, List.forall_mem_append.2 ⟨stays, ?_⟩⟩
      exact fun later here => List.mem_singleton.1 here ▸ stays_last

theorem Live.mem_created (live : Live events number id) : id ∈ created events := by
  obtain ⟨before, e, after, rfl, lists, -⟩ := live
  exact mem_created_iff.2 ⟨e, List.mem_append_right _ List.mem_cons_self,
    Event.created?_of_lists lists⟩

/-- **A controller is live in one registry only.** -/
theorem Live.unique {number' : Nat} (fresh : Fresh events) (live : Live events number id)
    (live' : Live events number' id) : number = number' := by
  induction events using List.reverseRecOn with
  | nil => exact absurd live not_live_nil
  | append_singleton events e ih =>
      have once {number : Nat} (lists : e.Lists number id) : id ∉ created events :=
        fresh.not_mem_of_later (mem_created_singleton_iff.2 (Event.created?_of_lists lists))
      rcases live_concat_iff.1 live with lists | ⟨before, -⟩ <;>
        rcases live_concat_iff.1 live' with lists' | ⟨before', -⟩
      · cases e <;> simp_all [Event.Lists]
      · exact absurd before'.mem_created (once lists)
      · exact absurd before.mem_created (once lists')
      · exact ih fresh.left before before'

/-- What is live nowhere and is not created later is live nowhere later. -/
theorem not_live_append {later : List Event} (nowhere : ∀ number, ¬ Live events number id)
    (not_again : id ∉ created later) (number : Nat) : ¬ Live (events ++ later) number id := by
  induction later using List.reverseRecOn with
  | nil => rw [List.append_nil]; exact nowhere number
  | append_singleton later e ih =>
      rw [created_append, List.mem_append, not_or] at not_again
      rw [← List.append_assoc, live_concat_iff]
      rintro (lists | ⟨live, -⟩)
      · exact not_again.2 (mem_created_singleton_iff.2 (Event.created?_of_lists lists))
      · exact ih not_again.1 live

/-- **What has been closed is never live again**, in any registry. -/
theorem Live.never_again {later : List Event} (fresh : Fresh (events ++ e :: later))
    (live : Live events number id) (closes : e.Closes number id) (number' : Nat) :
    ¬ Live (events ++ e :: later) number' id := by
  rw [List.append_cons] at fresh ⊢
  refine not_live_append (fun other live' => ?_) (fun again => ?_) number'
  · rcases live_concat_iff.1 live' with lists | ⟨before, stays⟩
    · exact Event.not_lists_of_closes closes lists
    · exact stays (live.unique fresh.left.left before ▸ closes)
  · exact fresh.not_mem_of_later again (by
      rw [created_append]
      exact List.mem_append_left _ live.mem_created)

end

/-! ### Registries -/

variable {w : World} {number : Nat} {id : ControllerId}

theorem registry_setRegistry (w : World) (number number' : Nat) (listed : Registry) :
    (w.setRegistry number' listed).registry number =
      if number = number' then listed else w.registry number := by
  simp [setRegistry, registry, Std.ExtTreeMap.getD_insert, eq_comm (a := number)]

/-- A controller that is not listed is not closed. -/
theorem close_of_not_mem (absent : id ∉ w.registry number) : w.close number id = (false, w) := by
  rw [close, if_neg (mt Std.ExtTreeSet.contains_iff_mem.1 absent)]

/-- Closing tells whether the controller was listed. -/
theorem fst_close (w : World) (number : Nat) (id : ControllerId) :
    (w.close number id).1 = (w.registry number).contains id := by
  unfold close
  dsimp only
  split
  · next listed => exact listed.symm
  · next absent => exact (Bool.eq_false_iff.2 absent).symm

/-- A closing takes the controller off its registry, and no other off any. -/
theorem mem_registry_close_iff (w : World) (number number' : Nat) (id id' : ControllerId) :
    id ∈ (w.close number' id').2.registry number ↔
      id ∈ w.registry number ∧ ¬ (number' = number ∧ id' = id) := by
  by_cases listed : id' ∈ w.registry number'
  · have closed : (w.close number' id').2.registry number =
        if number = number' then (w.registry number').erase id' else w.registry number := by
      rw [close, if_pos (Std.ExtTreeSet.contains_iff_mem.2 listed)]
      dsimp only
      cases (w.setRegistry number' _).controllers[id']? <;>
        exact registry_setRegistry w number number' _
    rw [closed]
    split
    · next same =>
        subst same
        simp [Std.ExtTreeSet.mem_erase, and_comm]
    · next different => simp [Ne.symm different]
  · rw [close_of_not_mem listed]
    refine ⟨fun here => ⟨here, ?_⟩, And.left⟩
    rintro ⟨rfl, rfl⟩
    exact listed here

theorem mem_registry_create_iff (w : World) (number number' : Nat) (id id' : ControllerId)
    (clock : Clock) :
    id ∈ (w.create number' id' clock).registry number ↔
      (number' = number ∧ id' = id) ∨ id ∈ w.registry number := by
  rw [create, registry_setRegistry]
  split
  · next same =>
      subst same
      simp [Std.ExtTreeSet.mem_insert]
  · next different =>
      rw [or_iff_right fun same => different same.1.symm]
      rfl

/-- An operation through a handle of a controller that is there. -/
theorem apply_operate_of_some {c : Controller} (there : w.controllers[id]? = some c)
    (operation : Controller → Controller) :
    w.apply (.operate id operation) = w.put id (operation c) := by
  simp only [apply, onController, there, Option.map_some]

theorem apply_operate_of_none (absent : w.controllers[id]? = none)
    (operation : Controller → Controller) : w.apply (.operate id operation) = w := by
  simp only [apply, onController, absent, Option.map_none]

/-- What an event does to the registries. -/
theorem mem_registry_apply_iff (w : World) (e : Event) :
    id ∈ (w.apply e).registry number ↔
      e.Lists number id ∨ id ∈ w.registry number ∧ ¬ e.Closes number id := by
  cases e with
  | create number' id' clock | createScoped number' id' clock =>
      exact (mem_registry_create_iff w number number' id id' clock).trans
        (or_congr_right (and_iff_left not_false).symm)
  | dropGuard number' id' | close number' id' =>
      exact (mem_registry_close_iff w number number' id id').trans (or_iff_right not_false).symm
  | operate id' operation =>
      have same : (w.apply (.operate id' operation)).registry number = w.registry number := by
        cases there : w.controllers[id']? with
        | none => rw [apply_operate_of_none there]
        | some c => rw [apply_operate_of_some there]; rfl
      rw [same]
      exact (and_iff_left not_false).symm.trans (or_iff_right not_false).symm
  | _ => exact (and_iff_left not_false).symm.trans (or_iff_right not_false).symm

/-- **A registry lists the controllers that are live in it**, whatever has happened. -/
theorem mem_registry_run_iff (events : List Event) (number : Nat) (id : ControllerId) :
    id ∈ (empty.run events).registry number ↔ Live events number id := by
  induction events using List.reverseRecOn with
  | nil =>
      exact iff_of_false Std.ExtTreeSet.not_mem_empty not_live_nil
  | append_singleton events e ih => rw [run_concat, mem_registry_apply_iff, live_concat_iff, ih]

/-! ### Controllers -/

theorem getElem?_put (w : World) (id other : ControllerId) (c : Controller) :
    (w.put id c).controllers[other]? = if other = id then some c else w.controllers[other]? := by
  simp only [put, Std.ExtTreeMap.getElem?_insert, Std.compare_eq_iff_eq, eq_comm (a := other)]

/-- Where there is no controller, none can be changed. -/
theorem getElem?_of_absent (absent : w.controllers[id]? = none) (other : ControllerId) :
    w.controllers[other]? = if other = id then none else w.controllers[other]? := by
  split
  · next at_id => rw [at_id, absent]
  · rfl

/-- **Closing a listed controller releases it**, and leaves every other alone. -/
theorem getElem?_close_of_mem (listed : id ∈ w.registry number) (other : ControllerId) :
    (w.close number id).2.controllers[other]? =
      if other = id then w.controllers[id]?.map Controller.release else w.controllers[other]? := by
  rw [close, if_pos (Std.ExtTreeSet.contains_iff_mem.2 listed)]
  dsimp only
  -- Taking the controller off the list leaves all controllers as they are.
  have same : (w.setRegistry number ((w.registry number).erase id)).controllers[id]? =
      w.controllers[id]? := rfl
  rw [same]
  cases there : w.controllers[id]? with
  | some c => exact getElem?_put _ id other c.release
  | none => exact getElem?_of_absent there other

/-- An operation through a handle changes its controller and no other. -/
theorem getElem?_operate (w : World) (id other : ControllerId)
    (operation : Controller → Controller) :
    (w.apply (.operate id operation)).controllers[other]? =
      if other = id then w.controllers[id]?.map operation else w.controllers[other]? := by
  cases there : w.controllers[id]? with
  | none =>
      rw [apply_operate_of_none there]
      exact getElem?_of_absent there other
  | some c =>
      rw [apply_operate_of_some there]
      exact getElem?_put w id other (operation c)

/-- Replacing a controller, if at all, takes none away. -/
theorem isSome_ite_map {other : ControllerId} (change : Controller → Controller) :
    (if other = id then w.controllers[id]?.map change else w.controllers[other]?).isSome =
      w.controllers[other]?.isSome := by
  split
  · next at_id => rw [at_id, Option.isSome_map]
  · rfl

/-- An event makes the controller that it creates, and takes none away. -/
theorem isSome_controllers_apply_iff (w : World) (e : Event) :
    (w.apply e).controllers[id]?.isSome ↔ e.created? = some id ∨ w.controllers[id]?.isSome := by
  cases e with
  | detached id' clock | create number' id' clock | createScoped number' id' clock =>
      change (w.put id' (.withClock clock)).controllers[id]?.isSome ↔ some id' = some id ∨ _
      rw [getElem?_put, Option.some.injEq]
      split
      · next same => exact iff_of_true rfl (.inl same.symm)
      · next different => exact (or_iff_right fun same => different same.symm).symm
  | dropGuard number' id' | close number' id' =>
      have kept : (w.close number' id').2.controllers[id]?.isSome = w.controllers[id]?.isSome := by
        by_cases listed : id' ∈ w.registry number'
        · rw [getElem?_close_of_mem listed, isSome_ite_map]
        · rw [close_of_not_mem listed]
      rw [apply, kept]
      exact (or_iff_right (by rintro ⟨⟩)).symm
  | operate id' operation =>
      rw [getElem?_operate, isSome_ite_map]
      exact (or_iff_right (by rintro ⟨⟩)).symm
  | _ => exact (or_iff_right (by rintro ⟨⟩)).symm

/-- **Every controller that was created is there for good.** -/
theorem isSome_controllers_run_iff (events : List Event) (id : ControllerId) :
    (empty.run events).controllers[id]?.isSome ↔ id ∈ created events := by
  induction events using List.reverseRecOn with
  | nil => exact iff_of_false (by rintro ⟨⟩) (List.not_mem_nil)
  | append_singleton events e ih =>
      rw [run_concat, isSome_controllers_apply_iff, ih, created_append, List.mem_append,
        mem_created_singleton_iff, or_comm]

/-! ### What a registry answers -/

section

variable {events : List Event}

theorem Live.exists_controller (live : Live events number id) :
    ∃ c, (empty.run events).controllers[id]? = some c :=
  Option.isSome_iff_exists.1 ((isSome_controllers_run_iff events id).2 live.mem_created)

/-- A lookup of a live controller finds what every handle of it sees. -/
theorem Live.lookup (live : Live events number id) :
    (empty.run events).lookup number id = (empty.run events).controllers[id]? :=
  if_pos (Std.ExtTreeSet.contains_iff_mem.2 ((mem_registry_run_iff events number id).2 live))

theorem lookup_of_not_live (dead : ¬ Live events number id) :
    (empty.run events).lookup number id = none :=
  if_neg (mt Std.ExtTreeSet.contains_iff_mem.1 (mt (mem_registry_run_iff events number id).1 dead))

theorem isSome_lookup_iff :
    ((empty.run events).lookup number id).isSome ↔ Live events number id := by
  by_cases live : Live events number id
  · obtain ⟨c, there⟩ := live.exists_controller
    rw [live.lookup, there]
    exact iff_of_true rfl live
  · rw [lookup_of_not_live live]
    exact iff_of_false (by rintro ⟨⟩) live

/-- A closing succeeds exactly if the controller is live. -/
theorem fst_close_run_iff :
    ((empty.run events).close number id).1 = true ↔ Live events number id := by
  rw [fst_close, Std.ExtTreeSet.contains_iff_mem, mem_registry_run_iff]

/-- Closing a live controller releases it. -/
theorem Live.close (live : Live events number id) :
    ∃ c, (empty.run events).controllers[id]? = some c ∧
      ((empty.run events).close number id).2.controllers[id]? = some c.release := by
  obtain ⟨c, there⟩ := live.exists_controller
  have listed := (mem_registry_run_iff events number id).2 live
  exact ⟨c, there, by rw [getElem?_close_of_mem listed, if_pos rfl, there, Option.map_some]⟩

/-- Closing a controller leaves every other alone, whether it is live or not. -/
theorem getElem?_close_of_ne (w : World) (number : Nat) {other : ControllerId}
    (different : other ≠ id) :
    (w.close number id).2.controllers[other]? = w.controllers[other]? := by
  by_cases listed : id ∈ w.registry number
  · rw [getElem?_close_of_mem listed, if_neg different]
  · rw [close_of_not_mem listed]

/-- What is found after an operation through any handle is what the operation made of it. -/
theorem lookup_operate (w : World) (number : Nat) (id : ControllerId)
    (operation : Controller → Controller) :
    (w.apply (.operate id operation)).lookup number id = (w.lookup number id).map operation := by
  have same : ((w.apply (.operate id operation)).registry number).contains id =
      (w.registry number).contains id := by
    rw [Bool.eq_iff_iff, Std.ExtTreeSet.contains_iff_mem, Std.ExtTreeSet.contains_iff_mem,
      mem_registry_apply_iff]
    exact (or_iff_right not_false).trans (and_iff_left not_false)
  rw [World.lookup, World.lookup, same, getElem?_operate, if_pos rfl]
  split <;> rfl

/-- The list of a registry is strictly ascending. -/
theorem pairwise_live (w : World) (number : Nat) :
    (w.live number).Pairwise fun a b => a.text < b.text := by
  have ordered : (w.live number).Pairwise fun a b => compare a b = .lt :=
    Std.ExtTreeSet.ordered_toList
  exact ordered.imp compareOfLessAndEq_eq_lt.1

theorem mem_live_run_iff : id ∈ (empty.run events).live number ↔ Live events number id := by
  rw [live, Std.ExtTreeSet.mem_toList, mem_registry_run_iff]

end

/-- **A controller is live from its creation until it is closed.**  In every run in which no
identifier is given twice, and in whatever world a first part of it leads to:

* looking an identifier up succeeds exactly if its controller was created in the registry and has
  not been closed there since, and what is found is what every handle sees, also after an operation
  through any of them;
* closing a live controller answers yes and takes away its repositories, for every handle, and
  whatever the run goes on with after a closing, closing the controller again answers no, in any
  registry; closing a controller that is not live answers no and changes nothing; and no closing
  touches any other controller;
* the list of a registry has exactly the live controllers in it, in strictly ascending order, and
  the count is their number. -/
theorem controllers_live_until_closed (done later : List Event) (fresh : Fresh (done ++ later)) :
    let w := empty.run done
    (∀ number id,
      ((w.lookup number id).isSome ↔ Live done number id) ∧
      (∀ c, w.lookup number id = some c → w.controllers[id]? = some c) ∧
      (∀ operation, (w.apply (.operate id operation)).lookup number id =
        (w.lookup number id).map operation) ∧
      (Live done number id →
        (w.close number id).1 = true ∧
        (∃ c, w.controllers[id]? = some c ∧
          (w.close number id).2.controllers[id]? = some { c with repositories := ∅ }) ∧
        ∀ e rest, later = e :: rest → e.Closes number id →
          ∀ number', ((w.run later).close number' id).1 = false) ∧
      (¬ Live done number id → w.close number id = (false, w)) ∧
      ∀ other, other ≠ id →
        (w.close number id).2.controllers[other]? = w.controllers[other]?) ∧
    ∀ number,
      (w.live number).Pairwise (fun a b => a.text < b.text) ∧
      (∀ id, id ∈ w.live number ↔ Live done number id) ∧
      w.count number = (w.live number).length := by
  intro w
  refine ⟨fun number id => ⟨isSome_lookup_iff, fun c found => ?found, lookup_operate w number id,
    fun live => ⟨fst_close_run_iff.2 live, live.close, ?again⟩, fun dead => ?ignored,
    fun other => getElem?_close_of_ne w number⟩,
    fun number => ⟨pairwise_live w number, fun id => mem_live_run_iff,
      Std.ExtTreeSet.length_toList.symm⟩⟩
  case found =>
    have live := isSome_lookup_iff.1 (Option.isSome_of_eq_some found)
    exact live.lookup.symm.trans found
  case again =>
    rintro e rest rfl closes number'
    have dead := live.never_again fresh closes number'
    rw [← run_append]
    exact Bool.eq_false_iff.2 (mt fst_close_run_iff.1 dead)
  case ignored =>
    exact close_of_not_mem (mt (mem_registry_run_iff done number id).1 dead)

/-- A controller that its scope has left is gone, one that is used again after its closing stays
closed, and a registry does not close what another one lists. -/
theorem controllers_live_until_closed_reused :
    let kept : ControllerId := ⟨"a"⟩
    let inScope : ControllerId := ⟨"b"⟩
    let clock := Clock.fixed ⟨0⟩
    let fill : Controller → Controller := fun c => (c.createRepository "r").2
    let done : List Event := [.create 0 kept clock, .detached ⟨"c"⟩ clock,
      .createScoped 0 inScope clock, .create 1 ⟨"d"⟩ clock, .operate inScope fill,
      .operate kept fill, .dropGuard 0 inScope]
    let later : List Event := [.close 0 kept, .operate kept fill, .count 0]
    let w := empty.run done
    Fresh (done ++ later) ∧ Live done 0 kept ∧ (w.close 0 kept).1 = true ∧
      ((w.run later).close 0 kept).1 = false ∧ w.close 1 kept = (false, w) ∧
      w.lookup 0 inScope = none ∧ (∀ id, id ∈ w.live 0 ↔ Live done 0 id) ∧ w.count 0 = 1 := by
  intro kept inScope clock fill done later w
  have fresh : Fresh (done ++ later) := by
    change (created _).Nodup
    decide
  obtain ⟨each, all⟩ := controllers_live_until_closed done later fresh
  obtain ⟨found, -, -, closes, -, -⟩ := each 0 kept
  have live : Live done 0 kept := found.1 (by decide +kernel)
  obtain ⟨yes, -, again⟩ := closes live
  obtain ⟨elsewhere, -, -, -, ignored, -⟩ := each 1 kept
  have dead : ¬ Live done 1 kept := mt elsewhere.2 (by decide +kernel)
  obtain ⟨-, listed, -⟩ := all 0
  exact ⟨fresh, live, yes, again _ _ rfl ⟨rfl, rfl⟩ 0, ignored dead,
    Option.isNone_iff_eq_none.1 (by decide +kernel), listed, by decide +kernel⟩

end RevisionStore.World
