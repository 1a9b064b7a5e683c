/-
**Repositories of one controller are independent of each other.**

Calls are confined to the repository that they name.  If some calls name one repository and some
another, then each repository goes through what it would go through if the other calls did not
exist, in whatever order they come; the clock is the only thing that they share, so it has to be one
that does not move.  What a checkout answers may also depend on what its destination holds, and this
is all that the order can change.

Main definitions:

* `Interleaves` — a list is made of the items of two others, each in order;
* `Controller.replies` — the calls of a run, each with its reply;
* `Destination.Indifferent`, `Controller.Call.Indifferent` — an answer does not depend on what the
  destination holds.

Main results:

* `Controller.interleaves_replies` — **in an interleaving each call replies as if the calls on the
  other repository did not exist**;
* `Controller.Call.Indifferent.reply_congr` — the answer is the same wherever a checkout goes;
* `Controller.repositories_independent` — **interleaving changes no reply and no repository**;
* `Controller.checkouts_to_one_place_collide` — but two checkouts into one directory can be told
  apart by their order.
-/

import RevisionStore.Proofs.Controller.Locality
import RevisionStore.Proofs.Checkout.Confinement

set_option autoImplicit false

namespace RevisionStore

/-! ### Interleavings -/

/-- The third list is made of the items of the first two, each in order. -/
inductive Interleaves {α : Type} : List α → List α → List α → Prop where
  | nil : Interleaves [] [] []
  | left {item : α} {p q l : List α} : Interleaves p q l → Interleaves (item :: p) q (item :: l)
  | right {item : α} {p q l : List α} : Interleaves p q l → Interleaves p (item :: q) (item :: l)

/-! ### Destinations that do not heed what they hold -/

/-- Whether the destination takes a file does not depend on what it holds. -/
def Destination.Indifferent {σ : Type} (destination : Destination (StateM σ)) : Prop :=
  ∀ (path : String) (content : Bytes) (place place' : σ),
    ((destination.write path content).run place).1 =
      ((destination.write path content).run place').1

/-- Memory takes every file. -/
theorem Destination.indifferent_memory : Destination.memory.Indifferent := by
  intro path content place place'
  rfl

theorem Destination.Indifferent.writeAll_congr {σ : Type} {destination : Destination (StateM σ)}
    (indifferent : destination.Indifferent) (files : List (String × Bytes)) (place place' : σ) :
    ((destination.writeAll files).run place).1 = ((destination.writeAll files).run place').1 := by
  induction files generalizing place place' with
  | nil => rfl
  | cons file rest ih =>
      obtain ⟨path, content⟩ := file
      have same := indifferent path content place place'
      rw [Destination.writeAll_cons_run, Destination.writeAll_cons_run]
      generalize (destination.write path content).run place = written at same ⊢
      generalize (destination.write path content).run place' = written' at same ⊢
      obtain ⟨result, after⟩ := written
      obtain ⟨result', after'⟩ := written'
      obtain rfl : result = result' := same
      cases result with
      | error e => rfl
      | ok _ => exact ih after after'

namespace Controller

variable {σ : Type} {c : Controller}

/-- The call is no checkout, or one whose destination does not heed what it holds. -/
def Call.Indifferent : Call σ → Prop
  | checkout destination _ _ => destination.Indifferent
  | _ => True

/-- The answer is the same whatever there is where a checkout goes. -/
theorem Call.Indifferent.reply_congr {call : Call σ} (indifferent : call.Indifferent)
    (c : Controller) (place place' : σ) : (call.reply c place).1 = (call.reply c place').1 := by
  cases call with
  | checkout destination repository identifier =>
      have same : ((c.checkout destination repository identifier).run place).1 =
          ((c.checkout destination repository identifier).run place').1 := by
        rw [checkout_run, checkout_run]
        cases c.snapshot repository identifier with
        | error e => rfl
        | ok found =>
            exact congrArg (Except.map _)
              (Destination.Indifferent.writeAll_congr indifferent _ place place')
      exact congrArg (Except.map Answer.hash) same
  | _ => rfl

/-! ### Runs -/

/-- The calls of a run, each with what it replies for every state of the place it is handed. -/
def replies (place : σ) (c : Controller) :
    List (Call σ) → List (Call σ × (σ → Except StoreError Answer × σ))
  | [] => []
  | call :: calls =>
    (call, call.reply c) :: replies (call.run place c).2 (call.run place c).1.2 calls

theorem replies_append (place : σ) (c : Controller) (done later : List (Call σ)) :
    replies place c (done ++ later) =
      replies place c done ++
        replies (runCalls place c done).2 (runCalls place c done).1 later := by
  induction done generalizing place c with
  | nil => rfl
  | cons call done ih => exact congrArg _ (ih _ _)

@[simp] theorem map_fst_replies (place : σ) (c : Controller) (calls : List (Call σ)) :
    (replies place c calls).map Prod.fst = calls := by
  induction calls generalizing place c with
  | nil => rfl
  | cons call calls ih => exact congrArg _ (ih _ _)

/-! ### A clock that does not move -/

theorem skip_fixed (time : Timestamp) (n : Nat) : (Clock.fixed time).skip n = .fixed time := by
  induction n with
  | zero => rfl
  | succ n ih => rw [Clock.skip_succ, ih, Clock.read_fixed]

section Fixed

variable {time : Timestamp} (fixed : c.clock = .fixed time)
include fixed

theorem Call.clock_run (call : Call σ) (place : σ) :
    (call.run place c).1.2.clock = .fixed time := by
  rw [(call.readsClock place c).clock_eq, fixed, skip_fixed]

theorem clock_runCalls (place : σ) (calls : List (Call σ)) :
    (runCalls place c calls).1.clock = .fixed time := by
  rw [(timestamps_made place c calls).2, fixed, skip_fixed]

/-- A call leaves what the controller has in common with another about any other repository. -/
theorem Call.agree_of_other {call : Call σ} {name other : String} {c' : Controller}
    (names : call.repository? = some name) (different : other ≠ name) (place : σ)
    (agree : Agree other c c') : Agree other (call.run place c).1.2 c' where
  repository := ((call.confined names place).frame c other different).trans agree.repository
  clock := (call.clock_run fixed place).trans (fixed.symm.trans agree.clock)

/-- So do calls that all name one repository. -/
theorem agree_runCalls_of_other {name other : String} (place : σ) (different : other ≠ name)
    {calls : List (Call σ)} (names : ∀ call ∈ calls, call.repository? = some name) :
    Agree other (runCalls place c calls).1 c := by
  induction calls generalizing place c with
  | nil => exact .refl other c
  | cons call calls ih =>
      obtain ⟨first, rest⟩ := List.forall_mem_cons.1 names
      exact (ih (call.clock_run fixed place) _ rest).trans
        (call.agree_of_other fixed first different place (.refl other c))

end Fixed

/-- A call on a repository that two controllers agree on leaves them agreeing on it. -/
theorem Agree.run {call : Call σ} {name : String} {c c' : Controller} (agree : Agree name c c')
    (names : call.repository? = some name) (place place' : σ) :
    Agree name (call.run place c).1.2 (call.run place' c').1.2 := by
  rw [call.after_congr place' place c']
  exact ((call.confined names place).congr agree).2

section Interleaved

variable {A B : String} (different : A ≠ B) {p q l : List (Call σ)}
  (onA : ∀ call ∈ p, call.repository? = some A) (onB : ∀ call ∈ q, call.repository? = some B)
include different onA onB

/-- **In an interleaving each call replies as if the calls on the other repository did not exist.**
The calls on `A` reply as they do from any controller that has the same `A`, and leave the same `A`
behind; so it is with `B`, and nothing else changes. -/
theorem interleaves_replies (merged : Interleaves p q l) {c cA cB : Controller} {time : Timestamp}
    (fixed : c.clock = .fixed time) (agreeA : Agree A c cA) (agreeB : Agree B c cB)
    (place placeA placeB : σ) :
    Interleaves (replies placeA cA p) (replies placeB cB q) (replies place c l) ∧
      Agree A (runCalls place c l).1 (runCalls placeA cA p).1 ∧
      Agree B (runCalls place c l).1 (runCalls placeB cB q).1 ∧
      ∀ other, other ≠ A → other ≠ B → Agree other (runCalls place c l).1 c := by
  -- The first call of the interleaving is the first on its repository, and the other repository
  -- does not notice it.
  induction merged generalizing c cA cB place placeA placeB with
  | nil => exact ⟨.nil, agreeA, agreeB, fun other _ _ => .refl other c⟩
  | @left call p q l merged ih =>
      obtain ⟨first, rest⟩ := List.forall_mem_cons.1 onA
      obtain ⟨replied, endA, endB, others⟩ := ih rest onB (call.clock_run fixed place)
        (agreeA.run first place placeA)
        (call.agree_of_other fixed first different.symm place agreeB)
        (call.run place c).2 (call.run placeA cA).2 placeB
      refine ⟨?_, endA, endB, fun other notA notB => ?_⟩
      · rw [replies, replies, call.reply_congr first agreeA]
        exact .left replied
      · exact (others other notA notB).trans
          (call.agree_of_other fixed first notA place (.refl other c))
  | @right call p q l merged ih =>
      obtain ⟨first, rest⟩ := List.forall_mem_cons.1 onB
      obtain ⟨replied, endA, endB, others⟩ := ih onA rest (call.clock_run fixed place)
        (call.agree_of_other fixed first different place agreeA)
        (agreeB.run first place placeB)
        (call.run place c).2 placeA (call.run placeB cB).2
      refine ⟨?_, endA, endB, fun other notA notB => ?_⟩
      · rw [replies, replies, call.reply_congr first agreeB]
        exact .right replied
      · exact (others other notA notB).trans
          (call.agree_of_other fixed first notB place (.refl other c))

end Interleaved

/-- **Repositories of one controller are independent of each other**, as long as its clock does not
move.  However calls that name `A` and calls that name `B` are interleaved, each of them replies as
it does when all those on `A` come before all those on `B`, and the controller ends up the same.
What a call replies is told for every state that the destination of a checkout can be in when it is
handed over; no other call heeds that state, nor does a checkout whose destination does not.  And a
call leaves every repository alone that it does not name. -/
theorem repositories_independent (place : σ) (c : Controller) (time : Timestamp)
    (fixed : c.clock = .fixed time) (A B : String) (different : A ≠ B) (p q l : List (Call σ))
    (onA : ∀ call ∈ p, call.repository? = some A) (onB : ∀ call ∈ q, call.repository? = some B)
    (merged : Interleaves p q l) :
    (∃ repliesA repliesB, replies place c (p ++ q) = repliesA ++ repliesB ∧
        repliesA.map Prod.fst = p ∧ repliesB.map Prod.fst = q ∧
        Interleaves repliesA repliesB (replies place c l)) ∧
      (runCalls place c l).1 = (runCalls place c (p ++ q)).1 ∧
      (∀ call : Call σ, call.Indifferent → ∀ (c : Controller) (place place' : σ),
        (call.reply c place).1 = (call.reply c place').1) ∧
      ∀ (call : Call σ) (name other : String) (place : σ) (c : Controller),
        call.repository? = some name → other ≠ name →
          (call.run place c).1.2.repositories[other]? = c.repositories[other]? := by
  let afterA := runCalls place c p
  have agreeB : Agree B c afterA.1 :=
    (agree_runCalls_of_other fixed place different.symm onA).symm
  obtain ⟨replied, endA, endB, others⟩ :=
    interleaves_replies different onA onB merged fixed (.refl A c) agreeB place place afterA.2
  have fixedA : afterA.1.clock = .fixed time := clock_runCalls fixed place p
  refine ⟨⟨_, _, replies_append place c p q, map_fst_replies _ _ _, map_fst_replies _ _ _, replied⟩,
    eq_of_agree fun name => ?_, fun call indifferent => indifferent.reply_congr,
    fun call name other place c names => (call.confined names place).frame c other⟩
  rw [runCalls_append]
  -- Each repository is compared where its own calls come last.
  by_cases isA : name = A
  · rw [isA]
    exact endA.trans (agree_runCalls_of_other fixedA afterA.2 different onB).symm
  · by_cases isB : name = B
    · rw [isB]
      exact endB
    · exact (others name isA isB).trans
        ((agree_runCalls_of_other fixedA afterA.2 isB onB).trans
          (agree_runCalls_of_other fixed place isA onA)).symm

/-! ### Two checkouts into one directory -/

/-- Makes a repository with one file and checks it out into the directory `w`. -/
def makeAndCheckOut (name path : String) : List (Call FileTree) :=
  [.createRepository name, .addFile name defaultBranch "m" path [1],
    .checkout (Destination.folder (FileTree.fileSystem []) "w") name defaultBranch]

/-- The calls on two repositories with the files `x` and `x/y`, the second checkout before the
first. -/
def crossed : List (Call FileTree) :=
  let p := makeAndCheckOut "A" "x"
  let q := makeAndCheckOut "B" "x/y"
  [p[0], q[0], p[1], q[1], q[2], p[2]]

theorem interleaves_crossed :
    Interleaves (makeAndCheckOut "A" "x") (makeAndCheckOut "B" "x/y") crossed :=
  .left (.right (.left (.right (.right (.left .nil)))))

theorem repository?_makeAndCheckOut (name path : String) :
    ∀ call ∈ makeAndCheckOut name path, call.repository? = some name := by
  simp [makeAndCheckOut, Call.repository?]

/-- The two repositories come out the same in either order. -/
theorem repositories_independent_crossed :
    let c := Controller.withClock (.fixed ⟨0⟩)
    let p := makeAndCheckOut "A" "x"
    let q := makeAndCheckOut "B" "x/y"
    (runCalls ∅ c crossed).1 = (runCalls ∅ c (p ++ q)).1 ∧
      (runCalls ∅ c crossed).1.listRepositories = ["A", "B"] := by
  intro c p q
  obtain ⟨-, same, -, -⟩ := repositories_independent ∅ c ⟨0⟩ rfl "A" "B" (by decide) p q crossed
    (repository?_makeAndCheckOut _ _) (repository?_makeAndCheckOut _ _) interleaves_crossed
  exact ⟨same, by decide +kernel⟩

/-- **The order of two checkouts into one directory can be told from what they answer.**  The last
call on `A` is the checkout of the file `x`.  It succeeds if the calls on `B` come later, and fails
if the checkout of `x/y` has been there before and made `x` a directory. -/
theorem checkouts_to_one_place_collide :
    let c := Controller.withClock (.fixed ⟨0⟩)
    let p := makeAndCheckOut "A" "x"
    let q := makeAndCheckOut "B" "x/y"
    (∀ call ∈ p, call.repository? = some "A") ∧ (∀ call ∈ q, call.repository? = some "B") ∧
      Interleaves p q crossed ∧ crossed[5]? = p[2]? ∧
      (answers ∅ c (p ++ q))[2]?.map Except.isOk = some true ∧
      (answers ∅ c crossed)[5]?.map Except.isOk = some false := by
  intro c p q
  refine ⟨repository?_makeAndCheckOut _ _, repository?_makeAndCheckOut _ _, interleaves_crossed,
    rfl, ?_⟩
  decide +kernel

end Controller

end RevisionStore
