/-
**The life of a change request.**

A change request comes into being under the next number, keeps the baseline and the title that it
was opened with, follows the commits to it, and is gone for good once it is closed.  One equation
says what a mutation makes of a change request that is not just being opened
(`Repository.WellFormed.request_perform`), and its iteration says what any run makes of it.  That no
later opening interferes is because the numbers given out in a run are all different.

Main definitions:

* `Mutation.number?`, `Repository.given` — the number that an opening answers with, and all those of
  a run in order;
* `Mutation.amendment?`, `Repository.amendments` — the hash that a commit to a change request
  answers with, and all those of a run in order;
* `Repository.Opening` — the place in a run where a change request is opened.

Main results:

* `Repository.toNat_given` — **the numbers given out are 1, 2, 3 and so on**;
* `Repository.WellFormed.request_run` — what a run makes of a change request;
* `Repository.exists_opening` — what is open was opened;
* `Repository.change_requests_live_once` — **the life of every change request of a run**.
-/

import RevisionStore.Proofs.Repository.Effect
import RevisionStore.Proofs.Repository.Retention

set_option autoImplicit false

namespace RevisionStore

namespace Mutation

/-- The number that the operation answers with, if it opens a change request. -/
def number? (r : Repository) (m : Mutation) : Option UInt64 :=
  match (m.perform r).1 with
  | .ok (.number number) => some number
  | _ => none

/-- The hash that the operation answers with, if it is a commit that succeeds and whose target
stands for the change request. -/
def amendment? (r : Repository) (number : UInt64) (m : Mutation) : Option RevisionHash :=
  match m, (m.perform r).1 with
  | commit text _ _ _, .ok (.hash hash) =>
    if r.commitTarget text = .ok (.changeRequest number) then some hash else none
  | _, _ => none

theorem number?_eq_some_iff {r : Repository} {m : Mutation} {number : UInt64} :
    m.number? r = some number ↔ (m.perform r).1 = .ok (.number number) := by
  unfold number?
  split
  · next n answered => simp [answered]
  · next other =>
      simp only [reduceCtorEq, false_iff]
      exact other number

end Mutation

namespace Repository

/-! ### The numbers given out -/

/-- The numbers that a list of mutations answers with, in order. -/
def given (r : Repository) : List Mutation → List UInt64
  | [] => []
  | m :: ms => (m.number? r).toList ++ given (m.perform r).2 ms

theorem given_append (r : Repository) (done later : List Mutation) :
    r.given (done ++ later) = r.given done ++ (r.run done).given later := by
  induction done generalizing r with
  | nil => rfl
  | cons m done ih => simp [given, run, ih]

/-- An operation opens a change request exactly if it answers with a number. -/
theorem WellFormed.opens_iff {r : Repository} (wf : WellFormed r) {m : Mutation} :
    m.opens r = true ↔ ∃ number, (m.perform r).1 = .ok (.number number) := by
  constructor
  · intro opens
    cases m with
    | openChangeRequest branch title =>
        have present : branch ∈ r.branches := opens
        have found := Std.ExtTreeMap.getElem?_eq_some_getElem present
        refine ⟨r.lastChangeRequest + 1, ?_⟩
        simp only [Mutation.perform, Mutation.answering, openChangeRequest, branchHead, found]
        rfl
    | _ => cases opens
  · rintro ⟨number, answered⟩
    cases wf.effect answered with
    | @openChangeRequest branch title head _ source set =>
        have present : (r.holding? (.branch branch)).isSome := by rw [source, Option.isSome_some]
        rwa [isSome_holding?_branch] at present

/-- The number that is given out is the one after the last. -/
theorem WellFormed.number?_eq {r : Repository} (wf : WellFormed r) (m : Mutation) :
    m.number? r = if m.opens r then some (r.lastChangeRequest + 1) else none := by
  split
  · next opens =>
      obtain ⟨number, answered⟩ := wf.opens_iff.1 opens
      rw [Mutation.number?_eq_some_iff.2 answered, number_of_success answered]
  · next still =>
      rw [Option.eq_none_iff_forall_ne_some]
      intro number answered
      exact still (wf.opens_iff.2 ⟨number, Mutation.number?_eq_some_iff.1 answered⟩)

/-- As many numbers are given out as change requests are opened. -/
theorem length_given (name : String) (start : Timestamp) (ms : List Mutation) :
    ((create name start).given ms).length = (create name start).opened ms := by
  induction ms using List.reverseRecOn with
  | nil => rfl
  | append_singleton done m ih =>
      have wf : WellFormed ((create name start).run done) := wellFormed_reached name start done
      rw [given_append, opened_concat, List.length_append, ih]
      simp only [given, wf.number?_eq, List.append_nil]
      cases m.opens ((create name start).run done) <;> rfl

/-- **The numbers given out are 1, 2, 3 and so on**, as long as numbers last. -/
theorem toNat_given {name : String} {start : Timestamp} {ms : List Mutation}
    (lasts : (create name start).opened ms < UInt64.size) :
    ((create name start).given ms).map UInt64.toNat =
      List.range' 1 ((create name start).opened ms) := by
  induction ms using List.reverseRecOn with
  | nil => rfl
  | append_singleton done m ih =>
      have wf : WellFormed ((create name start).run done) := wellFormed_reached name start done
      rw [opened_concat] at lasts ⊢
      have before := Nat.lt_of_le_of_lt (Nat.le_add_right _ _) lasts
      have numbered : Numbered ((create name start).run done) _ :=
        numbered_reached name start done before
      rw [given_append, List.map_append, ih before]
      simp only [given, wf.number?_eq, List.append_nil]
      cases opens : m.opens ((create name start).run done) with
      | false => simp
      | true =>
          rw [opens] at lasts
          simp only [if_true, Option.toList_some, List.map_cons, List.map_nil,
            numbered.toNat_next lasts, Bool.toNat_true, List.range'_1_concat, Nat.add_comm 1]

/-- A number that is given out is between 1 and how many are. -/
theorem bounds_of_mem_given {name : String} {start : Timestamp} {ms : List Mutation}
    {number : UInt64} (lasts : (create name start).opened ms < UInt64.size)
    (here : number ∈ (create name start).given ms) :
    1 ≤ number.toNat ∧ number.toNat ≤ (create name start).opened ms := by
  have inRange : number.toNat ∈ List.range' 1 ((create name start).opened ms) := by
    rw [← toNat_given lasts]
    exact List.mem_map_of_mem here
  have limits := List.mem_range'_1.1 inRange
  exact ⟨limits.1, by omega⟩

/-! ### What a run makes of a change request -/

/-- The hashes that a list of mutations answers with for commits to a change request, in order. -/
def amendments (r : Repository) (number : UInt64) : List Mutation → List RevisionHash
  | [] => []
  | m :: ms => (m.amendment? r number).toList ++ amendments (m.perform r).2 number ms

/-- A repository has the change request that it holds. -/
theorem changeRequest_of_holding {r' : Repository} {number : UInt64}
    {request : Option ChangeRequest}
    (holding : r'.holding? (.changeRequest number) = request.map Holding.request) :
    r'.changeRequests[number]? = request :=
  Option.map_injective (fun _ _ same => Holding.request.inj same) holding

section Step

variable {r : Repository} {m : Mutation} {number : UInt64}

theorem amendment?_eq_some {text message : String} {change : FileChange} {timestamp : Timestamp}
    {hash : RevisionHash} (named : r.commitTarget text = .ok (.changeRequest number))
    (answered : ((Mutation.commit text message change timestamp).perform r).1 = .ok (.hash hash)) :
    (Mutation.commit text message change timestamp).amendment? r number = some hash := by
  simp only [Mutation.amendment?, answered, named, if_true]

theorem amendment?_eq_none {text message : String} {change : FileChange} {timestamp : Timestamp}
    (other : r.commitTarget text ≠ .ok (.changeRequest number)) :
    (Mutation.commit text message change timestamp).amendment? r number = none := by
  simp only [Mutation.amendment?]
  split
  · next same answered =>
      cases same
      exact if_neg other
  · rfl

/-- An operation that fails amends nothing. -/
theorem amendment?_of_error {e : StoreError} (failed : (m.perform r).1 = .error e) :
    m.amendment? r number = none := by
  unfold Mutation.amendment?
  split
  · next answered =>
      rw [failed] at answered
      cases answered
  · rfl

/-- What an operation makes of a change request that it neither drops nor amends. -/
theorem request_of_still
    (still : (m.perform r).2.holding? (.changeRequest number) =
      r.holding? (.changeRequest number))
    (kept : m ≠ .closeChangeRequest number) (unamended : m.amendment? r number = none) :
    (m.perform r).2.changeRequests[number]? =
      if m = .closeChangeRequest number then none
      else r.changeRequests[number]?.map fun request =>
        { request with head := (m.amendment? r number).getD request.head } := by
  rw [if_neg kept, unamended, changeRequest_of_holding still]
  exact (congrFun Option.map_id _).symm

/-- **What a mutation makes of a change request** that it does not open: closing it drops it, a
commit to it gives it another head, and nothing else changes it. -/
theorem WellFormed.request_perform (wf : WellFormed r) (not_new : m.number? r ≠ some number) :
    (m.perform r).2.changeRequests[number]? =
      if m = .closeChangeRequest number then none
      else r.changeRequests[number]?.map fun request =>
        { request with head := (m.amendment? r number).getD request.head } := by
  cases answered : (m.perform r).1 with
  | error e =>
      refine request_of_still (by rw [perform_of_error answered]) ?_ (amendment?_of_error answered)
      rintro rfl
      cases answered
  | ok reply =>
      cases wf.effect answered with
      | setDescription still => exact request_of_still (by rw [still]) (by simp) rfl
      | setPrimaryBranch still => exact request_of_still (by rw [still]) (by simp) rfl
      | createBranch set stored =>
          exact request_of_still (by rw [set, Function.update_of_ne (by simp)]) (by simp) rfl
      | cloneBranch head set =>
          exact request_of_still (by rw [set, Function.update_of_ne (by simp)]) (by simp) rfl
      | deleteBranch set =>
          exact request_of_still (by rw [set, Function.update_of_ne (by simp)]) (by simp) rfl
      | createTag named set =>
          exact request_of_still (by rw [set, Function.update_of_ne (by simp)]) (by simp) rfl
      | deleteTag set =>
          exact request_of_still (by rw [set, Function.update_of_ne (by simp)]) (by simp) rfl
      | @openChangeRequest branch title head n source set =>
          have other : n ≠ number := by
            rintro rfl
            exact not_new (Mutation.number?_eq_some_iff.2 answered)
          exact request_of_still (by rw [set, Function.update_of_ne (by simpa using other.symm)])
            (by simp) rfl
      | @closeChangeRequest n set =>
          by_cases same : n = number
          · subst same
            rw [if_pos rfl]
            exact changeRequest_of_holding (by rw [set, Function.update_self]; rfl)
          · exact request_of_still
              (by rw [set, Function.update_of_ne (by simpa using Ne.symm same)])
              (by simpa using same) rfl
      | @commit text message change timestamp target old hash base revision named head before set =>
          by_cases same : target = .changeRequest number
          · subst same
            rw [if_neg (by simp), amendment?_eq_some named answered]
            refine changeRequest_of_holding ?_
            rw [set, CommitTarget.ref, Function.update_self, holding?, Option.map_map,
              Option.map_map]
            rfl
          · have unmoved : Ref.changeRequest number ≠ target.ref := by
              cases target with
              | branch name => simp [CommitTarget.ref]
              | changeRequest n => simpa [CommitTarget.ref, eq_comm (a := number)] using same
            refine request_of_still (by rw [set, Function.update_of_ne unmoved]) (by simp) ?_
            exact amendment?_eq_none (by rw [named]; simpa using same)

end Step

/-- The last commit to a change request is among the later ones, or it is the first. -/
theorem getLast?_amendments {r : Repository} {number : UInt64} {m : Mutation} {ms : List Mutation}
    {head : RevisionHash} :
    (r.amendments number (m :: ms)).getLast?.getD head =
      ((m.perform r).2.amendments number ms).getLast?.getD
        ((m.amendment? r number).getD head) := by
  rw [amendments, List.getLast?_append, Option.getD_or]
  cases m.amendment? r number <;> rfl

/-- **What a run makes of a change request** that it does not open: closing it drops it for good,
and otherwise its head is what the last commit to it has answered. -/
theorem WellFormed.request_run {r : Repository} (wf : WellFormed r) {number : UInt64}
    (ms : List Mutation) (not_new : number ∉ r.given ms) :
    (r.run ms).changeRequests[number]? =
      if .closeChangeRequest number ∈ ms then none
      else r.changeRequests[number]?.map fun request =>
        { request with head := (r.amendments number ms).getLast?.getD request.head } := by
  induction ms generalizing r with
  | nil =>
      rw [if_neg List.not_mem_nil]
      exact (congrFun Option.map_id _).symm
  | cons m ms ih =>
      have first : m.number? r ≠ some number := by
        intro new
        exact not_new (List.mem_append_left _ (by rw [new]; exact List.mem_singleton_self _))
      have rest : number ∉ (m.perform r).2.given ms :=
        fun new => not_new (List.mem_append_right _ new)
      rw [show r.run (m :: ms) = (m.perform r).2.run ms from rfl, ih (wf.perform m) rest,
        wf.request_perform first]
      by_cases dropped : m = .closeChangeRequest number
      · rw [if_pos dropped, Option.map_none, ite_self, if_pos (List.mem_cons.2 (.inl dropped.symm))]
      · have later : .closeChangeRequest number ∈ m :: ms ↔ .closeChangeRequest number ∈ ms := by
          rw [List.mem_cons, or_iff_right (Ne.symm dropped)]
        simp only [if_neg dropped, later, Option.map_map, Function.comp_def, getLast?_amendments]

/-! ### Where a change request was opened -/

/-- The run opens the change request `number` on `branch`, with `title` if it is given one, after the
mutations `done` and before the mutations `later`. -/
structure Opening (name : String) (start : Timestamp) (ms : List Mutation) (number : UInt64)
    (branch : String) (title : Option String) (done later : List Mutation) : Prop where
  split : ms = done ++ .openChangeRequest branch title :: later
  answered : ((Mutation.openChangeRequest branch title).perform (reached name start done)).1 =
    .ok (.number number)

section Run

variable {name : String} {start : Timestamp} {ms : List Mutation} {number : UInt64}

/-- An opening stays in the past of the run. -/
theorem Opening.concat {branch : String} {title : Option String} {done later : List Mutation}
    (opening : Opening name start ms number branch title done later) (m : Mutation) :
    Opening name start (ms ++ [m]) number branch title done (later ++ [m]) where
  split := by simp [opening.split]
  answered := opening.answered

/-- **What is open was opened.** -/
theorem exists_opening (isOpen : number ∈ (reached name start ms).changeRequests) :
    ∃ branch title done later, Opening name start ms number branch title done later := by
  induction ms using List.reverseRecOn with
  | nil => simp [create, createBranch, store, empty] at isOpen
  | append_singleton done m ih =>
      rw [reached_concat] at isOpen
      rcases open_or_opened isOpen with before | ⟨opens, rfl⟩
      · obtain ⟨branch, title, early, later, opening⟩ := ih before
        exact ⟨branch, title, early, later ++ [m], opening.concat m⟩
      · obtain ⟨number, answered⟩ := (wellFormed_reached name start done).opens_iff.1 opens
        rw [number_of_success answered] at answered
        cases m with
        | openChangeRequest branch title => exact ⟨branch, title, done, [], rfl, answered⟩
        | _ => cases opens

section Opened

variable {branch : String} {title : Option String} {done later : List Mutation}

theorem Opening.number?_eq (opening : Opening name start ms number branch title done later) :
    (Mutation.openChangeRequest branch title).number? ((create name start).run done) =
      some number :=
  Mutation.number?_eq_some_iff.2 opening.answered

/-- A number that is given out is among those of the run. -/
theorem Opening.mem_given (opening : Opening name start ms number branch title done later) :
    number ∈ (create name start).given ms := by
  rw [opening.split, given_append]
  refine List.mem_append_right _ (List.mem_append_left _ ?_)
  rw [opening.number?_eq]
  exact List.mem_singleton_self _

/-- A number that is given out is not given out again, as long as numbers last. -/
theorem Opening.not_given_later (opening : Opening name start ms number branch title done later)
    (lasts : (create name start).opened ms < UInt64.size) :
    number ∉ (reached name start (done ++ [.openChangeRequest branch title])).given later := by
  have different : ((create name start).given ms).Nodup := by
    refine List.Nodup.of_map UInt64.toNat ?_
    rw [toNat_given lasts]
    exact List.nodup_range'
  rw [opening.split, List.append_cons, given_append, given_append] at different
  intro again
  refine (List.disjoint_of_nodup_append different) (List.mem_append_right _ ?_) again
  rw [given, opening.number?_eq]
  exact List.mem_append_left _ (List.mem_singleton_self _)

/-- The repository right after an opening has the change request, as it was asked for. -/
theorem Opening.request (opening : Opening name start ms number branch title done later) :
    ∃ head, (reached name start done).branches[branch]? = some head ∧
      (reached name start (done ++ [.openChangeRequest branch title])).changeRequests[number]? =
        some ⟨head, branch, title.getD (defaultTitle number)⟩ := by
  rw [reached_concat]
  cases (wellFormed_reached name start done).effect opening.answered with
  | @openChangeRequest _ _ head _ source set =>
      obtain ⟨hash, found, same⟩ := Option.map_eq_some_iff.1 source
      cases same
      refine ⟨head, found, changeRequest_of_holding ?_⟩
      rw [set, Function.update_self]
      rfl

/-- **What becomes of a change request after its opening**, as long as numbers last. -/
theorem Opening.request_reached
    (opening : Opening name start ms number branch title done later)
    (lasts : (create name start).opened ms < UInt64.size) :
    ∃ head, (reached name start done).branches[branch]? = some head ∧
      (reached name start ms).changeRequests[number]? =
        if .closeChangeRequest number ∈ later then none
        else some
          { head := ((reached name start (done ++ [.openChangeRequest branch title])).amendments
              number later).getLast?.getD head
            baseline := branch
            title := title.getD (defaultTitle number) } := by
  obtain ⟨head, source, first⟩ := opening.request
  refine ⟨head, source, ?_⟩
  have wf := wellFormed_reached name start (done ++ [.openChangeRequest branch title])
  rw [opening.split, List.append_cons, reached_append,
    wf.request_run later (opening.not_given_later lasts), first, Option.map_some]

/-- It is open until it is closed. -/
theorem Opening.mem_changeRequests_iff
    (opening : Opening name start ms number branch title done later)
    (lasts : (create name start).opened ms < UInt64.size) :
    number ∈ (reached name start ms).changeRequests ↔ .closeChangeRequest number ∉ later := by
  obtain ⟨head, -, becomes⟩ := opening.request_reached lasts
  rw [Std.ExtTreeMap.mem_iff_isSome_getElem?, becomes]
  by_cases closed : Mutation.closeChangeRequest number ∈ later <;> simp [closed]

/-- As long as it is open its baseline and its title stay, and its head is that of the branch at the
opening or what the last commit to it has answered. -/
theorem Opening.request_held
    (opening : Opening name start ms number branch title done later)
    (lasts : (create name start).opened ms < UInt64.size) :
    ∃ head, (reached name start done).branches[branch]? = some head ∧
      ∀ request, (reached name start ms).changeRequests[number]? = some request →
        request.baseline = branch ∧ request.title = title.getD (defaultTitle number) ∧
          request.head = ((reached name start (done ++ [.openChangeRequest branch title])).amendments
            number later).getLast?.getD head := by
  obtain ⟨head, source, becomes⟩ := opening.request_reached lasts
  refine ⟨head, source, fun request held => ?_⟩
  rw [becomes] at held
  split at held
  · cases held
  · cases held
    exact ⟨rfl, rfl, rfl⟩

/-- What is closed is never open again. -/
theorem not_mem_changeRequests_of_closed (lasts : (create name start).opened ms < UInt64.size)
    (split_at : ms = done ++ .closeChangeRequest number :: later)
    (wasOpen : number ∈ (reached name start done).changeRequests) :
    number ∉ (reached name start ms).changeRequests := by
  obtain ⟨branch, title, early, between, opening⟩ := exists_opening wasOpen
  have whole : Opening name start ms number branch title early
      (between ++ .closeChangeRequest number :: later) :=
    ⟨by simp [split_at, opening.split], opening.answered⟩
  rw [whole.mem_changeRequests_iff lasts]
  simp

end Opened

/-! ### The change requests on a branch -/

theorem mem_changeRequestsTargeting_iff {r : Repository} {branch : String} {number : UInt64} :
    number ∈ r.changeRequestsTargeting branch ↔
      ∃ request, r.changeRequests[number]? = some request ∧ request.baseline = branch := by
  simp [changeRequestsTargeting, Std.ExtTreeMap.mem_toList_iff_getElem?_eq_some]

theorem pairwise_changeRequestsTargeting (r : Repository) (branch : String) :
    (r.changeRequestsTargeting branch).Pairwise (· < ·) := by
  have ordered : r.changeRequests.toList.Pairwise fun a b => a.1 < b.1 :=
    r.changeRequests.ordered_keys_toList.imp fun smaller => Std.compare_eq_lt.1 smaller
  exact List.pairwise_map.2 (ordered.filter _)

/-- The change requests on a branch are those that were opened on it and are open. -/
theorem mem_changeRequestsTargeting_reached_iff {branch : String}
    (lasts : (create name start).opened ms < UInt64.size) :
    number ∈ (reached name start ms).changeRequestsTargeting branch ↔
      number ∈ (reached name start ms).changeRequests ∧
        ∃ title done later, Opening name start ms number branch title done later := by
  rw [mem_changeRequestsTargeting_iff]
  constructor
  · rintro ⟨request, held, targets⟩
    have isOpen := (Std.ExtTreeMap.getElem?_eq_some_iff.1 held).1
    obtain ⟨branch', title, done, later, opening⟩ := exists_opening isOpen
    obtain ⟨head, -, holds⟩ := opening.request_held lasts
    obtain rfl := (holds request held).1.symm.trans targets
    exact ⟨isOpen, title, done, later, opening⟩
  · rintro ⟨isOpen, title, done, later, opening⟩
    obtain ⟨head, -, holds⟩ := opening.request_held lasts
    have held := Std.ExtTreeMap.getElem?_eq_some_getElem isOpen
    exact ⟨_, held, (holds _ held).1⟩

/-- **The life of every change request of a run** that opens no more of them than there are numbers.
The numbers that are given out are 1, 2, 3 and so on, and what is open has one of them and was
opened.  What is closed is never open again, and a change request that was opened is open until it is
closed; as long as it is open it has the baseline and the title that it was opened with, and its head
is that of the branch at the opening, or what the last commit to it has answered.  The change
requests on a branch are those opened on it, in ascending order. -/
theorem change_requests_live_once (name : String) (start : Timestamp) (ms : List Mutation)
    (lasts : ((create name start).given ms).length < UInt64.size) :
    let r := reached name start ms
    let numbers := (create name start).given ms
    numbers.map UInt64.toNat = List.range' 1 numbers.length ∧
      (∀ number ∈ r.changeRequests, (1 ≤ number.toNat ∧ number.toNat ≤ numbers.length) ∧
        ∃ branch title done later, Opening name start ms number branch title done later) ∧
      (∀ number done later, ms = done ++ .closeChangeRequest number :: later →
        number ∈ (reached name start done).changeRequests → number ∉ r.changeRequests) ∧
      (∀ number branch title done later, Opening name start ms number branch title done later →
        (number ∈ r.changeRequests ↔ .closeChangeRequest number ∉ later) ∧
          ∃ head, (reached name start done).branches[branch]? = some head ∧
            ∀ request, r.changeRequests[number]? = some request →
              request.baseline = branch ∧
                request.title = title.getD ("Change request #" ++ toString number.toNat) ∧
                request.head = ((reached name start
                  (done ++ [.openChangeRequest branch title])).amendments number later).getLast?.getD
                    head) ∧
      ∀ branch, (r.changeRequestsTargeting branch).Pairwise (· < ·) ∧
        ∀ number, number ∈ r.changeRequestsTargeting branch ↔
          number ∈ r.changeRequests ∧
            ∃ title done later, Opening name start ms number branch title done later := by
  intro r numbers
  have count : numbers.length = (create name start).opened ms := length_given name start ms
  rw [count] at lasts ⊢
  refine ⟨toNat_given lasts, ?_, fun number done later =>
    not_mem_changeRequests_of_closed lasts, ?_, fun branch =>
      ⟨pairwise_changeRequestsTargeting r branch, fun number =>
        mem_changeRequestsTargeting_reached_iff lasts⟩⟩
  · intro number isOpen
    obtain ⟨branch, title, done, later, opening⟩ := exists_opening isOpen
    exact ⟨bounds_of_mem_given lasts opening.mem_given, branch, title, done, later, opening⟩
  · intro number branch title done later opening
    exact ⟨opening.mem_changeRequests_iff lasts, opening.request_held lasts⟩

end Run

/-- A change request that is amended, while its branch is deleted and comes back as another one, and
a second one that is closed. -/
def twoRequests : List Mutation :=
  [.openChangeRequest "master" none, .commit "change-request/01" "m" (.add "a" [1]) ⟨1⟩,
    .deleteBranch "master", .createBranch "master" ⟨2⟩, .openChangeRequest "master" (some "t"),
    .closeChangeRequest 2]

/-- The first of the two is still on its branch, with its own commit as its head, and the second one
is gone. -/
theorem change_requests_live_once_two :
    let r := reached "r" ⟨0⟩ twoRequests
    let child := (Revision.root ⟨0⟩).child "m" ⟨1⟩ (.add "a" [1])
    ((create "r" ⟨0⟩).given twoRequests).length < UInt64.size ∧
      Opening "r" ⟨0⟩ twoRequests 1 "master" none [] (twoRequests.drop 1) ∧
      (∀ request, r.changeRequests[(1 : UInt64)]? = some request →
        request.baseline = "master" ∧ request.title = "Change request #1" ∧
          request.head = child.hash) ∧
      1 ∈ r.changeRequests ∧ 2 ∉ r.changeRequests := by
  intro r child
  have lasts : ((create "r" ⟨0⟩).given twoRequests).length < UInt64.size := by decide +kernel
  have first : Opening "r" ⟨0⟩ twoRequests 1 "master" none [] (twoRequests.drop 1) :=
    ⟨rfl, by decide +kernel⟩
  have amended : (reached "r" ⟨0⟩ [.openChangeRequest "master" none]).amendments 1
      (twoRequests.drop 1) = [child.hash] := by decide +kernel
  have wasOpen : 2 ∈ (reached "r" ⟨0⟩ (twoRequests.take 5)).changeRequests := by decide +kernel
  obtain ⟨-, -, closed, life, -⟩ := change_requests_live_once "r" ⟨0⟩ twoRequests lasts
  obtain ⟨stays, head, -, holds⟩ := life 1 "master" none [] _ first
  refine ⟨lasts, first, ?_, stays.2 (by decide), closed 2 (twoRequests.take 5) [] rfl wasOpen⟩
  intro request held
  obtain ⟨baseline, title, followed⟩ := holds request held
  rw [List.nil_append, amended] at followed
  exact ⟨baseline, title, followed⟩

end Repository

end RevisionStore
