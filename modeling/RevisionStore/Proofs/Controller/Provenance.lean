/-
**What a repository holds was put there by a call, and by the latest one that could.**

A tag holds the hash that the latest call to make a tag of that name has answered with, and an open
change request has the baseline and the title of the latest call that was answered with its number.
Both are instances of one argument: a call tells something, what a repository shows afterwards is
what the call tells, or else what the repository showed before, and a new repository shows nothing.

Main definitions:

* `Controller.latest?` — what the latest call of a run tells, of those that tell something;
* `Controller.Call.tagged?`, `Controller.Call.opened?` — the hash that a call records under a tag,
  and the baseline and the title that it opens a change request with;
* `Controller.Tells` — **what calls tell is what a repository shows**, law by law.

Main results:

* `Repository.tag_perform`, `Repository.request_perform` — what a mutation makes of a tag and of
  what a change request was opened with;
* `Controller.Tells.latest?_eq` — **what a repository shows is what the latest call has told**;
* `Controller.latest?_tagged`, `Controller.latest?_opened` — the same for tags and for change
  requests.
-/

import RevisionStore.Proofs.Controller.Histories
import RevisionStore.Proofs.Repository.Lifecycle

set_option autoImplicit false

namespace RevisionStore

/-! ### What one mutation does -/

namespace Repository

variable {r : Repository} {m : Mutation} {tag : String}

/-- A tag is moved to the hash that its creation resolves, or it is dropped. -/
theorem tag_of_move {head : Option RevisionHash} (moved : m.move? r = some (.tag tag, head)) :
    (∃ identifier revision, m = .createTag identifier tag ∧ r.resolve identifier = .ok revision ∧
      head = some revision.hash) ∨ (m = .deleteTag tag ∧ head = none) := by
  cases m with
  | createTag identifier t =>
      obtain ⟨revision, found, same⟩ := Option.map_eq_some_iff.1 moved
      cases same
      cases named : r.resolve identifier with
      | error e => rw [named] at found; cases found
      | ok revision' =>
          rw [named] at found
          cases found
          exact .inl ⟨identifier, revision, rfl, named, rfl⟩
  | deleteTag t => cases moved; exact .inr ⟨rfl, rfl⟩
  | createBranch branch timestamp => cases moved
  | deleteBranch branch => cases moved
  | closeChangeRequest number => cases moved
  | setDescription text => cases moved
  | setPrimaryBranch branch => cases moved
  | cloneBranch source copy =>
      obtain ⟨_, -, same⟩ := Option.map_eq_some_iff.1 moved
      cases same
  | openChangeRequest branch title =>
      obtain ⟨_, -, same⟩ := Option.map_eq_some_iff.1 moved
      cases same
  | commit target message change timestamp =>
      obtain ⟨⟨target, base⟩, -, same⟩ := Option.map_eq_some_iff.1 moved
      cases target <;> cases same

/-- **A tag has just been made at this hash, or it pointed there before** and was not made. -/
theorem tag_perform {hash : RevisionHash} (now : (m.perform r).2.tags[tag]? = some hash) :
    (∃ identifier, m = .createTag identifier tag ∧ (m.perform r).1 = .ok (.hash hash)) ∨
      (r.tags[tag]? = some hash ∧
        ∀ identifier, m = .createTag identifier tag → ∃ e, (m.perform r).1 = .error e) := by
  rw [← headOf?_tag] at now
  by_cases moves : ∃ head, m.move? r = some (.tag tag, head)
  · obtain ⟨head, moved⟩ := moves
    rw [headOf?_of_moved moved, Function.update_self] at now
    rcases tag_of_move moved with ⟨identifier, revision, rfl, named, same⟩ | ⟨-, same⟩
    · cases same.symm.trans now
      exact .inl ⟨identifier, rfl, by simp [Mutation.perform, Mutation.answering, createTag, named,
        Except.map]⟩
    · cases same.symm.trans now
  · refine .inr ⟨?_, ?_⟩
    · cases moved : m.move? r with
      | none => rwa [headOf?_of_not_moved moved] at now
      | some both =>
          obtain ⟨ref, head⟩ := both
          have other : Ref.tag tag ≠ ref := by
            rintro rfl
            exact moves ⟨head, moved⟩
          rwa [headOf?_of_moved moved, Function.update_of_ne other] at now
    · rintro identifier rfl
      cases named : r.resolve identifier with
      | error e =>
          exact ⟨e, by simp [Mutation.perform, Mutation.answering, createTag, named, Except.map]⟩
      | ok revision =>
          exact absurd ⟨some revision.hash, by simp [Mutation.move?, named, Except.toOption]⟩ moves

/-- The baseline and the title that a change request was opened with, if it is open. -/
def opening? (r : Repository) (number : UInt64) : Option (String × String) :=
  r.changeRequests[number]?.map fun request => (request.baseline, request.title)

/-- **A change request has just been opened so, or it was open before** and has not been opened. -/
theorem request_perform (wf : r.WellFormed) {number : UInt64} {opening : String × String}
    (now : (m.perform r).2.opening? number = some opening) :
    (∃ branch title, m = .openChangeRequest branch title ∧
        (m.perform r).1 = .ok (.number number) ∧
        opening = (branch, title.getD (defaultTitle number))) ∨
      (r.opening? number = some opening ∧ (m.perform r).1 ≠ .ok (.number number)) := by
  by_cases new : m.number? r = some number
  · have answered := Mutation.number?_eq_some_iff.1 new
    have effect := wf.effect answered
    cases effect with
    | @openChangeRequest branch title head _ source set =>
        refine .inl ⟨branch, title, rfl, answered, ?_⟩
        have held :
            ((Mutation.openChangeRequest branch title).perform r).2.changeRequests[number]? =
              some ⟨head, branch, title.getD (defaultTitle number)⟩ :=
          changeRequest_of_holding (by rw [set, Function.update_self]; rfl)
        rw [opening?, held] at now
        exact (Option.some.inj now).symm
  · refine .inr ⟨?_, mt Mutation.number?_eq_some_iff.2 new⟩
    rw [opening?, wf.request_perform new] at now
    split at now
    · cases now
    · rw [Option.map_map] at now
      exact now

end Repository

/-! ### What calls tell -/

namespace Controller

variable {σ α : Type} {place : σ} {c : Controller} {name : String}

/-- What the latest call of a run tells, of those that tell something by their answer. -/
def latest? (told : Call σ → Except StoreError Answer → Option α) (place : σ) (c : Controller) :
    List (Call σ) → Option α
  | [] => none
  | call :: calls =>
    (latest? told (call.run place c).2 (call.run place c).1.2 calls).or
      (told call (call.run place c).1.1)

/-- The hash that a call records under a tag. -/
def Call.tagged? (name tag : String) : Call σ → Except StoreError Answer → Option RevisionHash
  | createTag repository _ made, .ok (.hash hash) =>
    if repository = name ∧ made = tag then some hash else none
  | _, _ => none

/-- The baseline and the title that a call opens a change request with. -/
def Call.opened? (name : String) (number : UInt64) :
    Call σ → Except StoreError Answer → Option (String × String)
  | openChangeRequest repository branch title, .ok (.number given) =>
    if repository = name ∧ given = number then
      some (branch, title.getD (Repository.defaultTitle number))
    else none
  | _, _ => none

/-- What calls tell is how the repositories of this name come to show something: a new one shows
nothing, and what one shows after a mutation is what the call has told, or else what it showed
before. -/
structure Tells (name : String) (shows : Repository → Option α)
    (told : Call σ → Except StoreError Answer → Option α) : Prop where
  elsewhere : ∀ call answer, call.repository? ≠ some name → told call answer = none
  looking : ∀ call answer now, call.mutation? now = none → told call answer = none
  created : ∀ now, shows (.create name now) = none
  mutation : ∀ (r : Repository) (call : Call σ) (m : Mutation) (now : Timestamp) (a : α),
    r.WellFormed → call.repository? = some name → call.mutation? now = some m →
      shows (m.perform r).2 = some a →
        (told call ((m.perform r).1.map Answer.ofReply)).or (shows r) = some a

section

variable {shows : Repository → Option α} {told : Call σ → Except StoreError Answer → Option α}

/-- What the repository of this name shows. -/
def shown (name : String) (shows : Repository → Option α) (c : Controller) : Option α :=
  c.repositories[name]?.bind shows

/-- After a call a repository shows what the call has told, or else what it showed before. -/
theorem Tells.run (tells : Tells name shows told) (recorded : c.Recorded) {call : Call σ} {a : α}
    (now : shown name shows (call.run place c).1.2 = some a) :
    (told call (call.run place c).1.1).or (shown name shows c) = some a := by
  obtain ⟨r', there, showing⟩ := Option.bind_eq_some_iff.1 now
  rw [Call.getElem?_run] at there
  split at there
  · next names =>
      rcases Call.remake_eq_some there with ⟨-, created, rfl, rfl⟩ | ⟨r, found, rfl⟩
      · cases names
        rw [tells.created] at showing
        cases showing
      · rw [shown, found, Option.bind_some]
        cases carries : call.mutation? c.clock.read.1 with
        | none =>
            rw [carries] at showing
            rw [tells.looking call _ _ carries, Option.none_or]
            exact showing
        | some m =>
            rw [carries] at showing
            rw [Call.answer_of_mutation names found carries]
            exact tells.mutation r call m _ a (recorded.wellFormed found) names carries showing
  · next other =>
      rw [tells.elsewhere call _ other, Option.none_or, shown, there]
      exact showing

/-- **After a run a repository shows what the latest call has told**, or else what it showed
before. -/
theorem Tells.latest?_eq (tells : Tells name shows told) (recorded : c.Recorded)
    {calls : List (Call σ)} {a : α} (now : shown name shows (runCalls place c calls).1 = some a) :
    (latest? told place c calls).or (shown name shows c) = some a := by
  induction calls generalizing place c with
  | nil => exact now
  | cons call calls ih =>
      have later := ih (recorded.run place call) now
      rw [latest?]
      cases told_later : latest? told (call.run place c).2 (call.run place c).1.2 calls with
      | some b => rw [told_later] at later; exact later
      | none =>
          rw [told_later, Option.none_or] at later
          exact tells.run recorded later

/-- After a run from an empty controller the latest call has told it. -/
theorem Tells.latest?_of_start (tells : Tells name shows told) {clock : Clock}
    {calls : List (Call σ)} {r : Repository} {a : α}
    (found : (runCalls place (.withClock clock) calls).1.repositories[name]? = some r)
    (showing : shows r = some a) : latest? told place (.withClock clock) calls = some a := by
  have now : shown name shows (runCalls place (.withClock clock) calls).1 = some a := by
    rw [shown, found]
    exact showing
  have either := tells.latest?_eq (Reachable.start clock).recorded now
  rwa [shown, show (Controller.withClock clock).repositories[name]? = none from
    Std.ExtTreeMap.getElem?_empty, Option.bind_none, Option.or_none] at either

end

/-! ### Tags and change requests -/

theorem Call.tagged?_eq_none {call : Call σ} {tag : String} {answer : Except StoreError Answer}
    (refused : ∀ identifier, call = .createTag name identifier tag → ∃ e, answer = .error e) :
    call.tagged? name tag answer = none := by
  unfold tagged?
  split
  · refine if_neg ?_
    rintro ⟨rfl, rfl⟩
    obtain ⟨e, failed⟩ := refused _ rfl
    cases failed
  · rfl

theorem Call.opened?_eq_none {call : Call σ} {number : UInt64} {answer : Except StoreError Answer}
    (other : ∀ branch title, call = .openChangeRequest name branch title →
      answer ≠ .ok (.number number)) : call.opened? name number answer = none := by
  unfold opened?
  split
  · refine if_neg ?_
    rintro ⟨rfl, rfl⟩
    exact other _ _ rfl rfl
  · rfl

/-- **The calls that make a tag tell where it points.** -/
theorem tells_tagged (name tag : String) :
    Tells name (fun r : Repository => r.tags[tag]?)
      (Call.tagged? name tag : Call σ → Except StoreError Answer → Option RevisionHash) where
  elsewhere call answer other :=
    Call.tagged?_eq_none (by rintro identifier rfl; exact absurd rfl other)
  looking call answer now looks := Call.tagged?_eq_none (by rintro identifier rfl; cases looks)
  created now := rfl
  mutation r call m now hash _ names carries showing := by
    rcases Repository.tag_perform showing with ⟨identifier, rfl, answered⟩ | ⟨before, refused⟩
    · cases call <;> cases carries
      cases names
      rw [answered]
      exact congrArg (Option.or · _) (if_pos ⟨rfl, rfl⟩)
    · rw [Call.tagged?_eq_none, Option.none_or]
      · exact before
      · rintro identifier rfl
        cases carries
        obtain ⟨e, failed⟩ := refused identifier rfl
        exact ⟨e, by rw [failed]; rfl⟩

theorem number_of_ofReply {result : Except StoreError Reply} {number : UInt64}
    (answered : result.map Answer.ofReply = .ok (.number number)) :
    result = .ok (.number number) := by
  rcases result with _ | _ | _ | _ | _ <;> cases answered
  rfl

/-- **The calls that open a change request tell its baseline and its title.** -/
theorem tells_opened (name : String) (number : UInt64) :
    Tells name (fun r : Repository => r.opening? number)
      (Call.opened? name number :
        Call σ → Except StoreError Answer → Option (String × String)) where
  elsewhere call answer other :=
    Call.opened?_eq_none (by rintro branch title rfl; exact absurd rfl other)
  looking call answer now looks := Call.opened?_eq_none (by rintro branch title rfl; cases looks)
  created now := rfl
  mutation r call m now opening wf names carries showing := by
    rcases Repository.request_perform wf showing with
      ⟨branch, title, rfl, answered, rfl⟩ | ⟨before, unopened⟩
    · cases call <;> cases carries
      cases names
      rw [answered]
      exact congrArg (Option.or · _) (if_pos ⟨rfl, rfl⟩)
    · rw [Call.opened?_eq_none, Option.none_or]
      · exact before
      · rintro branch title rfl answered
        exact unopened (number_of_ofReply answered)

variable {clock : Clock} {calls : List (Call σ)} {r : Repository}

/-- **A tag points at the hash that the latest call to make it has answered with.** -/
theorem latest?_tagged {tag : String} {hash : RevisionHash}
    (found : (runCalls place (.withClock clock) calls).1.repositories[name]? = some r)
    (points : r.tags[tag]? = some hash) :
    latest? (Call.tagged? name tag) place (.withClock clock) calls = some hash :=
  (tells_tagged name tag).latest?_of_start found points

/-- **A change request has the baseline and the title of the latest call that opened it.** -/
theorem latest?_opened {number : UInt64} {request : ChangeRequest}
    (found : (runCalls place (.withClock clock) calls).1.repositories[name]? = some r)
    (isOpen : r.changeRequests[number]? = some request) :
    latest? (Call.opened? name number) place (.withClock clock) calls =
      some (request.baseline, request.title) :=
  (tells_opened name number).latest?_of_start found (by rw [Repository.opening?, isOpen]; rfl)

end Controller

end RevisionStore
