/-
**Histories: what a repository means, without hashes to look things up by.**

A history is the time of its root and the commits made on it.  A chronicle maps every ref to a
history, and a commit replaces the history of one ref by a longer one; there is no store and no
lookup by hash.  This is the plain model that the store of revisions is compared with in
`RevisionStore.Proofs.Repository.Refinement`.

Main definitions:

* `Edit`, `History` — a commit as it was asked for, and a root with the commits made on it;
* `History.snapshot`, `History.hash`, `History.log` — the files that the changes add up to, **the
  hash chained along the history**, and its lines, newest first;
* `Chronicle`, `Chronicle.step` — every history ever built with the history of every ref, and the
  effect of a mutation on them.

Main results:

* `History.hash_top`, `History.top_extend` — the newest revision of a history has the hash of the
  history, and a longer history has a child of it on top;
* `History.log_eq_map_lineage` — the lines of a history are those of its revisions.
-/

import RevisionStore.Proofs.Repository.Mutation

set_option autoImplicit false

namespace RevisionStore

/-! ### Histories -/

/-- A commit as it was asked for. -/
structure Edit where
  message : String
  timestamp : Timestamp
  change : FileChange
deriving DecidableEq

/-- The time of a root, and the commits made on it, the newest first. -/
structure History where
  start : Timestamp
  edits : List Edit
deriving DecidableEq

namespace History

/-- The history with one more commit. -/
def extend (h : History) (e : Edit) : History := ⟨h.start, e :: h.edits⟩

/-- A history with a commit is an extension of one history only. -/
theorem extend_inj {h k : History} {e f : Edit} (same : h.extend e = k.extend f) : h = k := by
  obtain ⟨start, edits⟩ := h
  obtain ⟨start', edits'⟩ := k
  cases same
  rfl

/-- The files that the changes of the commits add up to, beginning with none. -/
def filesOf (edits : List Edit) : Snapshot := edits.foldr (fun e files => e.change.apply files) ∅

@[inherit_doc filesOf]
def snapshot (h : History) : Snapshot := filesOf h.edits

/-- The hash chained along the commits: of the root first, and then of each commit with the hash
before it. -/
def chain (start : Timestamp) : List Edit → RevisionHash
  | [] => Revision.hash ⟨none, none, start, ∅⟩
  | e :: earlier =>
    Revision.hash ⟨some (chain start earlier), some e.message, e.timestamp, filesOf (e :: earlier)⟩

@[inherit_doc chain]
def hash (h : History) : RevisionHash := chain h.start h.edits

/-- The lines of the commits, the newest first, down to the root. -/
def lines (start : Timestamp) : List Edit → List LogEntry
  | [] => [⟨chain start [], start, none⟩]
  | e :: earlier => ⟨chain start (e :: earlier), e.timestamp, some e.message⟩ :: lines start earlier

@[inherit_doc lines]
def log (h : History) : List LogEntry := lines h.start h.edits

theorem length_log (h : History) : h.log.length = h.edits.length + 1 := by
  obtain ⟨start, edits⟩ := h
  induction edits with
  | nil => rfl
  | cons e earlier ih => simpa [log, lines] using ih

/-! ### The revisions of a history -/

/-- The newest revision of the history. -/
def top (h : History) : Revision :=
  match h.edits with
  | [] => .root h.start
  | e :: earlier => ⟨some (chain h.start earlier), some e.message, e.timestamp, h.snapshot⟩

@[simp] theorem files_top (h : History) : h.top.files = h.snapshot := by
  obtain ⟨start, edits⟩ := h
  cases edits <;> rfl

@[simp] theorem hash_top (h : History) : h.top.hash = h.hash := by
  obtain ⟨start, edits⟩ := h
  cases edits <;> rfl

/-- A longer history has a child on top of the shorter one. -/
theorem top_extend (h : History) (e : Edit) :
    (h.extend e).top = h.top.child e.message e.timestamp e.change := by
  simp only [Revision.child, hash_top, files_top]
  rfl

/-- The child has the hash of the longer history. -/
theorem hash_extend (h : History) (e : Edit) :
    (h.extend e).hash = (h.top.child e.message e.timestamp e.change).hash := by
  rw [← top_extend, hash_top]

/-- The history and all the shorter ones that it was built from, the longest first. -/
def upTo (start : Timestamp) : List Edit → List History
  | [] => [⟨start, []⟩]
  | e :: earlier => ⟨start, e :: earlier⟩ :: upTo start earlier

@[inherit_doc upTo]
def lineage (h : History) : List History := upTo h.start h.edits

theorem length_le_of_mem_upTo {start : Timestamp} {edits : List Edit} {k : History}
    (mem : k ∈ upTo start edits) : k.edits.length ≤ edits.length := by
  induction edits with
  | nil =>
      rw [upTo, List.mem_singleton] at mem
      subst mem
      exact Nat.le_refl _
  | cons e earlier ih =>
      rcases List.mem_cons.1 mem with rfl | deeper
      · exact Nat.le_refl _
      · exact Nat.le_succ_of_le (ih deeper)

/-- The lines of a history are those of its revisions. -/
theorem log_eq_map_lineage (h : History) : h.log = h.lineage.map fun k => k.top.logEntry := by
  obtain ⟨start, edits⟩ := h
  simp only [log, lineage]
  induction edits with
  | nil => rfl
  | cons e earlier ih =>
      rw [lines, upTo, List.map_cons, ih, Revision.logEntry, hash_top]
      rfl

end History

/-! ### Chronicles -/

/-- Every history ever built, the newest first, the history of every ref, and the last number given
to a change request. -/
structure Chronicle where
  built : List History
  refs : Ref → Option History
  lastNumber : UInt64

namespace Chronicle

/-- One branch with an empty history. -/
def beginning (start : Timestamp) : Chronicle where
  built := [⟨start, []⟩]
  refs := Function.update (fun _ => none) (.branch defaultBranch) (some ⟨start, []⟩)
  lastNumber := 0

/-- The history that a text names: one whose hash it spells, else that of a branch, of a tag, or of
an open change request. -/
def named? (c : Chronicle) (text : String) : Option History :=
  ((RevisionHash.parse text).toOption.bind fun hash => c.built.find? (·.hash = hash)).or <|
    (c.refs (.branch text)).or <| (c.refs (.tag text)).or <|
      (ChangeRequest.number? text).bind fun number => c.refs (.changeRequest number)

/-- The ref that a commit to `text` extends, with its history: the branch of that name, else the
open change request. -/
def target? (c : Chronicle) (text : String) : Option (Ref × History) :=
  ((c.refs (.branch text)).map fun h => (.branch text, h)).or <|
    (ChangeRequest.number? text).bind fun number =>
      (c.refs (.changeRequest number)).map fun h => (.changeRequest number, h)

/-- The history that a mutation builds, if it builds one. -/
def built? (c : Chronicle) : Mutation → Option History
  | .createBranch _ start => some ⟨start, []⟩
  | .commit target message change timestamp =>
    (c.target? target).map fun (_, h) => h.extend ⟨message, timestamp, change⟩
  | _ => none

/-- The ref whose history a mutation replaces, if there is one, with the history it gets, or nothing
if the ref is dropped. -/
def move? (c : Chronicle) : Mutation → Option (Ref × Option History)
  | .setDescription _ => none
  | .setPrimaryBranch _ => none
  | .createBranch branch start => some (.branch branch, some ⟨start, []⟩)
  | .cloneBranch source copy => (c.refs (.branch source)).map fun h => (.branch copy, some h)
  | .deleteBranch branch => some (.branch branch, none)
  | .createTag identifier tag => (c.named? identifier).map fun h => (.tag tag, some h)
  | .deleteTag tag => some (.tag tag, none)
  | .openChangeRequest branch _ =>
    (c.refs (.branch branch)).map fun h => (.changeRequest (c.lastNumber + 1), some h)
  | .closeChangeRequest number => some (.changeRequest number, none)
  | .commit target message change timestamp =>
    (c.target? target).map fun (ref, h) => (ref, some (h.extend ⟨message, timestamp, change⟩))

/-- Does a mutation open a change request? -/
def opens (c : Chronicle) : Mutation → Bool
  | .openChangeRequest branch _ => (c.refs (.branch branch)).isSome
  | _ => false

/-- The chronicle after a mutation. -/
def step (c : Chronicle) (m : Mutation) : Chronicle where
  built := (c.built? m).toList ++ c.built
  refs := (c.move? m).elim c.refs fun (ref, h) => Function.update c.refs ref h
  lastNumber := if c.opens m then c.lastNumber + 1 else c.lastNumber

/-- The chronicle after a list of mutations from the beginning. -/
def reached (start : Timestamp) (ms : List Mutation) : Chronicle :=
  ms.foldl step (beginning start)

@[simp] theorem reached_nil (start : Timestamp) : reached start [] = beginning start := rfl

@[simp] theorem reached_concat (start : Timestamp) (done : List Mutation) (m : Mutation) :
    reached start (done ++ [m]) = (reached start done).step m := by
  simp [reached]

end Chronicle

end RevisionStore
