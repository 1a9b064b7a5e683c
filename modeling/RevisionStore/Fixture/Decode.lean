/-
**Reading a fixture from a tree of data.**

A record may be given by the names of its fields or, as a list, by their order alone.  No field may
be unknown or repeated.  A field that may be absent may also be nothing; at the end of a list it may
be left out.

Main definitions:

* `Fixture.SchemaProblem` — why a tree is no fixture;
* `Fixture.Surplus` — what becomes of items past the last field of a record given as a list;
* `Fixture.Step.ofData`, `Fixture.RepositoryPlan.ofData`, `Fixture.ClockSettings.ofData` — reading
  the parts;
* `Fixture.File.ofData` — **the fixture that a tree describes**.
-/

import RevisionStore.Fixture.Schema

set_option autoImplicit false

namespace RevisionStore.Fixture

/-! ### Problems -/

/-- Why a tree of data is not what was asked for. -/
inductive SchemaProblem where
  | wrongSort (expected : String) (found : Data)
  | outOfRange (value : Int)
  | missing (field : String)
  | unknown (field : String)
  | repeated (field : String)
  | tooMany (count : Nat)
  | unknownOperation (op : String)
deriving Repr

/-- The problem in words. -/
def SchemaProblem.message : SchemaProblem → String
  | .wrongSort expected found => "expected " ++ expected ++ ", found " ++ found.describe
  | .outOfRange value => "number out of range: " ++ toString value
  | .missing field => "missing field: " ++ field
  | .unknown field => "unknown field: " ++ field
  | .repeated field => "repeated field: " ++ field
  | .tooMany count => "too many items: " ++ toString count
  | .unknownOperation op => "unknown operation: " ++ op

/-- Reads a tree of data as something of type `α`. -/
abbrev Reading (α : Type) := Data → Except SchemaProblem α

/-! ### Simple values -/

/-- A text. -/
def readText : Reading String
  | .text value => .ok value
  | other => .error (.wrongSort "a text" other)

/-- An integer that 64 bits hold with a sign. -/
def readInt64 : Reading Int64
  | .integer value =>
    if Int64.minValue.toInt ≤ value ∧ value ≤ Int64.maxValue.toInt then .ok (Int64.ofInt value)
    else .error (.outOfRange value)
  | other => .error (.wrongSort "an integer" other)

/-- An integer that 64 bits hold without a sign. -/
def readUInt64 : Reading UInt64
  | .integer value =>
    if 0 ≤ value ∧ value < UInt64.size then .ok (UInt64.ofNat value.toNat)
    else .error (.outOfRange value)
  | other => .error (.wrongSort "an integer" other)

/-- A list, each item read by `item`. -/
def readList {α : Type} (item : Reading α) : Reading (List α)
  | .list items => items.mapM item
  | other => .error (.wrongSort "a list" other)

/-! ### Fields -/

/-- What becomes of items past the last field of a record that is given as a list.  TOML documents
pass over them, JSON documents are refused. -/
inductive Surplus where
  | ignored
  | refused
deriving DecidableEq, Repr

/-- The fields of a record by name. -/
abbrev Fields := List (String × Data)

/-- The fields, if they have different names, all among the given ones. -/
def checkNames (names : List String) : Fields → Except SchemaProblem Unit
  | [] => .ok ()
  | (name, _) :: rest =>
    if ¬ names.contains name then .error (.unknown name)
    else if rest.any (·.1 = name) then .error (.repeated name)
    else checkNames names rest

/-- The items of a list as the fields of these names, in order. -/
def nameItems (surplus : Surplus) (names : List String) (items : List Data) :
    Except SchemaProblem Fields :=
  if surplus = .refused ∧ names.length < items.length then .error (.tooMany items.length)
  else .ok (names.zip items)

/-- The fields of a record of these names, given by name or by order. -/
def readFields (surplus : Surplus) (names : List String) : Reading Fields
  | .record fields => do
    checkNames names fields
    return fields
  | .list items => nameItems surplus names items
  | other => .error (.wrongSort "a record" other)

/-- A field that has to be there. -/
def Fields.required {α : Type} (fields : Fields) (name : String) (read : Reading α) :
    Except SchemaProblem α :=
  match fields.lookup name with
  | some data => read data
  | none => .error (.missing name)

/-- A field that may be absent, or nothing. -/
def Fields.optional {α : Type} (fields : Fields) (name : String) (read : Reading α) :
    Except SchemaProblem (Option α) :=
  match fields.lookup name with
  | none | some .null => .ok none
  | some data => (read data).map some

/-- A field that holds a list, which is empty if the field is absent. -/
def Fields.listOf {α : Type} (fields : Fields) (name : String) (item : Reading α) :
    Except SchemaProblem (List α) :=
  match fields.lookup name with
  | none => .ok []
  | some data => readList item data

/-! ### Steps -/

/-- The names of the fields that a kind of step has. -/
def Step.fieldNames? : String → Option (List String)
  | "create-branch" => some ["name"]
  | "clone-branch" => some ["from", "to"]
  | "delete-branch" => some ["name"]
  | "add-file" => some ["target", "message", "path", "content", "content_hex"]
  | "rm-file" => some ["target", "message", "path"]
  | "tag" => some ["at", "name"]
  | "delete-tag" => some ["name"]
  | "open-change-request" => some ["branch", "title"]
  | "close-change-request" => some ["number"]
  | _ => none

/-- The step of a kind with these fields. -/
def Step.ofFields (op : String) (fields : Fields) : Except SchemaProblem Step :=
  match op with
  | "create-branch" => do return .createBranch (← fields.required "name" readText)
  | "clone-branch" => do
    return .cloneBranch (← fields.required "from" readText) (← fields.required "to" readText)
  | "delete-branch" => do return .deleteBranch (← fields.required "name" readText)
  | "add-file" => do
    return .addFile (← fields.required "target" readText) (← fields.required "message" readText)
      (← fields.required "path" readText) (← fields.optional "content" readText)
      (← fields.optional "content_hex" readText)
  | "rm-file" => do
    return .removeFile (← fields.required "target" readText)
      (← fields.required "message" readText) (← fields.required "path" readText)
  | "tag" => do
    return .tag (← fields.required "at" readText) (← fields.required "name" readText)
  | "delete-tag" => do return .deleteTag (← fields.required "name" readText)
  | "open-change-request" => do
    return .openChangeRequest (← fields.required "branch" readText)
      (← fields.optional "title" readText)
  | "close-change-request" => do
    return .closeChangeRequest (← fields.required "number" readUInt64)
  | _ => .error (.unknownOperation op)

/-- The step that a tree describes: a record with its kind under `op`, or a list that begins with
its kind, in which nothing may be left over. -/
def Step.ofData : Reading Step
  | .record fields => do
    let op ← Fields.required fields "op" readText
    let rest := fields.filter fun field => field.1 ≠ "op"
    if rest.length + 1 < fields.length then throw (.repeated "op")
    match Step.fieldNames? op with
    | some names =>
      checkNames names rest
      Step.ofFields op rest
    | none => throw (.unknownOperation op)
  | .list (first :: rest) => do
    let op ← readText first
    match Step.fieldNames? op with
    | some names => Step.ofFields op (← nameItems .refused names rest)
    | none => throw (.unknownOperation op)
  | .list [] => .error (.missing "op")
  | other => .error (.wrongSort "a record" other)

/-! ### Fixtures -/

/-- The repository that a tree describes. -/
def RepositoryPlan.ofData (surplus : Surplus) : Reading RepositoryPlan := fun data => do
  let fields ← readFields surplus ["name", "description", "primary_branch", "step"] data
  return {
    name := ← fields.required "name" readText
    description := ← fields.optional "description" readText
    primaryBranch := ← fields.optional "primary_branch" readText
    steps := ← fields.listOf "step" Step.ofData }

/-- The clock settings that a tree describes. -/
def ClockSettings.ofData (surplus : Surplus) : Reading ClockSettings := fun data => do
  let fields ← readFields surplus ["fixed", "start", "step"] data
  return {
    fixed := ← fields.optional "fixed" readInt64
    start := ← fields.optional "start" readInt64
    step := ← fields.optional "step" readInt64 }

/-- The fixture that a tree describes. -/
def File.ofData (surplus : Surplus) : Reading File := fun data => do
  let fields ← readFields surplus ["clock", "repository"] data
  return {
    clock := ← fields.optional "clock" (ClockSettings.ofData surplus)
    repositories := ← fields.listOf "repository" (RepositoryPlan.ofData surplus) }

end RevisionStore.Fixture
