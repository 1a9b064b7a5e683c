/-
**Loading a fixture: reading its text, and checking its values before any step runs.**

Main definitions:

* `Fixture.Step.contentBytes` — what a step that adds a file adds;
* `Fixture.ClockSettings.validate`, `Fixture.File.validate` — the values that are refused;
* `Fixture.parse`, `Fixture.load` — **a fixture from TOML text, and from a file's bytes**;
* `Fixture.clock` — the time source that a fixture asks for.
-/

import RevisionStore.Clock
import RevisionStore.Fixture.Decode
import RevisionStore.Fixture.Error
import RevisionStore.Toml.Document

set_option autoImplicit false

namespace RevisionStore

namespace Fixture

/-! ### Values that are refused -/

/-- The content that a step gives to its file: its text or the bytes of its digits, of which there
has to be one and not the other.  Other steps have none. -/
def Step.contentBytes : Step → Except InvalidValue Bytes
  | addFile _ _ path content contentHex =>
    match content, contentHex with
    | some text, none => .ok (Bytes.ofText text)
    | none, some digits => (Hex.decode digits).mapError (.badHex path)
    | some _, some _ | none, none => .error (.notOneContent path)
  | _ => .ok []

/-- A fixed time goes with no other setting, and a step needs a start. -/
def ClockSettings.validate (settings : ClockSettings) : Except InvalidValue Unit :=
  if settings.fixed.isSome && (settings.start.isSome || settings.step.isSome) then
    .error .fixedAndStepping
  else if settings.step.isSome && settings.start.isNone then .error .stepWithoutStart
  else .ok ()

/-- Every step that adds a file has to have one content. -/
def validateSteps : List Step → Except InvalidValue Unit
  | [] => .ok ()
  | step :: rest => do
    let _ ← step.contentBytes
    validateSteps rest

/-- Every repository has to have a name that none before it has; `seen` holds those. -/
def validateRepositories (seen : List String) : List RepositoryPlan → Except InvalidValue Unit
  | [] => .ok ()
  | plan :: rest => do
    if plan.name = "" then throw .emptyName
    if seen.contains plan.name then throw (.repeatedName plan.name)
    validateSteps plan.steps
    validateRepositories (plan.name :: seen) rest

/-- The first value that is refused, if any is. -/
def File.validate (file : File) : Except InvalidValue Unit := do
  match file.clock with
  | some settings => settings.validate
  | none => pure ()
  validateRepositories [] file.repositories

end Fixture

/-! ### Loading -/

/-- A fixture whose values were checked, and the path of the file it came from, if any. -/
structure Fixture where
  file : Fixture.File
  path : Option String
deriving DecidableEq, Repr

namespace Fixture

/-- The contents that a TOML text describes, checked; `name` stands for the text in messages. -/
def parseNamed (name text : String) : Except FixtureError File := do
  let data ← (Toml.parse text).mapError fun problem =>
    .malformed name (problem.message text)
  let file ← (File.ofData .ignored data).mapError fun problem =>
    .malformed name problem.message
  file.validate.mapError .invalid
  return file

/-- The fixture that a TOML text describes. -/
def parse (text : String) : Except FixtureError Fixture := do
  return ⟨← parseNamed "<inline>" text, none⟩

/-- The fixture in the file at `path`, given what reading that file gave. -/
def load (path : String) (content : Except FileError Bytes) : Except FixtureError Fixture := do
  let bytes ← content.mapError (.unreadable path)
  match Bytes.toText? bytes with
  | some text => return ⟨← parseNamed path text, some path⟩
  | none => throw (.unreadable path .notUtf8)

/-- The time source that the fixture asks for, where `readings` are those of the wall clock. -/
def clock (fixture : Fixture) (readings : Nat → Timestamp) : Clock :=
  match fixture.file.clock with
  | some ⟨some fixed, _, _⟩ => .fixed ⟨fixed⟩
  | some ⟨none, some start, step⟩ => .stepping ⟨start⟩ (step.getD 1)
  | some ⟨none, none, _⟩ | none => .wall readings

end Fixture

end RevisionStore
