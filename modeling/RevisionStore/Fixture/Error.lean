/-
**What can go wrong with a fixture.**

Main definitions:

* `Fixture.InvalidValue`, `Fixture.InvalidValue.message` — a value that is refused before any step
  runs;
* `FixtureError`, `FixtureError.message`, `FixtureError.report` — any failure, from reading the file
  to running the steps.
-/

import RevisionStore.Error
import RevisionStore.Hex

set_option autoImplicit false

namespace RevisionStore

/-- Why a value of a fixture is refused. -/
inductive Fixture.InvalidValue where
  | fixedAndStepping
  | stepWithoutStart
  | emptyName
  | repeatedName (name : String)
  | badHex (path : String) (problem : Hex.Problem)
  | notOneContent (path : String)
deriving DecidableEq, Repr

/-- The reason in words. -/
def Fixture.InvalidValue.message : InvalidValue → String
  | .fixedAndStepping => "clock.fixed cannot be combined with clock.start or clock.step"
  | .stepWithoutStart => "clock.step requires clock.start"
  | .emptyName => "repository name cannot be empty"
  | .repeatedName name => "repository '" ++ name ++ "' is declared more than once"
  | .badHex path problem => "content_hex for '" ++ path ++ "': " ++ problem.message
  | .notOneContent path =>
    "add-file '" ++ path ++ "' needs exactly one of content or content_hex"

/-- Why a fixture could not be loaded or applied. -/
inductive FixtureError where
  | unreadable (path : String) (cause : FileError)
  | malformed (path problem : String)
  | invalid (value : Fixture.InvalidValue)
  | stepFailed (repository : String) (index : Nat) (op : String) (cause : StoreError)
  | repositoryFailed (repository : String) (cause : StoreError)
deriving DecidableEq, Repr

namespace FixtureError

/-- The failure in words. -/
def message : FixtureError → String
  | unreadable path cause => "failed to read fixture file '" ++ path ++ "': " ++ cause.message
  | malformed path problem => "failed to parse fixture '" ++ path ++ "': " ++ problem
  | invalid value => "invalid fixture value: " ++ value.message
  | stepFailed repository index op cause =>
    "repository '" ++ repository ++ "' step " ++ toString index ++ " (" ++ op ++ ") failed: "
      ++ cause.message
  | repositoryFailed repository cause =>
    "repository '" ++ repository ++ "' failed: " ++ cause.message

/-- The failure in words, followed by what caused it in turn. -/
def report (e : FixtureError) : List String :=
  match e with
  | unreadable _ cause => [e.message, cause.message]
  | malformed _ _ | invalid _ => [e.message]
  | stepFailed _ _ _ cause | repositoryFailed _ cause => e.message :: cause.report

end FixtureError

end RevisionStore
