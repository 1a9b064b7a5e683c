/-
**Running a command.**

Every run builds its store anew from the fixture, so that the commands only read it, and one writes
a revision to a directory.

Main definitions:

* `CommandLine.Failure`, `CommandLine.Failure.report` — why a run failed, with the causes behind it;
* `CommandLine.Command.output` — what the reading commands print;
* `CommandLine.checkout` — writing a revision to a directory;
* `CommandLine.run` — **a whole run**, from the arguments to the bytes it prints.
-/

import RevisionStore.Checkout
import RevisionStore.CommandLine.Arguments
import RevisionStore.Data.Json
import RevisionStore.Fixture.Apply

set_option autoImplicit false

namespace RevisionStore.CommandLine

/-! ### Failures -/

/-- Why a run failed. -/
inductive Failure where
  | misuse (problem : Misuse)
  | fixtureNotLoaded (path : String) (cause : FixtureError)
  | fixtureNotApplied (cause : FixtureError)
  | refused (cause : StoreError)
  | noSuchFile (path identifier : String)
  | destinationNotCreated (path : String) (cause : FileError)
  | notCheckedOut (identifier repository : String) (cause : StoreError)
deriving DecidableEq, Repr

namespace Failure

/-- The failure in words, followed by what caused it in turn. -/
def report : Failure → List String
  | misuse problem => [problem.message]
  | fixtureNotLoaded path cause => ("Failed to load fixture " ++ path) :: cause.report
  | fixtureNotApplied cause => "Failed to apply fixture" :: cause.report
  | refused cause => cause.report
  | noSuchFile path identifier => ["No such file: " ++ path ++ " at " ++ identifier]
  | destinationNotCreated path cause => ["Failed to create " ++ path, cause.message]
  | notCheckedOut identifier repository cause =>
    ("Failed to check out " ++ identifier ++ " from " ++ repository) :: cause.report

/-- The failure in words. -/
def message (f : Failure) : String := ": ".intercalate f.report

/-- The number that a failed run exits with. -/
def exitCode : Failure → Nat
  | misuse _ => 2
  | _ => 1

end Failure

/-! ### Reading commands -/

/-- The name and the number that the program goes by. -/
def versionText : String := "mockscm 0.1.0\n"

/-- How the program is called. -/
def helpText : String :=
  "Usage: mockscm --fixture <FILE> [--debug] <COMMAND>\n\nCommands: repos, branches, tags, "
    ++ "change-requests, resolve, log, stat, cat, checkout\n"

/-- How many digits of a hash a listing shows. -/
def shownDigits : Nat := 12

/-- Each text on a line of its own. -/
def asLines (texts : List String) : String := String.join (texts.map (· ++ "\n"))

/-- The branches of a repository, the primary one with a star. -/
def branchLines (c : Controller) (repository : String) : Except StoreError (List String) := do
  let primary ← c.primaryBranch repository
  (← c.listBranches repository).mapM fun branch => do
    let head ← c.branchHead repository branch
    let mark := if primary = some branch then "* " else "  "
    return mark ++ head.short shownDigits ++ " " ++ branch

/-- The tags of a repository, each with the hash that its name stands for. -/
def tagLines (c : Controller) (repository : String) : Except StoreError (List String) := do
  (← c.listTags repository).mapM fun tag => do
    return (← c.resolve repository tag).short shownDigits ++ " " ++ tag

/-- The open change requests of a repository, each with its branch and title. -/
def changeRequestLines (c : Controller) (repository : String) :
    Except StoreError (List String) := do
  (← c.listChangeRequests repository).mapM fun number => do
    -- The numbers are those of open requests, which have both a branch and a title.
    let baseline := (← c.changeRequestBaseline repository number).getD ""
    let title := (← c.changeRequestTitle repository number).getD ""
    return "#" ++ toString number.toNat ++ " -> " ++ baseline ++ ": " ++ title

/-- A line of history as text; a root has no message to show. -/
def logLine (entry : LogEntry) : String :=
  let shown := entry.hash.toHex ++ " " ++ entry.timestamp.toText
  match entry.message with
  | some message => shown ++ " " ++ message
  | none => shown

/-- A line of history as a tree of data. -/
def logData (entry : LogEntry) : Data :=
  .record [("hash", .text entry.hash.toHex), ("timestamp", .integer entry.timestamp.millis.toInt),
    ("message", .ofText? entry.message)]

/-- A history as text, or as the JSON text of a list. -/
def logText (json : Bool) (entries : List LogEntry) : String :=
  if json then Json.pretty 0 (.list (entries.map logData)) ++ "\n"
  else asLines (entries.map logLine)

/-- The bytes of a text that reading the store gave. -/
def printed (text : Except StoreError String) : Except Failure Bytes :=
  match text with
  | .ok text => .ok (Bytes.ofText text)
  | .error e => .error (.refused e)

/-- What a command that only reads the store prints; nothing for the one that does more. -/
def Command.output? (c : Controller) : Command → Option (Except Failure Bytes)
  | repositories => some (printed (.ok (asLines c.listRepositories)))
  | branches repository => some (printed ((branchLines c repository).map asLines))
  | tags repository => some (printed ((tagLines c repository).map asLines))
  | changeRequests repository => some (printed ((changeRequestLines c repository).map asLines))
  | resolve repository identifier =>
    some (printed ((c.resolve repository identifier).map fun hash => asLines [hash.toHex]))
  | log repository identifier json =>
    some (printed ((c.log repository identifier).map (logText json)))
  | stat repository identifier path =>
    some (printed ((c.stat repository identifier path).map fun kind => asLines [kind.toText]))
  | cat repository identifier path =>
    some (match c.fileContent repository identifier path with
      | .ok (some content) => .ok content
      | .ok none => .error (.noSuchFile path identifier)
      | .error e => .error (.refused e))
  | checkout _ _ _ => none

/-! ### Runs -/

variable {m : Type → Type} [Monad m]

/-- Writes a revision to a directory, which is made if it is missing, and prints its hash. -/
def checkout (files : FileSystem m) (c : Controller) (repository identifier destination : String) :
    m (Except Failure Bytes) := do
  match ← files.createDirectories destination with
  | .ok () =>
    match ← c.checkout (Destination.folder files destination) repository identifier with
    | .ok hash => return .ok (Bytes.ofText (asLines [hash.toHex]))
    | .error e => return .error (.notCheckedOut identifier repository e)
  | .error e => return .error (.destinationNotCreated destination e)

/-- Runs a command on a store. -/
def Command.run (files : FileSystem m) (c : Controller) (command : Command) :
    m (Except Failure Bytes) :=
  match command with
  | checkout repository identifier destination =>
    CommandLine.checkout files c repository identifier destination
  | command => return (command.output? c).getD (.ok [])

/-- The store that the fixture in a file describes. -/
def storeOf (path : String) (content : Except FileError Bytes) (readings : Nat → Timestamp) :
    Except Failure Controller :=
  match Fixture.load path content with
  | .error e => .error (.fixtureNotLoaded path e)
  | .ok fixture =>
    match fixture.apply (.withClock (fixture.clock readings)) with
    | (.ok (), c) => .ok c
    | (.error e, _) => .error (.fixtureNotApplied e)

/-- A whole run: what it prints, or why it failed.  The `readings` are those of the wall clock. -/
def run (files : FileSystem m) (readings : Nat → Timestamp) (arguments : List String) :
    m (Except Failure Bytes) := do
  match Invocation.ofArguments arguments with
  | .error .help => return .ok (Bytes.ofText helpText)
  | .error .version => return .ok (Bytes.ofText versionText)
  | .error (.misuse problem) => return .error (.misuse problem)
  | .ok invocation =>
    match storeOf invocation.fixture (← files.readFile invocation.fixture) readings with
    | .ok c => invocation.command.run files c
    | .error e => return .error e

end RevisionStore.CommandLine
