/-
**The program.**

This is the only module that touches the disk, the clock and the terminal.

Main definitions:

* `RevisionStore.diskFiles` — the files on the disk as a file system;
* `main` — a run with the arguments of the process.
-/

import RevisionStore.CommandLine.Run
import Std.Time

set_option autoImplicit false

namespace RevisionStore

/-- A failure of the operating system by its number. -/
def diskFailure (code : UInt32) (details : String) : FileError :=
  match code.toNat with
  | 2 => .notFound
  | 17 => .alreadyExists
  | 20 => .notADirectory
  | 21 => .isADirectory
  | 36 => .nameTooLong
  | number => .other (details ++ " (os error " ++ toString number ++ ")")

/-- The failure that an exception reports. -/
def diskException (e : IO.Error) : FileError :=
  match e with
  | .noFileOrDirectory _ code details => diskFailure code details
  | .alreadyExists _ code details => diskFailure code details
  | .inappropriateType _ code details => diskFailure code details
  | .invalidArgument _ code details => diskFailure code details
  | .permissionDenied _ code details => diskFailure code details
  | .resourceExhausted _ code details => diskFailure code details
  | .otherError code details => diskFailure code details
  | other => .other (toString other)

/-- The outcome of an action on the disk.  No name on the disk holds a NUL. -/
def diskAction {α : Type} (path : String) (action : IO α) : IO (Except FileError α) := do
  if path.toList.contains '\x00' then return .error .nulInName
  try
    return .ok (← action)
  catch e => return .error (diskException e)

/-- The files on the disk. -/
def diskFiles : FileSystem IO where
  makeDirectory path := diskAction path (IO.FS.createDir path)
  isDirectory path := do
    match ← diskAction path (IO.FS.Handle.mk (path ++ "/.") .read) with
    | .ok _ => return true
    | .error _ => return false
  writeFile path content := diskAction path (IO.FS.writeBinFile path ⟨content.toArray⟩)
  readFile path := diskAction path do
    return (← IO.FS.readBinFile path).data.toList

end RevisionStore

open RevisionStore in
/-- Runs the command that the arguments ask for. -/
def main (arguments : List String) : IO UInt32 := do
  let now ← Std.Time.Timestamp.now
  let time : Timestamp := ⟨Int64.ofInt now.toMillisecondsSinceUnixEpoch.val⟩
  match ← CommandLine.run diskFiles (fun _ => time) arguments with
  | .ok output =>
    let out ← IO.getStdout
    out.write ⟨output.toArray⟩
    out.flush
    return 0
  | .error failure =>
    IO.eprintln ("error: " ++ failure.message)
    return UInt32.ofNat failure.exitCode
