/-
**Names for revisions and for places to commit to.**

A revision can be named by its hash, by a branch, by a tag, or by a change request, which is
written `change-request/` and a number.  What a name stands for depends on the repository; which
change request a text names does not, and is settled here.

Main definitions:

* `ChangeRequest.number?`, `ChangeRequest.identifier` — reading and writing the name of a change
  request;
* `Identifier` — what a name turns out to be in a repository;
* `CommitTarget`, `CommitTarget.toText` — a ref that a commit can move, and its name.
-/

import RevisionStore.RevisionHash

set_option autoImplicit false

namespace RevisionStore

namespace ChangeRequest

/-! ### The name of a change request -/

/-- What the name of every change request begins with. -/
def marker : String := "change-request/"

/-- What follows the marker, if the text begins with it. -/
def afterMarker? (text : String) : Option (List Char) :=
  if marker.toList.isPrefixOf text.toList then some (text.toList.drop marker.length) else none

/-- The number that the name of a change request ends in: decimal digits, leading zeros allowed,
of a value that 64 bits hold. -/
def number? (text : String) : Option UInt64 := do
  let digits ← afterMarker? text
  if digits.isEmpty || !digits.all Char.isDigit then none
  else
    let value := Nat.ofDigitChars 10 digits 0
    if value < UInt64.size then some (UInt64.ofNat value) else none

/-- The name of the change request with a number. -/
def identifier (number : UInt64) : String := marker ++ toString number.toNat

end ChangeRequest

/-! ### Kinds of names -/

/-- What a name turns out to be in a repository. -/
inductive Identifier where
  | hash (hash : RevisionHash)
  | branch (name : String)
  | tag (name : String)
  | changeRequest (number : UInt64)
  | unrecognized (text : String)
deriving DecidableEq

/-- A ref that a commit can move. -/
inductive CommitTarget where
  | branch (name : String)
  | changeRequest (number : UInt64)
deriving DecidableEq

/-- The target's name. -/
def CommitTarget.toText : CommitTarget → String
  | .branch name => name
  | .changeRequest number => ChangeRequest.identifier number

end RevisionStore
