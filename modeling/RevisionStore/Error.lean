/-
**What can go wrong in the store and while files are read or written.**

Every failure is a cause of its own, and its wording is in one place.

Main definitions:

* `FileError`, `FileError.message` — why the file system refused;
* `StoreError`, `StoreError.message` — why the store refused;
* `StoreError.isNotFound` — is the cause a name that stands for nothing?

Main results:

* `bind_eq_ok_iff`, `bind_eq_error_iff` — a computation in two parts that can fail, taken apart.
-/

set_option autoImplicit false

namespace RevisionStore

/-! ### Computations that can fail -/

section

variable {ε α β : Type} {first : Except ε α} {next : α → Except ε β}

/-- A computation in two parts succeeds where both do. -/
theorem bind_eq_ok_iff {b : β} : first >>= next = .ok b ↔ ∃ a, first = .ok a ∧ next a = .ok b := by
  cases first <;> simp [bind, Except.bind]

/-- So does one whose first part is only a check. -/
theorem check_bind_eq_ok_iff {check : Except ε Unit} {next : Unit → Except ε β} {b : β} :
    check >>= next = .ok b ↔ check = .ok () ∧ next () = .ok b := by
  cases check <;> simp [bind, Except.bind]

/-- It fails where one of them does. -/
theorem bind_eq_error_iff {e : ε} :
    first >>= next = .error e ↔ first = .error e ∨ ∃ a, first = .ok a ∧ next a = .error e := by
  cases first <;> simp [bind, Except.bind]

/-- What succeeds gives something. -/
theorem exists_of_isOk (succeeds : first.isOk = true) : ∃ a, first = .ok a := by
  cases first with
  | error e => cases succeeds
  | ok a => exact ⟨a, rfl⟩

/-- A part of a result is there where the result is. -/
theorem map_eq_ok_iff {part : α → β} {b : β} :
    first.map part = .ok b ↔ ∃ a, first = .ok a ∧ part a = b := by
  cases first <;> simp [Except.map]

/-- Saying an error differently keeps a success. -/
theorem mapError_eq_ok_iff {ε' : Type} {rephrase : ε → ε'} {a : α} :
    first.mapError rephrase = .ok a ↔ first = .ok a := by
  cases first with
  | error e => exact iff_of_false (by rintro ⟨⟩) (by rintro ⟨⟩)
  | ok b =>
      constructor
      · rintro ⟨⟩
        rfl
      · rintro ⟨⟩
        rfl

end

/-! ### The file system -/

/-- Why a file or a directory could not be read or written. -/
inductive FileError where
  | notFound
  | alreadyExists
  | notADirectory
  | isADirectory
  | nameTooLong
  | nulInName
  | notUtf8
  | other (text : String)
deriving DecidableEq, Repr

/-- The cause in words, with the number that the system gives it. -/
def FileError.message : FileError → String
  | .notFound => "No such file or directory (os error 2)"
  | .alreadyExists => "File exists (os error 17)"
  | .notADirectory => "Not a directory (os error 20)"
  | .isADirectory => "Is a directory (os error 21)"
  | .nameTooLong => "File name too long (os error 36)"
  | .nulInName => "file name contained an unexpected NUL byte"
  | .notUtf8 => "stream did not contain valid UTF-8"
  | .other text => text

/-! ### The store -/

/-- Why an operation of the store failed. -/
inductive StoreError where
  | unknownRepository (repository : String)
  | repositoryExists (repository : String)
  | unknownBranch (repository branch : String)
  | unknownChangeRequest (repository : String) (number : UInt64)
  | unknownTarget (repository target : String)
  | unknownIdentifier (repository identifier : String)
  | invalidPath (path : String)
  | checkoutFailed (path : String) (cause : FileError)
deriving DecidableEq, Repr

namespace StoreError

/-- The cause in words. -/
def message : StoreError → String
  | unknownRepository repository => "unknown repository: " ++ repository
  | repositoryExists repository => "repository already exists: " ++ repository
  | unknownBranch repository branch =>
    "unknown branch: " ++ branch ++ " in repository " ++ repository
  | unknownChangeRequest repository number =>
    "unknown change request: " ++ toString number.toNat ++ " in repository " ++ repository
  | unknownTarget repository target =>
    "unknown branch/change-request: " ++ target ++ " in repository " ++ repository
  | unknownIdentifier repository identifier =>
    "unknown identifier: " ++ identifier ++ " in repository " ++ repository
  | invalidPath path => "invalid path for checkout: '" ++ path ++ "'"
  | checkoutFailed path cause =>
    "checkout failed writing '" ++ path ++ "': " ++ cause.message

/-- Is the cause a name that stands for nothing? -/
def isNotFound : StoreError → Bool
  | unknownRepository _ | unknownBranch _ _ | unknownChangeRequest _ _ | unknownTarget _ _
  | unknownIdentifier _ _ => true
  | repositoryExists _ | invalidPath _ | checkoutFailed _ _ => false

/-- The cause in words, followed by what caused it in turn. -/
def report (e : StoreError) : List String :=
  match e with
  | checkoutFailed _ cause => [e.message, cause.message]
  | _ => [e.message]

end StoreError

end RevisionStore
