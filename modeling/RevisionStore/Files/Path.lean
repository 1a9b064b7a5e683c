/-
**Paths as text.**

A path is a text whose pieces are separated by slashes.  Empty pieces and single dots say nothing,
except that a dot at the very start is kept; what remains are the components of the path.

Main definitions:

* `Path.pieces`, `Path.Component`, `Path.components` — the pieces between slashes, and what they
  say;
* `Path.staysInside` — does the path lead nowhere but down?
* `Path.join`, `Path.parent?`, `Path.ancestors` — a path below another, the path without its last
  component, and all that this leads up to.
-/

set_option autoImplicit false

namespace RevisionStore.Path

/-! ### Components -/

/-- The texts between the slashes. -/
def pieces (path : String) : List String := (path.toList.splitOn '/').map String.ofList

/-- The path of some pieces. -/
def ofPieces (pieces : List String) : String := "/".intercalate pieces

/-- Does the piece say nothing where it stands behind a slash? -/
def isFiller (piece : String) : Bool := piece = "" || piece = "."

/-- Does the path begin at the root? -/
def isAbsolute (path : String) : Bool := ['/'].isPrefixOf path.toList

/-- What a piece says. -/
inductive Component where
  | root
  | here
  | up
  | name (name : String)
deriving DecidableEq, Repr

/-- What a piece behind a slash says. -/
def Component.ofPiece? (piece : String) : Option Component :=
  if isFiller piece then none else if piece = ".." then some .up else some (.name piece)

/-- What the pieces of a path say, one after the other. -/
def components (path : String) : List Component :=
  if isAbsolute path then .root :: (pieces path).filterMap Component.ofPiece?
  else match pieces path with
    | "." :: rest => .here :: rest.filterMap Component.ofPiece?
    | all => all.filterMap Component.ofPiece?

/-- Does the component lead down, or nowhere? -/
def Component.isDownward : Component → Bool
  | .name _ | .here => true
  | .root | .up => false

/-- Does the path, taken from a directory, lead to something inside it whatever else exists? -/
def staysInside (path : String) : Bool := path ≠ "" && (components path).all Component.isDownward

/-! ### Parents -/

/-- The path that `path` denotes when it is taken from `root`. -/
def join (root path : String) : String :=
  if isAbsolute path || root = "" then path
  else if root.toList.getLast? = some '/' then root ++ path
  else root ++ "/" ++ path

/-- The pieces without the filling at their end. -/
def trimmed (pieces : List String) : List String := (pieces.reverse.dropWhile isFiller).reverse

/-- The path without its last component, and without the filling before it. -/
def parent? (path : String) : Option String :=
  match pieces path with
  | [] => none
  | first :: rest =>
    -- Filling at the end goes with the last component, and so does the filling before it.
    let rest := trimmed rest
    let above := ofPieces (trimmed rest.dropLast)
    if isAbsolute path then if rest = [] then none else some ("/" ++ above)
    else if path = "" then none
    else if rest = [] then some ""
    else some (ofPieces (first :: trimmed rest.dropLast))

/-- The path, its parent, the parent's parent and so on, at most `bound` of them. -/
def ancestorsWithin (path : String) : Nat → List String
  | 0 => []
  | bound + 1 => path :: match parent? path with
    | some parent => ancestorsWithin parent bound
    | none => []

/-- The path, its parent, the parent's parent and so on.  Each has fewer pieces than the one
before, but for the empty path at the end. -/
def ancestors (path : String) : List String := ancestorsWithin path ((pieces path).length + 1)

end RevisionStore.Path
