/-
**The smallest parts of a TOML document: blanks, comments, quoted texts and keys.**

A reader takes what it reads off the front of the remaining characters and gives back the rest.

Main definitions:

* `Toml.Problem`, `Toml.Reader` — why a document is refused, and what reads a part of one;
* `Toml.skipBlanks`, `Toml.skipFiller`, `Toml.endOfLine` — what separates the parts;
* `Toml.quotedText` — a text in any of the four kinds of quotation marks;
* `Toml.keyPath` — a key, or several joined by dots.
-/

import RevisionStore.Hex

set_option autoImplicit false

namespace RevisionStore.Toml

/-! ### Readers -/

/-- Why a document is refused. -/
inductive Problem where
  | expected (what : String) (remaining : Nat)
  | outOfRange (literal : String)
  | duplicateKey (key : String)
  | notATable (key : String)
  | tooDeep
deriving DecidableEq, Repr

/-- Takes a part off the front of the remaining characters. -/
abbrev Reader (α : Type) := List Char → Except Problem (α × List Char)

/-- Refuses the remaining characters for want of something. -/
def refuse {α : Type} (what : String) (rest : List Char) : Except Problem α :=
  .error (.expected what rest.length)

/-! ### Blanks and comments -/

/-- A space or a tab. -/
def isBlank (c : Char) : Bool := c = ' ' || c = '\t'

/-- A character that may stand in a comment or a text: any but the control characters, and the tab
of those. -/
def isPlain (c : Char) : Bool := c = '\t' || (' ' ≤ c && c ≠ '\x7f')

/-- What follows the blanks. -/
def skipBlanks (cs : List Char) : List Char := cs.dropWhile isBlank

/-- What follows a comment, if there is one. -/
def skipComment (cs : List Char) : List Char :=
  if cs.head? = some '#' then cs.dropWhile isPlain else cs

/-- What follows an end of line, which may be written in two ways. -/
def afterNewline? : List Char → Option (List Char)
  | '\n' :: rest => some rest
  | '\r' :: '\n' :: rest => some rest
  | _ => none

/-- The end of a line, with blanks and a comment before it.  The document's end will do. -/
def endOfLine : Reader Unit := fun cs =>
  match skipComment (skipBlanks cs) with
  | [] => .ok ((), [])
  | rest => match afterNewline? rest with
    | some rest => .ok ((), rest)
    | none => refuse "the end of the line" rest

/-- What follows blanks, ends of lines and comments; `inComment` tells whether one has begun. -/
def skipFiller (inComment : Bool) : List Char → List Char
  | [] => []
  | '\n' :: rest => skipFiller false rest
  | '\r' :: '\n' :: rest => skipFiller false rest
  | c :: rest =>
    if inComment then if isPlain c then skipFiller true rest else c :: rest
    else if isBlank c then skipFiller false rest
    else if c = '#' then skipFiller true rest
    else c :: rest

/-! ### Quoted texts -/

/-- The character that a backslash and a letter stand for. -/
def escaped? : Char → Option Char
  | 'b' => some '\x08'
  | 't' => some '\t'
  | 'n' => some '\n'
  | 'f' => some '\x0c'
  | 'r' => some '\r'
  | '"' => some '"'
  | '\\' => some '\\'
  | _ => none

/-- The character whose number the hexadecimal digits denote, if there is such a character. -/
def scalar? (digits : List Char) : Option Char := do
  let values ← digits.mapM Hex.value?
  let number := values.foldl (fun n value => 16 * n + value) 0
  if number.isValidChar then some (Char.ofNat number) else none

/-- The rest of a text in double quotation marks; `done` holds what was read of it, backwards. -/
def basicText (done : List Char) : Reader String
  | [] => refuse "a quotation mark" []
  | '"' :: rest => .ok (String.ofList done.reverse, rest)
  | '\\' :: 'u' :: a :: b :: c :: d :: rest =>
    match scalar? [a, b, c, d] with
    | some char => basicText (char :: done) rest
    | none => refuse "the number of a character" rest
  | '\\' :: 'U' :: a :: b :: c :: d :: e :: f :: g :: h :: rest =>
    match scalar? [a, b, c, d, e, f, g, h] with
    | some char => basicText (char :: done) rest
    | none => refuse "the number of a character" rest
  | '\\' :: c :: rest =>
    match escaped? c with
    | some char => basicText (char :: done) rest
    | none => refuse "an escape" (c :: rest)
  | c :: rest =>
    if isPlain c ∧ c ≠ '\\' then basicText (c :: done) rest
    else refuse "a character of a text" (c :: rest)

/-- Does a line end here, blanks aside? -/
def endsLine (cs : List Char) : Bool := (afterNewline? (skipBlanks cs)).isSome

/-- The rest of a text in three double quotation marks.  One or two more quotation marks at its end
belong to it.  A backslash at the end of a line takes the blanks and line ends behind it away; while
this is going on `trimming` is true. -/
def multilineBasicText (trimming : Bool) (done : List Char) : Reader String
  | [] => refuse "three quotation marks" []
  | '"' :: '"' :: '"' :: '"' :: '"' :: rest =>
    .ok (String.ofList ('"' :: '"' :: done).reverse, rest)
  | '"' :: '"' :: '"' :: '"' :: rest => .ok (String.ofList ('"' :: done).reverse, rest)
  | '"' :: '"' :: '"' :: rest => .ok (String.ofList done.reverse, rest)
  | '\n' :: rest =>
    if trimming then multilineBasicText true done rest
    else multilineBasicText false ('\n' :: done) rest
  | '\r' :: '\n' :: rest =>
    if trimming then multilineBasicText true done rest
    else multilineBasicText false ('\n' :: done) rest
  | '\\' :: 'u' :: a :: b :: c :: d :: rest =>
    match scalar? [a, b, c, d] with
    | some char => multilineBasicText false (char :: done) rest
    | none => refuse "the number of a character" rest
  | '\\' :: 'U' :: a :: b :: c :: d :: e :: f :: g :: h :: rest =>
    match scalar? [a, b, c, d, e, f, g, h] with
    | some char => multilineBasicText false (char :: done) rest
    | none => refuse "the number of a character" rest
  | '\\' :: c :: rest =>
    match escaped? c with
    | some char => multilineBasicText false (char :: done) rest
    | none =>
      if endsLine (c :: rest) then multilineBasicText true done (c :: rest)
      else refuse "an escape" (c :: rest)
  | c :: rest =>
    if trimming && isBlank c then multilineBasicText true done rest
    else if isPlain c ∧ c ≠ '\\' then multilineBasicText false (c :: done) rest
    else refuse "a character of a text" (c :: rest)

/-- The rest of a text in single quotation marks, where a backslash is a character like others. -/
def literalText (done : List Char) : Reader String
  | [] => refuse "a quotation mark" []
  | '\'' :: rest => .ok (String.ofList done.reverse, rest)
  | c :: rest =>
    if isPlain c then literalText (c :: done) rest
    else refuse "a character of a text" (c :: rest)

/-- The rest of a text in three single quotation marks.  One or two more quotation marks at its end
belong to it. -/
def multilineLiteralText (done : List Char) : Reader String
  | [] => refuse "three quotation marks" []
  | '\'' :: '\'' :: '\'' :: '\'' :: '\'' :: rest =>
    .ok (String.ofList ('\'' :: '\'' :: done).reverse, rest)
  | '\'' :: '\'' :: '\'' :: '\'' :: rest => .ok (String.ofList ('\'' :: done).reverse, rest)
  | '\'' :: '\'' :: '\'' :: rest => .ok (String.ofList done.reverse, rest)
  | '\n' :: rest => multilineLiteralText ('\n' :: done) rest
  | '\r' :: '\n' :: rest => multilineLiteralText ('\n' :: done) rest
  | c :: rest =>
    if isPlain c then multilineLiteralText (c :: done) rest
    else refuse "a character of a text" (c :: rest)

/-- What follows one end of line, if there is one. -/
def skipNewline (cs : List Char) : List Char := (afterNewline? cs).getD cs

/-- A text in quotation marks of any kind.  A line end right after three of them is dropped. -/
def quotedText : Reader String
  | '"' :: '"' :: '"' :: rest => multilineBasicText false [] (skipNewline rest)
  | '"' :: rest => basicText [] rest
  | '\'' :: '\'' :: '\'' :: rest => multilineLiteralText [] (skipNewline rest)
  | '\'' :: rest => literalText [] rest
  | rest => refuse "a quotation mark" rest

/-! ### Keys -/

/-- A character of a key without quotation marks. -/
def isBareKey (c : Char) : Bool := c.isAlphanum || c = '-' || c = '_'

/-- A key, with quotation marks or without; it stays on one line. -/
def simpleKey : Reader String
  | '"' :: rest => basicText [] rest
  | '\'' :: rest => literalText [] rest
  | rest =>
    let key := rest.takeWhile isBareKey
    if key.isEmpty then refuse "a key" rest
    else .ok (String.ofList key, rest.dropWhile isBareKey)

/-- Keys joined by dots, at most `bound` of them, with blanks around each. -/
def keysWithin : Nat → Reader (List String)
  | 0, _ => .error .tooDeep
  | bound + 1, cs => do
    let (key, rest) ← simpleKey (skipBlanks cs)
    match skipBlanks rest with
    | '.' :: rest => do
      let (keys, rest) ← keysWithin bound rest
      return (key :: keys, rest)
    | rest => return ([key], rest)

/-- How deep keys, lists and tables may be nested. -/
def deepest : Nat := 79

/-- A key, or several joined by dots. -/
def keyPath : Reader (List String) := keysWithin deepest

end RevisionStore.Toml
