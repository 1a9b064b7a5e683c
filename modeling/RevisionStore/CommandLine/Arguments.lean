/-
**The arguments of the command line.**

A fixture and the flags for the whole run come first, then the command, then what the command is
about.  Flags may stand anywhere between the names that a command takes; behind two dashes nothing
is a flag any more.

Main definitions:

* `CommandLine.Command` — the commands and what they are about;
* `CommandLine.Argument` — a single argument by its form;
* `CommandLine.Misuse`, `CommandLine.Ending` — why the arguments make no command, and what ends the
  reading early;
* `CommandLine.Invocation.ofArguments` — **the command that the arguments ask for**.
-/

set_option autoImplicit false

namespace RevisionStore.CommandLine

/-! ### Commands -/

/-- What can be asked for. -/
inductive Command where
  | repositories
  | branches (repository : String)
  | tags (repository : String)
  | changeRequests (repository : String)
  | resolve (repository identifier : String)
  | log (repository identifier : String) (json : Bool)
  | stat (repository identifier path : String)
  | cat (repository identifier path : String)
  | checkout (repository identifier destination : String)
deriving DecidableEq, Repr

/-- A command with the fixture that it is run on.  With `debug` more is logged. -/
structure Invocation where
  fixture : String
  debug : Bool
  command : Command
deriving DecidableEq, Repr

/-! ### Problems -/

/-- Why the arguments make no command. -/
inductive Misuse where
  | unexpected (argument : String)
  | missing (what : String)
  | repeated (flag : String)
  | needless (flag : String)
deriving DecidableEq, Repr

/-- The problem in words. -/
def Misuse.message : Misuse → String
  | .unexpected argument => "unexpected argument '" ++ argument ++ "'"
  | .missing what => "a value is required for '" ++ what ++ "'"
  | .repeated flag => "the argument '" ++ flag ++ "' cannot be used multiple times"
  | .needless flag => "the argument '" ++ flag ++ "' takes no value"

/-- What ends the reading of the arguments before there is a command. -/
inductive Ending where
  | help
  | version
  | misuse (problem : Misuse)
deriving DecidableEq, Repr

/-! ### Single arguments -/

/-- An argument by its form. -/
inductive Argument where
  | separator
  | long (name : String) (value : Option String)
  | short (letters : List Char)
  | plain (text : String)
deriving DecidableEq, Repr

/-- The form of an argument.  A single dash alone is plain. -/
def Argument.ofText (text : String) : Argument :=
  match text.toList with
  | ['-', '-'] => .separator
  | '-' :: '-' :: rest =>
    let name := rest.takeWhile (· ≠ '=')
    let value := (rest.drop name.length).tail?
    .long (String.ofList name) (value.map String.ofList)
  | '-' :: letter :: rest => .short (letter :: rest)
  | _ => .plain text

/-! ### Behind the command -/

/-- How many names a command takes. -/
def nameCount? : String → Option Nat
  | "repos" => some 0
  | "branches" | "tags" | "change-requests" => some 1
  | "resolve" | "log" => some 2
  | "stat" | "cat" | "checkout" => some 3
  | _ => none

/-- Does a command that takes `count` names take the text as the name at a position?  A destination
may not be empty. -/
def takesName (command : String) (count position : Nat) (text : String) : Bool :=
  position < count && !(command = "checkout" && position = 2 && text = "")

/-- What was read behind the command: the flags, and the names in reverse order. -/
structure Collected where
  debug : Bool
  json : Bool
  names : List String

/-- Reads what stands behind the command, which takes `count` names and, after `log`, the flag
`--json`.  After two dashes `separated` is true. -/
def collect (command : String) (count : Nat) (separated : Bool) (c : Collected) :
    List String → Except Ending Collected
  | [] => .ok c
  | text :: rest =>
    let name : Except Ending Collected :=
      if takesName command count c.names.length text then
        collect command count separated { c with names := text :: c.names } rest
      else .error (.misuse (.unexpected text))
    if separated then name
    else match Argument.ofText text with
      | .separator => collect command count true c rest
      | .plain _ => name
      | .long "help" none | .short ('h' :: _) => .error .help
      | .long "debug" none =>
        if c.debug then .error (.misuse (.repeated "--debug"))
        else collect command count separated { c with debug := true } rest
      | .long "json" none =>
        if command ≠ "log" then .error (.misuse (.unexpected text))
        else if c.json then .error (.misuse (.repeated "--json"))
        else collect command count separated { c with json := true } rest
      | .long "help" (some _) => .error (.misuse (.needless "--help"))
      | .long "debug" (some _) => .error (.misuse (.needless "--debug"))
      | .long "json" (some _) => .error (.misuse (.needless "--json"))
      | .long _ _ | .short _ => .error (.misuse (.unexpected text))

/-- The command of a name, with the names that follow it. -/
def Command.ofNames? (command : String) (json : Bool) : List String → Option Command
  | [] => if command = "repos" then some .repositories else none
  | [repository] =>
    if command = "branches" then some (.branches repository)
    else if command = "tags" then some (.tags repository)
    else if command = "change-requests" then some (.changeRequests repository)
    else none
  | [repository, identifier] =>
    if command = "resolve" then some (.resolve repository identifier)
    else if command = "log" then some (.log repository identifier json)
    else none
  | [repository, identifier, path] =>
    if command = "stat" then some (.stat repository identifier path)
    else if command = "cat" then some (.cat repository identifier path)
    else if command = "checkout" then some (.checkout repository identifier path)
    else none
  | _ => none

/-- The command of a name with what stands behind it, and whether more is to be logged. -/
def commandOf (command : String) (count : Nat) (rest : List String) :
    Except Ending (Command × Bool) := do
  let collected ← collect command count false ⟨false, false, []⟩ rest
  match Command.ofNames? command collected.json collected.names.reverse with
  | some found => return (found, collected.debug)
  | none => throw (.misuse (.missing command))

/-! ### Before the command -/

/-- What was read before the command. -/
structure Options where
  fixture : Option String
  debug : Bool

/-- The options with a fixture, which may be named once. -/
def Options.setFixture (o : Options) (path : String) : Except Ending Options :=
  if o.fixture.isSome then .error (.misuse (.repeated "--fixture"))
  else if path = "" then .error (.misuse (.missing "--fixture"))
  else .ok { o with fixture := some path }

/-- The value of `--fixture` that stands in the next argument. -/
def separateValue : List String → Except Ending (String × List String)
  | [] => .error (.misuse (.missing "--fixture"))
  | text :: rest => match Argument.ofText text with
    -- Even the name of a command is a value here, but what looks like a flag is none.
    | .plain _ => .ok (text, rest)
    | .separator | .long _ _ | .short _ => .error (.misuse (.missing "--fixture"))

/-- The names behind `help` have to be those of a command. -/
def checkHelp : List String → Except Ending Invocation
  | [] => .error .help
  | [name] =>
    if name = "help" ∨ (nameCount? name).isSome then .error .help
    else .error (.misuse (.unexpected name))
  | _ :: name :: _ => .error (.misuse (.unexpected name))

/-- What stands directly behind a letter: its value, which an equals sign may set off. -/
def attachedValue : List Char → String
  | '=' :: rest => String.ofList rest
  | rest => String.ofList rest

/-- Reads the arguments up to the command, and the command.  Each step takes at least one argument,
so that `bound` need not be more than their number. -/
def readWithin (o : Options) : Nat → List String → Except Ending Invocation
  | 0, _ | _, [] => .error (.misuse (.missing "COMMAND"))
  | bound + 1, text :: rest =>
    match Argument.ofText text with
    | .plain _ =>
      if text = "help" then checkHelp rest
      else match nameCount? text with
        | some count => do
          let (command, debug) ← commandOf text count rest
          match o.fixture with
          | some fixture => return ⟨fixture, o.debug || debug, command⟩
          | none => throw (.misuse (.missing "--fixture"))
        | none => .error (.misuse (.unexpected text))
    | .long "fixture" (some path) => do readWithin (← o.setFixture path) bound rest
    | .long "fixture" none | .short ['f'] => do
      let (path, rest) ← separateValue rest
      readWithin (← o.setFixture path) bound rest
    | .short ('f' :: path) => do readWithin (← o.setFixture (attachedValue path)) bound rest
    | .long "help" none | .short ('h' :: _) => .error .help
    | .long "version" none | .short ('V' :: _) => .error .version
    | .long "debug" none =>
      if o.debug then .error (.misuse (.repeated "--debug"))
      else readWithin { o with debug := true } bound rest
    | .long "help" (some _) => .error (.misuse (.needless "--help"))
    | .long "version" (some _) => .error (.misuse (.needless "--version"))
    | .long "debug" (some _) => .error (.misuse (.needless "--debug"))
    | .separator | .long _ _ | .short _ => .error (.misuse (.unexpected text))

/-- The command that the arguments ask for, or what ends the reading of them. -/
def Invocation.ofArguments (arguments : List String) : Except Ending Invocation :=
  readWithin ⟨none, false⟩ arguments.length arguments

end RevisionStore.CommandLine
