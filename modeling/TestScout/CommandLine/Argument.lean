import TestScout.CommandLine.Basic

/-!
# Arguments of commands

Each command takes flags by name and other arguments by place. What an argument is called, what it
may hold and how often it may be given is a table, one for each command and one for the program.
-/

namespace TestScout.CommandLine

/-! ## 1. Arguments -/

/-- What an argument says. -/
inductive Key where
  | tags
  | goos
  | goarch
  | cgo
  | overlay
  | colourless
  | quiet
  | verbose
  | help
  | version
  | form
  | testVerbose
  | short
  | race
  | pattern
  | compileDir
  | force
  | outDir
  | toOutput
  | path
  | query
  | paths
  | extra
  | shell
deriving DecidableEq, Repr

/-- What stands behind the name of an argument. -/
inductive Kind where
  /-- Nothing: it is given or not. -/
  | switch
  /-- Nothing: it counts how often it is given. -/
  | counter
  /-- Any text. -/
  | text
  /-- A text that is not empty. -/
  | path
  /-- One of some words. -/
  | word (words : List String)
deriving DecidableEq, Repr

/-- Whether a text is a value of a kind. -/
def Kind.admits : Kind → String → Bool
  | .switch, _ | .counter, _ | .text, _ => true
  | .path, value => value ≠ ""
  | .word words, value => value ∈ words

/-- Whether a value stands behind the name. -/
def Kind.takesValue : Kind → Bool
  | .switch | .counter => false
  | _ => true

/-- An argument. -/
structure Argument where
  key : Key
  kind : Kind
  /-- Whether it may be given several times. -/
  several : Bool
deriving DecidableEq, Repr

/-- An argument that is known by a name, and perhaps by a letter. -/
structure Flag where
  name : String
  letter : Option Char
  argument : Argument
deriving DecidableEq, Repr

/-- An argument that is known by its place. -/
structure Place where
  argument : Argument
  required : Bool
  /-- Whether it stands only behind `--`. -/
  behindDashes : Bool
deriving DecidableEq, Repr

/-- The arguments that can be given at one place of a command line. -/
structure Level where
  flags : List Flag
  places : List Place
  /-- Whether the name of a command can stand here. -/
  takesVerb : Bool
deriving DecidableEq, Repr

/-! ## 2. The tables -/

/-- A flag without a letter that may be given once. -/
def flag (name : String) (key : Key) (kind : Kind) : Flag :=
  ⟨name, none, ⟨key, kind, false⟩⟩

/-- The flags of every command. -/
def commonFlags : List Flag :=
  [flag "tags" .tags .text, flag "goos" .goos .text, flag "goarch" .goarch .text,
    flag "cgo" .cgo (.word ["true", "false"]), flag "overlay" .overlay .text,
    flag "no-color" .colourless .switch, flag "quiet" .quiet .switch,
    ⟨"verbose", some 'v', ⟨.verbose, .counter, true⟩⟩, ⟨"help", some 'h', ⟨.help, .switch, false⟩⟩]

/-- The flags of a command besides the common ones. -/
def ownFlags : Verb → List Flag
  | .env => [flag "format" .form (.word ["json", "text"])]
  | .run =>
    [flag "test-verbose" .testVerbose .switch, flag "short" .short .switch,
      flag "race" .race .switch, flag "run" .pattern .text, flag "compile" .compileDir .path]
  | .init => [flag "force" .force .switch]
  | .completions => [flag "out-dir" .outDir .path, flag "stdout" .toOutput .switch]
  | .list | .function | .escape => []

/-- The arguments of a command that are known by their place. -/
def places : Verb → List Place
  | .list | .init => [⟨⟨.path, .path, false⟩, false, false⟩]
  | .env => [⟨⟨.path, .path, false⟩, true, false⟩]
  | .function => [⟨⟨.query, .text, false⟩, true, false⟩]
  | .escape => [⟨⟨.paths, .text, true⟩, true, false⟩]
  | .run => [⟨⟨.path, .path, false⟩, false, false⟩, ⟨⟨.extra, .text, true⟩, false, true⟩]
  | .completions => [⟨⟨.shell, .word (CompletionShell.words.map (·.1)), false⟩, true, false⟩]

/-- The arguments in front of a command. -/
def topLevel : Level :=
  ⟨commonFlags ++ [⟨"version", some 'V', ⟨.version, .switch, false⟩⟩], [], true⟩

/-- The arguments behind a command. -/
def levelOf (verb : Verb) : Level :=
  ⟨commonFlags ++ ownFlags verb, places verb, false⟩

/-- The argument of a name. -/
def Level.named? (level : Level) (name : String) : Option Argument :=
  (level.flags.find? (·.name = name)).map (·.argument)

/-- The argument of a letter. -/
def Level.lettered? (level : Level) (letter : Char) : Option Argument :=
  (level.flags.find? (·.letter = some letter)).map (·.argument)

/-- The place that an argument takes, counted from the start. Behind `--` only the last place is
    left where one is kept for that. -/
def Level.place? (level : Level) (taken : Nat) (behindDashes : Bool) : Option (Nat × Place) :=
  let index :=
    if behindDashes && level.places.any (·.behindDashes) then level.places.length - 1 else taken
  match level.places[index]? with
  | none => none
  | some place =>
    if place.behindDashes && !behindDashes then none else some (index, place)

end TestScout.CommandLine
