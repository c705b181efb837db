import TestScout.BuildFlags
import TestScout.TestCommand

/-!
# What a command line asks for

A command line names one of seven commands and says what it works on. Flags for the environment and
for the output belong to every command.
-/

namespace TestScout

/-- The name of the program. -/
def programName : String := "gotest-util"

/-- The commands. -/
inductive Verb where
  | list
  | env
  | function
  | escape
  | run
  | init
  | completions
deriving DecidableEq, Repr

/-- The words that name commands. -/
def Verb.words : List (String × Verb) :=
  [("list", .list), ("env", .env), ("environment", .env), ("function", .function),
    ("escape", .escape), ("run", .run), ("init", .init), ("completions", .completions)]

/-- The shells for which command lines can be completed. -/
inductive CompletionShell where
  | bash
  | zsh
  | fish
  | powerShell
  | elvish
deriving DecidableEq, Repr

/-- The words that name these shells. -/
def CompletionShell.words : List (String × CompletionShell) :=
  [("bash", .bash), ("zsh", .zsh), ("fish", .fish), ("power-shell", .powerShell),
    ("elvish", .elvish)]

/-- How a difference of environments is written. -/
inductive DifferenceForm where
  | json
  | text
deriving DecidableEq, Repr

/-- What a command is to do. -/
inductive Request where
  /-- Reports the tests of a package; by default of the current directory. -/
  | list (path : Option Path)
  /-- Reports the environment that builds a file. -/
  | env (file : Path) (form : DifferenceForm)
  /-- Reports the function around a position. -/
  | function (query : String)
  /-- Names the test binaries of packages. -/
  | escape (paths : List String)
  /-- Runs the tests in a directory. -/
  | run (dir : Path) (options : TestOptions)
  /-- Writes a first settings file into a directory. -/
  | init (dir : Path) (force : Bool)
  /-- Writes what completes command lines, into a directory or to the output. -/
  | completions (shell : CompletionShell) (dir : Option Path) (toOutput : Bool)
deriving DecidableEq, Repr

/-- A command line that has been understood. -/
structure Invocation where
  request : Request
  flags : BuildFlags
  /-- Whether the output is to have no colours. -/
  colourless : Bool
  /-- Whether to write nothing that is not needed. -/
  quiet : Bool
deriving DecidableEq, Repr

/-- Why a command line asks for no command. -/
inductive UsageNotice where
  | unknownArgument
  | unknownVerb
  /-- The value of an argument is missing or wrong. -/
  | badValue
  | missingArgument
  | missingVerb
  /-- An argument is given twice that may be given once. -/
  | repeated
  /-- A value is given to an argument that takes none. -/
  | unwantedValue
  | helpAsked
  | versionAsked
  /-- Nothing at all is asked for. -/
  | nothingAsked
deriving DecidableEq, Repr

namespace UsageNotice

/-- The status that the program ends with: zero if the notice is what was asked for. -/
def status : UsageNotice → Nat
  | .helpAsked | .versionAsked => 0
  | _ => 2

/-- What is written when the version is asked for. -/
def versionText : String := programName ++ " 0.1.0\n"

/-- How the program is used. -/
def usageText : String :=
  "Usage: " ++ programName ++ " [OPTIONS] <COMMAND>\n\nCommands: " ++
    ", ".intercalate (Verb.words.map (·.1)) ++ "\n"

/-- The wording of a notice. -/
def message : UsageNotice → String
  | .unknownArgument => "error: unexpected argument\n\n" ++ usageText
  | .unknownVerb => "error: unrecognized command\n\n" ++ usageText
  | .badValue => "error: an argument has a missing or invalid value\n\n" ++ usageText
  | .missingArgument => "error: a required argument is missing\n\n" ++ usageText
  | .missingVerb => "error: a command is missing\n\n" ++ usageText
  | .repeated => "error: an argument is used several times\n\n" ++ usageText
  | .unwantedValue => "error: an argument takes no value\n\n" ++ usageText
  | .helpAsked | .nothingAsked => usageText
  | .versionAsked => versionText

end UsageNotice

end TestScout
