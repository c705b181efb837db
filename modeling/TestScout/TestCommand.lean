import TestScout.ArtifactName
import TestScout.BuildEnv.Basic
import TestScout.Failure

/-!
# Commands that run tests

The tests of a package are run by another program. Its arguments follow what the user asked for, and
the environment is handed over in variables, of which the empty ones are left as they are. What the
program writes is passed on, and how it ends decides how the command ends.
-/

namespace TestScout

/-- How tests are to be run. -/
structure TestOptions where
  verbose : Bool
  short : Bool
  race : Bool
  /-- The pattern of the names of tests to run. -/
  pattern : Option String
  /-- The directory into which the tests are built instead of being run. -/
  compileDir : Option Path
  /-- Arguments handed over as they are. -/
  extra : List String
deriving DecidableEq, Repr, Inhabited

/-- A program with its arguments, the directory it runs in, and the variables set for it. -/
structure TestCommand where
  program : String
  arguments : List String
  dir : Path
  bindings : List (String × String)
deriving DecidableEq, Repr

/-- What a program has written, and how it ended. -/
structure Ending where
  output : String
  errors : String
  status : ExitStatus
deriving DecidableEq, Repr

namespace TestCommand

/-- An argument where it is wanted. -/
def when (wanted : Bool) (arguments : List String) : List String :=
  if wanted then arguments else []

/-- The arguments for the tests in a directory. -/
def argumentsFor (options : TestOptions) (dir : Path) : List String :=
  ["test"]
    ++ (match options.compileDir with
      | some out => ["-c", "-o", (out.child (ArtifactName.ofPath dir.text)).text]
      | none => [])
    ++ when options.verbose ["-v"]
    ++ when options.short ["-short"]
    ++ when options.race ["-race"]
    ++ (match options.pattern with
      | some pattern => ["-run", pattern]
      | none => [])
    ++ options.extra

/-- The name of the experiment that a tag stands for. -/
def experimentOf (tag : String) : String :=
  match after? BuildEnv.experimentStart.toList tag.toList with
  | some name => String.ofList name
  | none => tag

/-- The variables that hand an environment over. -/
def variablesFor (env : BuildEnv) : List (String × String) :=
  [("GOOS", env.goos), ("GOARCH", env.goarch), ("CGO_ENABLED", if env.cgo then "1" else "0")]
    ++ (if env.goroot = "" then [] else [("GOROOT", env.goroot)])
    ++ (if env.gopath = "" then [] else [("GOPATH", env.gopath)])
    ++ (if env.buildTags.isEmpty then [] else [("GOFLAGS", "-tags=" ++ env.buildTags.render)])
    ++ (if env.toolTags.isEmpty then []
      else [("GOEXPERIMENT", ",".intercalate (env.toolTags.tags.map experimentOf))])

/-- The command that runs the tests in a directory. -/
def of (program : String) (options : TestOptions) (env : BuildEnv) (dir : Path) : TestCommand where
  program := program
  arguments := argumentsFor options dir
  dir := dir
  bindings := variablesFor env

/-- The variables that the program sees, the ones set for it before the inherited ones. -/
def allVariables (command : TestCommand) (inherited : List (String × String)) :
    List (String × String) :=
  command.bindings ++ inherited

/-- The value of a variable for the program. -/
def valueOf (command : TestCommand) (inherited : List (String × String)) (name : String) :
    Option String :=
  (command.allVariables inherited).lookup name

end TestCommand

end TestScout
