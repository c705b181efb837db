import TestScout.Constraint.Printer
import TestScout.Constraint.Reader
import TestScout.FileTree.Listing
import TestScout.GoSource.Parser
import TestScout.PositionQuery
import TestScout.Settings.Load
import TestScout.SourceText
import TestScout.Text.Lines

/-!
# Failures

Everything that can go wrong between a request and its answer, by cause. A failure holds what the
reader of its message needs to know, and `message` is the only place where it is put into words.
-/

namespace TestScout

/-- Why no environment builds a file. -/
inductive MatchFailure where
  /-- The path ends in no name. -/
  | notFileName
  /-- The header cannot be read. -/
  | badConstraint (cause : ConstraintError)
  /-- No environment satisfies the constraint. -/
  | unsatisfied (constraint : Constraint)
  /-- The file needs cgo. -/
  | needsCgo
  /-- The file name asks for no platform that there is. -/
  | everyPlatformExcluded
deriving DecidableEq, Repr

/-- Why a directory is no package. -/
inductive ImportFailure where
  /-- The path is no directory. -/
  | notFound (dir : Path)
  /-- There is no source in it. -/
  | noSources (dir : Path)
  /-- The environment leaves no source of it. -/
  | allExcluded (dir : Path)
  /-- Its sources name two packages. -/
  | severalPackages (dir : Path) (first firstFile second secondFile : String)
  /-- A source names no package. -/
  | noPackageClause (path : Path) (found : String)
deriving DecidableEq, Repr

/-- How a program ended. -/
inductive ExitStatus where
  | code (number : Nat)
  | signal (number : Nat)
deriving DecidableEq, Repr

/-- Why a request has no answer. -/
inductive Failure where
  | query (cause : QueryError)
  /-- Unsaved contents that are not of the agreed form. -/
  | overlayForm
  /-- The file that should hold unsaved contents has no text. -/
  | overlayUnreadable (path : Path) (cause : ContentError)
  | importing (cause : ImportFailure)
  /-- A source has no tree. -/
  | unparsed (path : Path) (cause : GoSource.ParseError)
  /-- A source is not clean. -/
  | malformed (path : Path) (error : GoSource.SyntaxError)
  | invalidLine (cause : LineError)
  | noFunction (path : Path) (line column : Nat)
  | noMatch (path : Path) (cause : MatchFailure)
  | badConstraint (path : Path) (cause : ConstraintError)
  | noProjectRoot (dir : Path)
  | unreadable (path : Path) (cause : ReadError)
  | unlistable (dir : Path) (cause : ListError)
  | notStarted (program : String) (cause : FileError)
  | testsFailed (program : String) (status : ExitStatus)
  /-- The empty path names nothing. -/
  | emptyPath
  /-- An argument of a command names nothing. -/
  | unresolved (argument : Path)
  | settings (cause : SettingsError)
  | settingsExist (path : Path)
  | settingsNotWritten (cause : FileError)
  | completionDirNotMade (dir : Path) (cause : FileError)
  | completionNotWritten (cause : FileError)
  /-- A command was not told where to write. -/
  | noOutput
deriving DecidableEq, Repr

/-- The wording of a failure to match. -/
def MatchFailure.message : MatchFailure → String
  | .notFileName => "not a file name"
  | .badConstraint cause => "invalid build constraint: " ++ cause.message
  | .unsatisfied constraint =>
    "no build environment satisfies constraint: " ++ constraint.toText
  | .needsCgo => "file requires cgo"
  | .everyPlatformExcluded => "file name excludes every known platform"

/-- The wording of a failure to import. -/
def ImportFailure.message : ImportFailure → String
  | .notFound dir => "cannot find package in " ++ dir.text
  | .noSources dir => "no buildable Go source files in " ++ dir.text
  | .allExcluded dir => "build constraints exclude all Go files in " ++ dir.text
  | .severalPackages dir first firstFile second secondFile =>
    "found packages " ++ first ++ " (" ++ firstFile ++ ") and " ++ second ++ " (" ++ secondFile
      ++ ") in " ++ dir.text
  | .noPackageClause path found => path.text ++ ": expected 'package', found " ++ found

/-- The names of the signals that end a program, by number. -/
def ExitStatus.signalNames : List (Nat × String) :=
  [(1, "SIGHUP"), (2, "SIGINT"), (3, "SIGQUIT"), (4, "SIGILL"), (5, "SIGTRAP"), (6, "SIGABRT"),
    (7, "SIGBUS"), (8, "SIGFPE"), (9, "SIGKILL"), (10, "SIGUSR1"), (11, "SIGSEGV"),
    (12, "SIGUSR2"), (13, "SIGPIPE"), (14, "SIGALRM"), (15, "SIGTERM")]

/-- The wording of an exit status. -/
def ExitStatus.message : ExitStatus → String
  | .code number => "exit status: " ++ toString number
  | .signal number =>
    "signal: " ++ toString number ++
      match signalNames.lookup number with
      | some name => " (" ++ name ++ ")"
      | none => ""

/-- What is wrong with the empty path. -/
def emptyPathMessage : String := "cannot make an empty path absolute"

/-- The wording of a failure. -/
def Failure.message : Failure → String
  | .query cause => cause.message
  | .overlayForm => "invalid overlay"
  | .overlayUnreadable path cause =>
    "Failed to read overlay file " ++ path.text ++ ": " ++ cause.message
  | .importing cause => cause.message
  | .unparsed path cause => path.text ++ ": parse failed: " ++ cause.reason
  | .malformed path error =>
    path.text ++ ":" ++ toString error.line ++ ":" ++ toString error.column ++ ": " ++ error.message
  | .invalidLine cause => cause.message
  | .noFunction path line column =>
    "no containing function at: " ++ path.text ++ ":" ++ toString line ++ ":" ++ toString column
  | .noMatch path cause => path.text ++ ": " ++ cause.message
  | .badConstraint path cause => path.text ++ ": invalid build constraint: " ++ cause.message
  | .noProjectRoot dir => "no project root found for " ++ dir.text
  | .unreadable path cause => path.text ++ ": " ++ cause.message
  | .unlistable dir cause =>
    dir.text ++ ": Failed to list " ++ dir.text ++ ": " ++ cause.message
  | .notStarted program cause => "failed to run " ++ program ++ ": " ++ cause.message
  | .testsFailed program status => program ++ " exited with " ++ status.message
  | .emptyPath => ": " ++ emptyPathMessage
  | .unresolved argument => "Failed to resolve " ++ argument.text ++ ": " ++ emptyPathMessage
  | .settings cause => cause.message
  | .settingsExist path =>
    "Config file already exists at " ++ path.text ++ ". Use --force to overwrite."
  | .settingsNotWritten cause => "Failed to write config file: " ++ cause.message
  | .completionDirNotMade dir cause => "create " ++ dir.text ++ ": " ++ cause.message
  | .completionNotWritten cause => "generate completion file: " ++ cause.message
  | .noOutput => "--out-dir is required unless --stdout is set"

end TestScout
