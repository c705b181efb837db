import TestScout.Answers
import TestScout.CommandLine.Reader
import TestScout.Completion
import TestScout.Settings.Init
import TestScout.TestCommand

/-!
# The program

A run of the program takes the words of a command line, the variables and a file tree. It leaves
what it wrote, whether it failed, and the tree, which only two commands change. What the program
uses and does not hold itself are its surroundings: the parser of sources, the host, the test
commands that it starts, and the scripts for shells.
-/

namespace TestScout

/-! ## 1. Surroundings and outcomes -/

/-- What the program uses and does not hold itself. -/
structure Surroundings where
  parser : GoSource.Parser
  host : Host
  /-- How a test command ends that is started under inherited variables, if it can be started. -/
  launch : FileTree → TestCommand → List (String × String) → Except FileError Ending
  /-- The script by which a shell completes command lines. -/
  script : CompletionShell → String

/-- What a command leaves. -/
structure Outcome where
  output : String
  errors : String
  failure : Option Failure
  tree : FileTree

namespace Outcome

/-- A failure that leaves nothing else. -/
def failed (tree : FileTree) (failure : Failure) : Outcome := ⟨"", "", some failure, tree⟩

/-- The outcome of a command that only answers. -/
def ofAnswer (tree : FileTree) : Except Failure String → Outcome
  | .ok output => ⟨output, "", none, tree⟩
  | .error failure => failed tree failure

/-- The outcome of a command that changes the tree and tells so. -/
def ofChange (tree : FileTree) (quiet : Bool) (note : String) : Except Failure FileTree → Outcome
  | .ok tree => ⟨"", if quiet then "" else note, none, tree⟩
  | .error failure => failed tree failure

end Outcome

/-- What a command line leads to. -/
inductive Answer where
  /-- The command line asks for no command. -/
  | usage (notice : UsageNotice)
  | done (outcome : Outcome)

namespace Program

/-! ## 2. Commands that answer -/

/-- One line with a value. -/
def line (value : Json) : String := value.render ++ "\n"

/-- An argument as a clean absolute path. -/
def absolute (tree : FileTree) (path : Path) : Except Failure Path :=
  match Path.absolute? tree.currentPath path with
  | some path => .ok path
  | none => .error (.unresolved path)

/-- The tests of a directory, or of the directory of a file in an environment that builds it. -/
def list (around : Surroundings) (tree : FileTree) (base env : BuildEnv) (path : Path) :
    Except Failure DiscoveryReport :=
  let discover := Discovery.discover around.parser around.host tree
  match absolute tree path with
  | .error failure => .error failure
  | .ok path =>
    if tree.isDirectory path then discover env base path
    else
      match env.resolveFor tree path with
      | .error failure => .error failure
      | .ok env => discover env base (path.parent.getD ⟨"."⟩)

/-- What has to be set to build a file. -/
def difference (host : Host) (tree : FileTree) (base env : BuildEnv) (file : Path) :
    Except Failure EnvDifference :=
  match absolute tree file with
  | .error failure => .error failure
  | .ok file => (env.resolveFor tree file).map (.between host base)

/-- A text in a colour, and in bold where that is wanted. -/
def painted (code : Nat) (bold : Bool) (text : String) : String :=
  let coloured := "\x1b[" ++ toString code ++ "m" ++ text ++ "\x1b[39m"
  if bold then "\x1b[1m" ++ coloured ++ "\x1b[0m" else coloured

/-- A difference, one variable a line; names are cyan and bold, values green. -/
def differenceText (colourless : Bool) (difference : EnvDifference) : String :=
  String.join (difference.entries.map fun (name, value) =>
    if colourless then name ++ "=" ++ value ++ "\n"
    else painted 36 true name ++ "=" ++ painted 32 false value ++ "\n")

/-! ## 3. Running the tests -/

/-- The failure of a program that has ended, if it is one. -/
def failureOf (program : String) : ExitStatus → Option Failure
  | .code 0 => none
  | status => some (.testsFailed program status)

/-- Runs the tests in a directory. -/
def runTests (around : Surroundings) (tree : FileTree) (bindings : List (String × String))
    (program : String) (env : BuildEnv) (dir : Path) (options : TestOptions) : Outcome :=
  match absolute tree dir with
  | .error failure => .failed tree failure
  | .ok dir =>
    match around.launch tree (TestCommand.of program options env dir) bindings with
    | .error cause => .failed tree (.notStarted program cause)
    | .ok ending => ⟨ending.output, ending.errors, failureOf program ending.status, tree⟩

/-! ## 4. All commands -/

/-- Carries out a command in an environment. -/
def performIn (around : Surroundings) (tree : FileTree) (bindings : List (String × String))
    (settings : Settings) (base env : BuildEnv) (invocation : Invocation) : Outcome :=
  match invocation.request with
  | .list path =>
    .ofAnswer tree
      ((list around tree base env (path.getD ⟨"."⟩)).map fun report => line report.toJson)
  | .env file form =>
    .ofAnswer tree ((difference around.host tree base env file).map fun difference =>
      match form with
      | .json => line difference.toJson
      | .text => differenceText invocation.colourless difference)
  | .function query =>
    .ofAnswer tree
      ((lookupFunction around.parser tree env query).map fun answer => line answer.toJson)
  | .run dir options => runTests around tree bindings settings.goCommand env dir options
  | .escape paths =>
    .ofAnswer tree (.ok (String.join (paths.map fun path => ArtifactName.ofPath path ++ "\n")))
  | .init dir force =>
    .ofChange tree invocation.quiet
      ("Created config file at " ++ (Settings.filePath dir).text ++ "\n")
      (Settings.init tree dir force)
  | .completions shell dir toOutput =>
    if toOutput then .ofAnswer tree (.ok (around.script shell))
    else
      match dir with
      | none => .failed tree .noOutput
      | some dir =>
        .ofChange tree invocation.quiet
          ("Wrote completion to " ++ (shell.filePath dir).text ++ "\n")
          (shell.write tree (around.script shell) dir)

/-- Whether a command works in an environment. The others do not look at the flags for it. -/
def needsEnv : Request → Bool
  | .list _ | .env .. | .function _ | .run .. => true
  | .escape _ | .init .. | .completions .. => false

/-- Carries out a command. The settings are loaded first, whatever the command. -/
def perform (around : Surroundings) (tree : FileTree) (bindings : List (String × String))
    (invocation : Invocation) : Outcome :=
  match Settings.load tree bindings with
  | .error cause => .failed tree (.settings cause)
  | .ok settings =>
    let base := BuildEnv.ofVariables around.host (bindings.lookup ·) settings
    if needsEnv invocation.request then
      match invocation.flags.apply tree base with
      | .error failure => .failed tree failure
      | .ok env => performIn around tree bindings settings base env invocation
    else performIn around tree bindings settings base base invocation

/-- Runs the program. -/
def run (around : Surroundings) (tree : FileTree) (bindings : List (String × String))
    (words : List String) : Answer :=
  match CommandLine.read words with
  | .error notice => .usage notice
  | .ok invocation => .done (perform around tree bindings invocation)

end Program

end TestScout
