import TestScout.FileTree.Basic
import TestScout.Shell.Run
import TestScout.TestCommand
import TestScout.Text.Utf8

/-!
# Running tests

How test commands are carried out where nothing but the tree is at hand. A command runs in its
directory. The programs that it may name are the few that live here: a shell, for scripts of the
tree, and three programs that only answer. Every other program is missing.
-/

namespace TestScout

open Shell

namespace TestCommand

/-! ## 1. Programs -/

/-- A program that can be run. -/
inductive Program where
  | echo
  | success
  | failure
  | shell
deriving DecidableEq, Repr

/-- The directories in which programs live. -/
def programDirs : List String := ["/bin/", "/usr/bin/"]

/-- The programs by name. -/
def programs : List (String × Program) :=
  [("echo", .echo), ("true", .success), ("false", .failure), ("sh", .shell)]

/-- The name of a program without the directory in which programs live. -/
def baseOf (program : String) : String :=
  match programDirs.findSome? fun dir => after? dir.toList program.toList with
  | some name => String.ofList name
  | none => program

/-- The program of a name. A name with slashes is a path from the directory, and what is found there
    may not be run. -/
def programOf (tree : FileTree) (command : TestCommand) : Except FileError Program :=
  match programs.lookup (baseOf command.program) with
  | some program => .ok program
  | none =>
    if '/' ∈ command.program.toList then
      match tree.stat (command.dir.join ⟨command.program⟩) with
      | .error cause => .error cause
      | .ok _ => .error .notPermitted
    else .error .notFound

/-! ## 2. Running -/

/-- Runs a script of the directory. -/
def runScript (tree : FileTree) (command : TestCommand) (inherited : List (String × String))
    (name : String) (arguments : List String) : Ending :=
  match tree.bytes (command.dir.join ⟨name⟩) with
  | .error .isDirectory => ⟨"", "", .code 0⟩
  | .error _ => ⟨"", "sh: 0: cannot open " ++ name ++ ": No such file\n", .code 2⟩
  | .ok bytes =>
    let scene : Scene := ⟨(tree.canonical command.dir).text, name, arguments⟩
    (Script.read (Utf8.decodeLossy bytes).toList).run scene (command.allVariables inherited)

/-- Runs a program. -/
def runProgram (tree : FileTree) (command : TestCommand) (inherited : List (String × String)) :
    Program → Ending
  | .echo => ⟨" ".intercalate command.arguments ++ "\n", "", .code 0⟩
  | .success => ⟨"", "", .code 0⟩
  | .failure => ⟨"", "", .code 1⟩
  | .shell =>
    match command.arguments with
    | [] => ⟨"", "", .code 0⟩
    | name :: arguments => runScript tree command inherited name arguments

/-- Runs a command under inherited variables. A directory that is none is found out before a program
    that is none. -/
def run (tree : FileTree) (command : TestCommand) (inherited : List (String × String)) :
    Except FileError Ending :=
  match tree.stat command.dir with
  | .error cause => .error cause
  | .ok .directory => (command.programOf tree).map (command.runProgram tree inherited)
  | .ok _ => .error .notDirectory

end TestCommand

end TestScout
