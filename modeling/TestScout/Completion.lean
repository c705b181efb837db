import TestScout.CommandLine.Argument
import TestScout.Failure

/-!
# Completing command lines

A shell completes command lines of the program after it has read a script, which is expected in a
file of its own.
-/

namespace TestScout.CompletionShell

/-- The name of the file that the script for a shell is expected in. -/
def fileName : CompletionShell → String
  | .bash => programName ++ ".bash"
  | .zsh => "_" ++ programName
  | .fish => programName ++ ".fish"
  | .powerShell => "_" ++ programName ++ ".ps1"
  | .elvish => programName ++ ".elv"

/-- The path of the script in a directory. -/
def filePath (shell : CompletionShell) (dir : Path) : Path :=
  dir.child shell.fileName

/-- The tree with the script for a shell in a directory, which is made where it is missing. -/
def write (tree : FileTree) (shell : CompletionShell) (script : String) (dir : Path) :
    Except Failure FileTree :=
  match if dir.text = "" then .ok tree else tree.createDirectories dir with
  | .error cause => .error (.completionDirNotMade dir cause)
  | .ok tree =>
    match tree.write (shell.filePath dir) script.toUTF8 with
    | .error cause => .error (.completionNotWritten cause)
    | .ok tree => .ok tree

end TestScout.CompletionShell
