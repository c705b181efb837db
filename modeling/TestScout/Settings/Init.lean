import TestScout.Failure
import TestScout.Settings.Load

/-!
# A first settings file

A user may ask for a file with the standard settings. A file that is there already is kept unless
the user wants it replaced.
-/

namespace TestScout.Settings

/-- The text of a settings file. Tags are not written, since the standard settings have none. -/
def render (settings : Settings) : String :=
  "tags = []\n" ++
  "go_command = \"" ++ settings.goCommand ++ "\"\n" ++
  "go_minor = " ++ toString settings.goMinor ++ "\n" ++
  "log_level = \"" ++ settings.logLevel ++ "\"\n"

/-- The path of the settings file in a directory. -/
def filePath (dir : Path) : Path :=
  dir.child newFileName

/-- The tree with a settings file in a directory; `force` replaces one that is there. -/
def init (tree : FileTree) (dir : Path) (force : Bool) : Except Failure FileTree :=
  let path := filePath dir
  if tree.pathExists path ∧ force = false then .error (.settingsExist path)
  else
    match tree.write path standard.render.toUTF8 with
    | .error cause => .error (.settingsNotWritten cause)
    | .ok tree => .ok tree

end TestScout.Settings
