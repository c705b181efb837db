import TestScout.GoSource.Reader
import TestScout.Program
import TestScout.TestRun

/-!
# What the program runs with

The surroundings that make the program one that can be run: a reader of sources, a host, a way to
carry out test commands, and scripts that offer the names of the commands and of their flags.
-/

namespace TestScout

namespace CompletionShell

/-- The words that are offered. -/
def offered : List String :=
  Verb.words.map (·.1) ++
    (CommandLine.topLevel.flags ++ Verb.words.flatMap fun entry => CommandLine.ownFlags entry.2).map
      ("--" ++ ·.name)

/-- The script for a shell. -/
def script (shell : CompletionShell) : String :=
  let words := " ".intercalate offered
  match shell with
  | .bash => "complete -W \"" ++ words ++ "\" " ++ programName ++ "\n"
  | .zsh => "#compdef " ++ programName ++ "\ncompadd -- " ++ words ++ "\n"
  | .fish => "complete -c " ++ programName ++ " -f -a \"" ++ words ++ "\"\n"
  | .powerShell =>
    "Register-ArgumentCompleter -Native -CommandName " ++ programName ++
      " -ScriptBlock \x7b '" ++ words ++ "' -split ' ' \x7d\n"
  | .elvish =>
    "set edit:completion:arg-completer[" ++ programName ++ "] = \x7b|@args| put " ++ words ++
      " \x7d\n"

end CompletionShell

/-- The surroundings that the program runs with. -/
def Surroundings.built : Surroundings where
  parser := GoSource.reader
  host := .built
  launch tree command inherited := command.run tree inherited
  script := CompletionShell.script

end TestScout
