import TestScout.Shell.Word

/-!
# Shell scripts

A script is a row of commands, each a row of words with redirections. A command behind `&&` or `||`
depends on how the one before it ended, any other is always carried out.
-/

namespace TestScout.Shell

/-! ## 1. Scripts -/

/-- Where something is written. -/
inductive Target where
  | output
  | errors
  | nowhere
deriving DecidableEq, Repr

/-- Where the two outputs of a command go. -/
structure Targets where
  output : Target
  errors : Target
deriving DecidableEq, Repr

/-- The outputs of a command that redirects nothing. -/
def Targets.plain : Targets := ⟨.output, .errors⟩

/-- When a command is carried out. -/
inductive Joint where
  | always
  /-- After a success. -/
  | onSuccess
  /-- After a failure. -/
  | onFailure
deriving DecidableEq, Repr

/-- A command of a script. -/
structure Command where
  /-- The line that it starts on, counted from one. -/
  line : Nat
  joint : Joint
  words : List Word
  targets : Targets
deriving DecidableEq, Repr

/-- A script: its commands, up to a place that cannot be read. -/
structure Script where
  commands : List Command
  isWhole : Bool
deriving DecidableEq, Repr

/-! ## 2. Reading -/

/-- The outputs with one of them going elsewhere. -/
def Targets.redirect (targets : Targets) (number : Char) (target : Target) : Targets :=
  if number = '2' then { targets with errors := target } else { targets with output := target }

/-- The text without the file name at its start. -/
def skipName (text : List Char) : List Char :=
  (text.dropWhile isSpaceOrTab).dropWhile fun c => !endsWord c

/-- The redirection at the start of a text: of the output with this number, behind the `>`. What
    goes to a file is not kept. -/
def readTarget (targets : Targets) (number : Char) (text : List Char) : Targets × List Char :=
  match text with
  | '&' :: '1' :: rest => (targets.redirect number targets.output, rest)
  | '&' :: '2' :: rest => (targets.redirect number targets.errors, rest)
  | '>' :: rest => (targets.redirect number .nowhere, skipName rest)
  | rest => (targets.redirect number .nowhere, skipName rest)

/-- The words and redirections of one command, and the rest; none if a word cannot be read. The
    number is at least the length of the text. -/
def readCommand : Nat → List Char → Targets → Option (List Word × Targets × List Char)
  | 0, text, targets => some ([], targets, text)
  | _, [], targets => some ([], targets, [])
  | n + 1, c :: rest, targets =>
    match c, rest with
    | ' ', _ | '\t', _ => readCommand n rest targets
    | '#', _ => readCommand n (rest.dropWhile (· ≠ '\n')) targets
    | '>', _ =>
      let (targets, rest) := readTarget targets '1' rest
      readCommand n rest targets
    | '1', '>' :: rest | '2', '>' :: rest =>
      let (targets, rest) := readTarget targets c rest
      readCommand n rest targets
    | _, _ =>
      if endsWord c then some ([], targets, c :: rest)
      else
        match readWord (n + 1) .outside (c :: rest) with
        | none => none
        | some (word, rest) =>
          (readCommand n rest targets).map fun (words, left) => (word :: words, left)

/-- What stands between two commands, and the rest; none if it is not understood. -/
def readJoint (text : List Char) : Option (Joint × List Char) :=
  match text with
  | '&' :: '&' :: rest => some (.onSuccess, rest)
  | '|' :: '|' :: rest => some (.onFailure, rest)
  | ';' :: rest | '\n' :: rest => some (.always, rest)
  | _ => none

/-- The commands of a text that is the end of a script with that many lines; the first command has
    the given joint. The number of steps is at least the length of the text. -/
def readCommands (lines : Nat) : Nat → Joint → List Char → Script
  | 0, _, text => ⟨[], text.isEmpty⟩
  | _, _, [] => ⟨[], true⟩
  | n + 1, joint, text =>
    match readCommand text.length text .plain with
    | none => ⟨[], false⟩
    | some (words, targets, rest) =>
      let line := lines - text.count '\n'
      let (first, next) :=
        if words = [] then (([] : List Command), joint)
        else ([⟨line, joint, words, targets⟩], .always)
      match rest with
      | [] => ⟨first, true⟩
      | _ :: _ =>
        match readJoint rest with
        | none => ⟨first, false⟩
        | some (.always, rest) => prepend first (readCommands lines n next rest)
        | some (joint, rest) => prepend first (readCommands lines n joint rest)
where
  /-- Commands in front of a script. -/
  prepend (first : List Command) (script : Script) : Script :=
    { script with commands := first ++ script.commands }

/-- The script that a text writes. -/
def Script.read (text : List Char) : Script :=
  readCommands (text.count '\n' + 1) (text.length + 1) .always text

end TestScout.Shell
