import TestScout.FileTree.Basic
import TestScout.Settings.Basic
import TestScout.Text.Split
import TestScout.Text.Utf8
import TestScout.Toml.Document

/-!
# Loading settings

Settings come from a file in the current directory and from variables, which win over the file. A
setting takes a value of another kind where there is one way to read it: a number or a flag is a
text, and a text of digits is a number.
-/

namespace TestScout

open Toml (Value)

/-- Why there are no settings. -/
inductive SettingsError where
  /-- The file cannot be read. -/
  | notLoaded
  /-- A setting has a value of the wrong kind. -/
  | notUnderstood
deriving DecidableEq, Repr

/-- The wording of an error. -/
def SettingsError.message : SettingsError → String
  | .notLoaded => "Failed to load configuration"
  | .notUnderstood => "Failed to parse configuration"

namespace Settings

/-! ## 1. Values of settings -/

/-- The text that a value stands for. -/
def textOf : Value → Option String
  | .text value => some value
  | .moment text => some text
  | .whole value => some (toString value)
  | .real value => some value.render
  | .flag value => some (if value then "true" else "false")
  | .list _ => none
  | .table => none

/-- The texts that a list stands for. -/
def textsOf : Value → Option (List String)
  | .list items => items.mapM textOf
  | _ => none

/-- The words that stand for one and for zero. -/
def countWords : List (String × Nat) :=
  [("true", 1), ("on", 1), ("yes", 1), ("false", 0), ("off", 0), ("no", 0)]

/-- The largest count. -/
def countMax : Nat := Nat.pow 2 32 - 1

/-- The count that a text stands for. -/
def countOfText (text : String) : Option Nat :=
  (countWords.lookup (String.ofList (text.toList.map Char.toLower))).or
    (Decimal.read? Decimal.wordMax text.toList)

/-- The count that a value stands for. -/
def countOf (value : Value) : Option Nat :=
  (match value with
    | .text text => countOfText text
    | .moment text => countOfText text
    | .whole value => if 0 ≤ value then some value.toNat else none
    | .real value => some value.toNat
    | .flag value => some (if value then 1 else 0)
    | .list _ => none
    | .table => none).filter (· ≤ countMax)

/-- A setting, if it is given; none if its value is of the wrong kind. -/
def setting {α : Type} (convert : Value → Option α) (standard : α) (given : Option Value) :
    Option α :=
  match given with
  | none => some standard
  | some value => convert value

/-- The settings that values by key ask for. -/
def ofValues (value? : String → Option Value) : Option Settings := do
  let tags ← setting textsOf standard.tags (value? "tags")
  let goCommand ← setting textOf standard.goCommand (value? "go_command")
  let goMinor ← setting countOf standard.goMinor (value? "go_minor")
  let logLevel ← setting textOf standard.logLevel (value? "log_level")
  return { tags, goCommand, goMinor, logLevel }

/-! ## 2. Variables -/

/-- The start of the names of variables that hold settings, case apart. -/
def variableStart : String := "gotest_util_"

/-- The key that a variable sets. -/
def keyOfVariable (name : String) : Option String :=
  (after? variableStart.toList (name.toList.map Char.toLower)).map String.ofList

/-- The whole number of 64 bits that a text writes. -/
def wholeOf (text : List Char) : Option Value :=
  let signed := Binary64.splitSign text
  match Decimal.digits? signed.2 with
  | none => none
  | some n =>
    if signed.1 then if n ≤ Toml.wholeMax + 1 then some (.whole (-(n : Int))) else none
    else if n ≤ Toml.wholeMax then some (.whole n)
    else none

/-- The flag that a text names. -/
def flagOf (text : List Char) : Option Value :=
  match String.ofList (text.map Char.toLower) with
  | "true" => some (.flag true)
  | "false" => some (.flag false)
  | _ => none

/-- The value that a variable gives to a key. Only tags are a list. -/
def valueOfVariable (key text : String) : Value :=
  ((flagOf text.toList).or
    ((wholeOf text.toList).or ((Binary64.read? text.toList).map .real))).getD
      (if key = "tags" then
        .list ((text.toList.splitOn ',').map fun piece => .text (String.ofList piece))
      else .text text)

/-- The values that variables give to keys; of two for one key the later one counts. -/
def valuesOfVariables (bindings : List (String × String)) : List (String × Value) :=
  (bindings.filterMap fun given =>
    (keyOfVariable given.1).map fun key => (key, valueOfVariable key given.2)).reverse

/-! ## 3. Loading -/

/-- The names of the file, the one that is preferred first. -/
def fileNames : List String := ["gotest-util.toml", ".gotest-util.toml"]

/-- The name of the file that is written for a user. -/
def newFileName : String := "gotest-util.toml"

/-- The text of a file: a mark at its start is dropped, and what is not UTF-8 is replaced. -/
def fileText (bytes : ByteArray) : List Char :=
  let mark : List UInt8 := [0xEF, 0xBB, 0xBF]
  let text := if mark.isPrefixOf bytes.toList then bytes.extract 3 bytes.size else bytes
  (Utf8.decodeLossy text).toList

/-- The values in the file, if there is one. -/
def valuesOfFile (tree : FileTree) : Option (List (String × Value)) :=
  match fileNames.find? fun name => tree.pathExists ⟨name⟩ with
  | none => some []
  | some name =>
    match tree.bytes ⟨name⟩ with
    | .error _ => none
    | .ok bytes => Toml.read (fileText bytes)

/-- The settings in the current directory under the given variables. -/
def load (tree : FileTree) (bindings : List (String × String)) :
    Except SettingsError Settings :=
  match valuesOfFile tree with
  | none => .error .notLoaded
  | some ofFile =>
    match ofValues ((valuesOfVariables bindings ++ ofFile).lookup ·) with
    | none => .error .notUnderstood
    | some settings => .ok settings

end Settings

end TestScout
