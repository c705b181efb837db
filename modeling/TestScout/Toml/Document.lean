import TestScout.Toml.Scalar
import TestScout.Toml.Table
import TestScout.Toml.Text

/-!
# Documents of TOML

A document is a list of lines, each a header, a key with a value, or nothing, with a comment behind
it if wanted. Only lists, and texts in three quotes, go over several lines.
-/

namespace TestScout.Toml

/-! ## 1. Space -/

/-- Space inside a line. -/
def isSpace (c : Char) : Bool :=
  c == ' ' || c == '\t'

/-- The text behind a comment, if one starts here; none if the comment holds a control character. -/
def skipComment (text : List Char) : Option (List Char) :=
  match text with
  | '#' :: rest =>
    let body := rest.takeWhile (· ≠ '\n')
    let body := if body.getLast? = some '\r' then body.dropLast else body
    if body.all isPlain then some (rest.drop body.length) else none
  | _ => some text

/-- The text behind a line break; the end of the text counts as one. -/
def lineBreak? : Reader Unit
  | [] => some ((), [])
  | '\n' :: rest => some ((), rest)
  | '\r' :: '\n' :: rest => some ((), rest)
  | _ => none

/-- The text behind space, comments and line breaks, of which there are at most as many as the
    number says. -/
def skipLines : Nat → List Char → Option (List Char)
  | 0, text => some text
  | limit + 1, text =>
    match skipComment (text.dropWhile isSpace) with
    | none => none
    | some [] => some []
    | some rest =>
      match lineBreak? rest with
      | some ((), behind) => skipLines limit behind
      | none => some rest

/-! ## 2. Keys -/

/-- A character of a key without quotes. -/
def isKeyChar (c : Char) : Bool :=
  c.isAlphanum || c == '_' || c == '-'

/-- Reads one part of a key. -/
def readKeyPart (text : List Char) : Option (String × List Char) :=
  match text with
  | '"' :: _ => (readLine text).map fun read => (String.ofList read.1, read.2)
  | '\'' :: _ => (readLine text).map fun read => (String.ofList read.1, read.2)
  | _ =>
    match text.takeWhile isKeyChar with
    | [] => none
    | name => some (String.ofList name, text.dropWhile isKeyChar)

/-- Reads a key of at most as many parts as the number says, points between them. -/
def readKey : Nat → Reader (List String)
  | 0, _ => none
  | limit + 1, text =>
    match readKeyPart (text.dropWhile isSpace) with
    | none => none
    | some (part, rest) =>
      match rest.dropWhile isSpace with
      | '.' :: behind => (readKey limit behind).map fun read => (part :: read.1, read.2)
      | behind => some ([part], behind)

/-! ## 3. Values -/

/-- Whether a character ends a value without quotes. -/
def endsScalar (c : Char) : Bool :=
  isSpace c || c == '\n' || c == '\r' || c == ',' || c == ']' || c == '\x7d' || c == '#'

/-- Reads a value without quotes. A date may have a space behind it, and a time behind that. -/
def readScalar (text : List Char) : Option (Value × List Char) :=
  let first := text.takeWhile (!endsScalar ·)
  let rest := text.dropWhile (!endsScalar ·)
  match date? first, rest with
  | some [], ' ' :: c :: behind =>
    if c.isDigit then
      let second := (c :: behind).takeWhile (!endsScalar ·)
      (scalar? (first ++ ' ' :: second)).map fun value =>
        (value, (c :: behind).dropWhile (!endsScalar ·))
    else (scalar? first).map fun value => (value, rest)
  | _, _ => (scalar? first).map fun value => (value, rest)

/-- Reads the items of a list behind its opening bracket, or behind a comma, with a reader of
    values. The number bounds how many there are. -/
def readItems (readValue : Reader Value) (found : List Value) : Nat → Reader Value
  | 0, _ => none
  | limit + 1, text =>
    match skipLines text.length text with
    | none => none
    | some (']' :: rest) => some (.list found.reverse, rest)
    | some start =>
      match readValue start with
      | none => none
      | some (value, behind) =>
        match skipLines behind.length behind with
        | some (',' :: rest) => readItems readValue (value :: found) limit rest
        | some (']' :: rest) => some (.list (value :: found).reverse, rest)
        | _ => none

/-- Reads a key and a value with a reader of values, and defines the value under the key. -/
def readMember (readValue : Reader Value) (members : Members) : Reader Members := fun text =>
  match readKey text.length text with
  | some (key, '=' :: rest) =>
    match readValue (rest.dropWhile isSpace) with
    | none => none
    | some (value, behind) =>
      (define value key members).map fun members => (members, behind.dropWhile isSpace)
  | _ => none

/-- Reads the members of a table in braces, at least one, with a reader of values. -/
def readMembers (readValue : Reader Value) (members : Members) : Nat → Reader Value
  | 0, _ => none
  | limit + 1, text =>
    match readMember readValue members text with
    | some (members, ',' :: rest) => readMembers readValue members limit rest
    | some (_, '\x7d' :: rest) => some (.table, rest)
    | _ => none

/-- Reads a value in which values nest at most as deep as the number says. -/
def readValue : Nat → Reader Value
  | 0, _ => none
  | depth + 1, text =>
    match text with
    | '"' :: _ => (readText text).map fun read => (.text (String.ofList read.1), read.2)
    | '\'' :: _ => (readText text).map fun read => (.text (String.ofList read.1), read.2)
    | '[' :: rest => readItems (readValue depth) [] text.length rest
    | '\x7b' :: rest =>
      match rest.dropWhile isSpace with
      | '\x7d' :: behind => some (.table, behind)
      | _ => readMembers (readValue depth) [] text.length rest
    | _ => readScalar text

/-! ## 4. Lines -/

/-- A document as far as it is read: its members, and the path of the table that is open. -/
structure State where
  members : Members
  path : List String

/-- The text behind the brackets that close a header. -/
def closeHeader (many : Bool) (text : List Char) : Option (List Char) :=
  match text with
  | ']' :: ']' :: behind => if many then some behind else none
  | ']' :: behind => if many then none else some behind
  | _ => none

/-- Reads a header behind its first bracket. -/
def readHeader (state : State) (text : List Char) : Option (State × List Char) :=
  let many := text.head? = some '['
  let inside := if many then text.drop 1 else text
  match readKey text.length inside with
  | none => none
  | some (path, rest) =>
    match closeHeader many rest, openPath many path state.members with
    | some behind, some members => some (⟨members, path⟩, behind)
    | _, _ => none

/-- Reads a line with a header or a key. -/
def readStatement (state : State) (text : List Char) : Option (State × List Char) :=
  match text with
  | '[' :: rest => readHeader state rest
  | _ =>
    match readKey text.length text with
    | some (key, '=' :: rest) =>
      match readValue text.length (rest.dropWhile isSpace) with
      | none => none
      | some (value, behind) =>
        (defineIn key value state.path state.members).map fun members =>
          ({ state with members }, behind)
    | _ => none

/-- Reads at most as many lines as the number says. -/
def readLines : Nat → State → List Char → Option State
  | 0, state, _ => some state
  | limit + 1, state, text =>
    match skipLines text.length text with
    | none => none
    | some [] => some state
    | some start =>
      match readStatement state start with
      | none => none
      | some (state, rest) =>
        match skipComment (rest.dropWhile isSpace) with
        | none => none
        | some behind =>
          match lineBreak? behind with
          | none => none
          | some ((), next) => readLines limit state next

/-- The values that a text gives to the keys of its outermost table. -/
def read (text : List Char) : Option (List (String × Value)) :=
  (readLines (text.length + 1) ⟨[], []⟩ text).map fun state =>
    state.members.map fun member => (member.1, member.2.toValue)

end TestScout.Toml
