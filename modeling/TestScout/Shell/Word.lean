import TestScout.Text.Blank
import TestScout.Text.Decimal

/-!
# Words of a shell script

A word is written as characters, quotations and parameters. Its meaning is a list of fields: a blank
in the value of a parameter cuts a field, unless the parameter stands in a quotation; a quotation
makes a field even of nothing.
-/

namespace TestScout.Shell

/-! ## 1. Words -/

/-- What a `$` in a word asks for. -/
inductive Parameter where
  | named (name : String)
  /-- The name of the script. -/
  | script
  /-- An argument of the script, counted from one. -/
  | argument (number : Nat)
  /-- All arguments, as one text where they are joined. -/
  | arguments (joined : Bool)
  /-- How many arguments there are. -/
  | count
  /-- The status of the command before. -/
  | status
  /-- The number of the process. -/
  | process
deriving DecidableEq, Repr

/-- What stands in for a value that is missing, or empty if that counts as missing. -/
structure Substitute where
  text : List Char
  forEmpty : Bool
deriving DecidableEq, Repr

/-- A part of a word. -/
inductive Part where
  /-- A character that stands for itself. -/
  | char (c : Char)
  /-- The start of a quotation. -/
  | hold
  | value (parameter : Parameter) (substitute : Option Substitute) (quoted : Bool)
deriving DecidableEq, Repr

/-- A word as it is written. -/
abbrev Word := List Part

/-! ## 2. Reading a word -/

/-- A character that a name may start with. -/
def isNameStart (c : Char) : Bool :=
  c.isAlpha || c == '_'

/-- A character of a name. -/
def isNameChar (c : Char) : Bool :=
  isNameStart c || c.isDigit

/-- The characters that are parameters of their own. -/
def signs : List (Char × Parameter) :=
  [('*', .arguments true), ('@', .arguments false), ('#', .count), ('?', .status), ('$', .process)]

/-- The parameter of a run of digits. -/
def numbered (number : Nat) : Parameter :=
  if number = 0 then .script else .argument number

/-- The parameter that a text in braces starts with, and what stands behind its name. -/
def parameterIn (text : List Char) : Option (Parameter × List Char) :=
  match text with
  | [] => none
  | c :: rest =>
    if isNameStart c then
      some (.named (String.ofList (text.takeWhile isNameChar)), text.dropWhile isNameChar)
    else if c.isDigit then
      (Decimal.digits? (text.takeWhile Char.isDigit)).map fun number =>
        (numbered number, text.dropWhile Char.isDigit)
    else (signs.lookup c).map fun parameter => (parameter, rest)

/-- What stands behind the name of a parameter in braces. -/
def substituteOf (text : List Char) : Option (Option Substitute) :=
  match text with
  | [] => some none
  | '-' :: rest => some (some ⟨rest, false⟩)
  | ':' :: '-' :: rest => some (some ⟨rest, true⟩)
  | _ => none

/-- The parameter behind a `$`, and the rest; none if the text in braces is no parameter. A `$`
    before anything else stands for itself. -/
def readValue (quoted : Bool) (text : List Char) : Option (Part × List Char) :=
  match text with
  | '{' :: rest =>
    match rest.dropWhile (· ≠ '}') with
    | [] => none
    | _ :: behind =>
      match parameterIn (rest.takeWhile (· ≠ '}')) with
      | none => none
      | some (parameter, left) =>
        (substituteOf left).map fun substitute => (.value parameter substitute quoted, behind)
  | c :: rest =>
    if isNameStart c then
      some (.value (.named (String.ofList (text.takeWhile isNameChar))) none quoted,
        text.dropWhile isNameChar)
    else if c.isDigit then some (.value (numbered (c.toNat - '0'.toNat)) none quoted, rest)
    else
      match signs.lookup c with
      | some parameter => some (.value parameter none quoted, rest)
      | none => some (.char '$', text)
  | [] => some (.char '$', [])

/-- Where the reader of a word stands. -/
inductive Quotation where
  | outside
  /-- Between single quotes, where nothing has a meaning. -/
  | literal
  /-- Between double quotes, where parameters have a meaning. -/
  | loose
deriving DecidableEq, Repr

/-- A character that ends a word outside quotations. -/
def endsWord (c : Char) : Bool :=
  c ∈ [' ', '\t', '\n', ';', '&', '|', '<', '>', '(', ')']

/-- The characters that a backslash takes the meaning of in a loose quotation. -/
def takesMeaning (c : Char) : Bool :=
  c ∈ ['$', '"', '\\', '\x60']

/-- A part in front of what has been read behind it. -/
def before (part : Part) (read : Option (Word × List Char)) : Option (Word × List Char) :=
  read.map fun (word, rest) => (part :: word, rest)

/-- The word at the start of a text and the rest; none if a quotation does not end. The number is at
    least the length of the text. -/
def readWord : Nat → Quotation → List Char → Option (Word × List Char)
  | 0, quotation, text => if quotation = .outside then some ([], text) else none
  | _, .outside, [] => some ([], [])
  | _, _, [] => none
  | n + 1, .outside, c :: rest =>
    if endsWord c then some ([], c :: rest)
    else if c = '\'' then before .hold (readWord n .literal rest)
    else if c = '"' then before .hold (readWord n .loose rest)
    else if c = '$' then readBehind n .outside rest
    else if c = '\\' then
      match rest with
      | [] => some ([.char c], [])
      | '\n' :: rest => readWord n .outside rest
      | next :: rest => before (.char next) (readWord n .outside rest)
    else before (.char c) (readWord n .outside rest)
  | n + 1, .literal, c :: rest =>
    if c = '\'' then readWord n .outside rest
    else before (.char c) (readWord n .literal rest)
  | n + 1, .loose, c :: rest =>
    if c = '"' then readWord n .outside rest
    else if c = '$' then readBehind n .loose rest
    else if c = '\\' then
      match rest with
      | [] => none
      | '\n' :: rest => readWord n .loose rest
      | next :: rest =>
        if takesMeaning next then before (.char next) (readWord n .loose rest)
        else before (.char c) (before (.char next) (readWord n .loose rest))
    else before (.char c) (readWord n .loose rest)
where
  /-- Reads on behind a `$`. -/
  readBehind (n : Nat) (quotation : Quotation) (text : List Char) : Option (Word × List Char) :=
    match readValue (quotation = .loose) text with
    | none => none
    | some (part, rest) => before part (readWord n quotation rest)

/-! ## 3. Fields -/

/-- What a word turns into before it is cut into fields. -/
inductive Atom where
  | char (c : Char)
  /-- There is a field here, even if no character follows. -/
  | hold
  /-- A field ends here. -/
  | cut
deriving DecidableEq, Repr

/-- A text in which blanks cut. -/
def loosely (text : List Char) : List Atom :=
  text.map fun c => if c ∈ [' ', '\t', '\n'] then .cut else .char c

/-- A text in which nothing cuts. -/
def firmly (text : List Char) : List Atom :=
  text.map .char

/-- The fields of a row of atoms, in front of which a field may have begun. -/
def cutFields : Option (List Char) → List Atom → List (List Char)
  | none, [] => []
  | some field, [] => [field]
  | field, .hold :: rest => cutFields (some (field.getD [])) rest
  | field, .char c :: rest => cutFields (some (field.getD [] ++ [c])) rest
  | none, .cut :: rest => cutFields none rest
  | some field, .cut :: rest => field :: cutFields none rest

/-- The fields of a row of atoms. -/
def fields (atoms : List Atom) : List String :=
  (cutFields none atoms).map String.ofList

end TestScout.Shell
