/-!
# Quoted texts of TOML

A text in double quotes has escapes, one in single quotes has none; in three quotes of either kind
it may go over several lines. A line break right behind three opening quotes is not part of it, and
up to two quotes may stand before the closing three.
-/

namespace TestScout.Toml

/-- What a reader reads, and the text behind it. -/
abbrev Reader (α : Type) := List Char → Option (α × List Char)

/-! ## 1. Characters -/

/-- Whether the character may stand in a text on one line, or in a comment. -/
def isPlain (c : Char) : Bool :=
  c = '\t' || (0x20 ≤ c.toNat && c.toNat ≠ 0x7F)

/-- The value of a hexadecimal digit. -/
def hexValue? (c : Char) : Option Nat :=
  if '0' ≤ c ∧ c ≤ '9' then some (c.toNat - '0'.toNat)
  else if 'a' ≤ c ∧ c ≤ 'f' then some (c.toNat - 'a'.toNat + 10)
  else if 'A' ≤ c ∧ c ≤ 'F' then some (c.toNat - 'A'.toNat + 10)
  else none

/-- The character that a backslash and a letter stand for. -/
def escaped? (c : Char) : Option Char :=
  [('b', '\x08'), ('t', '\t'), ('n', '\n'), ('f', '\x0c'), ('r', '\r'), ('"', '"'),
    ('\\', '\\')].lookup c

/-- The character with a code. -/
def characterOf? (code : Nat) : Option Char :=
  if code.isValidChar then some (Char.ofNat code) else none

/-! ## 2. Double quotes -/

/-- Where a reader of a text stands. -/
inductive Place where
  | plain
  /-- Behind a backslash. -/
  | escape
  /-- In a code with so many digits left. -/
  | code (left value : Nat)
  /-- In the white space behind a backslash that ends a line, the line break being found or not. -/
  | skip (broken : Bool)

/-- The place behind the letter of an escape, if the escape is not over with it. -/
def Place.ofLetter? (c : Char) : Option Place :=
  if c = 'u' then some (.code 4 0) else if c = 'U' then some (.code 8 0) else none

/-- One digit of a code: the character, if it was the last digit, or the place behind it. -/
def codeStep (left value : Nat) (c : Char) : Option (Char ⊕ Place) :=
  (hexValue? c).bind fun digit =>
    let value := 16 * value + digit
    if left = 1 then (characterOf? value).map .inl else some (.inr (.code (left - 1) value))

/-- Reads a text in double quotes behind the opening one, the characters read so far being given in
    reverse. -/
def readBasic (found : List Char) : Place → Reader (List Char)
  | .plain, '"' :: rest => some (found.reverse, rest)
  | .plain, '\\' :: rest => readBasic found .escape rest
  | .plain, c :: rest => if isPlain c then readBasic (c :: found) .plain rest else none
  | .escape, c :: rest =>
    match Place.ofLetter? c with
    | some place => readBasic found place rest
    | none =>
      match escaped? c with
      | some read => readBasic (read :: found) .plain rest
      | none => none
  | .code left value, c :: rest =>
    match codeStep left value c with
    | some (.inl read) => readBasic (read :: found) .plain rest
    | some (.inr place) => readBasic found place rest
    | none => none
  | .skip _, _ => none
  | _, [] => none

/-! ## 3. Several lines -/

/-- What closes a text in three quotes: up to two quotes that belong to it, and the text behind. -/
def closing (quote : Char) (found rest : List Char) : List Char × List Char :=
  let extra := ((rest.take 2).takeWhile (· = quote)).length
  ((List.replicate extra quote ++ found).reverse, rest.drop extra)

/-- Reads a text in three double quotes behind the opening ones. -/
def readBasicLines (found : List Char) : Place → Reader (List Char)
  | .plain, '"' :: '"' :: '"' :: rest => some (closing '"' found rest)
  | .skip true, '"' :: '"' :: '"' :: rest => some (closing '"' found rest)
  | .plain, '\\' :: rest => readBasicLines found .escape rest
  | .skip true, '\\' :: rest => readBasicLines found .escape rest
  | .skip broken, c :: rest =>
    if c = ' ' ∨ c = '\t' ∨ c = '\r' then readBasicLines found (.skip broken) rest
    else if c = '\n' then readBasicLines found (.skip true) rest
    else if broken ∧ isPlain c then readBasicLines (c :: found) .plain rest
    else none
  | .plain, '\r' :: '\n' :: rest => readBasicLines ('\n' :: found) .plain rest
  | .plain, c :: rest =>
    if c = '\n' ∨ isPlain c then readBasicLines (c :: found) .plain rest else none
  | .escape, c :: rest =>
    if c = ' ' ∨ c = '\t' ∨ c = '\r' then readBasicLines found (.skip false) rest
    else if c = '\n' then readBasicLines found (.skip true) rest
    else
      match Place.ofLetter? c with
      | some place => readBasicLines found place rest
      | none =>
        match escaped? c with
        | some read => readBasicLines (read :: found) .plain rest
        | none => none
  | .code left value, c :: rest =>
    match codeStep left value c with
    | some (.inl read) => readBasicLines (read :: found) .plain rest
    | some (.inr place) => readBasicLines found place rest
    | none => none
  | _, [] => none

/-- Reads a text in three single quotes behind the opening ones. -/
def readLiteralLines (found : List Char) : Reader (List Char)
  | '\'' :: '\'' :: '\'' :: rest => some (closing '\'' found rest)
  | '\r' :: '\n' :: rest => readLiteralLines ('\n' :: found) rest
  | c :: rest => if c = '\n' ∨ isPlain c then readLiteralLines (c :: found) rest else none
  | [] => none

/-- Reads a text in single quotes behind the opening one. -/
def readLiteral (found : List Char) : Reader (List Char)
  | '\'' :: rest => some (found.reverse, rest)
  | c :: rest => if isPlain c then readLiteral (c :: found) rest else none
  | [] => none

/-! ## 4. Any text -/

/-- A text without a line break at its start. -/
def dropBreak : List Char → List Char
  | '\n' :: rest => rest
  | '\r' :: '\n' :: rest => rest
  | text => text

/-- Reads a text on one line, quotes included. -/
def readLine : Reader (List Char)
  | '"' :: rest => readBasic [] .plain rest
  | '\'' :: rest => readLiteral [] rest
  | _ => none

/-- Reads a text, quotes included. -/
def readText : Reader (List Char)
  | '"' :: '"' :: '"' :: rest => readBasicLines [] .plain (dropBreak rest)
  | '\'' :: '\'' :: '\'' :: rest => readLiteralLines [] (dropBreak rest)
  | text => readLine text

end TestScout.Toml
