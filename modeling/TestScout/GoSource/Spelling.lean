import TestScout.GoSource.Token

/-!
# How tokens are spelled

For every kind of token a function counts the characters that belong to it at the start of a text.
The longest spelling counts. A string that is not closed ends at its line's end, and what else is
not closed reaches to the end of the source; both are stray.
-/

namespace TestScout.GoSource.Spelling

/-! ## 1. Names -/

/-- A character that a name starts with. -/
def isNameStart (c : Char) : Bool :=
  isAlphabetic c || c == '_'

/-- A character of a name. -/
def isNamePart (c : Char) : Bool :=
  isAlphanumeric c || c == '_'

/-! ## 2. Numbers -/

/-- A digit of base two. -/
def isBinary (c : Char) : Bool :=
  c == '0' || c == '1'

/-- A digit of base eight. -/
def isOctal (c : Char) : Bool :=
  '0' ≤ c && c ≤ '7'

/-- A digit of base sixteen. -/
def isHex (c : Char) : Bool :=
  c.isDigit || ('a' ≤ c && c ≤ 'f') || ('A' ≤ c && c ≤ 'F')

/-- Digits behind a digit, single underscores between them allowed. -/
def moreDigits (isDigit : Char → Bool) : List Char → Nat
  | '_' :: c :: rest => if isDigit c then 2 + moreDigits isDigit rest else 0
  | c :: rest => if isDigit c then 1 + moreDigits isDigit rest else 0
  | [] => 0

/-- Digits, single underscores between them allowed. -/
def digits (isDigit : Char → Bool) : List Char → Nat
  | c :: rest => if isDigit c then 1 + moreDigits isDigit rest else 0
  | [] => 0

/-- Digits that an underscore may precede. -/
def digitsBehindMark (isDigit : Char → Bool) : List Char → Nat
  | '_' :: rest => if digits isDigit rest = 0 then 0 else 1 + digits isDigit rest
  | text => digits isDigit text

/-- A point and the digits behind it, which may be missing. -/
def fraction (isDigit : Char → Bool) : List Char → Nat
  | '.' :: rest => 1 + digits isDigit rest
  | _ => 0

/-- An exponent behind one of the given letters. -/
def exponent (letters : List Char) : List Char → Nat
  | c :: '+' :: rest => signed c 2 rest
  | c :: '-' :: rest => signed c 2 rest
  | c :: rest => signed c 1 rest
  | [] => 0
where
  /-- The exponent whose letter and sign take `before` characters. -/
  signed (letter : Char) (before : Nat) (rest : List Char) : Nat :=
    if letters.contains letter ∧ digits Char.isDigit rest ≠ 0 then
      before + digits Char.isDigit rest
    else 0

/-- A number of base sixteen, given by what stands behind `0x`. -/
def hexNumber (rest : List Char) : Nat :=
  let whole := digitsBehindMark isHex rest
  let point := fraction isHex (rest.drop whole)
  let power := exponent ['p', 'P'] (rest.drop (whole + point))
  if power ≠ 0 ∧ (whole ≠ 0 ∨ 1 < point) then 2 + whole + point + power
  else if whole ≠ 0 then 2 + whole
  else 1

/-- A number with a letter for its base, given by what stands behind the letter. -/
def baseNumber (isDigit : Char → Bool) (rest : List Char) : Nat :=
  if digitsBehindMark isDigit rest = 0 then 1 else 2 + digitsBehindMark isDigit rest

/-- A number without a letter for its base. A whole number that starts with zero has base eight
    unless it is imaginary. -/
def plainNumber (text : List Char) : Nat :=
  let whole := digits Char.isDigit text
  let point := fraction Char.isDigit (text.drop whole)
  let power := exponent ['e', 'E'] (text.drop (whole + point))
  if point ≠ 0 ∨ power ≠ 0 then whole + point + power
  else if text.head? = some '0' ∧ (text.drop whole).head? ≠ some 'i' then
    1 + digitsBehindMark isOctal (text.drop 1)
  else whole

/-- A number. -/
def number (text : List Char) : Nat :=
  let length := match text with
    | '0' :: 'x' :: rest => hexNumber rest
    | '0' :: 'X' :: rest => hexNumber rest
    | '0' :: 'b' :: rest => baseNumber isBinary rest
    | '0' :: 'B' :: rest => baseNumber isBinary rest
    | '0' :: 'o' :: rest => baseNumber isOctal rest
    | '0' :: 'O' :: rest => baseNumber isOctal rest
    | _ => plainNumber text
  if (text.drop length).head? = some 'i' then length + 1 else length

/-! ## 3. Quoted text -/

/-- An escape that gives a code in digits, given by its letter and what stands behind it. -/
def codeEscape (letter : Char) (rest : List Char) : Nat :=
  let ofHex (count : Nat) : Nat :=
    if (rest.take count).length = count ∧ (rest.take count).all isHex then 2 + count else 0
  if letter = 'x' then ofHex 2
  else if letter = 'u' then ofHex 4
  else if letter = 'U' then ofHex 8
  else if isOctal letter ∧ (rest.take 2).length = 2 ∧ (rest.take 2).all isOctal then 4
  else 0

/-- The one character, plain or escaped, behind the opening quote of a character. -/
def oneCharacter : List Char → Nat
  | '\\' :: c :: rest =>
    if ['a', 'b', 'f', 'n', 'r', 't', 'v', '\\', '\'', '"'].contains c then 2
    else codeEscape c rest
  | c :: _ => if c = '\'' ∨ c = '\n' then 0 else 1
  | [] => 0

/-- A character in quotes, given by what stands behind the opening quote. -/
def character? (rest : List Char) : Option Nat :=
  let inner := oneCharacter rest
  if inner ≠ 0 ∧ (rest.drop inner).head? = some '\'' then some (inner + 2) else none

/-- The characters up to the closing quote of a string, `count` of them being read. -/
def string? (count : Nat) : List Char → Option Nat
  | [] => none
  | '"' :: _ => some (count + 1)
  | '\n' :: _ => none
  | '\\' :: c :: rest => if c = '\n' then none else string? (count + 2) rest
  | _ :: rest => string? (count + 1) rest

/-- The characters up to the closing quote of a raw string, `count` of them being read. -/
def rawString? (count : Nat) : List Char → Option Nat
  | [] => none
  | c :: rest => if c = '\x60' then some (count + 1) else rawString? (count + 1) rest

/-! ## 4. Comments and marks -/

/-- The characters up to the end of a block comment, `count` of them being read. -/
def blockComment? (count : Nat) : List Char → Option Nat
  | [] => none
  | '*' :: '/' :: _ => some (count + 2)
  | _ :: rest => blockComment? (count + 1) rest

/-- The characters up to the end of the line. -/
def line (text : List Char) : Nat :=
  (text.takeWhile (· ≠ '\n')).length

/-- The mark at the start of a text. -/
def mark? (text : List Char) : Option String :=
  marks.find? fun mark => mark.toList.isPrefixOf text

/-! ## 5. Any token -/

/-- The kind of the token that starts with a character, and how many of the characters behind that
    one belong to it. -/
def token (c : Char) (rest : List Char) : Kind × Nat :=
  if isNameStart c then (.name, (rest.takeWhile isNamePart).length)
  else if c.isDigit ∨ (c = '.' ∧ (rest.head?.any Char.isDigit)) then
    (.literal, number (c :: rest) - 1)
  else if c = '\'' then
    match character? rest with
    | some length => (.literal, length - 1)
    | none => (.stray, 0)
  else if c = '"' then
    match string? 0 rest with
    | some length => (.string, length)
    | none => (.stray, line rest)
  else if c = '\x60' then
    match rawString? 0 rest with
    | some length => (.string, length)
    | none => (.stray, rest.length)
  else
    match c, rest with
    | '/', '/' :: _ => (.comment, line rest)
    | '/', '*' :: inside =>
      match blockComment? 1 inside with
      | some length => (.comment, length)
      | none => (.stray, rest.length)
    | _, _ =>
      match mark? (c :: rest) with
      | some mark => (.mark, mark.length - 1)
      | none => (.stray, 0)

end TestScout.GoSource.Spelling
