/-!
# JSON tokens

A strict reader of the part of JSON that objects of texts need: punctuation and texts, with white
space between them. Inside a text no control character stands for itself, and two escapes that are
halves of one character stand together or not at all.
-/

namespace TestScout.Json

/-! ## 1. Escapes -/

/-- The pieces of JSON that are read here. -/
inductive Token where
  | openBrace
  | closeBrace
  | openBracket
  | closeBracket
  | colon
  | comma
  | text (value : String)
deriving DecidableEq, Repr

/-- The value of a hexadecimal digit. -/
def hexDigit? (c : Char) : Option Nat :=
  if '0' ≤ c ∧ c ≤ '9' then some (c.toNat - '0'.toNat)
  else if 'a' ≤ c ∧ c ≤ 'f' then some (c.toNat - 'a'.toNat + 10)
  else if 'A' ≤ c ∧ c ≤ 'F' then some (c.toNat - 'A'.toNat + 10)
  else none

/-- The value of four hexadecimal digits. -/
def hexUnit? (a b c d : Char) : Option Nat :=
  [a, b, c, d].foldlM (fun n digit => (hexDigit? digit).map (16 * n + ·)) 0

/-- The character that a backslash and a letter stand for. -/
def shortEscape? (c : Char) : Option Char :=
  [('"', '"'), ('\\', '\\'), ('/', '/'), ('b', '\x08'), ('f', '\x0c'), ('n', '\n'), ('r', '\r'),
    ('t', '\t')].lookup c

/-- What an escaped unit adds to a text, of which the first half of a character may be read. -/
inductive UnitRead where
  | char (c : Char)
  | firstHalf (unit : Nat)

/-- Reads an escaped unit behind the given first half, if there is one. -/
def readUnit (half : Option Nat) (unit : Nat) : Option UnitRead :=
  match half with
  | some first =>
    if 0xDC00 ≤ unit ∧ unit ≤ 0xDFFF then
      some (.char (Char.ofNat (0x10000 + (first - 0xD800) * 0x400 + (unit - 0xDC00))))
    else none
  | none =>
    if 0xDC00 ≤ unit ∧ unit ≤ 0xDFFF then none
    else if 0xD800 ≤ unit ∧ unit ≤ 0xDBFF then some (.firstHalf unit)
    else some (.char (Char.ofNat unit))

/-! ## 2. Tokens -/

/-- Where the reader stands. -/
inductive Place where
  /-- Between tokens. -/
  | between
  /-- In a text, whose characters are given in reverse; the first half of a character may wait for
      the second. -/
  | inText (reversed : List Char) (half : Option Nat)

/-- The punctuation that a character is. -/
def punctuation? (c : Char) : Option Token :=
  [('\x7b', .openBrace), ('\x7d', .closeBrace), ('[', .openBracket), (']', .closeBracket),
    (':', .colon), (',', .comma)].lookup c

/-- White space of JSON. -/
def isSpace (c : Char) : Bool :=
  c == ' ' || c == '\t' || c == '\n' || c == '\r'

/-- The tokens of a text behind those already read, which are given in reverse. -/
def tokensFrom (found : List Token) : Place → List Char → Option (List Token)
  | .between, [] => some found.reverse
  | .inText _ _, [] => none
  | .between, c :: rest =>
    if isSpace c then tokensFrom found .between rest
    else if c = '"' then tokensFrom found (.inText [] none) rest
    else
      match punctuation? c with
      | some token => tokensFrom (token :: found) .between rest
      | none => none
  | .inText reversed half, '\\' :: 'u' :: a :: b :: c :: d :: rest =>
    match (hexUnit? a b c d).bind (readUnit half) with
    | some (.char read) => tokensFrom found (.inText (read :: reversed) none) rest
    | some (.firstHalf unit) => tokensFrom found (.inText reversed (some unit)) rest
    | none => none
  | .inText _ (some _), _ :: _ => none
  | .inText reversed none, '\\' :: c :: rest =>
    match shortEscape? c with
    | some read => tokensFrom found (.inText (read :: reversed) none) rest
    | none => none
  | .inText reversed none, c :: rest =>
    if c = '"' then
      tokensFrom (.text (String.ofList reversed.reverse) :: found) .between rest
    else if c.toNat < 0x20 ∨ c = '\\' then none
    else tokensFrom found (.inText (c :: reversed) none) rest

/-- The tokens of a text, none if it holds anything else. -/
def tokens (text : List Char) : Option (List Token) :=
  tokensFrom [] .between text

end TestScout.Json
