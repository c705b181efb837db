/-!
# The text of comments

A documentation text is what comments say without their markers: line by line, blank at no line's
end, never two empty lines in a row, none at the start, and with one line break at the end. Comments
that speak to a tool are left out.
-/

namespace TestScout.GoSource.DocText

/-! ## 1. Comments -/

/-- A lower-case letter or a digit. -/
def isToolChar (c : Char) : Bool :=
  c.isLower || c.isDigit

/-- Whether the text starts like `tool:directive`: letters and digits, a colon, and at least one
    more of them. -/
def namesTool (text : List Char) : Bool :=
  match text.dropWhile isToolChar with
  | ':' :: c :: _ => text.head? ≠ some ':' && isToolChar c
  | _ => false

/-- The words that begin a directive without a colon. -/
def directiveWords : List (List Char) :=
  [['l', 'i', 'n', 'e', ' '], ['e', 'x', 't', 'e', 'r', 'n', ' '],
    ['e', 'x', 'p', 'o', 'r', 't', ' ']]

/-- Whether a line comment, given by what stands behind its slashes, speaks to a tool. -/
def isDirective (text : List Char) : Bool :=
  directiveWords.any (·.isPrefixOf text) || namesTool text

/-- What a block comment says, given by what stands behind its opening. -/
def blockBody (text : List Char) : List Char :=
  match text.reverse with
  | '/' :: '*' :: body => body.reverse
  | _ => text

/-- What a comment says; nothing for a directive. -/
def body? (comment : List Char) : Option (List Char) :=
  match comment with
  | '/' :: '/' :: ' ' :: rest => some rest
  | '/' :: '/' :: rest => if isDirective rest then none else some rest
  | '/' :: '*' :: rest => some (blockBody rest)
  | _ => some comment

/-! ## 2. Lines -/

/-- White space that does not count at the end of a line. -/
def isTrailing (c : Char) : Bool :=
  c == ' ' || c == '\t' || c == '\n' || c == '\x0b' || c == '\x0c' || c == '\r'

/-- A line without white space at its end. -/
def trimLine (line : List Char) : List Char :=
  (line.reverse.dropWhile isTrailing).reverse

/-- All lines of comments. -/
def rawLines (comments : List (List Char)) : List (List Char) :=
  (comments.filterMap body?).flatMap fun body => (body.splitOn '\n').map trimLine

/-- Lines without an empty one at the start or behind another empty one; `blank` says that an empty
    line, or nothing, stands before them. -/
def squeeze (blank : Bool) : List (List Char) → List (List Char)
  | [] => []
  | [] :: rest => if blank then squeeze true rest else [] :: squeeze true rest
  | line :: rest => line :: squeeze false rest

/-- Lines with an empty one at the end, unless there are none. -/
def close (lines : List (List Char)) : List (List Char) :=
  match lines.getLast? with
  | none => []
  | some [] => lines
  | some _ => lines ++ [[]]

/-- What comments say. -/
def ofComments (comments : List (List Char)) : List Char :=
  ['\n'].intercalate (close (squeeze true (rawLines comments)))

end TestScout.GoSource.DocText
