import TestScout.Constraint.Basic
import TestScout.Text.Blank
import TestScout.Text.Quoted

/-!
# Reading constraints

The text of a constraint is an `||` of `&&` of negated atoms, an atom being a tag or a constraint
in parentheses, with spaces and tabs before each token and at the end. Chains are grouped to the
left. A tag is a run of ASCII letters, digits, `_` and `.`, as long as it can be.
-/

namespace TestScout

/-! ## 1. Errors -/

/-- What is wrong with a constraint of a file. -/
inductive ConstraintError where
  /-- Something stands behind a complete constraint. -/
  | trailing (rest : List Char)
  /-- A parenthesis is not closed. -/
  | missingClose
  /-- The text ends where a constraint is needed. -/
  | endOfText
  /-- A character that starts no constraint. -/
  | unexpected (c : Char)
  /-- The reader has used up the steps it may take. -/
  | tooDeep
  /-- A term of a `+build` line that is no tag, negated or not. -/
  | invalidTerm (term : List Char)
  /-- A `+build` line without terms. -/
  | emptyLine
  /-- A second `go:build` line. -/
  | repeatedLine
deriving DecidableEq, Repr

namespace ConstraintError

/-- A character as its first byte is shown, each byte standing for the character of that number. -/
def leadingByte (c : Char) : Char :=
  let n := c.toNat
  if n < 0x80 then c
  else if n < 0x800 then Char.ofNat (0xC0 + n / 0x40)
  else if n < 0x10000 then Char.ofNat (0xE0 + n / 0x1000)
  else Char.ofNat (0xF0 + n / 0x40000)

/-- The wording of an error. -/
def message : ConstraintError → String
  | .trailing rest => "unexpected " ++ Quoted.text rest
  | .missingClose => "missing )"
  | .endOfText => "unexpected end of expression"
  | .unexpected c => "unexpected " ++ Quoted.char (leadingByte c)
  | .tooDeep => "expression too deep"
  | .invalidTerm term => "invalid +build term " ++ Quoted.text term
  | .emptyLine => "empty +build line"
  | .repeatedLine => "multiple //go:build comments"

end ConstraintError

namespace Constraint

/-! ## 2. Tokens -/

/-- A character of a tag. -/
def isTagChar (c : Char) : Bool :=
  c.isAlphanum || c == '_' || c == '.'

/-- A text that can stand as a tag. -/
def isTag (text : List Char) : Bool :=
  !text.isEmpty && text.all isTagChar

/-- The text without spaces and tabs in front. -/
def skipSpace (text : List Char) : List Char :=
  text.dropWhile isSpaceOrTab

/-- What stands behind the token, if it is the next one. -/
def eat (token : List Char) (text : List Char) : Option (List Char) :=
  token.isPrefixOf? (skipSpace text)

/-! ## 3. The reader -/

/-- What the reader is to read next. -/
inductive Goal where
  /-- Constraints joined by `||`. -/
  | disjunction
  /-- The rest of such a chain behind `x`. -/
  | moreDisjuncts (x : Constraint)
  /-- Constraints joined by `&&`. -/
  | conjunction
  /-- The rest of such a chain behind `x`. -/
  | moreConjuncts (x : Constraint)
  /-- An atom behind any number of `!`. -/
  | negation
  /-- A tag, or a constraint in parentheses. -/
  | atom

/-- Reads what the goal asks for and gives it with the rest of the text, taking at most as many
    steps inside each other as the number says. -/
def readGoal : Nat → Goal → List Char → Except ConstraintError (Constraint × List Char)
  | 0, _, _ => .error .tooDeep
  | n + 1, .disjunction, text =>
    match readGoal n .conjunction text with
    | .error e => .error e
    | .ok (x, rest) => readGoal n (.moreDisjuncts x) rest
  | n + 1, .moreDisjuncts x, text =>
    match eat ['|', '|'] text with
    | none => .ok (x, text)
    | some rest =>
      match readGoal n .conjunction rest with
      | .error e => .error e
      | .ok (y, rest) => readGoal n (.moreDisjuncts (.or x y)) rest
  | n + 1, .conjunction, text =>
    match readGoal n .negation text with
    | .error e => .error e
    | .ok (x, rest) => readGoal n (.moreConjuncts x) rest
  | n + 1, .moreConjuncts x, text =>
    match eat ['&', '&'] text with
    | none => .ok (x, text)
    | some rest =>
      match readGoal n .negation rest with
      | .error e => .error e
      | .ok (y, rest) => readGoal n (.moreConjuncts (.and x y)) rest
  | n + 1, .negation, text =>
    match eat ['!'] text with
    | none => readGoal n .atom text
    | some rest =>
      match readGoal n .negation rest with
      | .error e => .error e
      | .ok (x, rest) => .ok (.not x, rest)
  | n + 1, .atom, text =>
    match eat ['('] text with
    | some rest =>
      match readGoal n .disjunction rest with
      | .error e => .error e
      | .ok (x, rest) =>
        match eat [')'] rest with
        | some rest => .ok (x, rest)
        | none => .error .missingClose
    | none =>
      let text := skipSpace text
      match text.takeWhile isTagChar, text with
      | [], [] => .error .endOfText
      | [], c :: _ => .error (.unexpected c)
      | name, _ => .ok (.tag (String.ofList name), text.dropWhile isTagChar)

/-- A number of steps that is enough for a text. -/
def stepsFor (text : List Char) : Nat :=
  8 * (text.length + 1)

/-- The constraint that a text writes. -/
def read (text : List Char) : Except ConstraintError Constraint :=
  match readGoal (stepsFor text) .disjunction text with
  | .error e => .error e
  | .ok (x, rest) =>
    match skipSpace rest with
    | [] => .ok x
    | left => .error (.trailing left)

end Constraint

end TestScout
