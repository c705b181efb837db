import TestScout.Text.Blank
import TestScout.Text.Letter
import TestScout.Text.Split

/-!
# Lines of a file's header

What stands before the package clause of a source is read line by line, each line without the white
space around it. A line is a comment of some kind, or it is code; a block comment that stays open
swallows lines until one closes it.
-/

namespace TestScout.Header

/-! ## 1. Kinds of lines -/

/-- What a line outside block comments is. -/
inductive Line where
  /-- Blank, or a comment without meaning for the build. -/
  | idle
  /-- A `go:build` comment with the text behind the marker. -/
  | goBuild (expression : List Char)
  /-- A `+build` comment with the text behind the marker. -/
  | plusBuild (body : List Char)
  /-- A block comment that stays open. -/
  | opensBlock
  /-- Anything else, without block comments before it. -/
  | code (text : List Char)
deriving DecidableEq, Repr

/-- Whether the text is empty or goes on with a space or a tab, so that a marker before it is a
    whole word. -/
def endsWord : List Char → Bool
  | [] => true
  | c :: _ => isSpaceOrTab c

/-- The kind of a `//` comment, given by what stands behind the slashes. -/
def lineOfComment (rest : List Char) : Line :=
  match after? ['g', 'o', ':', 'b', 'u', 'i', 'l', 'd'] rest with
  | some expression => if endsWord expression then .goBuild expression else .idle
  | none =>
    match after? ['+', 'b', 'u', 'i', 'l', 'd'] (trimStart rest) with
    | some body => if endsWord body then .plusBuild body else .idle
    | none => .idle

/-- The kind of a line that starts outside block comments. -/
def lineOf (line : List Char) : Line :=
  match line with
  | [] => .idle
  | '/' :: '/' :: rest => lineOfComment rest
  | '/' :: '*' :: rest =>
    match splitAtFirst ['*', '/'] rest with
    | none => .opensBlock
    | some (_, behind) =>
      match trim behind with
      | [] => .idle
      | text => .code text
  | text => .code text

/-- The kind of a line that starts inside a block comment; none if the comment stays open. -/
def lineInBlock (line : List Char) : Option Line :=
  (splitAtFirst ['*', '/'] line).map fun cut => lineOf (trim cut.2)

/-! ## 2. The package clause -/

/-- A character of a package name. -/
def isNameChar (c : Char) : Bool :=
  isAlphanumeric c || c == '_'

/-- The name that a package clause declares. -/
def packageName (text : List Char) : Option String :=
  match after? ['p', 'a', 'c', 'k', 'a', 'g', 'e'] text with
  | none => none
  | some [] => none
  | some rest@(c :: _) =>
    if isSpaceOrTab c then
      match (trimStart rest).takeWhile isNameChar with
      | [] => none
      | name => some (String.ofList name)
    else none

/-- The first word of a text. -/
def firstWord (text : List Char) : String :=
  String.ofList ((words text).head?.getD [])

/-! ## 3. Imports -/

/-- Whether an import names the pseudo-package `C` and nothing else, a comment behind it apart. -/
def isCSpec (spec : List Char) : Bool :=
  let code := match splitAtFirst ['/', '/'] spec with
    | some (before, _) => before
    | none => spec
  trim code = ['"', 'C', '"']

/-- Where the reader of imports stands. -/
inductive ImportPlace where
  | outside
  | inGroup
  | inBlock (group : Bool)
deriving DecidableEq, Repr

/-- What one line means to the reader of imports. -/
inductive ImportStep where
  /-- The pseudo-package is imported. -/
  | found
  /-- The imports are over. -/
  | over
  /-- The next line is read from here. -/
  | go (place : ImportPlace)
deriving DecidableEq, Repr

/-- A line that starts an import outside a group, given by what stands behind the keyword. -/
def importStep (spec : List Char) : ImportStep :=
  match spec with
  | '(' :: rest =>
    let inner := trim rest
    if inner.head? = some ')' ∨ inner.getLast? = some ')' then
      if (inner.splitOn ';').any fun piece => isCSpec (dropEnd (· == ')') (trim piece)) then .found
      else .go .outside
    else if isCSpec inner then .found
    else .go .inGroup
  | _ => if isCSpec spec then .found else .go .outside

/-- What a trimmed line means at a place. -/
def step (place : ImportPlace) (line : List Char) : ImportStep :=
  match place with
  | .inBlock group =>
    if occursIn ['*', '/'] line then .go (if group then .inGroup else .outside)
    else .go place
  | _ =>
    match line with
    | [] => .go place
    | '/' :: '/' :: _ => .go place
    | '/' :: '*' :: _ =>
      if occursIn ['*', '/'] line then .go place else .go (.inBlock (place = .inGroup))
    | _ =>
      if place = .inGroup then
        if line.head? = some ')' then .go .outside
        else if isCSpec line then .found
        else .go .inGroup
      else
        match after? ['i', 'm', 'p', 'o', 'r', 't'] line with
        | none => .over
        | some rest => importStep (trim rest)

/-- Whether the lines behind a package clause import the pseudo-package `C`. -/
def scanImports (place : ImportPlace) : List (List Char) → Bool
  | [] => false
  | line :: rest =>
    match step place (trim line) with
    | .found => true
    | .over => false
    | .go next => scanImports next rest

end TestScout.Header
