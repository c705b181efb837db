import TestScout.Constraint.Legacy
import TestScout.Header.Lines
import TestScout.Text.Lines

/-!
# Headers of source files

The header of a source decides whether the file belongs to a build: the comments before the package
clause may hold constraints, the clause names the package, and the imports behind it may ask for
cgo. A `go:build` line stands for all older `+build` lines of the file, which otherwise have to
hold together.
-/

namespace TestScout

/-- What the header of a file says. -/
structure Header where
  /-- The constraint in effect. -/
  constraint : Option Constraint
  /-- The name in the package clause, if one was found. -/
  package : Option String
  /-- The first word that is neither comment nor package clause, where no clause was found. -/
  unexpected : Option String
  /-- Whether the pseudo-package `C` is imported. -/
  importsC : Bool
deriving DecidableEq, Repr, Inhabited

namespace Header

/-- The constraints read so far. -/
structure Found where
  goBuild : Option Constraint
  plusBuild : Option Constraint
deriving DecidableEq, Repr

/-- No constraints. -/
def Found.none : Found := ⟨.none, .none⟩

/-- The constraint in effect. -/
def Found.effective (found : Found) : Option Constraint :=
  found.goBuild.or found.plusBuild

/-- The constraints with a `go:build` line more. -/
def Found.addGoBuild (found : Found) (expression : List Char) : Except ConstraintError Found :=
  if found.goBuild.isSome then .error .repeatedLine
  else
    match Constraint.read (trim expression) with
    | .error e => .error e
    | .ok x => .ok { found with goBuild := some x }

/-- The constraints with a `+build` line more. -/
def Found.addPlusBuild (found : Found) (body : List Char) : Except ConstraintError Found :=
  match LegacyLine.read body with
  | .error e => .error e
  | .ok x =>
    match found.plusBuild with
    | .none => .ok { found with plusBuild := some x }
    | some earlier => .ok { found with plusBuild := some (.and earlier x) }

/-- The header that ends with a line of code, the lines behind it being given too. -/
def finish (found : Found) (text : List Char) (rest : List (List Char)) : Header :=
  match packageName text with
  | some name => ⟨found.effective, some name, .none, scanImports .outside rest⟩
  | .none => ⟨found.effective, .none, some (firstWord text), false⟩

/-- Reads lines, inside a block comment or not, with the constraints found before them. -/
def scanLines (inBlock : Bool) (found : Found) :
    List (List Char) → Except ConstraintError Header
  | [] => .ok ⟨found.effective, .none, .none, false⟩
  | raw :: rest =>
    let line := trim raw
    match if inBlock then lineInBlock line else some (lineOf line) with
    | .none => scanLines true found rest
    | some .idle => scanLines false found rest
    | some .opensBlock => scanLines true found rest
    | some (.goBuild expression) =>
      match found.addGoBuild expression with
      | .error e => .error e
      | .ok found => scanLines false found rest
    | some (.plusBuild body) =>
      match found.addPlusBuild body with
      | .error e => .error e
      | .ok found => scanLines false found rest
    | some (.code text) => .ok (finish found text rest)

/-- The header of a source. -/
def scan (source : List Char) : Except ConstraintError Header :=
  scanLines false Found.none (lines source)

end Header

end TestScout
