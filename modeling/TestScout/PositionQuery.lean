import TestScout.Path.Basic
import TestScout.Text.Decimal
import TestScout.Text.Quoted
import TestScout.Text.Split

/-!
# Position queries

A position is asked for as `path:line:column`. The text is cut at its last two colons, so that the
path may hold colons of its own.
-/

namespace TestScout

/-- A path with a line and a column in it. -/
structure PositionQuery where
  path : Path
  line : Nat
  column : Nat
deriving DecidableEq, Repr

/-- What is wrong with the text of a query. -/
inductive QueryError where
  /-- There is no colon. -/
  | missingColumn
  /-- There is only one colon. -/
  | missingLine
  /-- The column is no number. -/
  | columnFormat (text : List Char)
  /-- The line is no number. -/
  | lineFormat (text : List Char)
deriving DecidableEq, Repr

/-- The wording of an error. -/
def QueryError.message : QueryError → String
  | .missingColumn => "invalid file query: missing column"
  | .missingLine => "invalid file query: missing line"
  | .columnFormat text => "invalid file query: parsing column: " ++ Quoted.text text
  | .lineFormat text => "invalid file query: parsing line: " ++ Quoted.text text

namespace PositionQuery

/-- The query that a text asks. -/
def read (text : List Char) : Except QueryError PositionQuery :=
  match splitLast ':' text with
  | none => .error .missingColumn
  | some (rest, column) =>
    match Decimal.read? Decimal.wordMax column with
    | none => .error (.columnFormat column)
    | some columnNumber =>
      match splitLast ':' rest with
      | none => .error .missingLine
      | some (path, line) =>
        match Decimal.read? Decimal.wordMax line with
        | none => .error (.lineFormat line)
        | some lineNumber => .ok ⟨⟨String.ofList path⟩, lineNumber, columnNumber⟩

/-- The text of a query. -/
def render (query : PositionQuery) : String :=
  query.path.text ++ ":" ++ toString query.line ++ ":" ++ toString query.column

end PositionQuery

end TestScout
