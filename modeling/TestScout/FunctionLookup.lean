import TestScout.BuildEnv.Resolve
import TestScout.GoSource.Parser
import TestScout.Text.Lines

/-!
# The function around a position

An editor asks which function a line of a source belongs to: the one whose text holds the start of
the line. The column is only repeated in the answer. A source need not be clean, as long as it has a
tree.
-/

namespace TestScout

open GoSource

/-! ## 1. Looking a line up -/

/-- The function whose text holds the start of a line. -/
def containingFunction (parser : Parser) (path : Path) (source : String) (line column : Nat) :
    Except Failure String :=
  match parser.parse source with
  | .error cause => .error (.unparsed path cause)
  | .ok root =>
    match (LineIndex.ofBytes source.toUTF8.toList).locate line with
    | .error cause => .error (.invalidLine cause)
    | .ok place =>
      match root.enclosing place with
      | some name => .ok name
      | none => .error (.noFunction path line column)

/-! ## 2. Answering a query -/

/-- The answer to a query: a name, or an empty one with the reason why there is none. -/
structure FunctionAnswer where
  name : String
  missing : Option Failure
deriving DecidableEq, Repr

/-- The answer to a query whose source can be read. -/
def FunctionAnswer.of (outcome : Except Failure String) : FunctionAnswer :=
  match outcome with
  | .ok name => ⟨name, none⟩
  | .error failure => ⟨"", some failure⟩

/-- The function around the position that a query asks for. Only a query that cannot be read and a
    source that cannot be read are failures. -/
def lookupFunction (parser : Parser) (tree : FileTree) (env : BuildEnv) (text : String) :
    Except Failure FunctionAnswer :=
  match PositionQuery.read text.toList with
  | .error cause => .error (.query cause)
  | .ok query =>
    match env.effectiveSource tree query.path with
    | .error failure => .error failure
    | .ok source =>
      .ok (.of (containingFunction parser query.path source query.line query.column))

end TestScout
