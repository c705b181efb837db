import TestScout.GoSource.Node
import TestScout.Text.Blank
import TestScout.Text.Quoted

/-!
# Errors of a source

A parser gives a broken source a tree as well. What it could make nothing of, and what it missed,
stand in the tree as nodes of their own, and each of them is one error of the source; inside such a
node no further errors are told. A source is clean if it has none, and otherwise its first error is
the one that is reported.
-/

namespace TestScout.GoSource

/-- An error of a source. Lines and columns are counted from one. -/
structure SyntaxError where
  line : Nat
  column : Nat
  message : String
deriving DecidableEq, Repr

/-- How much of a text a message shows. -/
def snippetLength : Nat := 24

namespace NodeLabel

/-- An error at the start of a node. -/
def errorAt (label : NodeLabel) (message : String) : SyntaxError :=
  ⟨label.first.row + 1, label.column + 1, message⟩

/-- The error that a node stands for, if it stands for one. -/
def error? (label : NodeLabel) : Option SyntaxError :=
  if label.isMissing then some (label.errorAt ("missing " ++ label.kind))
  else if label.isError then
    some (label.errorAt
      ("syntax error: unexpected " ++ Quoted.text (trim (label.text.toList.take snippetLength))))
  else none

/-- Whether the parser notes an error of the node or of what stands inside it. -/
def isBroken (label : NodeLabel) : Bool :=
  label.hasError || label.isMissing

end NodeLabel

namespace Node

mutual

/-- The errors of a tree, in the order of the source. -/
def collectErrors : Node → List SyntaxError
  | .mk label children =>
    match label.error? with
    | some error => [error]
    | none => collectErrorsAmong children

/-- The errors of several trees. Only broken ones are looked into. -/
def collectErrorsAmong : List Node → List SyntaxError
  | [] => []
  | node :: rest =>
    (if node.label.isBroken then node.collectErrors else []) ++ collectErrorsAmong rest

end

/-- The errors of a source, by its tree. -/
def syntaxErrors (root : Node) : List SyntaxError :=
  if root.label.hasError then root.collectErrors else []

/-- The first error of a source that is not clean. -/
def ensureClean (root : Node) : Except SyntaxError Unit :=
  match root.syntaxErrors.head? with
  | none => .ok ()
  | some error => .error error

end Node

end TestScout.GoSource
