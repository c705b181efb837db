import TestScout.GoSource.DocText
import TestScout.GoSource.Node

/-!
# Declared functions and their documentation

The functions and methods right below the root of a source's tree are declared in it. A function is
documented by the comments right above it: the last of them ends in the row before the function, no
empty row stands between two of them, and none of them trails an item that ends in its row.
-/

namespace TestScout.GoSource

/-! ## 1. Parts -/

/-- What stands at the top of a source, as far as the documentation of functions depends on it. -/
inductive Part where
  | comment (text : String) (first last : Position)
  | function (name : String) (first last : Position)
  | other (first last : Position)
deriving DecidableEq, Repr

namespace Part

/-- Where the part starts. -/
def first : Part → Position
  | .comment _ first _ => first
  | .function _ first _ => first
  | .other first _ => first

/-- Where the part ends. -/
def last : Part → Position
  | .comment _ _ last => last
  | .function _ _ last => last
  | .other _ last => last

/-- Whether the part is a comment. -/
def isComment : Part → Bool
  | .comment .. => true
  | _ => false

end Part

/-! ## 2. Declarations -/

/-- A function or method at the top of a source. -/
structure Declaration where
  name : String
  first : Position
  last : Position
  /-- What the comments above it say. -/
  doc : String
deriving DecidableEq, Repr

/-- The line, counted from one, on which a declaration starts. -/
def Declaration.line (declaration : Declaration) : Nat :=
  declaration.first.row + 1

/-! ## 3. Comments above a function -/

/-- Whether a comment that starts in a row stands behind code in that row, given what stands before
    the comment, the nearest part first. -/
def trailsCode (row : Nat) : List Part → Bool
  | [] => false
  | part :: _ => !part.isComment && part.last.row = row

/-- The texts of the comments above a row, given what stands before it, the nearest part first; the
    last comment comes last. The nearest one has to end right above the row. -/
def commentsAbove (nearest : Bool) (row : Nat) (found : List String) : List Part → List String
  | .comment text first last :: before =>
    let isAdjacent := if nearest then last.row + 1 = row else row ≤ last.row + 1
    if isAdjacent ∧ trailsCode first.row before = false then
      commentsAbove false first.row (text :: found) before
    else found
  | _ => found

/-- The documentation of a function that starts in a row, given what stands before it. -/
def docAbove (row : Nat) (before : List Part) : String :=
  String.ofList (DocText.ofComments ((commentsAbove true row [] before).map String.toList))

/-! ## 4. Declarations of a source -/

/-- The declarations among parts, given what stands before them, the nearest part first. -/
def declarationsFrom (before : List Part) : List Part → List Declaration
  | [] => []
  | .function name first last :: rest =>
    ⟨name, first, last, docAbove first.row before⟩
      :: declarationsFrom (.function name first last :: before) rest
  | part :: rest => declarationsFrom (part :: before) rest

/-- The declarations in an outline, in the order of the source. -/
def declarationsOf (parts : List Part) : List Declaration :=
  declarationsFrom [] parts

/-- The functions of an outline with the places where they start and end. -/
def functionsOf (parts : List Part) : List (String × Position × Position) :=
  parts.filterMap fun
    | .function name first last => some (name, first, last)
    | _ => none

/-- **Documentation changes neither which functions are declared nor where.** -/
theorem declarationsFrom_map (before parts : List Part) :
    (declarationsFrom before parts).map (fun d => (d.name, d.first, d.last)) =
      functionsOf parts := by
  induction parts generalizing before with
  | nil => rfl
  | cons part rest ih =>
    cases part with
    | comment text first last => simpa [declarationsFrom, functionsOf] using ih _
    | function name first last => simpa [declarationsFrom, functionsOf] using ih _
    | other first last => simpa [declarationsFrom, functionsOf] using ih _

namespace Node

/-- A node as a part. A declaration without a name declares nothing. -/
def part (node : Node) : Part :=
  let label := node.label
  if label.kind = "comment" then .comment label.text label.first label.last
  else if node.IsDeclaration then
    match node.name with
    | some name => .function name label.first label.last
    | none => .other label.first label.last
  else .other label.first label.last

/-- The declarations of a source, by its tree. -/
def declarations (root : Node) : List Declaration :=
  declarationsOf (root.children.map part)

end Node

end TestScout.GoSource
