import TestScout.GoSource.Position

/-!
# Syntax trees and the function around a place

A syntax tree is a tree of nodes, each with its kind, the range of the source that it covers, and
what the parser notes about errors. The function around a place is the first declaration in the
tree, from the top and from the left, that has a name and whose range holds the place, its end
included. The search visits a node before its children and those from left to right, with the nodes
still to be visited in a list.
-/

namespace TestScout.GoSource

/-! ## 1. Trees -/

/-- What a parser tells about one node. -/
structure NodeLabel where
  /-- What the node stands for, as the grammar calls it. -/
  kind : String
  /-- Where the node starts. -/
  first : Position
  /-- The bytes before it in its row. -/
  column : Nat
  /-- Where the node ends. -/
  last : Position
  /-- The text that it covers. -/
  text : String
  /-- The text of what stands inside it as its name. -/
  nameField : Option String
  /-- The node stands for text that the parser could make nothing of. -/
  isError : Bool
  /-- The node stands for what the parser missed here. -/
  isMissing : Bool
  /-- The node is one of these, or one stands inside it. -/
  hasError : Bool
deriving DecidableEq, Repr

/-- A node, and what stands inside it. -/
inductive Node where
  | mk (label : NodeLabel) (children : List Node)
deriving Repr

namespace Node

/-- What the parser tells about the node. -/
def label : Node → NodeLabel
  | .mk label _ => label

/-- What stands inside the node. -/
def children : Node → List Node
  | .mk _ children => children

/-- The offset at which the node starts. -/
def start (node : Node) : Nat := node.label.first.offset

/-- The offset at which the node ends. -/
def stop (node : Node) : Nat := node.label.last.offset

/-- The kinds of functions and methods. -/
def declarationKinds : List String := ["function_declaration", "method_declaration"]

/-- The node is a function or a method. -/
def IsDeclaration (node : Node) : Prop := node.label.kind ∈ declarationKinds

instance (node : Node) : Decidable node.IsDeclaration :=
  inferInstanceAs (Decidable (_ ∈ _))

/-- The name that the node declares. An empty one is none. -/
def name (node : Node) : Option String := node.label.nameField.filter (· ≠ "")

mutual

/-- How many nodes a tree has. -/
def size : Node → Nat
  | .mk _ children => 1 + sizes children

/-- How many nodes several trees have. -/
def sizes : List Node → Nat
  | [] => 0
  | node :: rest => node.size + sizes rest

end

theorem sizes_append (xs ys : List Node) : sizes (xs ++ ys) = sizes xs + sizes ys := by
  induction xs with
  | nil => simp [sizes]
  | cons x xs ih => simp [sizes, ih, Nat.add_assoc]

theorem size_eq (node : Node) : node.size = 1 + sizes node.children := by
  cases node
  rfl

/-! ## 2. Searching -/

/-- The name of a declaration around a place. -/
def enclosing? (place : Nat) (node : Node) : Option String :=
  if node.IsDeclaration ∧ node.start ≤ place ∧ place ≤ node.stop then node.name else none

/-- The first name around a place among nodes and what stands inside them. -/
def firstAmong (place : Nat) (pending : List Node) : Option String :=
  match pending with
  | [] => none
  | node :: rest =>
    match node.enclosing? place with
    | some found => some found
    | none => firstAmong place (node.children ++ rest)
termination_by sizes pending
decreasing_by
  rw [sizes_append, sizes, size_eq]
  omega

/-- The first name around a place in a tree. -/
def firstEnclosing (place : Nat) (root : Node) : Option String :=
  firstAmong place [root]

/-- The first name around a place right below the root. -/
def topEnclosing (place : Nat) (root : Node) : Option String :=
  root.children.findSome? (enclosing? place)

/-- The function around a place: one right below the root first. -/
def enclosing (place : Nat) (root : Node) : Option String :=
  (topEnclosing place root).or (firstEnclosing place root)

@[simp] theorem firstAmong_nil (place : Nat) : firstAmong place [] = none := by
  rw [firstAmong]

/-- **A node that encloses the place is found before what stands inside it.** -/
theorem firstAmong_of_enclosing {place : Nat} {node : Node} {rest : List Node} {found : String}
    (h : node.enclosing? place = some found) : firstAmong place (node :: rest) = some found := by
  rw [firstAmong, h]

end Node

end TestScout.GoSource
