import TestScout.GoSource.Outline
import TestScout.GoSource.Parser
import TestScout.Text.Lines

/-!
# A reader of Go sources

The parser that the program runs with. It gives every source a tree as deep as the program asks for:
what stands at the top of the source, side by side below one root. If the source is not well-formed,
a last node stands for what the grammar could make nothing of.
-/

namespace TestScout.GoSource.Reader

/-! ## 1. Nodes -/

/-- What a source is read from: its bytes, and the starts of its lines. -/
structure Scene where
  bytes : ByteArray
  lines : LineIndex

/-- A source as it is read. -/
def Scene.of (source : String) : Scene :=
  ⟨source.toUTF8, .ofBytes source.toUTF8.toList⟩

namespace Scene

/-- The text between two places. -/
def textBetween (scene : Scene) (first last : Position) : String :=
  (String.fromUTF8? (scene.bytes.extract first.offset last.offset)).getD ""

/-- The bytes before a place in its row. Behind the last line break there are none. -/
def columnOf (scene : Scene) (place : Position) : Nat :=
  place.offset - (scene.lines.startOfLine (place.row + 1)).getD place.offset

/-- A node of a kind between two places, with a name if it declares one. -/
def label (scene : Scene) (kind : String) (first last : Position) (nameField : Option String) :
    NodeLabel where
  kind := kind
  first := first
  column := scene.columnOf first
  last := last
  text := scene.textBetween first last
  nameField := nameField
  isError := false
  isMissing := false
  hasError := false

/-- A part as a node with nothing inside. -/
def nodeOf (scene : Scene) : Part → Node
  | .comment text first last => .mk { scene.label "comment" first last none with text := text } []
  | .function name first last =>
    .mk (scene.label "function_declaration" first last (some name)) []
  | .other first last => .mk (scene.label "item" first last none) []

/-- The node of what the grammar could make nothing of. -/
def errorNode (scene : Scene) (first last : Position) : Node :=
  .mk { scene.label "ERROR" first last none with isError := true, hasError := true } []

end Scene

/-! ## 2. The tree -/

/-- Where a source stops being well-formed, if it does. -/
def fault? (code : List Token) : Option Position :=
  match matchTokens grammar .source code with
  | some cursor => cursor.rest.head?.map Token.first
  | none => some .start

/-- The tree of a source. -/
def tree (source : String) : Node :=
  let scene := Scene.of source
  let found := tokens source.toList
  let sourceEnd := Position.start.behind source.toList
  let broken := (fault? (found.filter (!·.isComment))).toList
  .mk { scene.label "source_file" .start sourceEnd none with hasError := !broken.isEmpty }
    ((outline sourceEnd found).map scene.nodeOf
      ++ broken.map fun first => scene.errorNode first sourceEnd)

end TestScout.GoSource.Reader

namespace TestScout.GoSource

/-- The reader as a parser. -/
def reader : Parser where
  grammarFault := none
  tree? source := some (Reader.tree source)

end TestScout.GoSource
