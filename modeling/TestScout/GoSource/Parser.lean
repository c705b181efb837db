import TestScout.GoSource.SyntaxError

/-!
# Parsers

The grammar of the language and the parser that works by it come from outside. A parser is taken as
it shows itself: it refuses its grammar or takes it, and it gives a source a tree or none. Whatever
tree that is, its nodes are all that is asked.
-/

namespace TestScout.GoSource

/-- Why a source has no tree. -/
inductive ParseError where
  /-- The parser does not take the grammar. -/
  | badGrammar (reason : String)
  /-- The parser gives the source no tree. -/
  | noTree
deriving DecidableEq, Repr

/-- The wording of an error. -/
def ParseError.reason : ParseError → String
  | .badGrammar reason => reason
  | .noTree => "parser produced no syntax tree"

/-- A parser. -/
structure Parser where
  /-- What it has against its grammar. -/
  grammarFault : Option String
  /-- The tree of a source. -/
  tree? : String → Option Node

namespace Parser

/-- Parses a source. -/
def parse (parser : Parser) (source : String) : Except ParseError Node :=
  match parser.grammarFault with
  | some reason => .error (.badGrammar reason)
  | none =>
    match parser.tree? source with
    | some tree => .ok tree
    | none => .error .noTree

/-- The parser takes its grammar and gives every source a tree, a broken one as well. -/
structure AlwaysParses (parser : Parser) : Prop where
  takesGrammar : parser.grammarFault = none
  givesTree : ∀ source, (parser.tree? source).isSome = true

theorem exists_parse {parser : Parser} (h : parser.AlwaysParses) (source : String) :
    ∃ tree, parser.parse source = .ok tree := by
  obtain ⟨tree, htree⟩ := Option.isSome_iff_exists.mp (h.givesTree source)
  refine ⟨tree, ?_⟩
  simp only [parse, h.takesGrammar, htree]

end Parser

end TestScout.GoSource
