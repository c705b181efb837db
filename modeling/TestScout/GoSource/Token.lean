import TestScout.GoSource.Position
import TestScout.Text.Letter

/-!
# Tokens of Go sources

A source is a list of tokens, each with its text and the place where it stands. Comments are tokens
too, so that nothing but white space is left out. The line ends that close a statement stand in the
list as semicolons of no width, right behind the token that they follow.
-/

namespace TestScout.GoSource

/-- What a token is. -/
inductive Kind where
  | name
  | keyword
  /-- A number or a character. -/
  | literal
  | string
  /-- An operator or a bracket. -/
  | mark
  | comment
  /-- Text that is no token of the language. -/
  | stray
deriving DecidableEq, Repr, Inhabited

/-- A token with the places at which it starts and ends. -/
structure Token where
  kind : Kind
  text : String
  first : Position
  last : Position
deriving DecidableEq, Repr, Inhabited

/-- The words that are no names. -/
def keywords : List String :=
  ["break", "case", "chan", "const", "continue", "default", "defer", "else", "fallthrough", "for",
    "func", "go", "goto", "if", "import", "interface", "map", "package", "range", "return",
    "select", "struct", "switch", "type", "var"]

/-- Operators and brackets; of two that start alike the longer one comes first. -/
def marks : List String :=
  ["<<=", ">>=", "&^=", "...", "&&", "||", "<-", "++", "--", "==", "!=", "<=", ">=", ":=", "+=",
    "-=", "*=", "/=", "%=", "&=", "|=", "^=", "<<", ">>", "&^", "+", "-", "*", "/", "%", "&", "|",
    "^", "<", ">", "=", "!", "(", ")", "[", "]", "\x7b", "\x7d", ",", ";", ".", ":", "~"]

namespace Token

/-- Whether the token is this keyword, operator or bracket. -/
def is (token : Token) (text : String) : Bool :=
  (token.kind = .keyword || token.kind = .mark) && token.text == text

/-- Whether the token is a comment. -/
def isComment (token : Token) : Bool :=
  token.kind = .comment

/-- Whether the token has no width: a line end that closes a statement. -/
def isLineEnd (token : Token) : Bool :=
  token.first = token.last

/-- The keywords that a statement may end in. -/
def endingKeywords : List String := ["break", "continue", "fallthrough", "return"]

/-- The marks that a statement may end in. -/
def endingMarks : List String := ["++", "--", ")", "]", "\x7d"]

/-- Whether a statement may end in the token. -/
def endsStatement (token : Token) : Bool :=
  match token.kind with
  | .name | .literal | .string => true
  | .keyword => endingKeywords.contains token.text
  | .mark => endingMarks.contains token.text
  | .comment | .stray => false

/-- The semicolon that a line end behind the token stands for. -/
def lineEndBehind (token : Token) : Token :=
  ⟨.mark, ";", token.last, token.last⟩

@[simp] theorem isLineEnd_lineEndBehind (token : Token) : token.lineEndBehind.isLineEnd = true := by
  simp [isLineEnd, lineEndBehind]

end Token

end TestScout.GoSource
