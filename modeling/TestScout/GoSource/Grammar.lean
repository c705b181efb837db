import TestScout.GoSource.Rule
import TestScout.GoSource.Scan

/-!
# The grammar of Go

The table below decides which sources are well-formed. It is read with ordered choice, so each rule
is arranged to be decided by its next tokens. In the header of a control statement a brace opens the
block, not a composite literal behind a name: rules that differ in this carry a flag, which is set
where such literals are allowed. Types and expressions share one rule wherever either may stand. A
source may begin without a package clause, and its parts may come in any order.
-/

namespace TestScout.GoSource

open Rule

/-! ## 1. Labels -/

/-- The notions of the grammar. The flag of some tells whether a brace behind a name opens a
    composite literal. -/
inductive Label where
  | source
  | item
  | importSpec
  | functionHeader
  | function
  | signature
  | parameters
  | parameter
  | typeParameters
  | typeSpec
  | valueSpec
  | constantSpec
  | typeTerm
  | typeArguments
  | structType
  | structField
  | interfaceType
  | interfaceElement
  | union
  | block
  | statement
  | simple (literals : Bool)
  | ifStatement
  | forStatement
  | switchStatement
  | selectStatement
  | clauses
  | expressions (literals : Bool)
  | expression (literals : Bool)
  | operand (literals : Bool)
  | suffixes
  | index
  | call
  | literalBody
  | literalValue
deriving DecidableEq, Repr

/-! ## 2. Short forms -/

/-- A name. -/
def aName : Rule Label := .one .name

/-- Names with commas between them. -/
def names : Rule Label := separated "," aName

/-- A rule in brackets of some kind. -/
def within (opening closing : String) (rule : Rule Label) : Rule Label :=
  all [mark opening, rule, mark closing]

/-- A rule in braces. -/
def inBraces (rule : Rule Label) : Rule Label := within "\x7b" "\x7d" rule

/-- One specification, or several in parentheses. -/
def grouped (spec : Rule Label) : Rule Label :=
  .choice (within "(" ")" (statementList spec)) spec

/-- One of several marks. -/
def anyMark (texts : List String) : Rule Label := oneOf (texts.map mark)

/-- The operators that assign, the plain ones apart. -/
def updateMarks : List String :=
  ["+=", "-=", "*=", "/=", "%=", "&=", "|=", "^=", "<<=", ">>=", "&^="]

/-- The operators that assign. -/
def assignMarks : List String := "=" :: ":=" :: updateMarks

/-- The operators in front of an operand. -/
def unaryMarks : List String := ["+", "-", "!", "^", "*", "&", "<-"]

/-- The operators between operands. -/
def binaryMarks : List String :=
  ["||", "&&", "==", "!=", "<", "<=", ">", ">=", "+", "-", "|", "^", "*", "/", "%", "<<", ">>",
    "&", "&^"]

/-! ## 3. Declarations -/

/-- The parameters and the result of a function. -/
def signatureRule : Rule Label :=
  all [.label .parameters, optional (.choice (.label .parameters) (.label .typeTerm))]

/-- The start of a declaration of a function or a method, up to its body. -/
def headerRule : Rule Label :=
  .choice
    (all [mark "func", aName, optional (.label .typeParameters), .label .signature])
    (all [mark "func", .label .parameters, aName, .label .signature])

/-- The rules for declarations. -/
def declaration : Rule Label :=
  oneOf [.sequence (mark "var") (grouped (.label .valueSpec)),
    .sequence (mark "const") (grouped (.label .constantSpec)),
    .sequence (mark "type") (grouped (.label .typeSpec))]

/-- What may stand at the top of a source. -/
def itemRule : Rule Label :=
  oneOf [.sequence (mark "package") aName,
    .sequence (mark "import") (grouped (.label .importSpec)),
    .label .function, .label .statement]

/-! ## 4. Types -/

/-- Types. -/
def typeRule : Rule Label :=
  oneOf [all [aName, optional (.sequence (mark ".") aName), optional (.label .typeArguments)],
    .sequence (mark "*") (.label .typeTerm),
    within "(" ")" (.label .typeTerm),
    all [mark "[", oneOf [mark "]", .sequence (mark "...") (mark "]"),
      .sequence (.label (.expression true)) (mark "]")], .label .typeTerm],
    all [mark "map", within "[" "]" (.label .typeTerm), .label .typeTerm],
    all [mark "chan", optional (mark "<-"), .label .typeTerm],
    all [mark "<-", mark "chan", .label .typeTerm],
    .sequence (mark "func") (.label .signature),
    .label .structType, .label .interfaceType]

/-- The types that an expression may begin with and that braces may follow. -/
def literalTypeRule : Rule Label :=
  oneOf [all [mark "[", oneOf [mark "]", .sequence (mark "...") (mark "]"),
      .sequence (.label (.expression true)) (mark "]")], .label .typeTerm],
    all [mark "map", within "[" "]" (.label .typeTerm), .label .typeTerm],
    all [mark "chan", optional (mark "<-"), .label .typeTerm],
    .label .structType, .label .interfaceType]

/-- A parameter: a type, or a name and a type; the type may stand for any number of values. -/
def parameterRule : Rule Label :=
  let values : Rule Label := .sequence (optional (mark "...")) (.label .typeTerm)
  .choice (.sequence aName values) values

/-- A field of a structure, which may be a type alone. -/
def fieldRule : Rule Label :=
  .sequence
    (.choice (.sequence names (.label .typeTerm))
      (all [optional (mark "*"), aName, optional (.sequence (mark ".") aName),
        optional (.label .typeArguments)]))
    (optional (.one .string))

/-! ## 5. Expressions -/

/-- A selector of a name. -/
def selector : Rule Label := .sequence (mark ".") aName

/-- What may follow an operand when neither a selector nor an index does: the type that is asserted,
    or the arguments of a call. -/
def assertionOrCall : Rule Label :=
  .choice (.sequence (mark ".") (within "(" ")" (.label .typeTerm))) (.label .call)

/-- What may follow any operand. -/
def suffixRule : Rule Label := oneOf [selector, .label .index, assertionOrCall]

/-- What may follow a name with its selectors and indices: the body of a composite literal, where
    the flag allows one, or more suffixes. -/
def afterName (literals : Bool) : Rule Label :=
  let more : Rule Label := optional (.sequence assertionOrCall (.label .suffixes))
  if literals then .choice (.sequence (.label .literalBody) (.label .suffixes)) more else more

/-- An operand with its suffixes. Only behind a name may braces be part of it, where the flag
    allows. -/
def operandRule (literals : Bool) : Rule Label :=
  oneOf [
    all [aName, .many (.choice selector (.label .index)), afterName literals],
    .sequence (.one .literal) (.label .suffixes),
    all [within "(" ")" (.label (.expression true)), .label .suffixes],
    all [mark "func", .label .signature, optional (.label .block), .label .suffixes],
    all [literalTypeRule, optional (.label .literalBody), .label .suffixes]]

/-- What stands between the bounds of a slice and its end, behind the first colon. -/
def sliceRest : Rule Label :=
  optional (.sequence (.label (.expression true))
    (optional (.sequence (mark ":") (.label (.expression true)))))

/-- An index, type arguments or the bounds of a slice. -/
def indexRule : Rule Label :=
  within "[" "]" (.choice (.sequence (mark ":") sliceRest)
    (.sequence (.label (.expression true)) (.choice (.sequence (mark ":") sliceRest)
      (.sequence (.many (.sequence (mark ",") (.label (.expression true))))
        (optional (mark ","))))))

/-- The arguments of a call. -/
def callRule : Rule Label :=
  within "(" ")" (optional (all [separated "," (.label (.expression true)),
    optional (mark "..."), listEnd]))

/-! ## 6. Statements -/

/-- More expressions behind the first one, and what is assigned to all of them. -/
def assignment (literals : Bool) (marks : List String) : Rule Label :=
  all [.many (.sequence (mark ",") (.label (.expression literals))), anyMark marks,
    .label (.expressions literals)]

/-- What may follow the expression at the start of a simple statement, if not nothing. -/
def simpleRest (literals : Bool) : Rule Label :=
  oneOf [assignment literals assignMarks, mark "++", mark "--",
    .sequence (mark "<-") (.label (.expression literals))]

/-- The header of a conditional statement: perhaps a simple statement, and a condition. -/
def ifHeader : Rule Label :=
  let condition : Rule Label := .sequence (mark ";") (.label (.expression false))
  .choice condition (.sequence (.label (.expression false))
    (oneOf [.sequence (simpleRest false) condition, condition, .nothing]))

/-- The condition and the step of a loop, behind the first semicolon. -/
def loopRest : Rule Label :=
  all [optional (.label (.expression false)), mark ";", optional (.label (.simple false))]

/-- The header of a loop. -/
def forHeader : Rule Label :=
  let range : Rule Label := .sequence (mark "range") (.label (.expression false))
  let three : Rule Label := .sequence (mark ";") loopRest
  oneOf [range, three,
    .sequence (.label (.expression false)) (oneOf [
      all [.many (.sequence (mark ",") (.label (.expression false))), anyMark ["=", ":="], range],
      .sequence (simpleRest false) three,
      three, .nothing]),
    .nothing]

/-- The mark behind an operand whose type a switch asks for. -/
def typeMark : Rule Label :=
  .sequence (mark ".") (within "(" ")" (mark "type"))

/-- What a switch decides by: a value or its type, perhaps under a name. -/
def switchGuard : Rule Label :=
  .sequence (.label (.expression false)) (oneOf [typeMark,
    all [mark ":=", .label (.expression false), typeMark], .nothing])

/-- The header of a switch: perhaps a simple statement, and perhaps what it decides by. -/
def switchHeader : Rule Label :=
  let decided : Rule Label := .sequence (mark ";") (optional switchGuard)
  oneOf [decided,
    .sequence (.label (.expression false)) (oneOf [typeMark,
      .sequence (simpleRest false) (.choice typeMark decided),
      decided, .nothing]),
    .nothing]

/-- A communication: something is sent, or received and perhaps kept. -/
def communication : Rule Label :=
  .sequence (.label (.expression true)) (oneOf [assignment true ["=", ":="],
    .sequence (mark "<-") (.label (.expression true)), .nothing])

/-- Statements. -/
def statementRule : Rule Label :=
  oneOf [declaration,
    all [aName, mark ":", optional (.label .statement)],
    .sequence (mark "return") (optional (.label (.expressions true))),
    .sequence (mark "break") (optional aName),
    .sequence (mark "continue") (optional aName),
    .sequence (mark "goto") aName,
    mark "fallthrough",
    .sequence (mark "go") (.label (.expression true)),
    .sequence (mark "defer") (.label (.expression true)),
    .label .block, .label .ifStatement, .label .forStatement, .label .switchStatement,
    .label .selectStatement, .label (.simple true)]

/-- The clauses of a switch or a selection; what stands behind `case` is given. -/
def clausesRule (guarded : Rule Label) : Rule Label :=
  .many (all [.choice (.sequence (mark "case") guarded) (mark "default"), mark ":",
    statementList (.label .statement)])

/-! ## 7. The table -/

/-- The rule of every label. -/
def grammar : Label → Rule Label
  | .source => statementList (.label .item)
  | .item => itemRule
  | .importSpec => .sequence (optional (.choice aName (mark "."))) (.one .string)
  | .functionHeader => headerRule
  | .function => .sequence (.label .functionHeader) (optional (.label .block))
  | .signature => signatureRule
  | .parameters => within "(" ")" (commaList (.label .parameter))
  | .parameter => parameterRule
  | .typeParameters =>
    within "[" "]" (.sequence (separated "," (.sequence names (.label .union)))
      (optional (mark ",")))
  | .typeSpec =>
    .choice (all [aName, .label .typeParameters, optional (mark "="), .label .typeTerm])
      (all [aName, optional (mark "="), .label .typeTerm])
  | .valueSpec =>
    .sequence names (.choice
      (.sequence (.label .typeTerm)
        (optional (.sequence (mark "=") (.label (.expressions true)))))
      (.sequence (mark "=") (.label (.expressions true))))
  | .constantSpec =>
    .sequence names (optional (all [optional (.label .typeTerm), mark "=",
      .label (.expressions true)]))
  | .typeTerm => typeRule
  | .typeArguments =>
    within "[" "]" (.sequence (separated "," (.label (.expression true))) (optional (mark ",")))
  | .structType => .sequence (mark "struct") (inBraces (statementList (.label .structField)))
  | .structField => fieldRule
  | .interfaceType =>
    .sequence (mark "interface") (inBraces (statementList (.label .interfaceElement)))
  | .interfaceElement => .choice (.sequence aName (.label .signature)) (.label .union)
  | .union => separated "|" (.sequence (optional (mark "~")) (.label .typeTerm))
  | .block => inBraces (statementList (.label .statement))
  | .statement => statementRule
  | .simple literals =>
    .sequence (.label (.expression literals)) (optional (simpleRest literals))
  | .ifStatement =>
    all [mark "if", ifHeader, .label .block,
      optional (.sequence (mark "else") (.choice (.label .ifStatement) (.label .block)))]
  | .forStatement => all [mark "for", forHeader, .label .block]
  | .switchStatement =>
    all [mark "switch", switchHeader, inBraces (.label .clauses)]
  | .selectStatement =>
    .sequence (mark "select") (inBraces (clausesRule communication))
  | .clauses => clausesRule (.label (.expressions true))
  | .expressions literals => separated "," (.label (.expression literals))
  | .expression literals =>
    let unary : Rule Label :=
      .sequence (.many (anyMark unaryMarks)) (.label (.operand literals))
    .sequence unary (.many (.sequence (anyMark binaryMarks) unary))
  | .operand literals => operandRule literals
  | .suffixes => .many suffixRule
  | .index => indexRule
  | .call => callRule
  | .literalBody =>
    inBraces (commaList (.sequence (.label .literalValue)
      (optional (.sequence (mark ":") (.label .literalValue)))))
  | .literalValue => .choice (.label .literalBody) (.label (.expression true))

/-! ## 8. Headers -/

/-- The declaration of a function or method that starts here, up to its body: what is left behind
    it. -/
def functionHeader? (code : List Token) : Option Cursor :=
  matchTokens grammar .functionHeader code

end TestScout.GoSource
