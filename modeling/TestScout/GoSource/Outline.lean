import TestScout.GoSource.Declaration
import TestScout.GoSource.Grammar

/-!
# The outline of a source

The outline is the list of what stands side by side at the top of a source: comments, functions and
other items, each with the places where it starts and ends. A broken source has an outline too: a
function whose header is well-formed owns the text up to the brace that closes its body, or to the
end of the source if none does, whatever the body holds. Where neither a function nor a well-formed
item starts, one token is set apart, and the outline goes on behind it.
-/

namespace TestScout.GoSource

/-! ## 1. Where a part ends -/

/-- The cursor behind the brace that closes `depth` open ones; none if there is no such brace. -/
def closeBraces (depth : Nat) : List Token → Option Cursor
  | [] => none
  | token :: rest =>
    if token.is "\x7b" then closeBraces (depth + 1) rest
    else if token.is "\x7d" then
      if depth ≤ 1 then some ⟨rest, token.last⟩ else closeBraces (depth - 1) rest
    else closeBraces depth rest

/-- The cursor behind the body of a function whose header ends at a cursor. A header without a body
    stands for itself. -/
def behindBody (sourceEnd : Position) (header : Cursor) : Cursor :=
  match header.rest with
  | token :: rest =>
    if token.is "\x7b" then (closeBraces 1 rest).getD ⟨[], sourceEnd⟩ else header
  | [] => header

/-- Whether the token opens a bracket. -/
def opens (token : Token) : Bool :=
  token.is "(" || token.is "[" || token.is "\x7b"

/-- Whether the token closes a bracket. -/
def closes (token : Token) : Bool :=
  token.is ")" || token.is "]" || token.is "\x7d"

/-- Whether nothing or a semicolon follows. -/
def atStatementEnd (cursor : Cursor) : Bool :=
  match cursor.rest with
  | [] => true
  | token :: _ => token.is ";"

/-- The name of the function that a header declares: the name before the parameters, behind the
    receiver if there is one. -/
def headerName (depth : Nat) : List Token → Option String
  | [] => none
  | token :: rest =>
    if opens token then headerName (depth + 1) rest
    else if closes token then headerName (depth - 1) rest
    else if depth = 0 ∧ token.kind = .name then some token.text
    else headerName depth rest

/-! ## 2. The outline -/

/-- The function that starts with the given tokens, and the cursor behind it. -/
def functionAt? (sourceEnd : Position) (code : List Token) : Option (Part × Cursor) :=
  match code with
  | [] => none
  | token :: rest =>
    match functionHeader? code, headerName 0 rest with
    | some header, some name =>
      let behind := behindBody sourceEnd header
      some (.function name token.first behind.passed, behind)
    | _, _ => none

/-- The part that starts with a token, and the cursor behind it. -/
def partAt (sourceEnd : Position) (token : Token) (rest : List Token) : Part × Cursor :=
  let alone : Part × Cursor := (.other token.first token.last, ⟨rest, token.last⟩)
  if token.is ";" then alone
  else
    match functionAt? sourceEnd (token :: rest) with
    | some found => found
    | none =>
      match (matchTokens grammar .item (token :: rest)).filter atStatementEnd with
      | some behind => (.other token.first behind.passed, behind)
      | none => alone

/-- The parts of a source without its comments, of which there are at most as many as the number
    says, behind those already found, which are given in reverse. -/
def codeParts (sourceEnd : Position) (found : List Part) : Nat → List Token → List Part
  | 0, _ => found.reverse
  | _ + 1, [] => found.reverse
  | limit + 1, token :: rest =>
    if token.isLineEnd then codeParts sourceEnd found limit rest
    else
      let next := partAt sourceEnd token rest
      codeParts sourceEnd (next.1 :: found) limit next.2.rest

/-- The parts of a source with the comments that stand between them, in the order of the source. -/
def weave (found : List Part) : List Part → List Token → List Part
  | [], comments => found.reverse ++ comments.map ofComment
  | part :: parts, [] => found.reverse ++ part :: parts
  | part :: parts, comment :: comments =>
    if comment.first.offset < part.first.offset then
      weave (ofComment comment :: found) (part :: parts) comments
    else if comment.first.offset < part.last.offset then weave found (part :: parts) comments
    else weave (part :: found) parts (comment :: comments)
termination_by parts comments => parts.length + comments.length
where
  /-- A comment as a part. -/
  ofComment (comment : Token) : Part :=
    .comment comment.text comment.first comment.last

/-- The outline of a source, given its tokens and the place where it ends. -/
def outline (sourceEnd : Position) (tokens : List Token) : List Part :=
  let code := tokens.filter (!·.isComment)
  weave [] (codeParts sourceEnd [] code.length code) (tokens.filter (·.isComment))

end TestScout.GoSource
