import TestScout.GoSource.Spelling

/-!
# From text to tokens

A text is cut into tokens from its start, always the longest that fits, and white space between
them is skipped. Then every line end that closes a statement is made a semicolon: the last token of
the line has to be one that a statement may end in, comments behind it not counted.
-/

namespace TestScout.GoSource

/-! ## 1. Cutting -/

/-- White space between tokens; the byte-order mark only where the source starts. -/
def isGap (place : Position) (c : Char) : Bool :=
  c == ' ' || c == '\t' || c == '\r' || c == '\n' || (c == '\uFEFF' && place.offset == 0)

/-- The token of a kind with a text; some names are keywords. -/
def makeToken (kind : Kind) (text : List Char) (first : Position) : Token :=
  let spelled := String.ofList text
  ⟨if kind = .name ∧ keywords.contains spelled then .keyword else kind, spelled, first,
    first.behind text⟩

/-- The tokens of a text that starts at a place, behind those already found, which are given in
    reverse. -/
def tokensFrom (found : List Token) (place : Position) (text : List Char) : List Token :=
  match text with
  | [] => found.reverse
  | c :: rest =>
    if isGap place c then tokensFrom found (place.advance c) rest
    else
      let spelled := Spelling.token c rest
      let made := makeToken spelled.1 (c :: rest.take spelled.2) place
      tokensFrom (made :: found) made.last (rest.drop spelled.2)
termination_by text.length
decreasing_by
  · simp
  · simp only [List.length_cons, List.length_drop]
    omega

/-! ## 2. Line ends -/

/-- Whether the line ends behind a token, and a statement with it. -/
def closesLine (token : Token) (rest : List Token) : Bool :=
  token.endsStatement &&
    match rest.find? (!·.isComment) with
    | none => true
    | some next => token.last.row < next.first.row

/-- The tokens with the line ends that close statements, behind those already done, which are given
    in reverse. -/
def markLineEnds (finished : List Token) : List Token → List Token
  | [] => finished.reverse
  | token :: rest =>
    if closesLine token rest then markLineEnds (token.lineEndBehind :: token :: finished) rest
    else markLineEnds (token :: finished) rest

/-- The tokens of a source, comments among them. -/
def tokens (source : List Char) : List Token :=
  markLineEnds [] (tokensFrom [] .start source)

/-- The tokens of a source that are no comments. -/
def codeTokens (source : List Char) : List Token :=
  (tokens source).filter (!·.isComment)

@[simp] theorem tokensFrom_nil (found : List Token) (place : Position) :
    tokensFrom found place [] = found.reverse := by
  rw [tokensFrom]

end TestScout.GoSource
