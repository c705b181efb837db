import TestScout.GoSource.Token

/-!
# Grammar rules

A grammar is a table: to each label it gives a rule, and rules are put together from tokens, labels,
sequence, choice and repetition. Choice is ordered, and what an earlier branch takes is not given
back, so a rule takes at most one run of tokens from a place. How deep labels nest is bounded, which
makes every match end; any bound above the depth that a source needs gives the same answer.
-/

namespace TestScout.GoSource

/-! ## 1. Rules -/

/-- What a rule asks of one token. -/
inductive Pattern where
  /-- This keyword, operator or bracket. -/
  | exactly (text : String)
  /-- A line end that closes a statement where one may end. -/
  | lineEnd
  | name
  /-- A number, a character or a string. -/
  | literal
  | string
deriving DecidableEq, Repr

/-- Whether a token is what the pattern asks for. -/
def Pattern.holds (pattern : Pattern) (token : Token) : Bool :=
  match pattern with
  | .exactly text => token.is text
  | .lineEnd => token.isLineEnd
  | .name => token.kind = .name
  | .literal => token.kind = .literal || token.kind = .string
  | .string => token.kind = .string

/-- A rule of a grammar. -/
inductive Rule (Label : Type) where
  /-- Nothing. -/
  | nothing
  | one (pattern : Pattern)
  | sequence (first second : Rule Label)
  | choice (first second : Rule Label)
  /-- As often as it fits. -/
  | many (rule : Rule Label)
  /-- The rule of a label. -/
  | label (name : Label)
deriving Repr

namespace Rule

variable {Label : Type}

/-- A keyword, operator or bracket. -/
def mark (text : String) : Rule Label :=
  .one (.exactly text)

/-- All rules, one behind the other. -/
def all : List (Rule Label) → Rule Label
  | [] => .nothing
  | [rule] => rule
  | rule :: rest => .sequence rule (all rest)

/-- The first rule that fits, the last one otherwise. -/
def oneOf : List (Rule Label) → Rule Label
  | [] => .nothing
  | [rule] => rule
  | rule :: rest => .choice rule (oneOf rest)

/-- A rule or nothing. -/
def optional (rule : Rule Label) : Rule Label :=
  .choice rule .nothing

/-- One or more, with a mark between two of them. -/
def separated (between : String) (rule : Rule Label) : Rule Label :=
  .sequence rule (.many (.sequence (mark between) rule))

/-- What may stand behind the last of several with commas between them, in front of the bracket that
    closes: one more comma, or a line end, which means nothing there. -/
def listEnd : Rule Label :=
  .choice (mark ",") (optional (.one .lineEnd))

/-- Any number with commas between them. -/
def commaList (rule : Rule Label) : Rule Label :=
  optional (.sequence (separated "," rule) listEnd)

/-- Any number with semicolons between them, some of which may be missing. -/
def statementList (rule : Rule Label) : Rule Label :=
  separated ";" (optional rule)

end Rule

/-! ## 2. Matching -/

/-- The tokens that are left, and the place where the last token taken ends. -/
structure Cursor where
  rest : List Token
  passed : Position
deriving DecidableEq, Repr

/-- Takes one token. -/
def Cursor.take (pattern : Pattern) (cursor : Cursor) : Option Cursor :=
  match cursor.rest with
  | token :: rest => if pattern.holds token then some ⟨rest, token.last⟩ else none
  | [] => none

/-- Repeats a step at most `limit` times, as long as it can be taken. -/
def repeatStep (step : Cursor → Option Cursor) : Nat → Cursor → Cursor
  | 0, cursor => cursor
  | limit + 1, cursor =>
    match step cursor with
    | some next => repeatStep step limit next
    | none => cursor

/-- Matches a rule, labels being left to `enter`. -/
def Rule.run {Label : Type} (enter : Label → Cursor → Option Cursor) (limit : Nat) :
    Rule Label → Cursor → Option Cursor
  | .nothing, cursor => some cursor
  | .one pattern, cursor => cursor.take pattern
  | .sequence first second, cursor =>
    match run enter limit first cursor with
    | some next => run enter limit second next
    | none => none
  | .choice first second, cursor =>
    match run enter limit first cursor with
    | some next => some next
    | none => run enter limit second cursor
  | .many rule, cursor => some (repeatStep (run enter limit rule) limit cursor)
  | .label name, cursor => enter name cursor

/-- Matches the rule of a label with labels nested at most `depth` deep. -/
def matchLabel {Label : Type} (grammar : Label → Rule Label) (limit : Nat) :
    Nat → Label → Cursor → Option Cursor
  | 0, _, _ => none
  | depth + 1, name, cursor => (grammar name).run (matchLabel grammar limit depth) limit cursor

/-- How many labels may nest for each token. -/
def nestingLimit : Nat := 32

/-- Matches the rule of a label at the start of tokens. -/
def matchTokens {Label : Type} (grammar : Label → Rule Label) (name : Label)
    (tokens : List Token) : Option Cursor :=
  let limit := tokens.length + 1
  matchLabel grammar limit (nestingLimit * limit) name ⟨tokens, .start⟩

end TestScout.GoSource
