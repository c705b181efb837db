
/-!
# JSON values

Answers are written as JSON on one line, without spaces and with the members of an object in the
order in which they are given. Only quotes, backslashes and control characters are escaped.
-/

namespace TestScout

/-- The values that answers are made of. -/
inductive Json where
  | text (value : String)
  | number (value : Nat)
  | array (items : List Json)
  | object (members : List (String × Json))
deriving Repr, Inhabited

namespace Json

/-! ## 1. Texts -/

/-- One character inside the quotes of a text. -/
def escape (c : Char) : List Char :=
  if c = '"' then ['\\', '"']
  else if c = '\\' then ['\\', '\\']
  else if c = '\x08' then ['\\', 'b']
  else if c = '\x0c' then ['\\', 'f']
  else if c = '\n' then ['\\', 'n']
  else if c = '\r' then ['\\', 'r']
  else if c = '\t' then ['\\', 't']
  else if c.toNat < 0x20 then
    ['\\', 'u', '0', '0', Nat.digitChar (c.toNat / 16), Nat.digitChar (c.toNat % 16)]
  else [c]

/-- A text in quotes. -/
def quote (value : String) : String :=
  "\"" ++ String.ofList (value.toList.flatMap escape) ++ "\""

/-! ## 2. Values -/

mutual

/-- The text of a value. -/
def render : Json → String
  | .text value => quote value
  | .number value => toString value
  | .array items => "[" ++ ",".intercalate (renderItems items) ++ "]"
  | .object members => "\x7b" ++ ",".intercalate (renderMembers members) ++ "\x7d"

/-- The texts of values. -/
def renderItems : List Json → List String
  | [] => []
  | item :: rest => item.render :: renderItems rest

/-- The texts of members. -/
def renderMembers : List (String × Json) → List String
  | [] => []
  | (name, value) :: rest => (quote name ++ ":" ++ value.render) :: renderMembers rest

end

/-- A member where there is a value. -/
def member? (name : String) (value : Option Json) : List (String × Json) :=
  (value.map fun found => (name, found)).toList

/-- A list as a member where it is not empty. -/
def listMember? (name : String) (items : List Json) : List (String × Json) :=
  if items.isEmpty then [] else [(name, .array items)]

end Json

end TestScout
