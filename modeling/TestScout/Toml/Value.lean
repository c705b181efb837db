import TestScout.Number.Binary64

/-!
# Values of TOML

What can stand behind a key: a text, a number, a flag, a moment in time, a list, or a table. Nobody
asks what a table inside a value holds, so its contents are not kept.
-/

namespace TestScout.Toml

/-- The value of a key. -/
inductive Value where
  | text (value : String)
  | whole (value : Int)
  | real (value : Binary64)
  | flag (value : Bool)
  /-- A date, a time or both, as text. -/
  | moment (text : String)
  | list (items : List Value)
  | table
deriving Repr, Inhabited

end TestScout.Toml
