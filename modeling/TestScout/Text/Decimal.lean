/-!
# Bounded decimal numbers

A number in a query or a setting is an optional plus sign and digits, and has to lie within a
bound.
-/

namespace TestScout.Decimal

/-- The largest number of a machine word of 64 bits. -/
def wordMax : Nat := Nat.pow 2 64 - 1

/-- The value of a run of digits, none for anything else. -/
def digits? (text : List Char) : Option Nat :=
  if text.isEmpty || !text.all Char.isDigit then none
  else some (text.foldl (fun n c => 10 * n + (c.toNat - '0'.toNat)) 0)

/-- The number a text writes, if it is at most `bound`. -/
def read? (bound : Nat) (text : List Char) : Option Nat :=
  let value := match text with
    | '+' :: rest => digits? rest
    | _ => digits? text
  value.filter (· ≤ bound)

end TestScout.Decimal
