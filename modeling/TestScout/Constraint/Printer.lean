import TestScout.Constraint.Basic

/-!
# Writing constraints

A constraint is written with as few parentheses as the reader needs: around an `||` inside an `&&`,
and around an `&&` or `||` behind `!`. Chains of one operator are written without any, whichever
way they are grouped.
-/

namespace TestScout.Constraint

/-- Whether the constraint is an `||`. -/
def isOr : Constraint → Bool
  | .or _ _ => true
  | _ => false

/-- Whether the constraint joins two others. -/
def isBinary : Constraint → Bool
  | .and _ _ | .or _ _ => true
  | _ => false

/-- The text, in parentheses where asked for. -/
def parenthesised (wanted : Bool) (text : List Char) : List Char :=
  if wanted then '(' :: text ++ [')'] else text

/-- The constraint as a text. -/
def render : Constraint → List Char
  | .tag name => name.toList
  | .not x => '!' :: parenthesised x.isBinary x.render
  | .and x y =>
    parenthesised x.isOr x.render ++ [' ', '&', '&', ' '] ++ parenthesised y.isOr y.render
  | .or x y => x.render ++ [' ', '|', '|', ' '] ++ y.render

/-- The constraint as it is shown. -/
def toText (x : Constraint) : String :=
  String.ofList x.render

end TestScout.Constraint
