import TestScout.Constraint.Reader

/-!
# Constraint lines of the older form

A `+build` line lists clauses with white space between them, one of which has to hold; a clause
lists terms with commas between them, all of which have to hold; a term is a tag or a tag behind
one `!`. So a line is a formula in disjunctive normal form.
-/

namespace TestScout.LegacyLine

/-! ## 1. Terms and clauses -/

/-- A tag that has to hold, or has not to hold. -/
structure Term where
  negated : Bool
  tag : String
deriving DecidableEq, Repr

/-- The term that a text writes. -/
def term (text : List Char) : Except ConstraintError Term :=
  let (negated, tag) := match text with
    | '!' :: tag => (true, tag)
    | _ => (false, text)
  if Constraint.isTag tag then .ok ⟨negated, String.ofList tag⟩ else .error (.invalidTerm text)

/-- The terms of a clause. -/
def clause (text : List Char) : Except ConstraintError (List Term) :=
  (text.splitOn ',').mapM term

/-- The clauses of a line. -/
def clauses (line : List Char) : Except ConstraintError (List (List Term)) :=
  (words line).mapM clause

/-! ## 2. Meaning -/

/-- Whether the term holds. -/
def Term.holds (ok : String → Bool) (t : Term) : Bool :=
  ok t.tag != t.negated

/-- The term as a constraint. -/
def Term.toConstraint (t : Term) : Constraint :=
  if t.negated then .not (.tag t.tag) else .tag t.tag

/-- The first constraint and the others, joined to the left. -/
def joinWith (op : Constraint → Constraint → Constraint) : List Constraint → Option Constraint
  | [] => none
  | x :: rest => some (rest.foldl op x)

/-- The constraint that clauses say, none without any. -/
def toConstraint (clauses : List (List Term)) : Option Constraint :=
  joinWith .or (clauses.filterMap fun terms => joinWith .and (terms.map Term.toConstraint))

/-- The constraint that a line writes. -/
def read (line : List Char) : Except ConstraintError Constraint :=
  match clauses line with
  | .error e => .error e
  | .ok found =>
    match toConstraint found with
    | some x => .ok x
    | none => .error .emptyLine

@[simp] theorem eval_toConstraint (ok : String → Bool) (t : Term) :
    t.toConstraint.eval ok = t.holds ok := by
  unfold Term.toConstraint Term.holds
  split <;> simp_all [Constraint.eval]

end TestScout.LegacyLine
