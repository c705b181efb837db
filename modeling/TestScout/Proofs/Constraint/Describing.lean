import TestScout.Constraint.Basic

/-!
# Constraints that describe

For every choice of which of some tags hold there is a constraint that says just that. Main
statements:

* `eval_describing`: the constraint holds where the tags are as described, and nowhere else;
* `tags_describing`: its tags are those that it describes, in their order.
-/

namespace TestScout.Constraint

/-- The constraint that a tag holds, or that it does not. -/
def literal (tag : String) (on : Bool) : Constraint :=
  if on then .tag tag else .not (.tag tag)

/-- The constraint that of some tags, one at least, exactly those hold for which `ok` says so. -/
def describing (ok : String → Bool) (tag : String) : List String → Constraint
  | [] => literal tag (ok tag)
  | next :: rest => .and (literal tag (ok tag)) (describing ok next rest)

theorem eval_literal (ok : String → Bool) (tag : String) (on : Bool) :
    (literal tag on).eval ok = true ↔ ok tag = on := by
  cases on <;> simp [literal, eval]

theorem collect_literal {tag : String} {found : List String} (on : Bool) (h : tag ∉ found) :
    (literal tag on).collect found = found ++ [tag] := by
  cases on <;> simp [literal, collect, h]

/-- **The description holds where the tags are as described, and nowhere else.** -/
theorem eval_describing (ok ok' : String → Bool) (tag : String) (rest : List String) :
    (describing ok' tag rest).eval ok = true ↔ ∀ name ∈ tag :: rest, ok name = ok' name := by
  induction rest generalizing tag with
  | nil => simp [describing, eval_literal]
  | cons next rest ih =>
    rw [describing, eval, Bool.and_eq_true, eval_literal, ih, List.forall_mem_cons (a := tag)]

theorem collect_describing (ok : String → Bool) (tag : String) (rest found : List String)
    (hnodup : (tag :: rest).Nodup) (hnew : ∀ name ∈ tag :: rest, name ∉ found) :
    (describing ok tag rest).collect found = found ++ tag :: rest := by
  induction rest generalizing tag found with
  | nil => exact collect_literal _ (hnew tag List.mem_cons_self)
  | cons next rest ih =>
    rw [List.nodup_cons] at hnodup
    have hnext : ∀ name ∈ next :: rest, name ∉ found ++ [tag] := by
      intro name hname hmem
      rcases List.mem_append.mp hmem with hfound | htag
      · exact hnew name (List.mem_cons_of_mem _ hname) hfound
      · exact hnodup.1 (List.mem_singleton.mp htag ▸ hname)
    rw [describing, collect, collect_literal _ (hnew tag List.mem_cons_self),
      ih next _ hnodup.2 hnext, List.append_assoc]
    rfl

/-- **The description has the tags that it describes, in their order.** -/
theorem tags_describing (ok : String → Bool) {tag : String} {rest : List String}
    (hnodup : (tag :: rest).Nodup) : (describing ok tag rest).tags = tag :: rest :=
  collect_describing ok tag rest [] hnodup fun _ _ => List.not_mem_nil

end TestScout.Constraint
