/-!
# Build constraints

A constraint says for which sets of tags a file belongs to the build: a tag holds or not, and
constraints are put together with `!`, `&&` and `||`. What a constraint says depends on its own
tags only.
-/

namespace TestScout

/-- A formula over tags. -/
inductive Constraint where
  | tag (name : String)
  | not (x : Constraint)
  | and (x y : Constraint)
  | or (x y : Constraint)
deriving DecidableEq, Repr, Inhabited

namespace Constraint

/-! ## 1. Meaning -/

/-- Whether the constraint holds when `ok` says which tags hold. -/
def eval (ok : String → Bool) : Constraint → Bool
  | .tag name => ok name
  | .not x => !x.eval ok
  | .and x y => x.eval ok && y.eval ok
  | .or x y => x.eval ok || y.eval ok

/-! ## 2. Tags -/

/-- The tags of the constraint behind the ones already found, each at its first place. -/
def collect : Constraint → List String → List String
  | .tag name, found => if name ∈ found then found else found ++ [name]
  | .not x, found => x.collect found
  | .and x y, found => y.collect (x.collect found)
  | .or x y, found => y.collect (x.collect found)

/-- The tags of the constraint in the order in which they first appear, each once. -/
def tags (x : Constraint) : List String :=
  x.collect []

/-- Whether a tag stands in the constraint. -/
def Mentions (name : String) : Constraint → Prop
  | .tag other => name = other
  | .not x => x.Mentions name
  | .and x y => x.Mentions name ∨ y.Mentions name
  | .or x y => x.Mentions name ∨ y.Mentions name

theorem mem_collect {name : String} : ∀ {x : Constraint} {found : List String},
    name ∈ x.collect found ↔ name ∈ found ∨ x.Mentions name
  | .tag other, found => by
      unfold collect Mentions
      split
      · rename_i h
        constructor
        · exact Or.inl
        · rintro (h' | rfl)
          · exact h'
          · exact h
      · simp
  | .not x, found => by simpa [collect, Mentions] using mem_collect (x := x)
  | .and x y, found => by
      simp only [collect, Mentions, mem_collect (x := y), mem_collect (x := x), or_assoc]
  | .or x y, found => by
      simp only [collect, Mentions, mem_collect (x := y), mem_collect (x := x), or_assoc]

/-- **The tags are the ones that stand in the constraint.** -/
@[simp] theorem mem_tags {name : String} {x : Constraint} : name ∈ x.tags ↔ x.Mentions name := by
  simp [tags, mem_collect]

theorem nodup_collect : ∀ {x : Constraint} {found : List String}, found.Nodup →
    (x.collect found).Nodup
  | .tag other, found, h => by
      unfold collect
      split
      · exact h
      · rename_i hmem
        rw [List.nodup_append]
        exact ⟨h, by simp, by rintro a ha b hb rfl; simp at hb; exact hmem (hb ▸ ha)⟩
  | .not x, found, h => nodup_collect (x := x) h
  | .and x y, found, h => nodup_collect (x := y) (nodup_collect (x := x) h)
  | .or x y, found, h => nodup_collect (x := y) (nodup_collect (x := x) h)

/-- **No tag is listed twice.** -/
theorem nodup_tags (x : Constraint) : x.tags.Nodup :=
  nodup_collect List.nodup_nil

/-- **Only the tags of a constraint matter to it.** -/
theorem eval_congr {ok ok' : String → Bool} : ∀ {x : Constraint},
    (∀ name, x.Mentions name → ok name = ok' name) → x.eval ok = x.eval ok'
  | .tag name, h => h name rfl
  | .not x, h => by
      rw [eval, eval, eval_congr (x := x) h]
  | .and x y, h => by
      rw [eval, eval, eval_congr (x := x) (fun n hn => h n (Or.inl hn)),
        eval_congr (x := y) (fun n hn => h n (Or.inr hn))]
  | .or x y, h => by
      rw [eval, eval, eval_congr (x := x) (fun n hn => h n (Or.inl hn)),
        eval_congr (x := y) (fun n hn => h n (Or.inr hn))]

end Constraint

end TestScout
