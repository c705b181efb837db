import TestScout.Constraint.Legacy
import TestScout.Proofs.Constraint.Grammar
import TestScout.Proofs.Lists
import TestScout.Proofs.Text.Cutting

/-!
# Lines of the older form as normal forms

A `+build` line is a disjunction of conjunctions of literals, written with white space and commas.
This is said here by its text: the clauses are the pieces between white space, the literals the
pieces between commas, and a literal is a tag behind one `!` or none. Main statements:

* `clauseTexts`, `IsLiteral`, `LiteralHolds`: a line taken apart, and what its parts mean;
* `term_eq_ok_iff`, `clauses_eq_ok_iff`: the reader gives a term for each literal, in their order;
* `eval_of_toConstraint`: clauses joined together hold exactly if one of them does;
* `exists_read_iff`: the lines that are read;
* `read_normalForm`: a line is read exactly if it has clauses and they hold literals only, and then
  it holds exactly if one clause has all its literals true.
-/

namespace TestScout.LegacyLine

/-! ## 1. A line taken apart -/

/-- The clauses of a line: its pieces between white space, of which the empty ones do not count. -/
def clauseTexts (line : List Char) : List (List Char) :=
  (line.splitOnP isBlank).filter (!·.isEmpty)

/-- A tag behind one `!` or none. -/
def IsLiteral (text : List Char) : Prop :=
  ∃ tag, tag ≠ [] ∧ (∀ c ∈ tag, Constraint.isTagChar c = true) ∧ (text = tag ∨ text = '!' :: tag)

/-- A literal is true when `ok` says which tags hold. -/
def LiteralHolds (ok : String → Bool) : List Char → Prop
  | '!' :: tag => ok (String.ofList tag) = false
  | tag => ok (String.ofList tag) = true

/-- The text writes the term. -/
inductive Writes : List Char → Term → Prop where
  | plain (tag : List Char) (h : Constraint.isTag tag = true) :
      Writes tag ⟨false, String.ofList tag⟩
  | negated (tag : List Char) (h : Constraint.isTag tag = true) :
      Writes ('!' :: tag) ⟨true, String.ofList tag⟩

variable {text line : List Char} {t : Term} {terms : List Term} {found : List (List Term)}
  {ok : String → Bool} {x : Constraint}

/-! ## 2. Literals -/

/-- No tag begins with `!`. -/
theorem isTag_negation (text : List Char) : Constraint.isTag ('!' :: text) = false := by
  have hmark : Constraint.isTagChar '!' = false := by decide
  simp [Constraint.isTag, hmark]

theorem term_of_not_negated (h : ∀ tag, text ≠ '!' :: tag) :
    term text = if Constraint.isTag text then .ok ⟨false, String.ofList text⟩
      else .error (.invalidTerm text) := by
  unfold term
  split
  rename_i hcut
  split at hcut
  · exact absurd rfl (h _)
  · obtain ⟨rfl, rfl⟩ := Prod.mk.inj hcut
    rfl

theorem term_of_negated (tag : List Char) :
    term ('!' :: tag) = if Constraint.isTag tag then .ok ⟨true, String.ofList tag⟩
      else .error (.invalidTerm ('!' :: tag)) :=
  rfl

/-- A tag is not negated. -/
theorem not_negated_of_isTag (h : Constraint.isTag text = true) (tag : List Char) :
    text ≠ '!' :: tag := by
  rintro rfl
  rw [isTag_negation] at h
  cases h

/-- **A text is read as a term exactly if it writes that term.** -/
theorem term_eq_ok_iff : term text = .ok t ↔ Writes text t := by
  constructor
  · intro h
    by_cases hnegated : ∃ tag, text = '!' :: tag
    · obtain ⟨tag, rfl⟩ := hnegated
      rw [term_of_negated] at h
      split at h
      · rename_i htag
        obtain rfl := Except.ok.inj h
        exact .negated tag htag
      · cases h
    · rw [term_of_not_negated fun tag hsame => hnegated ⟨tag, hsame⟩] at h
      split at h
      · rename_i htag
        obtain rfl := Except.ok.inj h
        exact .plain text htag
      · cases h
  · intro h
    cases h with
    | plain tag htag => rw [term_of_not_negated (not_negated_of_isTag htag), if_pos htag]
    | negated tag htag => rw [term_of_negated, if_pos htag]

theorem isLiteral_iff : IsLiteral text ↔ ∃ t, Writes text t := by
  constructor
  · rintro ⟨tag, hne, hchars, rfl | rfl⟩
    · exact ⟨_, .plain text (Constraint.isTag_iff.mpr ⟨hne, hchars⟩)⟩
    · exact ⟨_, .negated tag (Constraint.isTag_iff.mpr ⟨hne, hchars⟩)⟩
  · rintro ⟨t, h⟩
    cases h with
    | plain tag htag =>
      obtain ⟨hne, hchars⟩ := Constraint.isTag_iff.mp htag
      exact ⟨text, hne, hchars, Or.inl rfl⟩
    | negated tag htag =>
      obtain ⟨hne, hchars⟩ := Constraint.isTag_iff.mp htag
      exact ⟨tag, hne, hchars, Or.inr rfl⟩

/-- A literal is true exactly if the term it writes holds. -/
theorem Writes.literalHolds_iff (h : Writes text t) : LiteralHolds ok text ↔ t.holds ok = true := by
  cases h with
  | plain tag htag =>
    unfold LiteralHolds
    split
    · exact absurd rfl (not_negated_of_isTag htag _)
    · simp [Term.holds]
  | negated tag htag => simp [LiteralHolds, Term.holds]

/-! ## 3. Clauses -/

/-- The terms are the ones that the literals of the clause write, in their order. -/
def ClauseWrites (text : List Char) (terms : List Term) : Prop :=
  List.Forall₂ Writes (text.splitOn ',') terms

theorem clause_eq_ok_iff : clause text = .ok terms ↔ ClauseWrites text terms := by
  unfold clause ClauseWrites
  simp only [mapM_eq_ok_iff, term_eq_ok_iff]

/-- **The reader gives a term for each literal of each clause, in their order.** -/
theorem clauses_eq_ok_iff :
    clauses line = .ok found ↔ List.Forall₂ ClauseWrites (clauseTexts line) found := by
  unfold clauses clauseTexts
  simp only [words_eq, mapM_eq_ok_iff, clause_eq_ok_iff]

/-- A clause has a term, be it one that no tag stands in. -/
theorem ClauseWrites.ne_nil (h : ClauseWrites text terms) : terms ≠ [] := by
  rintro rfl
  exact List.splitOn_ne_nil ',' text (List.forall₂_nil_right_iff.mp h)

/-! ## 4. Constraints joined together -/

variable {constraints : List Constraint}

theorem eval_foldl_and : (constraints.foldl .and x).eval ok =
    (x.eval ok && constraints.all fun y => y.eval ok) := by
  induction constraints generalizing x with
  | nil => simp
  | cons y rest ih => rw [List.foldl_cons, ih, Constraint.eval, List.all_cons, Bool.and_assoc]

theorem eval_foldl_or : (constraints.foldl .or x).eval ok =
    (x.eval ok || constraints.any fun y => y.eval ok) := by
  induction constraints generalizing x with
  | nil => simp
  | cons y rest ih => rw [List.foldl_cons, ih, Constraint.eval, List.any_cons, Bool.or_assoc]

/-- Terms joined together hold exactly if all of them do. -/
theorem exists_joinWith_and (h : terms ≠ []) :
    ∃ y, joinWith .and (terms.map Term.toConstraint) = some y ∧
      ∀ ok, y.eval ok = true ↔ ∀ t ∈ terms, t.holds ok = true := by
  obtain ⟨first, rest, rfl⟩ := List.exists_cons_of_ne_nil h
  refine ⟨_, rfl, fun ok => ?_⟩
  simp [eval_foldl_and]

/-- Each clause gives a constraint, which holds exactly if all its terms do. -/
theorem exists_conjunctions (h : ∀ terms ∈ found, terms ≠ []) :
    ∃ ys, (found.filterMap fun terms => joinWith .and (terms.map Term.toConstraint)) = ys ∧
      List.Forall₂ (fun terms y => ∀ ok, Constraint.eval ok y = true ↔
        ∀ t ∈ terms, t.holds ok = true) found ys := by
  induction found with
  | nil => exact ⟨[], rfl, .nil⟩
  | cons terms rest ih =>
    obtain ⟨hterms, hrest⟩ := List.forall_mem_cons.mp h
    obtain ⟨y, hy, heval⟩ := exists_joinWith_and hterms
    obtain ⟨ys, hys, hside⟩ := ih hrest
    exact ⟨y :: ys, by rw [List.filterMap_cons, hy, hys], .cons heval hside⟩

/-- Clauses are joined together unless there are none. -/
theorem exists_toConstraint_iff (h : ∀ terms ∈ found, terms ≠ []) :
    (∃ x, toConstraint found = some x) ↔ found ≠ [] := by
  obtain ⟨ys, hys, hside⟩ := exists_conjunctions h
  unfold toConstraint
  rw [hys]
  cases hside with
  | nil => simp [joinWith]
  | cons _ _ => simp [joinWith]

/-- **Clauses joined together hold exactly if one of them has all its terms hold.** -/
theorem eval_of_toConstraint (h : ∀ terms ∈ found, terms ≠ []) (hx : toConstraint found = some x) :
    x.eval ok = true ↔ ∃ terms ∈ found, ∀ t ∈ terms, t.holds ok = true := by
  obtain ⟨ys, hys, hside⟩ := exists_conjunctions h
  unfold toConstraint at hx
  rw [hys] at hx
  have hany : x.eval ok = true ↔ ∃ y ∈ ys, y.eval ok = true := by
    cases ys with
    | nil => cases hx
    | cons y rest =>
      obtain rfl := Option.some.inj hx
      simp [eval_foldl_or]
  rw [hany]
  exact (exists_mem_iff_of_forall₂ hside fun terms y hy => (hy ok).symm).symm

/-! ## 5. Lines -/

theorem read_eq_ok_iff :
    read line = .ok x ↔ ∃ found, List.Forall₂ ClauseWrites (clauseTexts line) found ∧
      toConstraint found = some x := by
  simp only [← clauses_eq_ok_iff]
  unfold read
  cases clauses line with
  | error e => simp
  | ok found => cases hjoined : toConstraint found <;> simp [hjoined]

theorem ne_nil_of_clauseWrites (h : List.Forall₂ ClauseWrites (clauseTexts line) found) :
    ∀ terms ∈ found, terms ≠ [] := by
  have hiff : ∀ text terms, ClauseWrites text terms → (True ↔ terms ≠ []) :=
    fun _ _ hterms => iff_of_true trivial hterms.ne_nil
  exact (forall_mem_iff_of_forall₂ h hiff).mp fun _ _ => trivial

/-- A clause writes terms exactly if its pieces are literals. -/
theorem exists_clauseWrites_iff :
    (∃ terms, ClauseWrites text terms) ↔ ∀ literal ∈ text.splitOn ',', IsLiteral literal := by
  unfold ClauseWrites
  simp only [exists_forall₂_iff, isLiteral_iff]

/-- All terms of a clause hold exactly if its literals are true. -/
theorem ClauseWrites.literalsHold_iff (h : ClauseWrites text terms) :
    (∀ literal ∈ text.splitOn ',', LiteralHolds ok literal) ↔ ∀ t ∈ terms, t.holds ok = true :=
  forall_mem_iff_of_forall₂ h fun _ _ hwrites => hwrites.literalHolds_iff

/-- A line that is not read has no clauses, or a piece of it is no term. -/
theorem read_eq_error {e : ConstraintError} (h : read line = .error e) :
    e = .emptyLine ∨ ∃ text, e = .invalidTerm text := by
  unfold read at h
  split at h
  · rename_i hclauses
    obtain rfl := Except.error.inj h
    obtain ⟨text, -, hclause⟩ := exists_of_mapM_eq_error hclauses
    obtain ⟨piece, -, hterm⟩ := exists_of_mapM_eq_error hclause
    unfold term at hterm
    split at hterm
    split at hterm
    · cases hterm
    · exact Or.inr ⟨piece, (Except.error.inj hterm).symm⟩
  · split at h
    · cases h
    · exact Or.inl (Except.error.inj h).symm

/-- **A line is read exactly if it has clauses and they hold literals only.** -/
theorem exists_read_iff :
    (∃ x, read line = .ok x) ↔ clauseTexts line ≠ [] ∧
      ∀ clause ∈ clauseTexts line, ∀ literal ∈ clause.splitOn ',', IsLiteral literal := by
  simp only [← exists_clauseWrites_iff, ← exists_forall₂_iff, read_eq_ok_iff]
  constructor
  · rintro ⟨x, found, hside, hx⟩
    have hne := (exists_toConstraint_iff (ne_nil_of_clauseWrites hside)).mp ⟨x, hx⟩
    refine ⟨fun hnil => hne ?_, found, hside⟩
    rwa [hnil, List.forall₂_nil_left_iff] at hside
  · rintro ⟨hne, found, hside⟩
    have hfound : found ≠ [] := by
      rintro rfl
      exact hne (List.forall₂_nil_right_iff.mp hside)
    obtain ⟨x, hx⟩ := (exists_toConstraint_iff (ne_nil_of_clauseWrites hside)).mpr hfound
    exact ⟨x, found, hside, hx⟩

/-- **A line is a disjunctive normal form.** It is read exactly if it has clauses and every piece of
    every clause is a literal; and whatever tags hold, what is read then holds exactly if some
    clause has all its literals true. -/
theorem read_normalForm (line : List Char) :
    ((∃ x, read line = .ok x) ↔ clauseTexts line ≠ [] ∧
      ∀ clause ∈ clauseTexts line, ∀ literal ∈ clause.splitOn ',', IsLiteral literal) ∧
    ∀ x, read line = .ok x → ∀ ok, x.eval ok = true ↔
      ∃ clause ∈ clauseTexts line, ∀ literal ∈ clause.splitOn ',', LiteralHolds ok literal := by
  refine ⟨exists_read_iff, fun x hread ok => ?_⟩
  obtain ⟨found, hside, hx⟩ := read_eq_ok_iff.mp hread
  rw [eval_of_toConstraint (ne_nil_of_clauseWrites hside) hx]
  exact (exists_mem_iff_of_forall₂ hside fun _ _ hwrites => hwrites.literalsHold_iff).symm

/-- A line with white space of several kinds, a clause of three literals and one of a single one. -/
def mixedLine : List Char :=
  "\t linux,!cgo,go1.21\u00a0 \u3000!a_b ".toList

theorem read_normalForm_mixedLine :
    let x : Constraint := .or (.and (.and (.tag "linux") (.not (.tag "cgo"))) (.tag "go1.21"))
      (.not (.tag "a_b"))
    read mixedLine = .ok x ∧ ∀ ok, x.eval ok = true ↔
      ∃ clause ∈ clauseTexts mixedLine,
        ∀ literal ∈ clause.splitOn ',', LiteralHolds ok literal := by
  intro x
  have hread : read mixedLine = .ok x := by decide +kernel
  exact ⟨hread, (read_normalForm mixedLine).2 x hread⟩

end TestScout.LegacyLine
