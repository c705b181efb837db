/-!
# Cutting a text

Texts are lists of characters here, so that a cut is a fact about lists: the pieces put together
again with the separator between them are the text.
-/

namespace TestScout

/-! ## 1. Cutting at the last occurrence of a character -/

/-- The text before and after the last occurrence of the separator. -/
def splitLast (sep : Char) (text : List Char) : Option (List Char × List Char) :=
  match text with
  | [] => none
  | c :: rest =>
    match splitLast sep rest with
    | some (before, after) => some (c :: before, after)
    | none => if c = sep then some ([], rest) else none

/-- **The cut loses nothing but the separator, and the piece behind it has none.** -/
theorem splitLast_eq_some {sep : Char} : ∀ {text before after : List Char},
    splitLast sep text = some (before, after) → text = before ++ sep :: after ∧ sep ∉ after
  | [], _, _, h => by simp [splitLast] at h
  | c :: rest, before, after, h => by
      unfold splitLast at h
      split at h
      · rename_i before' after' hrest
        simp only [Option.some.injEq, Prod.mk.injEq] at h
        obtain ⟨rfl, rfl⟩ := h
        obtain ⟨rfl, hmem⟩ := splitLast_eq_some hrest
        exact ⟨rfl, hmem⟩
      · rename_i hrest
        split at h
        · rename_i hc
          simp only [Option.some.injEq, Prod.mk.injEq] at h
          obtain ⟨rfl, rfl⟩ := h
          exact ⟨by simp [hc], splitLast_eq_none hrest⟩
        · simp at h
where
  /-- No cut means no separator. -/
  splitLast_eq_none {sep : Char} : ∀ {text : List Char}, splitLast sep text = none → sep ∉ text
    | [], _ => by simp
    | c :: rest, h => by
        unfold splitLast at h
        split at h
        · simp at h
        · rename_i hrest
          split at h
          · simp at h
          · rename_i hc
            simp [splitLast_eq_none hrest, Ne.symm hc]

/-- **A text is cut where no separator follows.** -/
theorem splitLast_append {sep : Char} (before : List Char) {after : List Char} (h : sep ∉ after) :
    splitLast sep (before ++ sep :: after) = some (before, after) := by
  induction before with
  | nil =>
    have hnone : splitLast sep after = none := by
      cases hcut : splitLast sep after with
      | none => rfl
      | some cut =>
        obtain ⟨htext, -⟩ := splitLast_eq_some hcut
        rw [htext] at h
        exact absurd (List.mem_append_right _ List.mem_cons_self) h
    rw [List.nil_append, splitLast, hnone]
    exact if_pos rfl
  | cons c rest ih => rw [List.cons_append, splitLast, ih]

/-! ## 2. Cutting at the first occurrence of a text -/

/-- The text before and after the first occurrence of `mark`. -/
def splitAtFirst (mark : List Char) (text : List Char) : Option (List Char × List Char) :=
  match mark.isPrefixOf? text with
  | some after => some ([], after)
  | none =>
    match text with
    | [] => none
    | c :: rest => (splitAtFirst mark rest).map fun cut => (c :: cut.1, cut.2)

/-- Whether `mark` occurs in the text. -/
def occursIn (mark : List Char) (text : List Char) : Bool :=
  (splitAtFirst mark text).isSome

/-- The text without `mark` in front, if it starts with it. -/
def after? (mark : List Char) (text : List Char) : Option (List Char) :=
  mark.isPrefixOf? text

end TestScout
