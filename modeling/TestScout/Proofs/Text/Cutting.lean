import Mathlib.Data.List.Basic
import Mathlib.Data.List.DropRight
import Mathlib.Data.List.Infix
import Mathlib.Data.List.TakeWhile
import TestScout.Text.Blank
import TestScout.Text.Lines
import TestScout.Text.Split

/-!
# Trimming and cutting

What trimming, a cut at the first occurrence of a mark and a cut into lines give where the parts of
the text are known. Main statements:

* `trimStart_append_cons`, `trimEnd_append_cons`: a character that is not white space stops
  trimming;
* `infix_trim`: trimming leaves a part of the text;
* `trim_append_of_blank`, `trim_trimEnd`: white space at either end makes no difference to trimming;
* `trim_trim`: trimming twice is trimming once;
* `words_eq`: words are the pieces between white space;
* `splitAtFirst_eq_none_iff`, `splitAtFirst_append`: where a text is cut;
* `lines_append_break`, `trim_withoutReturn`: the first line of a text, whatever ends it.
-/

namespace TestScout

/-! ## 1. Trimming -/

theorem dropWhile_append_cons {p : Char → Bool} {c : Char} (h : p c = false)
    (front more : List Char) :
    (front ++ c :: more).dropWhile p = front.dropWhile p ++ c :: more := by
  rw [List.dropWhile_append]
  split
  · rename_i hempty
    rw [List.isEmpty_iff.mp hempty, List.dropWhile_cons_of_neg (by simp [h]), List.nil_append]
  · rfl

theorem trimStart_append_cons {c : Char} (h : isBlank c = false) (front more : List Char) :
    trimStart (front ++ c :: more) = trimStart front ++ c :: more :=
  dropWhile_append_cons h front more

theorem trimEnd_append_cons {c : Char} (h : isBlank c = false) (front more : List Char) :
    trimEnd (front ++ c :: more) = front ++ c :: trimEnd more := by
  have hreverse : (front ++ c :: more).reverse = more.reverse ++ c :: front.reverse := by simp
  unfold trimEnd dropEnd
  rw [hreverse, dropWhile_append_cons h]
  simp

theorem trimStart_of_blank {gap : List Char} (h : ∀ c ∈ gap, isBlank c = true) :
    trimStart gap = [] :=
  List.dropWhile_eq_nil_iff.mpr h

theorem trimStart_append_of_blank {gap : List Char} (h : ∀ c ∈ gap, isBlank c = true)
    (text : List Char) : trimStart (gap ++ text) = trimStart text :=
  List.dropWhile_append_of_pos h

theorem trimEnd_of_blank {gap : List Char} (h : ∀ c ∈ gap, isBlank c = true) :
    trimEnd gap = [] := by
  unfold trimEnd dropEnd
  rw [List.dropWhile_eq_nil_iff.mpr fun c hc => h c (List.mem_reverse.mp hc), List.reverse_nil]

theorem trimStart_suffix (text : List Char) : trimStart text <:+ text :=
  List.dropWhile_suffix isBlank

theorem trimEnd_starts (text : List Char) : trimEnd text <+: text := by
  have hreverse := List.reverse_prefix.mpr (trimStart_suffix text.reverse)
  rwa [List.reverse_reverse] at hreverse

/-- **Trimming leaves a part of the text.** -/
theorem infix_trim (text : List Char) : trim text <:+: text :=
  (trimEnd_starts (trimStart text)).isInfix.trans (trimStart_suffix text).isInfix

theorem trim_cons {c : Char} (h : isBlank c = false) (text : List Char) :
    trim (c :: text) = c :: trimEnd text := by
  have hstart : trimStart (c :: text) = c :: text := List.dropWhile_cons_of_neg (by simp [h])
  unfold trim
  rw [hstart]
  exact trimEnd_append_cons h [] text

/-- White space in front makes no difference to trimming. -/
theorem trim_append_of_blank {gap : List Char} (h : ∀ c ∈ gap, isBlank c = true)
    (text : List Char) : trim (gap ++ text) = trim text := by
  unfold trim
  rw [trimStart_append_of_blank h]

theorem trimEnd_trimEnd (text : List Char) : trimEnd (trimEnd text) = trimEnd text := by
  unfold trimEnd dropEnd
  rw [List.reverse_reverse, List.dropWhile_idempotent]

theorem trimEnd_concat {c : Char} (h : isBlank c = true) (text : List Char) :
    trimEnd (text ++ [c]) = trimEnd text := by
  unfold trimEnd dropEnd
  rw [List.reverse_concat, List.dropWhile_cons_of_pos h]

/-- A text is white space, or begins with a character that is none behind white space. -/
theorem blank_or_exists (text : List Char) :
    (∀ c ∈ text, isBlank c = true) ∨ ∃ gap c rest, (∀ c ∈ gap, isBlank c = true) ∧
      isBlank c = false ∧ text = gap ++ c :: rest := by
  induction text with
  | nil => exact Or.inl fun c hc => absurd hc List.not_mem_nil
  | cons first rest ih =>
    cases hfirst : isBlank first with
    | false => exact Or.inr ⟨[], first, rest, fun c hc => absurd hc List.not_mem_nil, hfirst, rfl⟩
    | true =>
      rcases ih with hall | ⟨gap, c, more, hgap, hc, rfl⟩
      · exact Or.inl (List.forall_mem_cons.mpr ⟨hfirst, hall⟩)
      · exact Or.inr ⟨first :: gap, c, more, List.forall_mem_cons.mpr ⟨hfirst, hgap⟩, hc, rfl⟩

/-- White space at the end makes no difference to trimming. -/
theorem trim_trimEnd (text : List Char) : trim (trimEnd text) = trim text := by
  rcases blank_or_exists text with hall | ⟨gap, c, rest, hgap, hc, rfl⟩
  · have hstart : trim text = [] := by
      unfold trim
      rw [trimStart_of_blank hall]
      rfl
    rw [trimEnd_of_blank hall, hstart]
    rfl
  · rw [trimEnd_append_cons hc, trim_append_of_blank hgap, trim_append_of_blank hgap,
      trim_cons hc, trim_cons hc, trimEnd_trimEnd]

theorem trim_concat {c : Char} (h : isBlank c = true) (text : List Char) :
    trim (text ++ [c]) = trim text := by
  rw [← trim_trimEnd, trimEnd_concat h, trim_trimEnd]

/-- A text is all white space exactly when trimming leaves nothing. -/
theorem trim_eq_nil_iff {text : List Char} : trim text = [] ↔ ∀ c ∈ text, isBlank c = true := by
  rcases blank_or_exists text with hall | ⟨gap, c, rest, hgap, hc, rfl⟩
  · unfold trim
    rw [trimStart_of_blank hall]
    exact ⟨fun _ => hall, fun _ => rfl⟩
  · rw [trim_append_of_blank hgap, trim_cons hc]
    refine ⟨fun h => absurd h (List.cons_ne_nil _ _), fun hall => ?_⟩
    rw [hall c (by simp)] at hc
    cases hc

/-- **A trimmed text is left as it is.** -/
theorem trim_trim (text : List Char) : trim (trim text) = trim text := by
  rcases blank_or_exists text with hall | ⟨gap, c, rest, hgap, hc, rfl⟩
  · rw [trim_eq_nil_iff.mpr hall]
    rfl
  · rw [trim_append_of_blank hgap, trim_cons hc, trim_cons hc, trimEnd_trimEnd]

/-! ## 2. Cutting at separators -/

/-- **The pieces between separators hold none.** -/
theorem eq_false_of_mem_splitOnP {p : Char → Bool} {text piece : List Char} {c : Char}
    (h : piece ∈ text.splitOnP p) (hc : c ∈ piece) : p c = false := by
  induction text generalizing piece with
  | nil =>
    rw [List.splitOnP_nil, List.mem_singleton] at h
    rw [h] at hc
    exact absurd hc List.not_mem_nil
  | cons first rest ih =>
    rw [List.splitOnP_cons_eq_if_modifyHead] at h
    split at h
    · rcases List.mem_cons.mp h with rfl | h
      · exact absurd hc List.not_mem_nil
      · exact ih h hc
    · rename_i hfirst
      cases hs : rest.splitOnP p with
      | nil => simp [hs] at h
      | cons head tail =>
        rw [hs, List.modifyHead_cons] at h
        rw [hs] at ih
        rcases List.mem_cons.mp h with rfl | h
        · rcases List.mem_cons.mp hc with rfl | hc
          · exact Bool.eq_false_iff.mpr hfirst
          · exact ih List.mem_cons_self hc
        · exact ih (List.mem_cons_of_mem _ h) hc

theorem not_mem_of_mem_splitOn {c : Char} {text piece : List Char} (h : piece ∈ text.splitOn c) :
    c ∉ piece := by
  rw [List.splitOn_eq_splitOnP] at h
  intro hc
  have hself := eq_false_of_mem_splitOnP h hc
  simp at hself

/-- Words are the pieces between white space, without the empty ones. -/
theorem words_go_eq {before : List Char} (h : ∀ c ∈ before, isBlank c = false) (text : List Char) :
    words.go text before =
      ((before.reverse ++ text).splitOnP isBlank).filter (!·.isEmpty) := by
  induction text generalizing before with
  | nil =>
    have hbefore : ∀ c ∈ before.reverse, isBlank c = false :=
      fun c hc => h c (List.mem_reverse.mp hc)
    rw [List.append_nil, List.splitOnP_eq_singleton hbefore]
    cases before <;> simp [words.go]
  | cons c rest ih =>
    have hbefore : ∀ c ∈ before.reverse, isBlank c = false :=
      fun c hc => h c (List.mem_reverse.mp hc)
    rw [words.go]
    cases hc : isBlank c with
    | true =>
      have hrest : words.go rest [] = (rest.splitOnP isBlank).filter (!·.isEmpty) :=
        ih fun c hc => absurd hc List.not_mem_nil
      rw [List.splitOnP_append_cons_of_forall_mem hbefore _ hc, List.filter_cons]
      cases before <;> simp [hrest]
    | false =>
      have hnext : ∀ d ∈ c :: before, isBlank d = false := List.forall_mem_cons.mpr ⟨hc, h⟩
      simp [ih hnext]

/-- **The words of a text are its pieces between white space**, without the empty ones. -/
theorem words_eq (text : List Char) : words text = (text.splitOnP isBlank).filter (!·.isEmpty) :=
  words_go_eq (fun _ h => absurd h List.not_mem_nil) text

/-! ## 3. Cutting at the first occurrence of a mark -/

theorem isPrefixOf?_eq_none_iff {mark text : List Char} :
    mark.isPrefixOf? text = none ↔ ¬ mark <+: text := by
  constructor
  · rintro h ⟨rest, hrest⟩
    have hsome := List.isPrefixOf?_eq_some_iff_append_eq.mpr hrest
    rw [h] at hsome
    cases hsome
  · intro h
    cases hcut : mark.isPrefixOf? text with
    | none => rfl
    | some rest => exact absurd ⟨rest, List.isPrefixOf?_eq_some_iff_append_eq.mp hcut⟩ h

/-- **A text is not cut exactly when the mark does not occur in it.** -/
theorem splitAtFirst_eq_none_iff {mark text : List Char} :
    splitAtFirst mark text = none ↔ ¬ mark <:+: text := by
  induction text with
  | nil =>
    unfold splitAtFirst
    cases hcut : mark.isPrefixOf? [] with
    | none =>
      have hne := isPrefixOf?_eq_none_iff.mp hcut
      simpa using hne
    | some rest =>
      have hstarts := List.isPrefixOf?_eq_some_iff_append_eq.mp hcut
      simp [(List.append_eq_nil_iff.mp hstarts).1]
  | cons c text ih =>
    unfold splitAtFirst
    rw [List.infix_cons_iff, not_or]
    cases hcut : mark.isPrefixOf? (c :: text) with
    | none => simp [ih, isPrefixOf?_eq_none_iff.mp hcut]
    | some rest =>
      have hstarts : mark <+: c :: text :=
        ⟨rest, List.isPrefixOf?_eq_some_iff_append_eq.mp hcut⟩
      simp [hstarts]

/-- **A text is cut where the mark stands, if it does not begin earlier.** It begins earlier exactly
    when it occurs in what stands before it with all its characters but the last. -/
theorem splitAtFirst_append {mark before : List Char} (behind : List Char)
    (h : ¬ mark <:+: before ++ mark.dropLast) :
    splitAtFirst mark (before ++ (mark ++ behind)) = some (before, behind) := by
  induction before with
  | nil =>
    unfold splitAtFirst
    rw [List.nil_append, List.isPrefixOf?_eq_some_iff_append_eq.mpr rfl]
  | cons c before ih =>
    have hnone : mark.isPrefixOf? (c :: (before ++ (mark ++ behind))) = none := by
      refine isPrefixOf?_eq_none_iff.mpr fun hstarts => h (List.IsPrefix.isInfix ?_)
      -- both are starts of the same text, and the mark is the shorter one
      have hlong : c :: before ++ mark.dropLast <+: c :: (before ++ (mark ++ behind)) := by
        have hmarks : mark.dropLast <+: mark ++ behind :=
          (List.dropLast_prefix mark).trans (List.prefix_append mark behind)
        exact (List.prefix_append_right_inj (c :: before)).mpr hmarks
      refine List.prefix_of_prefix_length_le hstarts hlong ?_
      rw [List.length_append, List.length_cons, List.length_dropLast]
      omega
    have hrest : ¬ mark <:+: before ++ mark.dropLast :=
      fun hoccurs => h (List.infix_cons_iff.mpr (Or.inr hoccurs))
    unfold splitAtFirst
    rw [List.cons_append, hnone]
    simp only [ih hrest, Option.map_some]

/-- **A cut loses nothing but the mark.** -/
theorem splitAtFirst_eq_some {mark text before behind : List Char}
    (h : splitAtFirst mark text = some (before, behind)) : text = before ++ (mark ++ behind) := by
  induction text generalizing before with
  | nil =>
    unfold splitAtFirst at h
    split at h
    · rename_i rest hrest
      obtain ⟨rfl, rfl⟩ := Prod.mk.inj (Option.some.inj h)
      exact (List.isPrefixOf?_eq_some_iff_append_eq.mp hrest).symm
    · cases h
  | cons c text ih =>
    unfold splitAtFirst at h
    split at h
    · rename_i rest hrest
      obtain ⟨rfl, rfl⟩ := Prod.mk.inj (Option.some.inj h)
      exact (List.isPrefixOf?_eq_some_iff_append_eq.mp hrest).symm
    · obtain ⟨⟨front, rest⟩, hcut, hsame⟩ := Option.map_eq_some_iff.mp h
      obtain ⟨rfl, rfl⟩ := Prod.mk.inj hsame
      rw [List.cons_append, ih hcut]

/-! ## 4. Cutting into lines -/

/-- A line without the carriage return that belongs to its break. -/
def withoutReturn (line : List Char) : List Char :=
  (lines.dropReturn line.reverse).reverse

/-- Whether a carriage return belongs to the break makes no difference to trimming. -/
theorem trim_withoutReturn (line : List Char) : trim (withoutReturn line) = trim line := by
  unfold withoutReturn
  cases hline : line.reverse with
  | nil => rw [List.reverse_eq_nil_iff.mp hline]; rfl
  | cons c rest =>
    have hwhole : line = rest.reverse ++ [c] := by
      rw [← List.reverse_cons, ← hline, List.reverse_reverse]
    by_cases hc : c = '\r'
    · subst hc
      rw [hwhole, trim_concat (by decide)]
      rfl
    · have hkept : lines.dropReturn (c :: rest) = c :: rest := by
        unfold lines.dropReturn
        split
        · rename_i hreturn
          exact absurd (List.cons.inj hreturn).1 hc
        · rfl
      rw [hkept, hwhole, List.reverse_cons]

theorem lines_go_cons {c : Char} (h : c ≠ '\n') (text before : List Char) :
    lines.go (c :: text) before = lines.go text (c :: before) := by
  rw [lines.go]
  exact h

theorem lines_go_append {line : List Char} (h : '\n' ∉ line) (rest before : List Char) :
    lines.go (line ++ '\n' :: rest) before =
      (lines.dropReturn (line.reverse ++ before)).reverse :: lines.go rest [] := by
  induction line generalizing before with
  | nil => rw [List.nil_append, lines.go]; rfl
  | cons c line ih =>
    have hc : c ≠ '\n' := fun hbreak => h (by simp [hbreak])
    have hline : '\n' ∉ line := fun hmem => h (List.mem_cons_of_mem c hmem)
    rw [List.cons_append, lines_go_cons hc, ih hline]
    simp

/-- **The first line of a text ends at its first break.** -/
theorem lines_append_break {line : List Char} (h : '\n' ∉ line) (rest : List Char) :
    lines (line ++ '\n' :: rest) = withoutReturn line :: lines rest := by
  unfold lines
  rw [lines_go_append h, List.append_nil]
  rfl

theorem lines_of_not_mem {line : List Char} (h : '\n' ∉ line) (hne : line ≠ []) :
    lines line = [line] := by
  have hgo : ∀ {line before : List Char}, '\n' ∉ line → line ++ before ≠ [] →
      lines.go line before = [before.reverse ++ line] := by
    intro line
    induction line with
    | nil =>
      intro before _ hne
      cases before with
      | nil => exact absurd rfl hne
      | cons c before => rw [lines.go, List.append_nil]; simp
    | cons c line ih =>
      intro before h _
      have hc : c ≠ '\n' := fun hbreak => h (by simp [hbreak])
      have hline : '\n' ∉ line := fun hmem => h (List.mem_cons_of_mem c hmem)
      rw [lines_go_cons hc, ih hline (by simp)]
      simp
  exact hgo h (by simpa using hne)

end TestScout
