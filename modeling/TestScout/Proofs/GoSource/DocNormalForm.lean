import Mathlib.Data.List.Chain
import Mathlib.Data.List.DropRight
import TestScout.GoSource.DocText
import TestScout.Proofs.Text.Cutting

/-!
# The normal form of documentation texts

Whatever comments say, the text made from them is empty or a sequence of closed lines, of which the
first and the last say something, no two in a row say nothing, and none ends in white space. Such a
text is what comments say that each hold one of its lines, so making the text a second time changes
nothing. Main statements:

* `squeezed_squeeze`: removing repeated empty lines leaves none, and none at the start;
* `exists_normal`: a documentation text is closed lines in normal form;
* `ofComments_of_normalForm`: a text in normal form is given back by line comments;
* `normalForm_ofComments`: a documentation text is in normal form, and is given back by line
  comments.
-/

namespace TestScout.GoSource.DocText

/-! ## 1. Normal forms -/

/-- The lines of a text, without the empty one behind its last line break. -/
def linesOf (text : List Char) : List (List Char) :=
  (text.splitOn '\n').dropLast

/-- The text of lines, each closed by a line break. -/
def textOf (lines : List (List Char)) : List Char :=
  lines.flatMap fun line => line ++ ['\n']

/-- The line comment that says a line. -/
def lineComment (line : List Char) : List Char :=
  '/' :: '/' :: ' ' :: line

/-- Lines without breaks and without white space at their ends, of which the first is not empty, nor
    are two in a row. -/
structure Squeezed (lines : List (List Char)) : Prop where
  starts : [] ∉ lines.head?
  apart : lines.IsChain fun upper lower => upper ≠ [] ∨ lower ≠ []
  trimmed : ∀ line ∈ lines, ∀ c ∈ line.getLast?, c ∉ [' ', '\t', '\x0b', '\x0c', '\r']
  unbroken : ∀ line ∈ lines, '\n' ∉ line

/-- Squeezed lines of which the last is not empty either. -/
structure Normal (lines : List (List Char)) : Prop extends Squeezed lines where
  ends : [] ∉ lines.getLast?

/-- The text is empty or ends in exactly one line break, and its lines are normal. -/
structure NormalForm (text : List Char) : Prop where
  closed : text = [] ∨ ∃ body c, text = body ++ [c, '\n'] ∧ c ≠ '\n'
  lines : Normal (linesOf text)

/-! ## 2. Lines and texts -/

theorem textOf_eq_intercalate (lines : List (List Char)) :
    textOf lines = ['\n'].intercalate (lines ++ [[]]) := by
  induction lines with
  | nil => rfl
  | cons line lines ih =>
    have hne : lines ++ [[]] ≠ [] := List.append_ne_nil_of_right_ne_nil _ (List.cons_ne_nil _ _)
    rw [List.cons_append, List.intercalate_cons_of_ne_nil hne, ← ih]
    rfl

theorem linesOf_textOf {lines : List (List Char)} (h : ∀ line ∈ lines, '\n' ∉ line) :
    linesOf (textOf lines) = lines := by
  have hpieces : ∀ line ∈ lines ++ [[]], '\n' ∉ line := by
    intro line hline
    rcases List.mem_append.mp hline with hline | hline
    · exact h line hline
    · rw [List.mem_singleton.mp hline]
      exact List.not_mem_nil
  have hne : lines ++ [[]] ≠ [] := List.append_ne_nil_of_right_ne_nil _ (List.cons_ne_nil _ _)
  rw [linesOf, textOf_eq_intercalate, List.splitOn_intercalate '\n' hpieces hne,
    List.dropLast_concat]

/-- A text that is empty or ends in a line break is the text of its lines. -/
theorem textOf_linesOf {text : List Char} (h : text = [] ∨ ∃ body, text = body ++ ['\n']) :
    textOf (linesOf text) = text := by
  rcases h with rfl | ⟨body, rfl⟩
  · rfl
  · rw [linesOf, List.splitOn_append_cons_self, List.splitOn_nil, List.dropLast_concat,
      textOf_eq_intercalate, ← List.splitOn_nil '\n', ← List.splitOn_append_cons_self,
      List.intercalate_splitOn]

/-- The text of normal lines is in normal form. -/
theorem Normal.normalForm {lines : List (List Char)} (h : Normal lines) :
    NormalForm (textOf lines) where
  closed := by
    rcases List.eq_nil_or_concat lines with rfl | ⟨front, last, rfl⟩
    · exact Or.inl rfl
    · rcases List.eq_nil_or_concat last with rfl | ⟨start, c, rfl⟩
      · exact absurd (by simp) h.ends
      · refine Or.inr ⟨textOf front ++ start, c, by simp [textOf], ?_⟩
        have hunbroken : '\n' ∉ start.concat c := h.unbroken _ (by simp)
        rintro rfl
        exact hunbroken (by simp)
  lines := by rwa [linesOf_textOf h.unbroken]

/-! ## 3. The lines of comments -/

theorem isTrailing_eq_false_iff {c : Char} :
    isTrailing c = false ↔ c ∉ [' ', '\t', '\x0b', '\x0c', '\r'] ∧ c ≠ '\n' := by
  simp only [isTrailing, Bool.or_eq_false_iff, beq_eq_false_iff_ne, List.mem_cons,
    List.not_mem_nil, or_false, not_or]
  tauto

/-- Trimming a line leaves a part of it that ends in no white space. -/
theorem trimLine_cases (line : List Char) :
    trimLine line <+: line ∧ ∀ c ∈ (trimLine line).getLast?, isTrailing c = false := by
  refine ⟨List.rdropWhile_prefix isTrailing line, fun c hc => ?_⟩
  have hne : trimLine line ≠ [] := List.ne_nil_of_mem (List.mem_of_mem_getLast? hc)
  have hlast := List.rdropWhile_last_not isTrailing line hne
  rw [List.getLast?_eq_some_getLast hne] at hc
  rw [← Option.some.inj hc]
  exact Bool.eq_false_iff.mpr hlast

theorem trimLine_eq_self {line : List Char} (h : ∀ c ∈ line.getLast?, isTrailing c = false) :
    trimLine line = line := by
  refine List.rdropWhile_eq_self_iff.mpr fun hne => ?_
  exact Bool.eq_false_iff.mp (h _ (List.getLast?_eq_some_getLast hne))

/-- **The lines of comments hold no break, and end in no white space.** -/
theorem of_mem_rawLines {comments : List (List Char)} {line : List Char}
    (h : line ∈ rawLines comments) : '\n' ∉ line ∧ ∀ c ∈ line.getLast?, isTrailing c = false := by
  obtain ⟨body, -, hline⟩ := List.mem_flatMap.mp h
  obtain ⟨piece, hpiece, rfl⟩ := List.mem_map.mp hline
  obtain ⟨hpart, htrimmed⟩ := trimLine_cases piece
  refine ⟨fun hmem => ?_, htrimmed⟩
  rw [List.splitOn_eq_splitOnP] at hpiece
  exact absurd (eq_false_of_mem_splitOnP hpiece (hpart.subset hmem)) (by decide)

/-- Line comments have the lines that they say. -/
theorem rawLines_lineComment {lines : List (List Char)} (h : Squeezed lines) :
    rawLines (lines.map lineComment) = lines := by
  have hbody : (lines.map lineComment).filterMap body? = lines := by
    rw [List.filterMap_map]
    exact List.filterMap_some
  have hline : ∀ line ∈ lines, (line.splitOn '\n').map trimLine = [line] := by
    intro line hline
    have htrimmed : ∀ c ∈ line.getLast?, isTrailing c = false := by
      intro c hc
      refine isTrailing_eq_false_iff.mpr ⟨h.trimmed line hline c hc, ?_⟩
      rintro rfl
      exact h.unbroken line hline (List.mem_of_mem_getLast? hc)
    rw [List.splitOn_eq_singleton (h.unbroken line hline), List.map_singleton,
      trimLine_eq_self htrimmed]
  rw [rawLines, hbody, List.flatMap_congr hline, List.flatMap_singleton']

/-! ## 4. Removing repeated empty lines -/

theorem squeeze_cons_of_ne {blank : Bool} {line : List Char} (h : line ≠ [])
    (rest : List (List Char)) : squeeze blank (line :: rest) = line :: squeeze false rest := by
  rw [squeeze]
  exact h

/-- What is left was there before. -/
theorem mem_of_mem_squeeze {blank : Bool} {lines : List (List Char)} {line : List Char}
    (h : line ∈ squeeze blank lines) : line ∈ lines := by
  induction lines generalizing blank with
  | nil => exact h
  | cons first rest ih =>
    by_cases hfirst : first = []
    · subst hfirst
      rw [squeeze] at h
      split at h
      · exact List.mem_cons_of_mem _ (ih h)
      · exact List.mem_cons.mpr ((List.mem_cons.mp h).imp_right ih)
    · rw [squeeze_cons_of_ne hfirst] at h
      exact List.mem_cons.mpr ((List.mem_cons.mp h).imp_right ih)

/-- Nothing empty is left at the start. -/
theorem head?_squeeze (lines : List (List Char)) : [] ∉ (squeeze true lines).head? := by
  induction lines with
  | nil => simp [squeeze]
  | cons first rest ih =>
    by_cases hfirst : first = []
    · subst hfirst
      simpa [squeeze] using ih
    · rw [squeeze_cons_of_ne hfirst]
      simpa using hfirst

/-- No two empty lines in a row are left. -/
theorem isChain_squeeze (blank : Bool) (lines : List (List Char)) :
    (squeeze blank lines).IsChain fun upper lower => upper ≠ [] ∨ lower ≠ [] := by
  induction lines generalizing blank with
  | nil => exact .nil
  | cons first rest ih =>
    by_cases hfirst : first = []
    · subst hfirst
      rw [squeeze]
      split
      · exact ih true
      · refine List.isChain_cons.mpr ⟨fun lower hlower => Or.inr ?_, ih true⟩
        rintro rfl
        exact head?_squeeze rest hlower
    · rw [squeeze_cons_of_ne hfirst]
      exact List.isChain_cons.mpr ⟨fun _ _ => Or.inl hfirst, ih false⟩

/-- **The lines of comments are squeezed.** -/
theorem squeezed_squeeze (comments : List (List Char)) :
    Squeezed (squeeze true (rawLines comments)) where
  starts := head?_squeeze _
  apart := isChain_squeeze true _
  trimmed _ hline c hc :=
    (isTrailing_eq_false_iff.mp ((of_mem_rawLines (mem_of_mem_squeeze hline)).2 c hc)).1
  unbroken _ hline := (of_mem_rawLines (mem_of_mem_squeeze hline)).1

/-- Where there is nothing to remove, nothing is removed. -/
theorem squeeze_eq_self {blank : Bool} {lines : List (List Char)}
    (hstarts : blank = true → [] ∉ lines.head?)
    (hapart : lines.IsChain fun upper lower => upper ≠ [] ∨ lower ≠ []) :
    squeeze blank lines = lines := by
  induction lines generalizing blank with
  | nil => rfl
  | cons first rest ih =>
    obtain ⟨hnext, hrest⟩ := List.isChain_cons.mp hapart
    by_cases hfirst : first = []
    · subst hfirst
      have hblank : ¬ blank = true := fun hblank => hstarts hblank rfl
      have hhead : [] ∉ rest.head? := fun hhead => (hnext [] hhead).elim (· rfl) (· rfl)
      rw [squeeze, if_neg hblank, ih (fun _ => hhead) hrest]
    · rw [squeeze_cons_of_ne hfirst, ih (fun h => absurd h (by decide)) hrest]

/-! ## 5. The text of comments -/

theorem Squeezed.front {lines behind : List (List Char)} (h : Squeezed (lines ++ behind)) :
    Squeezed lines where
  starts := by
    cases lines with
    | nil => simp
    | cons line lines => exact h.starts
  apart := h.apart.left_of_append
  trimmed line hline := h.trimmed line (List.mem_append_left _ hline)
  unbroken line hline := h.unbroken line (List.mem_append_left _ hline)

theorem close_concat_nil (front : List (List Char)) : close (front ++ [[]]) = front ++ [[]] := by
  rw [close, List.getLast?_concat]

theorem close_of_ends {lines : List (List Char)} (hne : lines ≠ []) (h : [] ∉ lines.getLast?) :
    close lines = lines ++ [[]] := by
  rcases List.eq_nil_or_concat lines with rfl | ⟨front, last, rfl⟩
  · exact absurd rfl hne
  · rw [List.concat_eq_append] at h ⊢
    rw [close, List.getLast?_concat]
    cases last with
    | nil => exact absurd (by simp) h
    | cons c rest => rfl

/-- Squeezed lines are put together to closed lines in normal form. -/
theorem exists_close {lines : List (List Char)} (h : Squeezed lines) :
    ∃ body, Normal body ∧ ['\n'].intercalate (close lines) = textOf body := by
  by_cases hends : [] ∈ lines.getLast?
  · -- the empty line at the end is the one behind the last break
    obtain ⟨front, rfl⟩ := List.getLast?_eq_some_iff.mp hends
    have hfront : [] ∉ front.getLast? := by
      intro hempty
      have hpair := (List.isChain_append.mp h.apart).2.2 [] hempty [] rfl
      exact hpair.elim (· rfl) (· rfl)
    refine ⟨front, ⟨h.front, hfront⟩, ?_⟩
    rw [textOf_eq_intercalate, close_concat_nil]
  · refine ⟨lines, ⟨h, hends⟩, ?_⟩
    by_cases hne : lines = []
    · rw [hne]
      rfl
    · rw [textOf_eq_intercalate, close_of_ends hne hends]

/-- **A documentation text is closed lines in normal form.** -/
theorem exists_normal (comments : List (List Char)) :
    ∃ lines, Normal lines ∧ ofComments comments = textOf lines :=
  exists_close (squeezed_squeeze comments)

/-- **A text in normal form is given back by line comments that say its lines.** -/
theorem ofComments_of_normalForm {text : List Char} (h : NormalForm text) :
    ofComments ((linesOf text).map lineComment) = text := by
  have hclosed : text = [] ∨ ∃ body, text = body ++ ['\n'] := by
    refine h.closed.imp_right ?_
    rintro ⟨body, c, htext, -⟩
    exact ⟨body ++ [c], by rw [htext, List.append_assoc]; rfl⟩
  have hlines : squeeze true (rawLines ((linesOf text).map lineComment)) = linesOf text := by
    rw [rawLines_lineComment h.lines.toSqueezed]
    exact squeeze_eq_self (fun _ => h.lines.starts) h.lines.apart
  rw [ofComments, hlines]
  by_cases hne : linesOf text = []
  · rw [hne, ← textOf_linesOf hclosed, hne]
    rfl
  · rw [close_of_ends hne h.lines.ends, ← textOf_eq_intercalate, textOf_linesOf hclosed]

/-- **A documentation text is in normal form, and is given back by line comments that say its
    lines.** -/
theorem normalForm_ofComments (comments : List (List Char)) :
    NormalForm (ofComments comments) ∧
      ofComments ((linesOf (ofComments comments)).map lineComment) = ofComments comments := by
  obtain ⟨lines, hnormal, htext⟩ := exists_normal comments
  have hform : NormalForm (ofComments comments) := by
    rw [htext]
    exact hnormal.normalForm
  exact ⟨hform, ofComments_of_normalForm hform⟩

example : ofComments ["//".toList, "//go:noinline".toList, "// a  ".toList, "//".toList,
    "/*\n b\n*/".toList] = "a\n\n b\n".toList := by decide

end TestScout.GoSource.DocText
