import TestScout.Proofs.Header.Reference

/-!
# What stands before a package clause

White space and comments may stand before a package clause in any arrangement, several on one line
and one over many. The scanner meets them line by line, so what it makes of a comment depends on
what stands before it on the line. Main statements:

* `Piece`, `Clause`: a source in pieces, up to the name of its package and on;
* `Reads`: what the scanner makes of the rest of a line, behind a part of it;
* `CommentsApart`: no comment stands behind a block comment that its line opened;
* `scanLines_pieces`: the scanner goes through such pieces to the package clause;
* `package_of_pieces`: it finds the name there, and takes a byte-order mark for code;
* `package_hidden`: a mark hides the name, and so does a comment behind a block comment.
-/

namespace TestScout.Header

/-! ## 1. A source in pieces -/

/-- Whether a `//` comment with this text behind the slashes says anything about the build. -/
def isConstraintComment (text : List Char) : Bool :=
  (goBuildOf ('/' :: '/' :: text)).isSome || (plusBuildOf ('/' :: '/' :: text)).isSome

/-- A piece of what stands before a package clause. -/
inductive Piece where
  /-- A white-space character, a line break among them. -/
  | blank (c : Char) (h : isBlank c = true)
  /-- A `//` comment without meaning for the build. -/
  | lineComment (text : List Char) (honeLine : '\n' ∉ text)
      (hidle : isConstraintComment text = false)
  /-- A block comment, on one line or on several. -/
  | blockComment (text : List Char) (hclosed : ¬ ['*', '/'] <:+: text)

/-- The text of a piece, the break behind a `//` comment included. -/
def Piece.text : Piece → List Char
  | .blank c _ => [c]
  | .lineComment text _ _ => '/' :: '/' :: (text ++ ['\n'])
  | .blockComment text _ => '/' :: '*' :: (text ++ ['*', '/'])

/-- A package clause, with everything behind the name. -/
structure Clause where
  gap : List Char
  name : List Char
  rest : List Char
  gap_ne_nil : gap ≠ []
  gap_spaces : ∀ c ∈ gap, isSpaceOrTab c = true
  name_ne_nil : name ≠ []
  name_chars : ∀ c ∈ name, isNameChar c = true
  /-- The name ends where it ends. -/
  rest_apart : ∀ c ∈ rest.head?, isNameChar c = false

/-- The keyword, the gap and the name. -/
def Clause.front (clause : Clause) : List Char :=
  ['p', 'a', 'c', 'k', 'a', 'g', 'e'] ++ (clause.gap ++ clause.name)

/-- The source that the pieces and the clause make up. -/
def sourceOf (pieces : List Piece) (clause : Clause) : List Char :=
  pieces.flatMap Piece.text ++ (clause.front ++ clause.rest)

/-- No comment stands behind a block comment that was opened on the same line, `behind` saying
    whether such a comment stands before the pieces on their line. -/
def CommentsApart : Bool → List Piece → Prop
  | _, [] => True
  | behind, .blank c _ :: rest => CommentsApart (behind && c != '\n') rest
  | behind, .lineComment _ _ _ :: rest => behind = false ∧ CommentsApart false rest
  | behind, .blockComment text _ :: rest =>
    behind = false ∧ CommentsApart (decide ('\n' ∉ text)) rest

/-! ## 2. Parts of a line -/

/-- What a line is to the scanner; none if an open block comment swallows it. -/
def kindOf (inBlock : Bool) (raw : List Char) : Option Line :=
  if inBlock then lineInBlock (trim raw) else some (lineOf (trim raw))

/-- What the rest of a line is behind a block comment that the line opened. -/
def lineBehind : List Char → Line
  | [] => .idle
  | text => .code text

/-- What the rest of a line is, behind such a comment or not. -/
def lineRest (behind : Bool) : List Char → Line :=
  if behind then lineBehind else lineOf

/-- Behind this part of a line the scanner reads the rest of it as it reads the rest of a line,
    behind a block comment that the line opened or not. -/
structure Reads (inBlock : Bool) (front : List Char) (behind : Bool) : Prop where
  oneLine : '\n' ∉ front
  kind : ∀ more, kindOf inBlock (front ++ more) = some (lineRest behind (trim more))

variable {inBlock behind : Bool} {front raw text : List Char} {found : Found}

theorem kindOf_congr {other : List Char} (h : trim other = trim raw) :
    kindOf inBlock other = kindOf inBlock raw := by
  unfold kindOf
  rw [h]

/-- The mark that closes a block comment does not begin in a text that does not hold it. -/
theorem not_infix_concat_star (h : ¬ ['*', '/'] <:+: text) : ¬ ['*', '/'] <:+: text ++ ['*'] := by
  intro hoccurs
  rcases List.infix_concat_iff.mp hoccurs with hend | hinside
  · rcases List.suffix_concat_iff.mp hend with hnil | ⟨before, hsplit, -⟩
    · cases hnil
    · have hlast := congrArg List.getLast? hsplit
      rw [List.getLast?_concat] at hlast
      exact absurd hlast (by decide)
  · exact h hinside

/-- What stands behind a block comment on its line decides what the line is. -/
theorem lineOf_blockComment (h : ¬ ['*', '/'] <:+: text) (more : List Char) :
    lineOf ('/' :: '*' :: (text ++ ['*', '/'] ++ more)) = lineBehind (trim more) := by
  have hcut : splitAtFirst ['*', '/'] (text ++ ['*', '/'] ++ more) = some (text, more) := by
    rw [List.append_assoc]
    exact splitAtFirst_append more (not_infix_concat_star h)
  simp only [lineOf, hcut]
  cases trim more <;> rfl

theorem reads_start : Reads false [] false where
  oneLine := List.not_mem_nil
  kind _ := rfl

theorem Reads.blank (h : Reads inBlock front behind) {c : Char} (hc : isBlank c = true)
    (hbreak : c ≠ '\n') : Reads inBlock (front ++ [c]) behind where
  oneLine := by
    rw [List.mem_append, List.mem_singleton, not_or]
    exact ⟨h.oneLine, Ne.symm hbreak⟩
  kind more := by
    have hgap : ∀ d ∈ [c], isBlank d = true := List.forall_mem_singleton.mpr hc
    rw [List.append_assoc, h.kind, trim_append_of_blank hgap]

/-- A block comment on one line, where the scanner expects comments. -/
theorem Reads.blockComment (h : Reads inBlock front false) (hclosed : ¬ ['*', '/'] <:+: text)
    (honeLine : '\n' ∉ text) :
    Reads inBlock (front ++ '/' :: '*' :: (text ++ ['*', '/'])) true where
  oneLine := by simp [h.oneLine, honeLine]
  kind more := by
    have hslash : isBlank '/' = false := by decide
    have hrest : trim ('/' :: '*' :: (text ++ ['*', '/'] ++ more)) =
        '/' :: '*' :: (text ++ ['*', '/'] ++ trimEnd more) := by
      rw [trim_cons hslash]
      have hend := trimEnd_append_cons hslash ('*' :: (text ++ ['*'])) more
      simpa using congrArg ('/' :: ·) hend
    rw [List.append_assoc, h.kind]
    simp only [List.cons_append, hrest, lineRest, Bool.false_eq_true, if_false, if_true,
      lineOf_blockComment hclosed, trim_trimEnd]

/-- Trimming leaves the mark that closes a block comment. -/
theorem trim_closed (text more : List Char) :
    trim (text ++ ['*', '/'] ++ more) = trimStart text ++ (['*', '/'] ++ trimEnd more) := by
  have hslash : isBlank '/' = false := by decide
  have hstar : isBlank '*' = false := by decide
  unfold trim
  rw [List.append_assoc, List.cons_append, trimStart_append_cons hstar]
  have hend := trimEnd_append_cons hslash (trimStart text ++ ['*']) more
  simpa using hend

/-- Behind a block comment that an earlier line opened a line starts again. -/
theorem kindOf_closing (hclosed : ¬ ['*', '/'] <:+: text) (more : List Char) :
    kindOf true (text ++ ['*', '/'] ++ more) = some (lineOf (trim more)) := by
  have hstart : ¬ ['*', '/'] <:+: trimStart text :=
    fun hoccurs => hclosed (hoccurs.trans (trimStart_suffix text).isInfix)
  have hcut := splitAtFirst_append (trimEnd more) (not_infix_concat_star hstart)
  simp only [kindOf, lineInBlock, trim_closed, hcut, if_true, Option.map_some, trim_trimEnd]

theorem reads_closing (hclosed : ¬ ['*', '/'] <:+: text) (honeLine : '\n' ∉ text) :
    Reads true (text ++ ['*', '/']) false where
  oneLine := by simp [honeLine]
  kind := kindOf_closing hclosed

/-! ## 3. Steps of the scanner -/

theorem scanLines_idle (h : kindOf inBlock raw = some .idle) (rest : List (List Char)) :
    scanLines inBlock found (raw :: rest) = scanLines false found rest := by
  unfold kindOf at h
  rw [scanLines]
  simp only [h]

theorem scanLines_opensBlock (h : kindOf inBlock raw = some .opensBlock)
    (rest : List (List Char)) :
    scanLines inBlock found (raw :: rest) = scanLines true found rest := by
  unfold kindOf at h
  rw [scanLines]
  simp only [h]

theorem scanLines_swallowed (h : kindOf inBlock raw = none) (rest : List (List Char)) :
    scanLines inBlock found (raw :: rest) = scanLines true found rest := by
  unfold kindOf at h
  rw [scanLines]
  simp only [h]

theorem scanLines_code (h : kindOf inBlock raw = some (.code text)) (rest : List (List Char)) :
    scanLines inBlock found (raw :: rest) = .ok (finish found text rest) := by
  unfold kindOf at h
  rw [scanLines]
  simp only [h]

/-- A comment without meaning for the build is idle. -/
theorem lineOf_lineComment (hidle : isConstraintComment text = false) :
    lineOf (trim ('/' :: '/' :: text)) = .idle := by
  obtain ⟨hgo, hplus⟩ := Bool.or_eq_false_iff.mp hidle
  have hslash : isBlank '/' = false := by decide
  have hline : trim ('/' :: '/' :: text) = '/' :: '/' :: trimEnd text := by
    rw [trim_cons hslash]
    exact congrArg ('/' :: ·) (trimEnd_append_cons hslash [] text)
  cases commentKind hline with
  | goBuild expression hscan hsome => simp [hsome] at hgo
  | plusBuild body hscan hnone hsome => simp [hsome] at hplus
  | idle hscan hnone hnone' => exact hscan

/-- The last line of an open block comment is reached, with nothing left of the others. -/
theorem exists_closing (hclosed : ¬ ['*', '/'] <:+: text) :
    ∃ last, Reads true (last ++ ['*', '/']) false ∧ ∀ found more,
      scanLines true found (lines (text ++ (['*', '/'] ++ more))) =
        scanLines true found (lines (last ++ ['*', '/'] ++ more)) := by
  -- By the length of the comment: a line break in it leaves a shorter one.
  induction hlength : text.length using Nat.strong_induction_on generalizing text with
  | _ n ih =>
    by_cases hbreak : '\n' ∈ text
    · obtain ⟨line, rest, rfl, hline⟩ := List.eq_append_cons_of_mem hbreak
      have hopen : kindOf true (withoutReturn line) = none := by
        rw [kindOf_congr (trim_withoutReturn line)]
        exact lineInBlock_open fun hoccurs => hclosed (hoccurs.trans (List.infix_append' [] line _))
      have hrest : ¬ ['*', '/'] <:+: rest := fun hoccurs =>
        hclosed (hoccurs.trans ((List.suffix_cons _ _).trans (List.suffix_append _ _)).isInfix)
      have hshort : rest.length < n := by
        rw [← hlength, List.length_append, List.length_cons]
        omega
      obtain ⟨last, hlast, hscan⟩ := ih _ hshort hrest rfl
      refine ⟨last, hlast, fun found more => ?_⟩
      rw [← hscan found more, List.append_assoc, List.cons_append, lines_append_break hline,
        scanLines_swallowed hopen]
    · refine ⟨text, reads_closing hclosed hbreak, fun found more => ?_⟩
      rw [List.append_assoc]

/-- A line that reads on with nothing but its break is idle. -/
theorem scanLines_break (h : Reads inBlock front behind) (rest : List Char) :
    scanLines inBlock found (lines (front ++ '\n' :: rest)) =
      scanLines false found (lines rest) := by
  have hidle : kindOf inBlock (withoutReturn front) = some .idle := by
    rw [kindOf_congr (trim_withoutReturn front)]
    have hkind := h.kind []
    rw [List.append_nil] at hkind
    rw [hkind]
    cases behind <;> rfl
  rw [lines_append_break h.oneLine, scanLines_idle hidle]

/-- A comment without meaning for the build ends its line. -/
theorem scanLines_lineComment (h : Reads inBlock front false) (honeLine : '\n' ∉ text)
    (hidle : isConstraintComment text = false) (rest : List Char) :
    scanLines inBlock found (lines (front ++ ('/' :: '/' :: (text ++ ['\n']) ++ rest))) =
      scanLines false found (lines rest) := by
  have hline : '\n' ∉ front ++ '/' :: '/' :: text := by simp [h.oneLine, honeLine]
  have hkind : kindOf inBlock (withoutReturn (front ++ '/' :: '/' :: text)) = some .idle := by
    rw [kindOf_congr (trim_withoutReturn _), h.kind]
    exact congrArg some (lineOf_lineComment hidle)
  have hparts : front ++ ('/' :: '/' :: (text ++ ['\n']) ++ rest) =
      (front ++ '/' :: '/' :: text) ++ '\n' :: rest := by simp
  rw [hparts, lines_append_break hline, scanLines_idle hkind]

/-- A block comment on several lines ends on a line that starts again behind it. -/
theorem exists_scanLines_blockComment (h : Reads inBlock front false)
    (hclosed : ¬ ['*', '/'] <:+: text) (hbreak : '\n' ∈ text) :
    ∃ last, Reads true (last ++ ['*', '/']) false ∧ ∀ found more,
      scanLines inBlock found (lines (front ++ ('/' :: '*' :: (text ++ ['*', '/']) ++ more))) =
        scanLines true found (lines (last ++ ['*', '/'] ++ more)) := by
  obtain ⟨line, rest, rfl, hline⟩ := List.eq_append_cons_of_mem hbreak
  have hrest : ¬ ['*', '/'] <:+: rest := fun hoccurs =>
    hclosed (hoccurs.trans ((List.suffix_cons _ _).trans (List.suffix_append _ _)).isInfix)
  have hfirst : '\n' ∉ front ++ '/' :: '*' :: line := by simp [h.oneLine, hline]
  have hopens : kindOf inBlock (withoutReturn (front ++ '/' :: '*' :: line)) =
      some .opensBlock := by
    have htrim : trim ([] ++ '/' :: '*' :: line) = '/' :: '*' :: trimEnd line :=
      trim_opening (by simp) line
    rw [List.nil_append] at htrim
    rw [kindOf_congr (trim_withoutReturn _), h.kind, htrim]
    exact congrArg some (lineOf_open fun hoccurs =>
      hclosed (hoccurs.trans (List.infix_append' [] line _)))
  obtain ⟨last, hlast, hscan⟩ := exists_closing hrest
  refine ⟨last, hlast, fun found more => ?_⟩
  have hparts : front ++ ('/' :: '*' :: (line ++ '\n' :: rest ++ ['*', '/']) ++ more) =
      (front ++ '/' :: '*' :: line) ++ '\n' :: (rest ++ (['*', '/'] ++ more)) := by simp
  rw [← hscan found more, hparts, lines_append_break hfirst, scanLines_opensBlock hopens]

/-! ## 4. The package clause -/

theorem Clause.front_eq_concat (clause : Clause) :
    ∃ before c, clause.front = 'p' :: before ++ [c] ∧ isBlank c = false := by
  obtain ⟨before, c, hname⟩ := List.eq_nil_or_concat clause.name |>.resolve_left clause.name_ne_nil
  have hc : isNameChar c = true := clause.name_chars c (by rw [hname]; simp)
  refine ⟨['a', 'c', 'k', 'a', 'g', 'e'] ++ (clause.gap ++ before), c, ?_, isBlank_of_isNameChar hc⟩
  rw [Clause.front, hname]
  simp

theorem Clause.not_mem_front (clause : Clause) : '\n' ∉ clause.front := by
  intro hmem
  rcases List.mem_append.mp hmem with hword | hmem
  · exact absurd hword (by decide)
  · rcases List.mem_append.mp hmem with hgap | hname
    · exact absurd (clause.gap_spaces _ hgap) (by decide)
    · have hblank := isBlank_of_isNameChar (clause.name_chars _ hname)
      exact absurd hblank (by decide)

/-- Trimming leaves the clause as it is, whatever stands behind it. -/
theorem Clause.trim_front_append (clause : Clause) (more : List Char) :
    trim (clause.front ++ more) = clause.front ++ trimEnd more := by
  obtain ⟨before, c, hfront, hc⟩ := clause.front_eq_concat
  have hp : isBlank 'p' = false := by decide
  have hend := trimEnd_append_cons hc before more
  rw [hfront, List.cons_append, List.cons_append, trim_cons hp]
  simpa using congrArg ('p' :: ·) hend

theorem Clause.packageName_front_append (clause : Clause) {more : List Char}
    (h : ∀ c ∈ more.head?, isNameChar c = false) :
    packageName (clause.front ++ more) = some (String.ofList clause.name) := by
  have hread := packageName_append clause.gap_ne_nil clause.gap_spaces clause.name_ne_nil
    clause.name_chars h
  rw [Clause.front, List.append_assoc, List.append_assoc]
  exact hread

theorem lineRest_front (clause : Clause) (more : List Char) :
    lineRest behind (clause.front ++ more) = .code (clause.front ++ more) := by
  cases behind <;> rfl

/-- What starts a text of several lines starts its first line. -/
theorem exists_first_line (honeLine : '\n' ∉ front) (hne : front ≠ []) (rest : List Char) :
    ∃ line tail more, lines (front ++ rest) = line :: more ∧ trim line = trim (front ++ tail) ∧
      tail <+: rest := by
  by_cases hbreak : '\n' ∈ rest
  · obtain ⟨tail, behind, rfl, htail⟩ := List.eq_append_cons_of_mem hbreak
    have hline : '\n' ∉ front ++ tail := by simp [honeLine, htail]
    refine ⟨withoutReturn (front ++ tail), tail, lines behind, ?_, trim_withoutReturn _,
      List.prefix_append _ _⟩
    rw [← List.append_assoc]
    exact lines_append_break hline behind
  · have hline : '\n' ∉ front ++ rest := by simp [honeLine, hbreak]
    have hnonempty : front ++ rest ≠ [] := by simp [hne]
    exact ⟨_, rest, [], lines_of_not_mem hline hnonempty, rfl, List.prefix_refl rest⟩

theorem head?_of_starts {start rest : List Char} (h : start <+: rest) {c : Char}
    (hc : c ∈ start.head?) : c ∈ rest.head? := by
  obtain ⟨more, rfl⟩ := h
  cases start with
  | nil => cases hc
  | cons first start => exact hc

/-- The scan ends at a clause, with its name. -/
theorem scanLines_clause (h : Reads inBlock front behind) (clause : Clause) :
    ∃ header, scanLines inBlock found (lines (front ++ (clause.front ++ clause.rest))) =
        .ok header ∧
      header.package = some (String.ofList clause.name) ∧ header.unexpected = none := by
  have honeLine : '\n' ∉ front ++ clause.front := by simp [h.oneLine, clause.not_mem_front]
  have hne : front ++ clause.front ≠ [] := by simp [Clause.front]
  obtain ⟨line, tail, more, hlines, htrim, htail⟩ := exists_first_line honeLine hne clause.rest
  have hkind : kindOf inBlock line = some (.code (clause.front ++ trimEnd tail)) := by
    rw [kindOf_congr htrim, List.append_assoc, h.kind, clause.trim_front_append, lineRest_front]
  have hname : packageName (clause.front ++ trimEnd tail) = some (String.ofList clause.name) :=
    clause.packageName_front_append fun c hc =>
      clause.rest_apart c (head?_of_starts ((trimEnd_starts tail).trans htail) hc)
  refine ⟨finish found (clause.front ++ trimEnd tail) more, ?_, ?_, ?_⟩
  · rw [← List.append_assoc, hlines, scanLines_code hkind]
  · simp only [finish, hname]
  · simp only [finish, hname]

/-! ## 5. Pieces -/

/-- **The scanner goes through the pieces to the package clause.** -/
theorem scanLines_pieces {pieces : List Piece} (h : Reads inBlock front behind)
    (hapart : CommentsApart behind pieces) (clause : Clause) (found : Found) :
    ∃ header, scanLines inBlock found (lines (front ++ sourceOf pieces clause)) = .ok header ∧
      header.package = some (String.ofList clause.name) ∧ header.unexpected = none := by
  induction pieces generalizing inBlock front behind with
  | nil => exact scanLines_clause h clause
  | cons piece rest ih =>
    have hsource : sourceOf (piece :: rest) clause = piece.text ++ sourceOf rest clause := by
      simp [sourceOf]
    rw [hsource]
    cases piece with
    | blank c hblank =>
      by_cases hbreak : c = '\n'
      · subst hbreak
        have hrest : CommentsApart false rest := by simpa [CommentsApart] using hapart
        rw [Piece.text, List.singleton_append, scanLines_break h]
        exact ih reads_start hrest
      · have hrest : CommentsApart behind rest := by
          simpa [CommentsApart, bne_iff_ne.mpr hbreak] using hapart
        rw [← List.append_assoc]
        exact ih (h.blank hblank hbreak) hrest
    | lineComment text honeLine hidle =>
      obtain ⟨rfl, hrest⟩ := hapart
      rw [Piece.text, scanLines_lineComment h honeLine hidle]
      exact ih reads_start hrest
    | blockComment text hclosed =>
      obtain ⟨rfl, hrest⟩ := hapart
      by_cases hbreak : '\n' ∈ text
      · obtain ⟨last, hlast, hscan⟩ := exists_scanLines_blockComment h hclosed hbreak
        rw [Piece.text, hscan]
        exact ih hlast (by simpa [hbreak] using hrest)
      · rw [← List.append_assoc]
        exact ih (h.blockComment hclosed hbreak) (by simpa [hbreak] using hrest)

/-! ## 6. What hides the name -/

/-- The byte-order mark. -/
def orderMark : Char := '\uFEFF'

theorem words_go_cons {c : Char} (h : isBlank c = false) (text word : List Char) :
    words.go (c :: text) word = words.go text (c :: word) := by
  rw [words.go, h]
  rfl

/-- A text that begins with no white space begins with its first word. -/
theorem head?_firstWord {c : Char} (h : isBlank c = false) (text : List Char) :
    (firstWord (c :: text)).toList.head? = some c := by
  have hgo : ∀ text before : List Char,
      ∃ more, (words.go text (before ++ [c])).head? = some (c :: more) := by
    intro text
    induction text with
    | nil =>
      intro before
      exact ⟨before.reverse, by cases before <;> simp [words.go]⟩
    | cons d text ih =>
      intro before
      cases hd : isBlank d with
      | true => exact ⟨before.reverse, by cases before <;> simp [words.go, hd]⟩
      | false =>
        rw [words_go_cons hd]
        exact ih (d :: before)
  obtain ⟨more, hmore⟩ := hgo text []
  rw [List.nil_append] at hmore
  unfold firstWord words
  rw [words_go_cons h, hmore, Option.getD_some, String.toList_ofList]
  rfl

/-- A mark in front of a source is taken for code without a package clause. -/
theorem scan_orderMark (source : List Char) :
    ∃ word, scan (orderMark :: source) = .ok ⟨none, none, some word, false⟩ ∧
      word.toList.head? = some orderMark := by
  have honeLine : '\n' ∉ [orderMark] := by decide
  have hmark : isBlank orderMark = false := by decide
  obtain ⟨line, tail, more, hlines, htrim, -⟩ :=
    exists_first_line honeLine (List.cons_ne_nil _ _) source
  rw [List.singleton_append] at hlines htrim
  rw [trim_cons hmark] at htrim
  have hkind : kindOf false line = some (.code (orderMark :: trimEnd tail)) := by
    unfold kindOf
    rw [htrim]
    rfl
  refine ⟨firstWord (orderMark :: trimEnd tail), ?_, head?_firstWord hmark _⟩
  unfold scan
  rw [hlines, scanLines_code hkind]
  rfl

/-- **The name of a package is found behind white space and comments.** The scanner gives the name
    in the clause, and no word that it did not expect, where no comment stands behind a block
    comment that its line opened. A byte-order mark is no white space: in front of any source it is
    the start of the first word that the scanner did not expect. -/
theorem package_of_pieces {pieces : List Piece} (hapart : CommentsApart false pieces)
    (clause : Clause) :
    (∃ header, scan (sourceOf pieces clause) = .ok header ∧
      header.package = some (String.ofList clause.name) ∧ header.unexpected = none) ∧
      ∀ source, ∃ header word, scan (orderMark :: source) = .ok header ∧ header.package = none ∧
        header.unexpected = some word ∧ word.toList.head? = some orderMark := by
  refine ⟨scanLines_pieces reads_start hapart clause Found.none, fun source => ?_⟩
  obtain ⟨word, hscan, hword⟩ := scan_orderMark source
  exact ⟨_, word, hscan, rfl, rfl, hword⟩

theorem isSpaceOrTab_of_mem_space : ∀ c ∈ [' '], isSpaceOrTab c = true :=
  List.all_eq_true.mp (by decide)

/-- The clause of a package with a short name. -/
def shortClause : Clause where
  gap := [' ']
  name := ['p']
  rest := ['\n']
  gap_ne_nil := by decide
  gap_spaces := isSpaceOrTab_of_mem_space
  name_ne_nil := by decide
  name_chars := List.all_eq_true.mp (by decide +kernel)
  rest_apart := by
    intro c hc
    obtain rfl := Option.some.inj hc
    decide +kernel

/-- A line break. -/
def Piece.lineBreak : Piece :=
  .blank '\n' (by decide)

/-- Comments of every kind: a block comment before the end of its line, one over two lines with a
    third one behind it, and a `//` comment behind one that an earlier line opened. -/
def mixedPieces : List Piece := [
  .blockComment " a ".toList (by decide), .lineBreak,
  .blockComment " b\n//go:build ignore\n ".toList (by decide), .blank ' ' (by decide),
  .blockComment " c\n ".toList (by decide), .lineComment " d".toList (by decide) (by decide),
  .blank '\t' (by decide), .blockComment " e ".toList (by decide), .blank ' ' (by decide)]

theorem package_of_pieces_mixedPieces :
    CommentsApart false mixedPieces ∧
      (∃ header, scan (sourceOf mixedPieces shortClause) = .ok header ∧
        header.package = some "p" ∧ header.unexpected = none) ∧
      ∀ source, ∃ header word, scan (orderMark :: source) = .ok header ∧ header.package = none ∧
        header.unexpected = some word ∧ word.toList.head? = some orderMark := by
  have hapart : CommentsApart false mixedPieces := by
    simp [mixedPieces, CommentsApart, Piece.lineBreak]
  exact ⟨hapart, package_of_pieces hapart shortClause⟩

/-- **A mark hides the name of a package, and without one comments may.** The scanner does not find
    the name behind a byte-order mark, nor in `/* a */ // b` and a package clause on the next
    line. -/
theorem package_hidden :
    (¬ ∀ pieces clause, ∃ header, scan (orderMark :: sourceOf pieces clause) = .ok header ∧
        header.package = some (String.ofList clause.name) ∧ header.unexpected = none) ∧
      ¬ ∀ pieces clause, ∃ header, scan (sourceOf pieces clause) = .ok header ∧
        header.package = some (String.ofList clause.name) ∧ header.unexpected = none := by
  constructor
  · intro hall
    obtain ⟨header, hscan, -, hunexpected⟩ := hall [] shortClause
    have hmarked : scan (orderMark :: sourceOf [] shortClause) =
        .ok ⟨none, none, some "\uFEFFpackage", false⟩ := by decide +kernel
    rw [hmarked] at hscan
    obtain rfl := Except.ok.inj hscan
    cases hunexpected
  · intro hall
    let pieces : List Piece := [.blockComment " a ".toList (by decide), .blank ' ' (by decide),
      .lineComment " b".toList (by decide) (by decide)]
    obtain ⟨header, hscan, -, hunexpected⟩ := hall pieces shortClause
    have hbehind : scan (sourceOf pieces shortClause) = .ok ⟨none, none, some "//", false⟩ := by
      decide +kernel
    rw [hbehind] at hscan
    obtain rfl := Except.ok.inj hscan
    cases hunexpected

end TestScout.Header
