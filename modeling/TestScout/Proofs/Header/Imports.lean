import TestScout.Proofs.Header.Preamble

/-!
# Imports of the pseudo-package

Behind the package clause the scanner goes through the imports line by line and looks for one of the
pseudo-package `C`. What it makes of formatted imports is said here by the imports themselves: one
on a line of its own, or one on each line of a group. Main statements:

* `Spec`, `ImportLines`: an import, and the lines of imports with what opens groups and comments;
* `Opening.Plain`: the openings that the scanner does not mistake for something else;
* `isCSpec_text`: an import is taken for one of `C` exactly if it is one, whatever comment follows;
* `scanImports_importLines`: the scanner finds `C` exactly if one of the imports is `C`;
* `importsC_iff_of_importLines`: and that is what the header of the source says;
* `importsC_misread`: an opening that is not plain may hide an import, or make one up.
-/

namespace TestScout.Header

/-! ## 1. The layout of imports -/

/-- An import: a name, if it has one, and a path in quotes. -/
structure Spec where
  name : List Char
  gap : List Char
  path : List Char
  name_chars : name = ['.'] ∨ ∀ c ∈ name, isNameChar c = true
  gap_spaces : ∀ c ∈ gap, isSpaceOrTab c = true
  gap_of_unnamed : name = [] → gap = []
  path_plain : '"' ∉ path

/-- The text of an import. -/
def Spec.text (spec : Spec) : List Char :=
  spec.name ++ (spec.gap ++ '"' :: (spec.path ++ ['"']))

/-- The pseudo-package is imported, without a name. -/
def Spec.IsC (spec : Spec) : Prop :=
  spec.name = [] ∧ spec.path = ['C']

instance (spec : Spec) : Decidable spec.IsC :=
  inferInstanceAs (Decidable (_ ∧ _))

/-- What may stand at the end of a line: white space, and a `//` comment. -/
inductive LineEnd : List Char → Prop where
  | blank (gap : List Char) (hgap : ∀ c ∈ gap, isBlank c = true) : LineEnd gap
  | comment (gap text : List Char) (hgap : ∀ c ∈ gap, isBlank c = true) :
      LineEnd (gap ++ '/' :: '/' :: text)

/-- What opens something that goes on behind its line. -/
inductive Opening where
  /-- A group, with what stands behind its parenthesis on the line. -/
  | group (behind : List Char)
  /-- A block comment, with what stands behind its mark on the line. -/
  | block (behind : List Char)

/-- An opening is taken for what it is: the line of a group does not end as if it closed the group,
    and the mark of a block comment does not run into one that would close it. -/
def Opening.Plain : Opening → Prop
  | .group behind => (trim behind).getLast? ≠ some ')'
  | .block behind => behind.head? = some '/' → ['*', '/'] <:+: behind

/-- Lines between imports: a blank one, a comment on a line, or a block comment. -/
inductive IdleLines : List (List Char) → List Opening → Prop where
  | blank (line : List Char) (hline : trim line = []) : IdleLines [line] []
  | comment (line text : List Char) (hline : trim line = '/' :: '/' :: text) : IdleLines [line] []
  | block (indent text : List Char) (block : List (List Char))
      (hindent : ∀ c ∈ indent, isBlank c = true) (hblock : BlockRest (text :: block)) :
      IdleLines ((indent ++ '/' :: '*' :: text) :: block) [.block text]

/-- The lines of a group from behind its opening line to its closing line, with the openings and the
    imports in it. -/
inductive GroupLines : List (List Char) → List Opening → List Spec → Prop where
  | close (line tail : List Char) (hline : trim line = ')' :: tail) (hend : LineEnd tail) :
      GroupLines [line] [] []
  | idle (idle rest : List (List Char)) (opened openings : List Opening) (specs : List Spec)
      (hidle : IdleLines idle opened) (h : GroupLines rest openings specs) :
      GroupLines (idle ++ rest) (opened ++ openings) specs
  | spec (line tail : List Char) (spec : Spec) (rest : List (List Char)) (openings : List Opening)
      (specs : List Spec) (hline : trim line = spec.text ++ tail) (hend : LineEnd tail)
      (h : GroupLines rest openings specs) :
      GroupLines (line :: rest) openings (spec :: specs)

/-- The words that start declarations other than imports. -/
def declarationWords : List (List Char) :=
  [['c', 'o', 'n', 's', 't'], ['f', 'u', 'n', 'c'], ['t', 'y', 'p', 'e'], ['v', 'a', 'r']]

/-- The lines begin with imports, up to the end or to another declaration, with the openings and the
    imports among them. -/
inductive ImportLines : List (List Char) → List Opening → List Spec → Prop where
  | done : ImportLines [] [] []
  | declaration (line word text : List Char) (rest : List (List Char))
      (hword : word ∈ declarationWords) (hline : trim line = word ++ text) :
      ImportLines (line :: rest) [] []
  | idle (idle rest : List (List Char)) (opened openings : List Opening) (specs : List Spec)
      (hidle : IdleLines idle opened) (h : ImportLines rest openings specs) :
      ImportLines (idle ++ rest) (opened ++ openings) specs
  | single (line gap tail : List Char) (spec : Spec) (rest : List (List Char))
      (openings : List Opening) (specs : List Spec)
      (hline : trim line = ['i', 'm', 'p', 'o', 'r', 't'] ++ (gap ++ (spec.text ++ tail)))
      (hgap : ∀ c ∈ gap, isSpaceOrTab c = true) (hend : LineEnd tail)
      (h : ImportLines rest openings specs) :
      ImportLines (line :: rest) openings (spec :: specs)
  | group (line gap tail : List Char) (inside rest : List (List Char))
      (opened openings : List Opening) (grouped specs : List Spec)
      (hline : trim line = ['i', 'm', 'p', 'o', 'r', 't'] ++ (gap ++ '(' :: tail))
      (hgap : ∀ c ∈ gap, isSpaceOrTab c = true) (hend : LineEnd tail)
      (hinside : GroupLines inside opened grouped) (h : ImportLines rest openings specs) :
      ImportLines (line :: (inside ++ rest)) (.group tail :: (opened ++ openings))
        (grouped ++ specs)

/-! ## 2. Single imports -/

variable {spec : Spec} {text tail line : List Char} {group : Bool}

/-- The text without a `//` comment at its end. -/
def codeOf (text : List Char) : List Char :=
  match splitAtFirst ['/', '/'] text with
  | some (before, _) => before
  | none => text

theorem isCSpec_iff : isCSpec text = true ↔ trim (codeOf text) = ['"', 'C', '"'] := by
  unfold isCSpec codeOf
  exact decide_eq_true_iff

theorem codeOf_starts (text : List Char) : codeOf text <+: text := by
  unfold codeOf
  split
  · rename_i before behind hcut
    exact ⟨_, (splitAtFirst_eq_some hcut).symm⟩
  · exact List.prefix_refl text

/-- Where nothing before it holds a slash, a comment is cut off. -/
theorem codeOf_append_lineEnd {front : List Char} (hfront : '/' ∉ front) (hend : LineEnd tail) :
    ∃ gap, (∀ c ∈ gap, isBlank c = true) ∧ codeOf (front ++ tail) = front ++ gap := by
  have hnone : ∀ {gap : List Char}, (∀ c ∈ gap, isBlank c = true) →
      (front ++ gap).count '/' = 0 := by
    intro gap hgap
    refine List.count_eq_zero.mpr fun hmem => ?_
    rcases List.mem_append.mp hmem with hin | hin
    · exact hfront hin
    · exact absurd (hgap _ hin) (by decide)
  have hfew : ∀ {text : List Char}, text.count '/' < 2 → ¬ ['/', '/'] <:+: text :=
    fun hcount hoccurs => absurd (hoccurs.sublist.count_le '/') (Nat.not_le.mpr hcount)
  cases hend with
  | blank _ hgap =>
    have hcut : splitAtFirst ['/', '/'] (front ++ tail) = none :=
      splitAtFirst_eq_none_iff.mpr (hfew (by rw [hnone hgap]; decide))
    refine ⟨tail, hgap, ?_⟩
    simp only [codeOf, hcut]
  | comment gap text hgap =>
    have hcut : splitAtFirst ['/', '/'] (front ++ gap ++ (['/', '/'] ++ text)) =
        some (front ++ gap, text) := by
      refine splitAtFirst_append text (hfew ?_)
      rw [List.count_append, hnone hgap]
      decide
    refine ⟨gap, hgap, ?_⟩
    have hparts : front ++ (gap ++ '/' :: '/' :: text) = front ++ gap ++ (['/', '/'] ++ text) := by
      simp
    simp only [codeOf, hparts, hcut]

/-- What an import begins with: its name or the quote, and nothing that the scanner looks for. -/
theorem Spec.text_eq_cons (spec : Spec) :
    ∃ c rest, spec.text = c :: rest ∧ isBlank c = false ∧ c ≠ '/' ∧ c ≠ '(' ∧ c ≠ ')' ∧
      (c = '"' → spec.name = []) := by
  have hno : ∀ {c d : Char}, isNameChar c = true → isNameChar d = false → c ≠ d := by
    rintro c d hc hd rfl
    rw [hc] at hd
    cases hd
  rcases hname : spec.name with _ | ⟨c, more⟩
  · refine ⟨'"', spec.path ++ ['"'], ?_, by decide, by decide, by decide, by decide, fun _ => rfl⟩
    rw [Spec.text, hname, spec.gap_of_unnamed hname]
    rfl
  · refine ⟨c, more ++ (spec.gap ++ '"' :: (spec.path ++ ['"'])), by rw [Spec.text, hname]; rfl, ?_⟩
    rcases spec.name_chars with hdot | hchars
    · rw [hname] at hdot
      obtain ⟨rfl, rfl⟩ := List.cons.inj hdot
      decide
    · have hc : isNameChar c = true := hchars c (by rw [hname]; exact List.mem_cons_self)
      exact ⟨isBlank_of_isNameChar hc, hno hc (by decide +kernel), hno hc (by decide +kernel),
        hno hc (by decide +kernel), fun hquote => absurd hquote (hno hc (by decide +kernel))⟩

/-- Trimming leaves an import as it is. -/
theorem Spec.trim_text_append (spec : Spec) (more : List Char) :
    trim (spec.text ++ more) = spec.text ++ trimEnd more := by
  obtain ⟨c, rest, htext, hc, -⟩ := spec.text_eq_cons
  have hquote : isBlank '"' = false := by decide
  have hend : trimEnd (spec.text ++ more) = spec.text ++ trimEnd more := by
    have hcut := trimEnd_append_cons hquote (spec.name ++ (spec.gap ++ '"' :: spec.path)) more
    simpa [Spec.text] using hcut
  have hstart : trim (spec.text ++ more) = trimEnd (spec.text ++ more) := by
    rw [htext, List.cons_append, trim_cons hc]
    exact (trimEnd_append_cons hc [] _).symm
  rw [hstart, hend]

/-- A path is `C` if a text starts with `C` and a quote where the path starts. -/
theorem eq_C_of_starts {path : List Char} (hplain : '"' ∉ path)
    (h : ['C', '"'] <+: path ++ ['"'] ++ tail) : path = ['C'] := by
  rcases path with _ | ⟨first, _ | ⟨second, more⟩⟩
  · simp at h
  · simp at h
    rw [h]
  · simp at h hplain
    exact absurd h.2 hplain.2.1

/-- An import of `C` is taken for one, whatever comment follows it. -/
theorem Spec.IsC.isCSpec (h : spec.IsC) (hend : LineEnd tail) :
    isCSpec (spec.text ++ tail) = true := by
  have htext : spec.text = ['"', 'C', '"'] := by
    rw [Spec.text, h.1, h.2, spec.gap_of_unnamed h.1]
    rfl
  have hslash : '/' ∉ spec.text := by
    rw [htext]
    decide
  have hquote : isBlank '"' = false := by decide
  obtain ⟨gap, hgap, hcode⟩ := codeOf_append_lineEnd hslash hend
  have hcut := trimEnd_append_cons hquote ['C'] gap
  rw [trimEnd_of_blank hgap] at hcut
  rw [isCSpec_iff, hcode, htext]
  exact (trim_cons hquote _).trans (congrArg ('"' :: ·) hcut)

/-- What is taken for an import of `C` is one. -/
theorem isC_of_isCSpec_text (h : isCSpec (spec.text ++ tail) = true) : spec.IsC := by
  rw [isCSpec_iff] at h
  obtain ⟨c, rest, htext, hc, -, -, -, hquote⟩ := spec.text_eq_cons
  have hstarts := codeOf_starts (spec.text ++ tail)
  cases hcode : codeOf (spec.text ++ tail) with
  | nil =>
    rw [hcode] at h
    cases h
  | cons d code =>
    rw [hcode, htext, List.cons_append, List.cons_prefix_cons] at hstarts
    obtain ⟨rfl, hstarts⟩ := hstarts
    rw [hcode, trim_cons hc] at h
    obtain ⟨rfl, hrest⟩ := List.cons.inj h
    have hname : spec.name = [] := hquote rfl
    -- Behind the quote stands the path, and then a quote again.
    rw [Spec.text, hname, spec.gap_of_unnamed hname] at htext
    obtain ⟨-, rfl⟩ := List.cons.inj htext
    have hpath : ['C', '"'] <+: spec.path ++ ['"'] ++ tail := by
      rw [← hrest]
      exact (trimEnd_starts code).trans hstarts
    exact ⟨hname, eq_C_of_starts spec.path_plain hpath⟩

/-- **An import is taken for one of `C` exactly if it is one**, whatever comment follows it. -/
theorem isCSpec_text (spec : Spec) (hend : LineEnd tail) :
    isCSpec (spec.text ++ tail) = true ↔ spec.IsC :=
  ⟨isC_of_isCSpec_text, fun h => h.isCSpec hend⟩

/-! ## 3. Lines between imports -/

/-- Where the scanner stands outside block comments. -/
def placeOf (group : Bool) : ImportPlace :=
  if group then .inGroup else .outside

theorem scanImports_go {place next : ImportPlace} (h : step place (trim line) = .go next)
    (rest : List (List Char)) : scanImports place (line :: rest) = scanImports next rest := by
  rw [scanImports, h]

theorem step_inBlock_open (h : ¬ ['*', '/'] <:+: line) :
    step (.inBlock group) line = .go (.inBlock group) := by
  have hcut : splitAtFirst ['*', '/'] line = none := splitAtFirst_eq_none_iff.mpr h
  simp [step, occursIn, hcut]

theorem step_inBlock_closing (h : ['*', '/'] <:+: line) :
    step (.inBlock group) line = .go (placeOf group) := by
  have hcut : (splitAtFirst ['*', '/'] line).isSome = true := by
    rw [Option.isSome_iff_ne_none]
    exact fun hnone => splitAtFirst_eq_none_iff.mp hnone h
  simp [step, occursIn, hcut, placeOf]

/-- The line that opens a block comment is read as if the comment were still open behind it, unless
    it holds the closing mark. -/
theorem step_opening (text : List Char) :
    step (placeOf group) ('/' :: '*' :: text) =
      step (.inBlock group) ('/' :: '*' :: text) := by
  cases group <;> rfl

theorem infix_closing (before gap : List Char) : ['*', '/'] <:+: before ++ '*' :: '/' :: gap :=
  ⟨before, gap, by simp⟩

/-- The rest of a block comment leads back to where the comment was opened. -/
theorem scanImports_blockRest {block : List (List Char)} (h : BlockRest block)
    (rest : List (List Char)) :
    scanImports (.inBlock group) (block ++ rest) = scanImports (placeOf group) rest := by
  induction h with
  | close inside gap hfirst hgap =>
    refine scanImports_go (step_inBlock_closing ?_) rest
    rw [trim_closing inside hgap]
    exact infix_closing _ []
  | more inside block hopen h ih =>
    have hstay : step (.inBlock group) (trim inside) = .go (.inBlock group) :=
      step_inBlock_open fun hoccurs => hopen (hoccurs.trans (infix_trim inside))
    rw [List.cons_append, scanImports_go hstay, ih]

/-- The mark that opens a comment runs into a closing one only before a slash. -/
theorem not_infix_opening (hopen : ¬ ['*', '/'] <:+: text) (hslash : text.head? ≠ some '/') :
    ¬ ['*', '/'] <:+: '/' :: '*' :: text := by
  rw [List.infix_cons_iff, List.infix_cons_iff, not_or, not_or]
  refine ⟨by simp, fun hstarts => hslash ?_, hopen⟩
  obtain ⟨more, hmore⟩ := hstarts
  obtain ⟨-, rfl⟩ := List.cons.inj hmore
  rfl

/-- **A block comment is passed over where its opening is plain.** -/
theorem scanImports_block {indent : List Char} {block : List (List Char)}
    (hindent : ∀ c ∈ indent, isBlank c = true) (hblock : BlockRest (text :: block))
    (hplain : (Opening.block text).Plain) (rest : List (List Char)) :
    scanImports (placeOf group) ((indent ++ '/' :: '*' :: text) :: (block ++ rest)) =
      scanImports (placeOf group) rest := by
  have hstep : step (placeOf group) (trim (indent ++ '/' :: '*' :: text)) =
      step (.inBlock group) ('/' :: '*' :: trimEnd text) := by
    rw [trim_opening hindent, step_opening]
  cases hblock with
  | close inside gap hfirst hgap =>
    have hclosing : step (.inBlock group) ('/' :: '*' :: (inside ++ ['*', '/'])) =
        .go (placeOf group) := step_inBlock_closing (infix_closing ('/' :: '*' :: inside) [])
    rw [trimEnd_closing inside hgap, hclosing] at hstep
    exact scanImports_go hstep rest
  | more _ _ hopen h =>
    have hslash : (trimEnd text).head? ≠ some '/' := by
      intro hhead
      refine hopen (hplain (Option.mem_def.mp ?_))
      exact head?_of_starts (trimEnd_starts text) hhead
    have hshort : ¬ ['*', '/'] <:+: trimEnd text :=
      fun hoccurs => hopen (hoccurs.trans (trimEnd_starts text).isInfix)
    rw [step_inBlock_open (not_infix_opening hshort hslash)] at hstep
    rw [scanImports_go hstep, scanImports_blockRest h]

theorem scanImports_idleLines {idle : List (List Char)} {opened : List Opening}
    (h : IdleLines idle opened) (hplain : ∀ opening ∈ opened, opening.Plain)
    (rest : List (List Char)) :
    scanImports (placeOf group) (idle ++ rest) = scanImports (placeOf group) rest := by
  cases h with
  | blank line hline =>
    refine scanImports_go ?_ rest
    rw [hline]
    cases group <;> rfl
  | comment line text hline =>
    refine scanImports_go ?_ rest
    rw [hline]
    cases group <;> rfl
  | block indent text block hindent hblock =>
    exact scanImports_block hindent hblock (hplain _ List.mem_cons_self) rest

/-! ## 4. Lines with imports -/

/-- A line in a group that neither closes it nor is a comment is an import. -/
theorem step_inGroup_cons {c : Char} (hslash : c ≠ '/') (hclose : c ≠ ')') (more : List Char) :
    step .inGroup (c :: more) = if isCSpec (c :: more) then .found else .go .inGroup := by
  unfold step
  split
  · rename_i hplace
    cases hplace
  · split
    · rename_i hline
      cases hline
    · rename_i hline
      exact absurd (List.cons.inj hline).1 hslash
    · rename_i hline
      exact absurd (List.cons.inj hline).1 hslash
    · simp [hclose]

/-- What stands behind the keyword is an import if it opens no group. -/
theorem importStep_cons {c : Char} (h : c ≠ '(') (more : List Char) :
    importStep (c :: more) = if isCSpec (c :: more) then .found else .go .outside := by
  unfold importStep
  split
  · rename_i hopen
    exact absurd (List.cons.inj hopen).1 h
  · rfl

theorem LineEnd.trim_eq (hend : LineEnd tail) :
    trim tail = [] ∨ ∃ text, trim tail = '/' :: '/' :: text := by
  have hslash : isBlank '/' = false := by decide
  cases hend with
  | blank _ hgap =>
    left
    unfold trim
    rw [trimStart_of_blank hgap]
    rfl
  | comment gap text hgap =>
    right
    refine ⟨trimEnd text, ?_⟩
    rw [trim_append_of_blank hgap, trim_cons hslash]
    exact congrArg ('/' :: ·) (trimEnd_append_cons hslash [] text)

theorem LineEnd.trimEnd (hend : LineEnd tail) : LineEnd (trimEnd tail) := by
  have hslash : isBlank '/' = false := by decide
  cases hend with
  | blank _ hgap =>
    rw [trimEnd_of_blank hgap]
    exact .blank [] (by simp)
  | comment gap text hgap =>
    have hcut : TestScout.trimEnd (gap ++ '/' :: '/' :: text) =
        gap ++ '/' :: '/' :: TestScout.trimEnd text := by
      simpa using trimEnd_append_cons hslash (gap ++ ['/']) text
    rw [hcut]
    exact .comment gap _ hgap

/-- A group is opened where its line does not end as if it closed it. -/
theorem importStep_group (hend : LineEnd tail) (hplain : (Opening.group tail).Plain) :
    importStep ('(' :: trimEnd tail) = .go .inGroup := by
  have hinner : trim (trimEnd tail) = trim tail := trim_trimEnd tail
  have hfirst : (trim tail).head? ≠ some ')' := by
    rcases hend.trim_eq with h | ⟨text, h⟩ <;> simp [h]
  have hnotC : isCSpec (trim tail) = false := by
    rcases hend.trim_eq with h | ⟨text, h⟩ <;> rw [h]
    · rfl
    · have hfirst : ¬ ['/', '/'] <:+: [] ++ ['/', '/'].dropLast := by decide
      have hcut : splitAtFirst ['/', '/'] ('/' :: '/' :: text) = some ([], text) :=
        splitAtFirst_append text hfirst
      simp only [isCSpec, hcut]
      rfl
  unfold Opening.Plain at hplain
  simp [importStep, hinner, hfirst, hplain, hnotC]

variable {raws : List (List Char)} {openings : List Opening} {specs : List Spec}

/-- **A group is read to its end, unless one of its imports is `C`.** -/
theorem scanImports_groupLines (h : GroupLines raws openings specs)
    (hplain : ∀ opening ∈ openings, opening.Plain) (rest : List (List Char)) :
    scanImports .inGroup (raws ++ rest) =
      (specs.any (fun spec => spec.IsC) || scanImports .outside rest) := by
  induction h with
  | close line tail hline hend =>
    have hstep : step .inGroup (trim line) = .go .outside := by
      rw [hline]
      rfl
    exact scanImports_go hstep rest
  | idle idle more opened openings specs hidle h ih =>
    have hpass : scanImports (placeOf true) (idle ++ (more ++ rest)) =
        scanImports (placeOf true) (more ++ rest) := scanImports_idleLines hidle
      (fun opening hin => hplain opening (List.mem_append_left _ hin)) (more ++ rest)
    rw [List.append_assoc]
    exact hpass.trans (ih fun opening hin => hplain opening (List.mem_append_right _ hin))
  | spec line tail spec more openings specs hline hend h ih =>
    obtain ⟨c, text, htext, -, hslash, -, hclose, -⟩ := spec.text_eq_cons
    have hstep : step .inGroup (trim line) =
        if isCSpec (spec.text ++ tail) then .found else .go .inGroup := by
      rw [hline, htext, List.cons_append]
      exact step_inGroup_cons hslash hclose _
    rw [List.cons_append, scanImports, hstep, List.any_cons]
    by_cases hC : spec.IsC
    · simp [hC, (isCSpec_text spec hend).mpr hC]
    · have hnotC : isCSpec (spec.text ++ tail) = false :=
        Bool.eq_false_iff.mpr fun htrue => hC ((isCSpec_text spec hend).mp htrue)
      simpa [hC, hnotC] using ih hplain

theorem step_declaration {word : List Char} (hword : word ∈ declarationWords)
    (text : List Char) : step .outside (word ++ text) = .over := by
  simp only [declarationWords, List.mem_cons, List.not_mem_nil, or_false] at hword
  rcases hword with rfl | rfl | rfl | rfl <;> rfl

theorem step_import (text : List Char) :
    step .outside (['i', 'm', 'p', 'o', 'r', 't'] ++ text) = importStep (trim text) :=
  rfl

/-- **The scanner finds `C` exactly if one of the imports is `C`**, where no opening is mistaken. -/
theorem scanImports_importLines (h : ImportLines raws openings specs)
    (hplain : ∀ opening ∈ openings, opening.Plain) :
    scanImports .outside raws = specs.any fun spec => spec.IsC := by
  induction h with
  | done => rfl
  | declaration line word text rest hword hline =>
    rw [scanImports, hline, step_declaration hword]
    rfl
  | idle idle rest opened openings specs hidle h ih =>
    have hpass : scanImports (placeOf false) (idle ++ rest) = scanImports (placeOf false) rest :=
      scanImports_idleLines hidle
        (fun opening hin => hplain opening (List.mem_append_left _ hin)) rest
    exact hpass.trans (ih fun opening hin => hplain opening (List.mem_append_right _ hin))
  | single line gap tail spec rest openings specs hline hgap hend h ih =>
    obtain ⟨c, text, htext, -, -, hopen, -, -⟩ := spec.text_eq_cons
    have hblank : ∀ d ∈ gap, isBlank d = true := fun d hd => isBlank_of_isSpaceOrTab (hgap d hd)
    have hstep : step .outside (trim line) =
        if isCSpec (spec.text ++ trimEnd tail) then .found else .go .outside := by
      rw [hline, step_import, trim_append_of_blank hblank, spec.trim_text_append, htext,
        List.cons_append]
      exact importStep_cons hopen _
    rw [scanImports, hstep, List.any_cons]
    by_cases hC : spec.IsC
    · simp [hC, (isCSpec_text spec hend.trimEnd).mpr hC]
    · have hnotC : isCSpec (spec.text ++ trimEnd tail) = false :=
        Bool.eq_false_iff.mpr fun htrue => hC ((isCSpec_text spec hend.trimEnd).mp htrue)
      simpa [hC, hnotC] using ih hplain
  | group line gap tail inside rest opened openings grouped specs hline hgap hend hinside h ih =>
    have hblank : ∀ d ∈ gap, isBlank d = true := fun d hd => isBlank_of_isSpaceOrTab (hgap d hd)
    have hopen : isBlank '(' = false := by decide
    have hstep : step .outside (trim line) = .go .inGroup := by
      rw [hline, step_import, trim_append_of_blank hblank, trim_cons hopen]
      exact importStep_group hend (hplain _ List.mem_cons_self)
    have hinner : ∀ opening ∈ opened, opening.Plain := fun opening hin =>
      hplain opening (List.mem_cons_of_mem _ (List.mem_append_left _ hin))
    have hbehind : ∀ opening ∈ openings, opening.Plain := fun opening hin =>
      hplain opening (List.mem_cons_of_mem _ (List.mem_append_right _ hin))
    rw [scanImports_go hstep, scanImports_groupLines hinside hinner, ih hbehind, List.any_append]

/-! ## 5. Headers -/

/-- The lines behind the line of code that ends the scan, from inside a block comment or not. -/
def linesBehindCode (inBlock : Bool) : List (List Char) → List (List Char)
  | [] => []
  | raw :: rest =>
    match kindOf inBlock raw with
    | none => linesBehindCode true rest
    | some .opensBlock => linesBehindCode true rest
    | some (.code _) => rest
    | some _ => linesBehindCode false rest

/-- The lines behind the package clause of a source. -/
def linesBehindClause (source : List Char) : List (List Char) :=
  linesBehindCode false (lines source)

/-- A scan that succeeds goes on behind a constraint with what it has found. -/
theorem exists_scanLines_of_constraint {inBlock : Bool} {found : Found} {raw : List Char}
    {rest : List (List Char)} {header : Header} {kind : Line}
    (hkind : kindOf inBlock raw = some kind)
    (hconstraint : (∃ text, kind = .goBuild text) ∨ ∃ text, kind = .plusBuild text)
    (h : scanLines inBlock found (raw :: rest) = .ok header) :
    ∃ next, scanLines false next rest = .ok header := by
  unfold kindOf at hkind
  rw [scanLines] at h
  simp only [hkind] at h
  rcases hconstraint with ⟨text, rfl⟩ | ⟨text, rfl⟩
  · dsimp only at h
    split at h
    · cases h
    · exact ⟨_, h⟩
  · dsimp only at h
    split at h
    · cases h
    · exact ⟨_, h⟩

theorem finish_package (found : Found) (text : List Char) (rest : List (List Char)) :
    (finish found text rest).package = packageName text := by
  unfold finish
  cases packageName text <;> rfl

/-- A header that names a package is finished by the line of code that ends the scan. -/
theorem exists_finish_of_scanLines {inBlock : Bool} {found : Found} {header : Header}
    {name : String} (h : scanLines inBlock found raws = .ok header)
    (hpackage : header.package = some name) :
    ∃ next text, header = finish next text (linesBehindCode inBlock raws) := by
  induction raws generalizing inBlock found with
  | nil =>
    obtain rfl := Except.ok.inj h
    cases hpackage
  | cons raw rest ih =>
    cases hkind : kindOf inBlock raw with
    | none =>
      rw [scanLines_swallowed hkind] at h
      simpa only [linesBehindCode, hkind] using ih h
    | some kind =>
      cases kind with
      | idle =>
        rw [scanLines_idle hkind] at h
        simpa only [linesBehindCode, hkind] using ih h
      | opensBlock =>
        rw [scanLines_opensBlock hkind] at h
        simpa only [linesBehindCode, hkind] using ih h
      | goBuild expression =>
        obtain ⟨next, hnext⟩ := exists_scanLines_of_constraint hkind (Or.inl ⟨_, rfl⟩) h
        simpa only [linesBehindCode, hkind] using ih hnext
      | plusBuild body =>
        obtain ⟨next, hnext⟩ := exists_scanLines_of_constraint hkind (Or.inr ⟨_, rfl⟩) h
        simpa only [linesBehindCode, hkind] using ih hnext
      | code text =>
        rw [scanLines_code hkind] at h
        obtain rfl := Except.ok.inj h
        simp only [linesBehindCode, hkind]
        exact ⟨found, text, rfl⟩

/-- What a header says about `C` is what its scanner finds behind the package clause. -/
theorem importsC_of_scan {source : List Char} {header : Header} {name : String}
    (h : scan source = .ok header) (hpackage : header.package = some name) :
    header.importsC = scanImports .outside (linesBehindClause source) := by
  obtain ⟨found, text, rfl⟩ := exists_finish_of_scanLines h hpackage
  rw [finish_package] at hpackage
  unfold finish
  rw [hpackage]
  rfl

/-- No header names a package by the empty text. -/
theorem ne_empty_of_scan {source : List Char} {header : Header} {name : String}
    (h : scan source = .ok header) (hpackage : header.package = some name) : name ≠ "" := by
  obtain ⟨found, text, rfl⟩ := exists_finish_of_scanLines h hpackage
  rw [finish_package] at hpackage
  unfold packageName at hpackage
  split at hpackage
  · cases hpackage
  · cases hpackage
  · split at hpackage
    · split at hpackage
      · cases hpackage
      · rename_i hletters
        obtain rfl := Option.some.inj hpackage
        intro hempty
        exact hletters (String.ofList_eq_empty_iff.mp hempty)
    · cases hpackage

/-- **A header says that `C` is imported exactly if one of the imports is `C`**, where no opening of
    a group or of a block comment is mistaken for something else. -/
theorem importsC_iff_of_importLines {source : List Char} {header : Header} {name : String}
    (hscan : scan source = .ok header) (hpackage : header.package = some name)
    (himports : ImportLines (linesBehindClause source) openings specs)
    (hplain : ∀ opening ∈ openings, opening.Plain) :
    header.importsC = true ↔ ∃ spec ∈ specs, spec.IsC := by
  have hfound : header.importsC = scanImports .outside (linesBehindClause source) :=
    importsC_of_scan hscan hpackage
  rw [hfound, scanImports_importLines himports hplain, List.any_eq_true]
  simp only [decide_eq_true_eq]

/-- The import of the pseudo-package. -/
def importOfC : Spec where
  name := []
  gap := []
  path := ['C']
  name_chars := Or.inr fun c hc => absurd hc List.not_mem_nil
  gap_spaces := fun c hc => absurd hc List.not_mem_nil
  gap_of_unnamed := fun _ => rfl
  path_plain := by decide

/-- An import of the pseudo-package under a name. -/
def namedImportOfC : Spec where
  name := ['c']
  gap := [' ']
  path := ['C']
  name_chars := Or.inr (List.all_eq_true.mp (by decide +kernel))
  gap_spaces := isSpaceOrTab_of_mem_space
  gap_of_unnamed := fun h => by cases h
  path_plain := by decide

/-- A source with imports on a line and in a group, and with their look-alikes in comments. -/
def groupedSource : List Char :=
  ("package p\n\n// import \"C\"\n/* import \"C\"\n*/\nimport c \"C\" // \"C\"\n" ++
    "import ( // (C\n\t\"C\" // )\n) // end\n\nvar x int\n").toList

theorem importsC_iff_of_importLines_groupedSource :
    let header : Header := ⟨none, some "p", none, true⟩
    let openings := [.block " import \"C\"".toList, .group " // (C".toList]
    let specs := [namedImportOfC, importOfC]
    scan groupedSource = .ok header ∧ header.package = some "p" ∧
      ImportLines (linesBehindClause groupedSource) openings specs ∧
      (∀ opening ∈ openings, opening.Plain) ∧
      (header.importsC = true ↔ ∃ spec ∈ specs, spec.IsC) := by
  intro header openings specs
  have hscan : scan groupedSource = .ok header := by decide +kernel
  have himports : ImportLines (linesBehindClause groupedSource) openings specs := by
    have hbehind : linesBehindClause groupedSource = [[], "// import \"C\"".toList,
        "/* import \"C\"".toList, "*/".toList, "import c \"C\" // \"C\"".toList,
        "import ( // (C".toList, "\t\"C\" // )".toList, ") // end".toList, [],
        "var x int".toList] := by
      decide +kernel
    rw [hbehind]
    have hspace : ∀ c ∈ [' '], isBlank c = true := List.all_eq_true.mp (by decide)
    have hvar : ImportLines [[], "var x int".toList] [] [] :=
      .idle [[]] _ [] [] _ (.blank [] rfl)
        (.declaration _ ['v', 'a', 'r'] " x int".toList _ (by decide) (by rfl))
    have hinside : GroupLines ["\t\"C\" // )".toList, ") // end".toList] [] [importOfC] :=
      .spec _ " // )".toList importOfC _ _ _ (by rfl) (.comment [' '] _ hspace)
        (.close _ " // end".toList (by rfl) (.comment [' '] _ hspace))
    have hgroup := ImportLines.group "import ( // (C".toList [' '] " // (C".toList _ _ _ _ _ _
      (by rfl) isSpaceOrTab_of_mem_space (.comment [' '] _ hspace) hinside hvar
    have hsingle := ImportLines.single "import c \"C\" // \"C\"".toList [' ']
      " // \"C\"".toList namedImportOfC _ _ _ (by rfl) isSpaceOrTab_of_mem_space
      (.comment [' '] _ hspace) hgroup
    have hclose : BlockRest [" import \"C\"".toList, "*/".toList] :=
      .more _ _ (by decide) (.close [] [] (by decide) (by simp))
    have hblock := ImportLines.idle _ _ _ _ _
      (.block [] " import \"C\"".toList ["*/".toList] (by simp) hclose) hsingle
    have hcomment := ImportLines.idle _ _ _ _ _
      (.comment "// import \"C\"".toList " import \"C\"".toList (by rfl)) hblock
    exact .idle [[]] _ [] _ _ (.blank [] rfl) hcomment
  have hplain : ∀ opening ∈ openings, opening.Plain := by
    simp only [openings, List.forall_mem_cons, List.not_mem_nil, false_implies, implies_true,
      and_true]
    exact ⟨fun hhead => absurd hhead (by decide), by unfold Opening.Plain; decide⟩
  exact ⟨hscan, rfl, himports, hplain, importsC_iff_of_importLines hscan rfl himports hplain⟩

/-- A source that imports `C` in a group whose first line ends in a parenthesis. -/
def closedLookalike : List Char :=
  "package p\n\nimport ( // cgo (see below)\n\t\"C\"\n)\n".toList

/-- A source with an import in a block comment whose mark runs into a closing one. -/
def openedLookalike : List Char :=
  "package p\n\n/*/\nimport \"C\"\n*/\n".toList

/-- **A group may lose its imports, and a comment may import.** The scanner takes a parenthesis at
    the end of the line that opens a group for the one that closes it, and the mark `/*/` for a
    whole comment. -/
theorem importsC_misread :
    (∃ openings, ImportLines (linesBehindClause closedLookalike) openings [importOfC] ∧
        importOfC.IsC ∧ scan closedLookalike = .ok ⟨none, some "p", none, false⟩) ∧
      ∃ openings, ImportLines (linesBehindClause openedLookalike) openings [] ∧
        scan openedLookalike = .ok ⟨none, some "p", none, true⟩ := by
  have hspace : ∀ c ∈ [' '], isBlank c = true := List.all_eq_true.mp (by decide)
  constructor
  · have hbehind : linesBehindClause closedLookalike =
        [[], "import ( // cgo (see below)".toList, "\t\"C\"".toList, ")".toList] := by
      decide +kernel
    have hinside : GroupLines ["\t\"C\"".toList, ")".toList] [] [importOfC] :=
      .spec _ [] importOfC _ _ _ (by rfl) (.blank [] (by simp))
        (.close _ [] (by rfl) (.blank [] (by simp)))
    have hgroup := ImportLines.group "import ( // cgo (see below)".toList [' ']
      " // cgo (see below)".toList _ _ _ _ _ _ (by rfl) isSpaceOrTab_of_mem_space
      (.comment [' '] _ hspace) hinside .done
    rw [hbehind]
    exact ⟨_, .idle [[]] _ [] _ _ (.blank [] rfl) hgroup, by decide, by decide +kernel⟩
  · have hbehind : linesBehindClause openedLookalike =
        [[], "/*/".toList, "import \"C\"".toList, "*/".toList] := by
      decide +kernel
    have hclose : BlockRest ["/".toList, "import \"C\"".toList, "*/".toList] :=
      .more _ _ (by decide) (.more _ _ (by decide) (.close [] [] (by decide) (by simp)))
    have hblock := ImportLines.idle _ _ _ _ _
      (.block [] "/".toList ["import \"C\"".toList, "*/".toList] (by simp) hclose) .done
    rw [hbehind]
    exact ⟨_, .idle [[]] _ [] _ _ (.blank [] rfl) hblock, by decide +kernel⟩

end TestScout.Header
