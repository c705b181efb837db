import TestScout.Header.Scan
import TestScout.Proofs.Text.Cutting

/-!
# What a header says

The scanner goes through the lines of a source once, with a flag for open block comments and the
constraints found so far. What it gives is said here without the flag and without the order of the
lines: a header is laid out in blank lines, `//` comments and block comments before its package
clause, and it says what its `//` comments say together. Main statements:

* `HeaderLines`: the layout, with the `//` comments of the header and the name of the package;
* `goBuildOf`, `plusBuildOf`, `Rejected`, `effective`: what `//` comments say together;
* `scanLines_block`: a block comment is passed over, whatever stands in it;
* `scanLines_answer`: the scanner takes in the `//` comments and nothing else;
* `absorb_eq_ok_iff`: when comments are taken in, and what they leave;
* `scan_of_headerLines`: the scanner fails exactly on rejected comments, and else gives the name and
  the constraint of the reference.
-/

namespace TestScout.Header

/-! ## 1. The layout of a header -/

/-- The lines of a block comment from behind its opening on: the first closing mark stands on the
    last one, with nothing but white space behind it. -/
inductive BlockRest : List (List Char) → Prop where
  | close (inside gap : List Char) (hfirst : ¬ ['*', '/'] <:+: inside ++ ['*'])
      (hgap : ∀ c ∈ gap, isBlank c = true) : BlockRest [inside ++ '*' :: '/' :: gap]
  | more (inside : List Char) (rest : List (List Char)) (hopen : ¬ ['*', '/'] <:+: inside)
      (h : BlockRest rest) : BlockRest (inside :: rest)

/-- The lines begin with a header that has these `//` comments outside block comments and declares
    a package of this name. Any lines may follow its package clause. -/
inductive HeaderLines : List (List Char) → List (List Char) → String → Prop where
  | clause (line gap name : List Char) (rest : List (List Char))
      (hline : trim line = ['p', 'a', 'c', 'k', 'a', 'g', 'e'] ++ (gap ++ name))
      (hgap : gap ≠ []) (hspaces : ∀ c ∈ gap, isSpaceOrTab c = true)
      (hname : name ≠ []) (hchars : ∀ c ∈ name, isNameChar c = true) :
      HeaderLines (line :: rest) [] (String.ofList name)
  | blank (line : List Char) (rest comments : List (List Char)) (name : String)
      (hline : trim line = []) (h : HeaderLines rest comments name) :
      HeaderLines (line :: rest) comments name
  | comment (line text : List Char) (rest comments : List (List Char)) (name : String)
      (hline : trim line = '/' :: '/' :: text) (h : HeaderLines rest comments name) :
      HeaderLines (line :: rest) (line :: comments) name
  | block (indent text : List Char) (block rest comments : List (List Char)) (name : String)
      (hindent : ∀ c ∈ indent, isBlank c = true) (hblock : BlockRest (text :: block))
      (h : HeaderLines rest comments name) :
      HeaderLines ((indent ++ '/' :: '*' :: text) :: (block ++ rest)) comments name

/-! ## 2. What comments say together -/

/-- What stands behind the marker of a `//go:build` comment. -/
def goBuildOf (line : List Char) : Option (List Char) :=
  (after? ['/', '/', 'g', 'o', ':', 'b', 'u', 'i', 'l', 'd'] (trim line)).filter endsWord

/-- What stands behind the marker of a `+build` comment. -/
def plusBuildOf (line : List Char) : Option (List Char) :=
  ((after? ['/', '/'] (trim line)).bind fun text =>
    after? ['+', 'b', 'u', 'i', 'l', 'd'] (trimStart text)).filter endsWord

/-- The results of the texts that can be read. -/
def readable (read : List Char → Except ConstraintError Constraint) (texts : List (List Char)) :
    List Constraint :=
  texts.filterMap fun text => (read text).toOption

/-- The expression of a `//go:build` comment, read without the white space around it. -/
def readGoBuild (text : List Char) : Except ConstraintError Constraint :=
  Constraint.read (trim text)

/-- The comments make a header invalid: a second `//go:build` line is among them, or one that
    cannot be read. -/
def Rejected (comments : List (List Char)) : Prop :=
  2 ≤ (comments.filterMap goBuildOf).length ∨
    (∃ text ∈ comments.filterMap goBuildOf, ∃ e, readGoBuild text = .error e) ∨
      ∃ body ∈ comments.filterMap plusBuildOf, ∃ e, LegacyLine.read body = .error e

/-- The constraint that the comments say: the one of the `//go:build` line if there is one, else
    all `+build` lines together. -/
def effective (comments : List (List Char)) : Option Constraint :=
  (readable readGoBuild (comments.filterMap goBuildOf)).head?.or
    (LegacyLine.joinWith .and (readable LegacyLine.read (comments.filterMap plusBuildOf)))

/-- The constraint and the package of a header. -/
def answer (header : Header) : Option Constraint × Option String :=
  (header.constraint, header.package)

/-! ## 3. Single comments -/

/-- What one `//` comment is to the scanner and to the reference. -/
inductive CommentKind (line : List Char) : Prop where
  | goBuild (text : List Char) (hscan : lineOf (trim line) = .goBuild text)
      (hgo : goBuildOf line = some text)
  | plusBuild (body : List Char) (hscan : lineOf (trim line) = .plusBuild body)
      (hgo : goBuildOf line = none) (hplus : plusBuildOf line = some body)
  | idle (hscan : lineOf (trim line) = .idle) (hgo : goBuildOf line = none)
      (hplus : plusBuildOf line = none)

theorem after?_eq_some_iff {mark text rest : List Char} :
    after? mark text = some rest ↔ mark ++ rest = text :=
  List.isPrefixOf?_eq_some_iff_append_eq

/-- Behind the marker of a `//go:build` comment there is no room for the other marker. -/
theorem plusBuildOf_of_goBuild {line rest : List Char}
    (h : after? ['/', '/', 'g', 'o', ':', 'b', 'u', 'i', 'l', 'd'] (trim line) = some rest) :
    plusBuildOf line = none := by
  unfold plusBuildOf
  rw [← after?_eq_some_iff.mp h]
  rfl

theorem plusBuildOf_of_goBuildOf {line text : List Char} (h : goBuildOf line = some text) :
    plusBuildOf line = none := by
  obtain ⟨hmark, -⟩ := Option.filter_eq_some_iff.mp h
  exact plusBuildOf_of_goBuild hmark

/-- **Every `//` comment has one kind.** A marker that goes on with another character makes a
    comment without meaning. -/
theorem commentKind {line text : List Char} (hline : trim line = '/' :: '/' :: text) :
    CommentKind line := by
  have hlineOf : lineOf (trim line) = lineOfComment text := by rw [hline]; rfl
  have hmark : after? ['/', '/', 'g', 'o', ':', 'b', 'u', 'i', 'l', 'd'] (trim line) =
      after? ['g', 'o', ':', 'b', 'u', 'i', 'l', 'd'] text := by rw [hline]; rfl
  have hgo : goBuildOf line =
      (after? ['g', 'o', ':', 'b', 'u', 'i', 'l', 'd'] text).filter endsWord := by
    unfold goBuildOf
    rw [hmark]
  have hplus : plusBuildOf line =
      (after? ['+', 'b', 'u', 'i', 'l', 'd'] (trimStart text)).filter endsWord := by
    unfold plusBuildOf
    rw [hline]
    rfl
  unfold lineOfComment at hlineOf
  cases hbuild : after? ['g', 'o', ':', 'b', 'u', 'i', 'l', 'd'] text with
  | some expression =>
    rw [hbuild] at hlineOf hgo
    have hnone : plusBuildOf line = none := plusBuildOf_of_goBuild (hmark.trans hbuild)
    cases hend : endsWord expression with
    | true =>
      exact .goBuild expression (by simpa [hend] using hlineOf)
        (by simpa [Option.filter, hend] using hgo)
    | false =>
      exact .idle (by simpa [hend] using hlineOf) (by simpa [Option.filter, hend] using hgo) hnone
  | none =>
    rw [hbuild] at hlineOf hgo
    cases hold : after? ['+', 'b', 'u', 'i', 'l', 'd'] (trimStart text) with
    | some body =>
      rw [hold] at hlineOf hplus
      cases hend : endsWord body with
      | true =>
        exact .plusBuild body (by simpa [hend] using hlineOf) hgo
          (by simpa [Option.filter, hend] using hplus)
      | false =>
        exact .idle (by simpa [hend] using hlineOf) hgo (by simpa [Option.filter, hend] using hplus)
    | none =>
      rw [hold] at hlineOf hplus
      exact .idle hlineOf hgo hplus

/-! ## 4. Block comments -/

theorem trim_opening {indent : List Char} (h : ∀ c ∈ indent, isBlank c = true) (text : List Char) :
    trim (indent ++ '/' :: '*' :: text) = '/' :: '*' :: trimEnd text := by
  have hslash : isBlank '/' = false := by decide
  have hstar : isBlank '*' = false := by decide
  unfold trim
  rw [trimStart_append_cons hslash, trimStart_of_blank h, List.nil_append]
  exact trimEnd_append_cons hstar ['/'] text

/-- Nothing but the closing mark is left where it ends a line. -/
theorem trim_closing (inside : List Char) {gap : List Char} (h : ∀ c ∈ gap, isBlank c = true) :
    trim (inside ++ '*' :: '/' :: gap) = trimStart inside ++ ['*', '/'] := by
  have hslash : isBlank '/' = false := by decide
  have hstar : isBlank '*' = false := by decide
  unfold trim
  rw [trimStart_append_cons hstar]
  have hend := trimEnd_append_cons hslash (trimStart inside ++ ['*']) gap
  rw [trimEnd_of_blank h] at hend
  simpa using hend

theorem trimEnd_closing (inside : List Char) {gap : List Char} (h : ∀ c ∈ gap, isBlank c = true) :
    trimEnd (inside ++ '*' :: '/' :: gap) = inside ++ ['*', '/'] := by
  have hslash : isBlank '/' = false := by decide
  have hend := trimEnd_append_cons hslash (inside ++ ['*']) gap
  rw [trimEnd_of_blank h] at hend
  simpa using hend

/-- A line that closes a block comment is idle behind the mark. -/
theorem lineInBlock_closing {inside gap : List Char} (hfirst : ¬ ['*', '/'] <:+: inside ++ ['*'])
    (hgap : ∀ c ∈ gap, isBlank c = true) :
    lineInBlock (trim (inside ++ '*' :: '/' :: gap)) = some .idle := by
  have hstart : trimStart inside ++ ['*'] <:+: inside ++ ['*'] := by
    obtain ⟨front, hfront⟩ := trimStart_suffix inside
    exact ⟨front, [], by rw [List.append_nil, ← List.append_assoc, hfront]⟩
  have hcut : splitAtFirst ['*', '/'] (trimStart inside ++ ['*', '/']) =
      some (trimStart inside, []) :=
    splitAtFirst_append [] fun h => hfirst (h.trans hstart)
  unfold lineInBlock
  rw [trim_closing inside hgap, hcut]
  rfl

/-- A line without the closing mark leaves a block comment open. -/
theorem lineInBlock_open {inside : List Char} (hopen : ¬ ['*', '/'] <:+: inside) :
    lineInBlock (trim inside) = none := by
  have hcut : splitAtFirst ['*', '/'] (trim inside) = none :=
    splitAtFirst_eq_none_iff.mpr fun h => hopen (h.trans (infix_trim inside))
  unfold lineInBlock
  rw [hcut]
  rfl

/-- A block comment that closes on its first line is idle. -/
theorem lineOf_closing {inside gap : List Char} (hfirst : ¬ ['*', '/'] <:+: inside ++ ['*'])
    (hgap : ∀ c ∈ gap, isBlank c = true) :
    lineOf ('/' :: '*' :: trimEnd (inside ++ '*' :: '/' :: gap)) = .idle := by
  have hcut : splitAtFirst ['*', '/'] (inside ++ ['*', '/']) = some (inside, []) :=
    splitAtFirst_append [] hfirst
  rw [trimEnd_closing inside hgap]
  simp only [lineOf, hcut]
  rfl

/-- A block comment that does not close on its first line stays open. -/
theorem lineOf_open {text : List Char} (hopen : ¬ ['*', '/'] <:+: text) :
    lineOf ('/' :: '*' :: trimEnd text) = .opensBlock := by
  have hpart : trimEnd text <:+: text := (trimEnd_starts text).isInfix
  have hcut : splitAtFirst ['*', '/'] (trimEnd text) = none :=
    splitAtFirst_eq_none_iff.mpr fun h => hopen (h.trans hpart)
  simp only [lineOf, hcut]

/-- The rest of a block comment ends it and leaves no trace. -/
theorem scanLines_blockRest {block : List (List Char)} (h : BlockRest block) (found : Found)
    (rest : List (List Char)) :
    scanLines true found (block ++ rest) = scanLines false found rest := by
  induction h with
  | close inside gap hfirst hgap =>
    simp [scanLines, lineInBlock_closing hfirst hgap]
  | more inside block hopen h ih =>
    simp only [List.cons_append, scanLines, lineInBlock_open hopen, if_true]
    exact ih

/-- **A block comment is passed over, whatever stands in it.** -/
theorem scanLines_block {indent text : List Char} {block : List (List Char)}
    (hindent : ∀ c ∈ indent, isBlank c = true) (hblock : BlockRest (text :: block)) (found : Found)
    (rest : List (List Char)) :
    scanLines false found ((indent ++ '/' :: '*' :: text) :: (block ++ rest)) =
      scanLines false found rest := by
  simp only [scanLines, trim_opening hindent, Bool.false_eq_true, if_false]
  cases hblock with
  | close inside gap hfirst hgap => simp [lineOf_closing hfirst hgap]
  | more _ _ hopen h =>
    simp only [lineOf_open hopen]
    exact scanLines_blockRest h found rest

/-! ## 5. The package clause -/

/-- The code points of white space. -/
def blankPoints : List Nat :=
  [0x9, 0xA, 0xB, 0xC, 0xD, 0x20, 0x85, 0xA0, 0x1680, 0x2000, 0x2001, 0x2002, 0x2003, 0x2004,
    0x2005, 0x2006, 0x2007, 0x2008, 0x2009, 0x200A, 0x2028, 0x2029, 0x202F, 0x205F, 0x3000]

theorem toNat_mem_blankPoints {c : Char} (h : isBlank c = true) : c.toNat ∈ blankPoints := by
  simp only [isBlank, Bool.or_eq_true, Bool.and_eq_true, decide_eq_true_eq, beq_iff_eq] at h
  simp only [blankPoints, List.mem_cons, List.not_mem_nil, or_false]
  omega

/-- No range of the tables of letters and numbers holds a white-space character. -/
theorem apart_blankPoints :
    ∀ n ∈ blankPoints, ∀ ranges ∈ [alphabeticRanges, decimalDigitRanges, otherNumberRanges],
      ∀ range ∈ ranges, ¬ (range.1 ≤ n ∧ n ≤ range.2) := by
  have hall : ([alphabeticRanges, decimalDigitRanges, otherNumberRanges].all fun ranges =>
      ranges.all fun range => blankPoints.all fun n => n.blt range.1 || range.2.blt n) = true := by
    decide +kernel
  intro n hn ranges hranges range hrange
  have hapart := List.all_eq_true.mp (List.all_eq_true.mp (List.all_eq_true.mp hall ranges hranges)
    range hrange) n hn
  simp only [Bool.or_eq_true, Nat.blt_eq] at hapart
  omega

/-- White space stands in no package name. -/
theorem isBlank_of_isNameChar {c : Char} (h : isNameChar c = true) : isBlank c = false := by
  cases hblank : isBlank c with
  | false => rfl
  | true =>
    exfalso
    have hpoint := apart_blankPoints _ (toNat_mem_blankPoints hblank)
    simp only [isNameChar, isAlphanumeric, isAlphabetic, isDecimalDigit, Bool.or_eq_true,
      CharRanges.has_iff, beq_iff_eq] at h
    rcases h with ((⟨range, hrange, hin⟩ | ⟨range, hrange, hin⟩) | ⟨range, hrange, hin⟩) | rfl
    · exact hpoint _ (by simp) range hrange hin
    · exact hpoint _ (by simp) range hrange hin
    · exact hpoint _ (by simp) range hrange hin
    · exact absurd hblank (by decide)

/-- The name of a package clause is read as far as its characters go. -/
theorem packageName_append {gap name rest : List Char} (hgap : gap ≠ [])
    (hspaces : ∀ c ∈ gap, isSpaceOrTab c = true) (hname : name ≠ [])
    (hchars : ∀ c ∈ name, isNameChar c = true) (hrest : ∀ c ∈ rest.head?, isNameChar c = false) :
    packageName (['p', 'a', 'c', 'k', 'a', 'g', 'e'] ++ (gap ++ (name ++ rest))) =
      some (String.ofList name) := by
  obtain ⟨space, gap, rfl⟩ := List.exists_cons_of_ne_nil hgap
  obtain ⟨first, name, rfl⟩ := List.exists_cons_of_ne_nil hname
  have hblank : ∀ c ∈ space :: gap, isBlank c = true :=
    fun c hc => isBlank_of_isSpaceOrTab (hspaces c hc)
  have hfirst : isBlank first = false := isBlank_of_isNameChar (hchars first List.mem_cons_self)
  have htrim : trimStart (space :: gap ++ (first :: name ++ rest)) = first :: name ++ rest := by
    rw [trimStart_append_of_blank hblank]
    exact List.dropWhile_cons_of_neg (by simp [hfirst])
  have hwhole : (first :: name ++ rest).takeWhile isNameChar = first :: name := by
    rw [List.takeWhile_append_of_pos hchars]
    cases rest with
    | nil => rw [List.takeWhile_nil, List.append_nil]
    | cons c rest => rw [List.takeWhile_cons_of_neg (by simp [hrest c rfl]), List.append_nil]
  have hword : after? ['p', 'a', 'c', 'k', 'a', 'g', 'e']
      (['p', 'a', 'c', 'k', 'a', 'g', 'e'] ++ (space :: gap ++ (first :: name ++ rest))) =
        some (space :: (gap ++ (first :: name ++ rest))) :=
    after?_eq_some_iff.mpr rfl
  unfold packageName
  rw [hword]
  simp only [hspaces space List.mem_cons_self, if_true]
  rw [List.cons_append] at htrim
  rw [htrim, hwhole]

/-- The name of a package clause is read to its end. -/
theorem packageName_clause {gap name : List Char} (hgap : gap ≠ [])
    (hspaces : ∀ c ∈ gap, isSpaceOrTab c = true) (hname : name ≠ [])
    (hchars : ∀ c ∈ name, isNameChar c = true) :
    packageName (['p', 'a', 'c', 'k', 'a', 'g', 'e'] ++ (gap ++ name)) =
      some (String.ofList name) := by
  have hends : ∀ c ∈ ([] : List Char).head?, isNameChar c = false := by simp
  have hread := packageName_append hgap hspaces hname hchars hends
  rwa [List.append_nil] at hread

theorem lineOf_clause {gap name : List Char} :
    lineOf (['p', 'a', 'c', 'k', 'a', 'g', 'e'] ++ (gap ++ name)) =
      .code (['p', 'a', 'c', 'k', 'a', 'g', 'e'] ++ (gap ++ name)) :=
  rfl

/-! ## 6. Taking in comments -/

/-- The constraints with one `//` comment more. -/
def Found.add (found : Found) (line : List Char) : Except ConstraintError Found :=
  match goBuildOf line with
  | some expression => found.addGoBuild expression
  | .none =>
    match plusBuildOf line with
    | some body => found.addPlusBuild body
    | .none => .ok found

/-- The constraints with `//` comments more, up to the first that is invalid. -/
def Found.absorb (found : Found) : List (List Char) → Except ConstraintError Found
  | [] => .ok found
  | line :: rest =>
    match found.add line with
    | .error e => .error e
    | .ok found => found.absorb rest

/-- The scanner takes in a `//` comment and goes on. -/
theorem scanLines_comment {line text : List Char} (hline : trim line = '/' :: '/' :: text)
    (found : Found) (rest : List (List Char)) :
    scanLines false found (line :: rest) =
      match found.add line with
      | .error e => .error e
      | .ok found => scanLines false found rest := by
  simp only [scanLines, Bool.false_eq_true, if_false]
  cases commentKind hline with
  | goBuild text hscan hgo =>
    cases hadd : found.addGoBuild text <;> simp only [hscan, Found.add, hgo, hadd]
  | plusBuild body hscan hgo hplus =>
    cases hadd : found.addPlusBuild body <;> simp only [hscan, Found.add, hgo, hplus, hadd]
  | idle hscan hgo hplus => simp only [hscan, Found.add, hgo, hplus]

/-- **The scanner takes in the `//` comments of the header and nothing else.** -/
theorem scanLines_answer {lines comments : List (List Char)} {name : String}
    (h : HeaderLines lines comments name) (found : Found) :
    (scanLines false found lines).map answer =
      (found.absorb comments).map fun found => (found.effective, some name) := by
  induction h generalizing found with
  | clause line gap name rest hline hgap hspaces hname hchars =>
    have hscan : scanLines false found (line :: rest) = .ok (finish found (trim line) rest) := by
      simp only [scanLines, Bool.false_eq_true, if_false]
      rw [hline, lineOf_clause]
    rw [hscan, hline]
    simp only [finish, packageName_clause hgap hspaces hname hchars]
    rfl
  | blank line rest comments name hline h ih =>
    have hscan : scanLines false found (line :: rest) = scanLines false found rest := by
      simp only [scanLines, Bool.false_eq_true, if_false, hline]
      rfl
    rw [hscan, ih found]
  | comment line text rest comments name hline h ih =>
    rw [scanLines_comment hline]
    unfold Found.absorb
    cases found.add line with
    | error e => rfl
    | ok found => exact ih found
  | block indent text block rest comments name hindent hblock h ih =>
    rw [scanLines_block hindent hblock, ih found]

/-! ## 7. What is left of the comments -/

/-- Nothing stands in the way of taking in the comments behind the constraints found so far. -/
structure Acceptable (found : Found) (comments : List (List Char)) : Prop where
  single : found.goBuild.toList.length + (comments.filterMap goBuildOf).length ≤ 1
  goBuild : ∀ text ∈ comments.filterMap goBuildOf, ∃ x, readGoBuild text = .ok x
  plusBuild : ∀ body ∈ comments.filterMap plusBuildOf, ∃ x, LegacyLine.read body = .ok x

/-- What the constraints found so far and the comments say together. -/
def Found.together (found : Found) (comments : List (List Char)) : Found where
  goBuild := found.goBuild.or (readable readGoBuild (comments.filterMap goBuildOf)).head?
  plusBuild := LegacyLine.joinWith .and
    (found.plusBuild.toList ++ readable LegacyLine.read (comments.filterMap plusBuildOf))

variable {found next last : Found} {line text body : List Char} {comments : List (List Char)}
  {x : Constraint}

theorem add_goBuild_eq_ok_iff (hgo : goBuildOf line = some text) :
    found.add line = .ok next ↔
      found.goBuild = none ∧ ∃ x, readGoBuild text = .ok x ∧ next = ⟨some x, found.plusBuild⟩ := by
  unfold Found.add Found.addGoBuild
  rw [hgo]
  cases found.goBuild with
  | some earlier => simp
  | none =>
    cases hread : readGoBuild text with
    | error e => simp [show Constraint.read (trim text) = .error e from hread]
    | ok x => simp [show Constraint.read (trim text) = .ok x from hread, eq_comm]

theorem add_plusBuild_eq_ok_iff (hgo : goBuildOf line = none)
    (hplus : plusBuildOf line = some body) :
    found.add line = .ok next ↔
      ∃ x, LegacyLine.read body = .ok x ∧
        next = ⟨found.goBuild, LegacyLine.joinWith .and (found.plusBuild.toList ++ [x])⟩ := by
  unfold Found.add Found.addPlusBuild
  rw [hgo, hplus]
  cases hread : LegacyLine.read body with
  | error e => simp [hread]
  | ok x => cases found.plusBuild <;> simp [hread, LegacyLine.joinWith, eq_comm]

theorem add_idle (hgo : goBuildOf line = none) (hplus : plusBuildOf line = none) :
    found.add line = .ok found := by
  unfold Found.add
  rw [hgo, hplus]

theorem absorb_cons_eq_ok_iff :
    found.absorb (line :: comments) = .ok last ↔
      ∃ next, found.add line = .ok next ∧ next.absorb comments = .ok last := by
  rw [Found.absorb]
  cases found.add line with
  | error e => simp
  | ok next => simp

/-- A chain goes on with another constraint. -/
theorem joinWith_joinWith (op : Constraint → Constraint → Constraint) (earlier : Option Constraint)
    (x : Constraint) (more : List Constraint) :
    LegacyLine.joinWith op ((LegacyLine.joinWith op (earlier.toList ++ [x])).toList ++ more) =
      LegacyLine.joinWith op (earlier.toList ++ x :: more) := by
  cases earlier <;> rfl

/-- A `//go:build` comment can be taken in where there is none yet and it can be read. -/
theorem acceptable_goBuild_iff (hgo : goBuildOf line = some text) :
    Acceptable found (line :: comments) ↔ found.goBuild = none ∧ ∃ x, readGoBuild text = .ok x ∧
      Acceptable ⟨some x, found.plusBuild⟩ comments := by
  have hplus := plusBuildOf_of_goBuildOf hgo
  constructor
  · rintro ⟨hsingle, hgoBuild, hplusBuild⟩
    simp only [List.filterMap_cons, hgo, hplus, List.length_cons, List.forall_mem_cons]
      at hsingle hgoBuild hplusBuild
    obtain ⟨⟨x, hread⟩, hgoBuild⟩ := hgoBuild
    have hnone : found.goBuild = none := by
      cases hfound : found.goBuild with
      | none => rfl
      | some earlier =>
        simp only [hfound, Option.toList_some, List.length_singleton] at hsingle
        omega
    refine ⟨hnone, x, hread, ?_, hgoBuild, hplusBuild⟩
    simp only [Option.toList_some, List.length_singleton]
    omega
  · rintro ⟨hnone, x, hread, hsingle, hgoBuild, hplusBuild⟩
    constructor
    case single =>
      simp only [List.filterMap_cons, hgo, hnone, List.length_cons, Option.toList_some,
        Option.toList_none, List.length_nil] at hsingle ⊢
      omega
    case goBuild =>
      simp only [List.filterMap_cons, hgo, List.forall_mem_cons]
      exact ⟨⟨x, hread⟩, hgoBuild⟩
    case plusBuild =>
      simp only [List.filterMap_cons, hplus]
      exact hplusBuild

theorem together_goBuild (hgo : goBuildOf line = some text) (hnone : found.goBuild = none)
    (hread : readGoBuild text = .ok x) :
    found.together (line :: comments) = Found.together ⟨some x, found.plusBuild⟩ comments := by
  have hplus := plusBuildOf_of_goBuildOf hgo
  simp [Found.together, readable, hgo, hplus, hnone, hread, Except.toOption]

/-- A `+build` comment can be taken in where it can be read. -/
theorem acceptable_plusBuild_iff (hgo : goBuildOf line = none)
    (hplus : plusBuildOf line = some body)
    (earlier : Option Constraint) :
    Acceptable found (line :: comments) ↔ (∃ x, LegacyLine.read body = .ok x) ∧
      Acceptable ⟨found.goBuild, earlier⟩ comments := by
  constructor
  · rintro ⟨hsingle, hgoBuild, hplusBuild⟩
    simp only [List.filterMap_cons, hgo, hplus, List.forall_mem_cons] at hsingle hgoBuild hplusBuild
    exact ⟨hplusBuild.1, hsingle, hgoBuild, hplusBuild.2⟩
  · rintro ⟨hread, hsingle, hgoBuild, hplusBuild⟩
    constructor
    case single => simpa only [List.filterMap_cons, hgo] using hsingle
    case goBuild => simpa only [List.filterMap_cons, hgo] using hgoBuild
    case plusBuild =>
      simp only [List.filterMap_cons, hplus, List.forall_mem_cons]
      exact ⟨hread, hplusBuild⟩

theorem together_plusBuild (hgo : goBuildOf line = none) (hplus : plusBuildOf line = some body)
    (hread : LegacyLine.read body = .ok x) :
    found.together (line :: comments) =
      Found.together ⟨found.goBuild, LegacyLine.joinWith .and (found.plusBuild.toList ++ [x])⟩
        comments := by
  simp [Found.together, readable, hgo, hplus, hread, Except.toOption, joinWith_joinWith]

/-- **Comments are taken in exactly when nothing stands in the way, and leave what they say.** -/
theorem absorb_eq_ok_iff :
    found.absorb comments = .ok last ↔
      Acceptable found comments ∧ last = found.together comments := by
  induction comments generalizing found with
  | nil =>
    have hself : found.together [] = found := by
      obtain ⟨goBuild, plusBuild⟩ := found
      cases plusBuild <;> simp [Found.together, readable, LegacyLine.joinWith]
    have hfine : Acceptable found [] := by
      constructor
      case single => cases found.goBuild <;> simp
      case goBuild => simp
      case plusBuild => simp
    simp [Found.absorb, hself, hfine, eq_comm]
  | cons line comments ih =>
    rw [absorb_cons_eq_ok_iff]
    cases hgo : goBuildOf line with
    | some text =>
      simp only [add_goBuild_eq_ok_iff hgo, acceptable_goBuild_iff hgo, ih]
      constructor
      · rintro ⟨_, ⟨hnone, x, hread, rfl⟩, hfine, rfl⟩
        exact ⟨⟨hnone, x, hread, hfine⟩, (together_goBuild hgo hnone hread).symm⟩
      · rintro ⟨⟨hnone, x, hread, hfine⟩, rfl⟩
        exact ⟨_, ⟨hnone, x, hread, rfl⟩, hfine, together_goBuild hgo hnone hread⟩
    | none =>
      cases hplus : plusBuildOf line with
      | some body =>
        simp only [add_plusBuild_eq_ok_iff hgo hplus, ih]
        constructor
        · rintro ⟨_, ⟨x, hread, rfl⟩, hfine, rfl⟩
          exact ⟨(acceptable_plusBuild_iff hgo hplus _).mpr ⟨⟨x, hread⟩, hfine⟩,
            (together_plusBuild hgo hplus hread).symm⟩
        · rintro ⟨hfine, rfl⟩
          obtain ⟨⟨x, hread⟩, -⟩ := (acceptable_plusBuild_iff hgo hplus none).mp hfine
          exact ⟨_, ⟨x, hread, rfl⟩, ((acceptable_plusBuild_iff hgo hplus _).mp hfine).2,
            together_plusBuild hgo hplus hread⟩
      | none =>
        have hsame : Acceptable found (line :: comments) ↔ Acceptable found comments := by
          constructor <;> rintro ⟨hsingle, hgoBuild, hplusBuild⟩ <;>
            exact ⟨by simpa [hgo] using hsingle, by simpa [hgo] using hgoBuild,
              by simpa [hplus] using hplusBuild⟩
        have htogether : found.together (line :: comments) = found.together comments := by
          simp [Found.together, hgo, hplus]
        simp [add_idle hgo hplus, ih, hsame, htogether]

/-! ## 8. The reference -/

theorem not_rejected_iff : ¬ Rejected comments ↔ Acceptable Found.none comments := by
  have hok : ∀ {r : Except ConstraintError Constraint}, (¬ ∃ e, r = .error e) ↔ ∃ x, r = .ok x := by
    intro r
    cases r <;> simp
  unfold Rejected
  constructor
  · intro h
    simp only [not_or, not_exists, not_and] at h
    obtain ⟨hsingle, hgoBuild, hplusBuild⟩ := h
    constructor
    case single =>
      simp only [Found.none, Option.toList_none, List.length_nil]
      omega
    case goBuild => exact fun text htext => hok.mp fun ⟨e, he⟩ => hgoBuild text htext e he
    case plusBuild => exact fun body hbody => hok.mp fun ⟨e, he⟩ => hplusBuild body hbody e he
  · rintro ⟨hsingle, hgoBuild, hplusBuild⟩ (htwo | ⟨text, htext, hbad⟩ | ⟨body, hbody, hbad⟩)
    · simp only [Found.none, Option.toList_none, List.length_nil] at hsingle
      omega
    · exact hok.mpr (hgoBuild text htext) hbad
    · exact hok.mpr (hplusBuild body hbody) hbad

theorem effective_together : (Found.none.together comments).effective = effective comments := by
  simp [Found.effective, Found.together, Found.none, effective]

theorem map_eq_error {r : Except ConstraintError Header} {e : ConstraintError}
    (h : r.map answer = .error e) : r = .error e := by
  cases r with
  | error e' => exact congrArg Except.error (Except.error.inj h)
  | ok header => cases h

theorem map_eq_ok {r : Except ConstraintError Header} {constraint : Option Constraint}
    {package : Option String} (h : r.map answer = .ok (constraint, package)) :
    ∃ header, r = .ok header ∧ header.package = package ∧ header.constraint = constraint := by
  cases r with
  | error e => cases h
  | ok header =>
    obtain ⟨hconstraint, hpackage⟩ := Prod.mk.inj (Except.ok.inj h)
    exact ⟨header, rfl, hpackage, hconstraint⟩

/-- **A header says what its `//` comments say together.** The scanner fails exactly when they are
    rejected; else it gives the name in the package clause and the constraint that they say. Sources
    with these comments and this name get the same answer, whatever else they hold: no text inside a
    block comment, and none behind the package clause, has a part in it. -/
theorem scan_of_headerLines {source : List Char} {comments : List (List Char)} {name : String}
    (h : HeaderLines (lines source) comments name) :
    ((∃ e, scan source = .error e) ↔ Rejected comments) ∧
      (¬ Rejected comments → ∃ header, scan source = .ok header ∧
        header.package = some name ∧ header.constraint = effective comments) ∧
      ∀ other, HeaderLines (lines other) comments name →
        (scan other).map answer = (scan source).map answer := by
  have hanswer : (scan source).map answer =
      (Found.none.absorb comments).map fun found => (found.effective, some name) :=
    scanLines_answer h Found.none
  have hother : ∀ other, HeaderLines (lines other) comments name →
      (scan other).map answer = (scan source).map answer :=
    fun other h' => (scanLines_answer h' Found.none).trans hanswer.symm
  cases habsorb : Found.none.absorb comments with
  | error e =>
    have hrejected : Rejected comments := by
      by_contra hnot
      have hok := absorb_eq_ok_iff.mpr ⟨not_rejected_iff.mp hnot, rfl⟩
      rw [habsorb] at hok
      cases hok
    rw [habsorb] at hanswer
    have hscan : scan source = .error e := map_eq_error hanswer
    exact ⟨⟨fun _ => hrejected, fun _ => ⟨e, hscan⟩⟩, fun hnot => absurd hrejected hnot, hother⟩
  | ok last =>
    obtain ⟨hfine, rfl⟩ := absorb_eq_ok_iff.mp habsorb
    have hnot : ¬ Rejected comments := not_rejected_iff.mpr hfine
    rw [habsorb] at hanswer
    obtain ⟨header, hscan, hpackage, hconstraint⟩ := map_eq_ok hanswer
    rw [effective_together] at hconstraint
    refine ⟨⟨?_, fun hbad => absurd hbad hnot⟩,
      fun _ => ⟨header, hscan, hpackage, hconstraint⟩, hother⟩
    rintro ⟨e, he⟩
    rw [hscan] at he
    cases he

/-- A source whose comments hold every look-alike: constraints inside block comments, markers that
    go on, and a constraint behind the package clause. -/
def maskedSource : List Char :=
  ("// +build linux,386 darwin\n/* //go:build ignore\n// +build plan9\n*/ \n//go:buildx !\n\n" ++
    "\t//\t+build !cgo\n/* +build */\n package \t pkg \n//go:build ignore\n").toList

theorem scan_of_headerLines_maskedSource :
    let comments := ["// +build linux,386 darwin".toList, "//go:buildx !".toList,
      "\t//\t+build !cgo".toList]
    HeaderLines (lines maskedSource) comments "pkg" ∧
      ((∃ e, scan maskedSource = .error e) ↔ Rejected comments) ∧
      (¬ Rejected comments → ∃ header, scan maskedSource = .ok header ∧
        header.package = some "pkg" ∧ header.constraint = effective comments) ∧
      ∀ other, HeaderLines (lines other) comments "pkg" →
        (scan other).map answer = (scan maskedSource).map answer := by
  intro comments
  have hlayout : HeaderLines (lines maskedSource) comments "pkg" := by
    have hlines : lines maskedSource = ["// +build linux,386 darwin".toList,
        "/* //go:build ignore".toList, "// +build plan9".toList, "*/ ".toList,
        "//go:buildx !".toList, [], "\t//\t+build !cgo".toList, "/* +build */".toList,
        " package \t pkg ".toList, "//go:build ignore".toList] := by
      decide +kernel
    rw [hlines]
    have hclause := HeaderLines.clause " package \t pkg ".toList [' ', '\t', ' '] "pkg".toList
      ["//go:build ignore".toList] (by rfl) (by decide)
      (List.all_eq_true.mp (by decide)) (by decide) (List.all_eq_true.mp (by decide +kernel))
    rw [String.ofList_toList] at hclause
    have hlast := HeaderLines.block [] " +build */".toList [] _ _ _ (by simp)
      (.close " +build ".toList [] (by decide) (by simp)) hclause
    have hthird := HeaderLines.comment "\t//\t+build !cgo".toList _ _ _ _ (by rfl) hlast
    have hsecond := HeaderLines.comment "//go:buildx !".toList _ _ _ _ (by rfl)
      (HeaderLines.blank [] _ _ _ (by rfl) hthird)
    have hclose : BlockRest ["*/ ".toList] :=
      .close [] [' '] (by decide) (List.all_eq_true.mp (by decide))
    have hblock : BlockRest [" //go:build ignore".toList, "// +build plan9".toList, "*/ ".toList] :=
      .more _ _ (by decide) (.more _ _ (by decide) hclose)
    have hfirst := HeaderLines.block [] _ _ _ _ _ (by simp) hblock hsecond
    exact HeaderLines.comment "// +build linux,386 darwin".toList _ _ _ _ (by rfl) hfirst
  exact ⟨hlayout, scan_of_headerLines hlayout⟩

end TestScout.Header
