import TestScout.Proofs.Constraint.NormalForm
import TestScout.Proofs.Header.Imports

/-!
# Older lines beside a `//go:build` line

A `//go:build` line stands for all `+build` lines of a header, so nothing that these say has a part
in what the header says. The scanner reads them all the same, and one that it cannot read makes it
fail. Main statements:

* `Relined`: sources that differ in the texts of `+build` lines, some of which may be gone;
* `scanLines_eq`: a scan in two steps, taking in the comments and then the line of code behind them;
* `foldlM_take`: the first `+build` line that cannot be read decides, and without one the
  `//go:build` lines do;
* `Relined.scanImports_eq`, `Relined.sameHeader`: such sources say the same but for `+build` lines;
* `scan_eq_iff`: beside a `//go:build` line they get one answer exactly if they fail alike;
* `not_scan_eq_malformed`: a single such line makes the difference.
-/

namespace TestScout.Header

/-! ## 1. Sources that differ in `+build` lines -/

/-- Where a line of a source stands. -/
inductive Place where
  /-- Before the first line of code, inside a block comment or not. -/
  | header (inBlock : Bool)
  /-- Among the imports. -/
  | imports (place : ImportPlace)
  /-- Behind everything that is read. -/
  | behind
deriving DecidableEq

namespace Place

/-- Whether a block comment is open at the start of the line. -/
def isOpen : Place → Bool
  | header inBlock => inBlock
  | imports (.inBlock _) => true
  | _ => false

/-- The place of the next line. -/
def next (place : Place) (raw : List Char) : Place :=
  match place with
  | header inBlock =>
    match kindOf inBlock raw with
    | none => header true
    | some .opensBlock => header true
    | some (.code text) => if (packageName text).isSome then imports .outside else behind
    | some _ => header false
  | imports place =>
    match step place (trim raw) with
    | .go place => imports place
    | _ => behind
  | behind => behind

end Place

/-- What may stand before a comment on its line: white space, and the end of a block comment that is
    open there. -/
inductive LineStart : Bool → List Char → Prop where
  | blank (indent : List Char) (hindent : ∀ c ∈ indent, isBlank c = true) : LineStart false indent
  | closing (inside gap : List Char) (hclosed : ¬ ['*', '/'] <:+: inside)
      (hgap : ∀ c ∈ gap, isBlank c = true) : LineStart true (inside ++ ['*', '/'] ++ gap)

/-- A `+build` line: what stands before it, white space behind its slashes, and the text behind its
    marker. -/
def plusBuildLine (start gap body : List Char) : List Char :=
  start ++ '/' :: '/' :: (gap ++ (['+', 'b', 'u', 'i', 'l', 'd'] ++ body))

/-- The second lines are the first ones with other texts behind the markers of `+build` lines, and
    without some of these lines. The marker stays a whole word. -/
inductive Relined : Place → List (List Char) → List (List Char) → Prop where
  | done (place : Place) : Relined place [] []
  | kept (place : Place) (raw : List Char) (rest others : List (List Char))
      (h : Relined (place.next raw) rest others) : Relined place (raw :: rest) (raw :: others)
  | replaced (place : Place) (start gap body other : List Char) (rest others : List (List Char))
      (hstart : LineStart place.isOpen start) (hgap : ∀ c ∈ gap, isBlank c = true)
      (hbody : endsWord body = true) (hother : endsWord other = true)
      (h : Relined (place.next (plusBuildLine start gap body)) rest others) :
      Relined place (plusBuildLine start gap body :: rest) (plusBuildLine start gap other :: others)
  | dropped (place : Place) (indent gap body : List Char) (rest others : List (List Char))
      (hclosed : place.isOpen = false) (hindent : ∀ c ∈ indent, isBlank c = true)
      (hgap : ∀ c ∈ gap, isBlank c = true) (hbody : endsWord body = true)
      (h : Relined place rest others) : Relined place (plusBuildLine indent gap body :: rest) others
  | behind (rest others : List (List Char)) : Relined .behind rest others

/-! ## 2. A scan in two steps -/

/-- What the lines of a header are, up to the first line of code. -/
def kinds (inBlock : Bool) : List (List Char) → List Line
  | [] => []
  | raw :: rest =>
    match kindOf inBlock raw with
    | none => kinds true rest
    | some (.code _) => []
    | some kind => kind :: kinds (kind = .opensBlock) rest

/-- The first line of code, with the lines behind it. -/
def firstCode (inBlock : Bool) : List (List Char) → Option (List Char × List (List Char))
  | [] => none
  | raw :: rest =>
    match kindOf inBlock raw with
    | none => firstCode true rest
    | some (.code text) => some (text, rest)
    | some kind => firstCode (kind = .opensBlock) rest

/-- The constraints with one line more. -/
def Found.take (found : Found) : Line → Except ConstraintError Found
  | .goBuild text => found.addGoBuild text
  | .plusBuild body => found.addPlusBuild body
  | _ => .ok found

/-- The header with this constraint and this line of code. -/
def conclude (constraint : Option Constraint) : Option (List Char × List (List Char)) → Header
  | none => ⟨constraint, none, none, false⟩
  | some (text, rest) =>
    match packageName text with
    | some name => ⟨constraint, some name, none, scanImports .outside rest⟩
    | none => ⟨constraint, none, some (firstWord text), false⟩

variable {inBlock : Bool} {found : Found} {raw : List Char} {raws rest others : List (List Char)}
  {kind : Line} {remarks : List Line}

theorem finish_eq (text : List Char) :
    finish found text rest = conclude found.effective (some (text, rest)) := by
  unfold finish conclude
  cases hname : packageName text <;> simp [hname]

theorem scanLines_kind (h : kindOf inBlock raw = some kind) (hcode : ∀ text, kind ≠ .code text) :
    scanLines inBlock found (raw :: rest) =
      (found.take kind).bind fun found => scanLines (kind = .opensBlock) found rest := by
  unfold kindOf at h
  rw [scanLines]
  simp only [h]
  cases kind with
  | idle => rfl
  | opensBlock => rfl
  | goBuild text => cases hadd : found.addGoBuild text <;> simp [Found.take, hadd, Except.bind]
  | plusBuild body => cases hadd : found.addPlusBuild body <;> simp [Found.take, hadd, Except.bind]
  | code text => exact absurd rfl (hcode text)

theorem kinds_kind (h : kindOf inBlock raw = some kind) (hcode : ∀ text, kind ≠ .code text)
    (rest : List (List Char)) :
    kinds inBlock (raw :: rest) = kind :: kinds (kind = .opensBlock) rest ∧
      firstCode inBlock (raw :: rest) = firstCode (kind = .opensBlock) rest := by
  rw [kinds, firstCode, h]
  cases kind with
  | code text => exact absurd rfl (hcode text)
  | _ => exact ⟨rfl, rfl⟩

/-- **A scan takes in the comments of the header, and then the line of code behind them.** -/
theorem scanLines_eq : scanLines inBlock found raws =
    ((kinds inBlock raws).foldlM Found.take found).map fun last =>
      conclude last.effective (firstCode inBlock raws) := by
  induction raws generalizing inBlock found with
  | nil => rfl
  | cons raw rest ih =>
    cases hkind : kindOf inBlock raw with
    | none =>
      rw [scanLines_swallowed hkind, ih, kinds, firstCode, hkind]
    | some kind =>
      by_cases hcode : ∃ text, kind = .code text
      · obtain ⟨text, rfl⟩ := hcode
        rw [scanLines_code hkind, kinds, firstCode, hkind, finish_eq]
        rfl
      · have hcode : ∀ text, kind ≠ .code text := fun text h => hcode ⟨text, h⟩
        obtain ⟨hkinds, hfirst⟩ := kinds_kind hkind hcode rest
        rw [scanLines_kind hkind hcode, hkinds, hfirst, List.foldlM_cons]
        cases htake : found.take kind with
        | error e => rfl
        | ok more => exact ih

/-! ## 3. What decides -/

/-- The text of a `//go:build` line. -/
def goBuildText : Line → Option (List Char)
  | .goBuild text => some text
  | _ => none

/-- The texts of the `//go:build` lines. -/
def goBuilds (remarks : List Line) : List (List Char) :=
  remarks.filterMap goBuildText

/-- The constraint of the only `//go:build` line, behind one that was read already or not. -/
def chosen : Option Constraint → List (List Char) → Except ConstraintError (Option Constraint)
  | goBuild, [] => .ok goBuild
  | some _, _ :: _ => .error .repeatedLine
  | none, text :: rest =>
    match readGoBuild text with
    | .error e => .error e
    | .ok x => chosen (some x) rest

/-- The texts of the `+build` lines that the scanner comes to: it stops at a `//go:build` line that
    is not the first, or that it cannot read. -/
def met : Option Constraint → List Line → List (List Char)
  | _, [] => []
  | goBuild, .plusBuild body :: rest => body :: met goBuild rest
  | some _, .goBuild _ :: _ => []
  | none, .goBuild text :: rest =>
    match readGoBuild text with
    | .error _ => []
    | .ok x => met (some x) rest
  | goBuild, _ :: rest => met goBuild rest

/-- What is wrong with the text of a `+build` line. -/
def failureOf (body : List Char) : Option ConstraintError :=
  match LegacyLine.read body with
  | .error e => some e
  | .ok _ => none

/-- What is wrong with the first `+build` line that the scanner comes to and cannot read. -/
def failure (source : List Char) : Option ConstraintError :=
  (met none (kinds false (lines source))).findSome? failureOf

/-- A `//go:build` line stands in the header. -/
def HasGoBuild (source : List Char) : Prop :=
  ∃ text, .goBuild text ∈ kinds false (lines source)

section Take

variable {text body : List Char} {x : Constraint} {e : ConstraintError}

theorem take_plusBuild_of_error (h : LegacyLine.read body = .error e) :
    found.take (.plusBuild body) = .error e := by
  simp [Found.take, Found.addPlusBuild, h]

theorem take_plusBuild_of_ok (found : Found) (h : LegacyLine.read body = .ok x) :
    ∃ next, found.take (.plusBuild body) = .ok next ∧ next.goBuild = found.goBuild := by
  cases hfound : found.plusBuild <;> simp [Found.take, Found.addPlusBuild, h, hfound]

theorem take_goBuild_of_some (h : found.goBuild = some x) :
    found.take (.goBuild text) = .error .repeatedLine := by
  simp [Found.take, Found.addGoBuild, h]

theorem take_goBuild_of_error (hnone : found.goBuild = none) (h : readGoBuild text = .error e) :
    found.take (.goBuild text) = .error e := by
  unfold readGoBuild at h
  simp [Found.take, Found.addGoBuild, hnone, h]

theorem take_goBuild_of_ok (hnone : found.goBuild = none) (h : readGoBuild text = .ok x) :
    found.take (.goBuild text) = .ok { found with goBuild := some x } := by
  unfold readGoBuild at h
  simp [Found.take, Found.addGoBuild, hnone, h]

end Take

/-- **The first `+build` line that cannot be read decides, and without one the `//go:build` lines
    do**, as far as the scanner comes. -/
theorem foldlM_take (found : Found) (remarks : List Line) :
    (remarks.foldlM Found.take found).map Found.goBuild =
      match (met found.goBuild remarks).findSome? failureOf with
      | some e => .error e
      | none => chosen found.goBuild (goBuilds remarks) := by
  -- Along the lines; of what was found before them only the `//go:build` constraint counts.
  induction remarks generalizing found with
  | nil => rfl
  | cons kind rest ih =>
    rw [List.foldlM_cons]
    cases kind with
    | idle => exact ih _
    | opensBlock => exact ih _
    | code text => exact ih _
    | plusBuild body =>
      rw [met, List.findSome?_cons, failureOf]
      cases hread : LegacyLine.read body with
      | error e =>
        rw [take_plusBuild_of_error hread]
        rfl
      | ok x =>
        obtain ⟨next, hnext, hgoBuild⟩ := take_plusBuild_of_ok found hread
        rw [hnext, ← hgoBuild]
        exact ih _
    | goBuild text =>
      have htexts : goBuilds (.goBuild text :: rest) = text :: goBuilds rest := rfl
      rw [htexts]
      cases hfound : found.goBuild with
      | some earlier =>
        rw [take_goBuild_of_some hfound]
        rfl
      | none =>
        rw [met, chosen]
        cases hread : readGoBuild text with
        | error e =>
          rw [take_goBuild_of_error hfound hread]
          rfl
        | ok x =>
          rw [take_goBuild_of_ok hfound hread]
          exact ih _

/-- A `//go:build` line leaves a constraint. -/
theorem isSome_of_chosen {goBuild last : Option Constraint} {texts : List (List Char)}
    (h : chosen goBuild texts = .ok last) (hsome : goBuild.isSome ∨ texts ≠ []) :
    last.isSome = true := by
  induction texts generalizing goBuild with
  | nil =>
    obtain rfl := Except.ok.inj h
    exact hsome.resolve_right fun hne => hne rfl
  | cons text rest ih =>
    cases goBuild with
    | some earlier => cases h
    | none =>
      rw [chosen] at h
      cases hread : readGoBuild text with
      | error e =>
        rw [hread] at h
        cases h
      | ok x =>
        rw [hread] at h
        exact ih h (Or.inl rfl)

theorem hasGoBuild_iff {source : List Char} :
    HasGoBuild source ↔ goBuilds (kinds false (lines source)) ≠ [] := by
  constructor
  · rintro ⟨text, hmem⟩
    exact List.ne_nil_of_mem (List.mem_filterMap.mpr ⟨_, hmem, rfl⟩)
  · intro hne
    obtain ⟨text, hmem⟩ := List.exists_mem_of_ne_nil _ hne
    obtain ⟨kind, hkind, heq⟩ := List.mem_filterMap.mp hmem
    cases kind with
    | goBuild expression => exact ⟨expression, hkind⟩
    | _ => cases heq

/-- **What a scan gives beside a `//go:build` line.** -/
theorem scan_of_hasGoBuild {source : List Char} (h : HasGoBuild source) :
    scan source =
      match failure source with
      | some e => .error e
      | none => (chosen none (goBuilds (kinds false (lines source)))).map fun constraint =>
          conclude constraint (firstCode false (lines source)) := by
  have htaken := foldlM_take Found.none (kinds false (lines source))
  have hscan : scan source = ((kinds false (lines source)).foldlM Found.take Found.none).map
      fun last => conclude last.effective (firstCode false (lines source)) := scanLines_eq
  have hfailure : (met Found.none.goBuild (kinds false (lines source))).findSome? failureOf =
      failure source := rfl
  rw [hfailure] at htaken
  rw [hscan]
  cases hfail : failure source with
  | some e =>
    rw [hfail] at htaken
    cases hlast : (kinds false (lines source)).foldlM Found.take Found.none with
    | error e' =>
      rw [hlast] at htaken
      exact congrArg Except.error (Except.error.inj htaken)
    | ok last =>
      rw [hlast] at htaken
      cases htaken
  | none =>
    rw [hfail] at htaken
    have hchosen : chosen none (goBuilds (kinds false (lines source))) =
        ((kinds false (lines source)).foldlM Found.take Found.none).map Found.goBuild :=
      htaken.symm
    simp only [hchosen]
    cases hlast : (kinds false (lines source)).foldlM Found.take Found.none with
    | error e => rfl
    | ok last =>
      rw [hlast] at htaken
      have hsome : last.goBuild.isSome = true :=
        isSome_of_chosen htaken.symm (Or.inr (hasGoBuild_iff.mp h))
      obtain ⟨x, hx⟩ := Option.isSome_iff_exists.mp hsome
      have heffective : last.effective = last.goBuild := by
        unfold Found.effective
        rw [hx]
        rfl
      exact congrArg (fun constraint => Except.ok (conclude constraint _)) heffective

/-! ## 4. What is wrong with a `+build` line -/

/-- An error that only a `+build` line makes. -/
def ofOlderLine : ConstraintError → Bool
  | .invalidTerm _ => true
  | .emptyLine => true
  | _ => false

section Errors

variable {e : ConstraintError}

/-- **A `+build` line fails with an error of its own.** -/
theorem ofOlderLine_of_failureOf {body : List Char} (h : failureOf body = some e) :
    ofOlderLine e = true := by
  have hread : LegacyLine.read body = .error e := by
    unfold failureOf at h
    split at h
    · rename_i hread
      rw [hread, Option.some.inj h]
    · cases h
  rcases LegacyLine.read_eq_error hread with rfl | ⟨text, rfl⟩
  · rfl
  · rfl

theorem ofOlderLine_of_failure {source : List Char} (h : failure source = some e) :
    ofOlderLine e = true := by
  obtain ⟨body, -, hbody⟩ := List.exists_of_findSome?_eq_some h
  exact ofOlderLine_of_failureOf hbody

theorem not_ofOlderLine_of_readGoal {n : Nat} {goal : Constraint.Goal} {text : List Char}
    (h : Constraint.readGoal n goal text = .error e) : ofOlderLine e = false := by
  fun_induction Constraint.readGoal n goal text <;> grind [ofOlderLine]

/-- **A `//go:build` line does not.** -/
theorem not_ofOlderLine_of_readGoBuild {text : List Char} (h : readGoBuild text = .error e) :
    ofOlderLine e = false := by
  unfold readGoBuild Constraint.read at h
  split at h
  · rename_i hread
    obtain rfl := Except.error.inj h
    exact not_ofOlderLine_of_readGoal hread
  · split at h
    · cases h
    · obtain rfl := Except.error.inj h
      rfl

theorem not_ofOlderLine_of_chosen {goBuild : Option Constraint} {texts : List (List Char)}
    (h : chosen goBuild texts = .error e) : ofOlderLine e = false := by
  induction texts generalizing goBuild with
  | nil => cases h
  | cons text rest ih =>
    cases goBuild with
    | some earlier =>
      obtain rfl := Except.error.inj h
      rfl
    | none =>
      rw [chosen] at h
      cases hread : readGoBuild text with
      | error e' =>
        rw [hread] at h
        obtain rfl := Except.error.inj h
        exact not_ofOlderLine_of_readGoBuild hread
      | ok x =>
        rw [hread] at h
        exact ih h

end Errors

/-! ## 5. What other `+build` lines leave as it is -/

section PlusBuildLine

variable {start gap body : List Char}

/-- Behind such a start the scanner reads the rest of a line as a line. -/
theorem LineStart.kindOf (h : LineStart inBlock start) (more : List Char) :
    Header.kindOf inBlock (start ++ more) = some (lineOf (trim more)) := by
  cases h with
  | blank _ hindent =>
    unfold Header.kindOf
    rw [trim_append_of_blank hindent]
    rfl
  | closing inside gap hclosed hgap =>
    rw [List.append_assoc, kindOf_closing hclosed, trim_append_of_blank hgap]

theorem trim_plusBuildLine (gap body : List Char) :
    trim (plusBuildLine [] gap body) =
      '/' :: '/' :: (gap ++ (['+', 'b', 'u', 'i', 'l', 'd'] ++ trimEnd body)) := by
  have hslash : isBlank '/' = false := by decide
  have hd : isBlank 'd' = false := by decide
  have hend := trimEnd_append_cons hd ('/' :: (gap ++ ['+', 'b', 'u', 'i', 'l'])) body
  unfold plusBuildLine
  rw [List.nil_append, trim_cons hslash]
  simpa using congrArg ('/' :: ·) hend

theorem endsWord_trimEnd (h : endsWord body = true) : endsWord (trimEnd body) = true := by
  cases htrim : trimEnd body with
  | nil => rfl
  | cons c rest =>
    obtain ⟨more, hmore⟩ := trimEnd_starts body
    rw [htrim] at hmore
    rw [← hmore] at h
    exact h

/-- The text behind the marker is all that the scanner takes from such a comment. -/
theorem lineOf_plusBuild (hgap : ∀ c ∈ gap, isBlank c = true) (hbody : endsWord body = true) :
    lineOf (trim (plusBuildLine [] gap body)) = .plusBuild (trimEnd body) := by
  have hplus : isBlank '+' = false := by decide
  have hnoGo : after? ['g', 'o', ':', 'b', 'u', 'i', 'l', 'd']
      (gap ++ (['+', 'b', 'u', 'i', 'l', 'd'] ++ trimEnd body)) = none := by
    cases gap with
    | nil => rfl
    | cons c rest =>
      have hc : c ≠ 'g' := by
        rintro rfl
        exact absurd (hgap _ List.mem_cons_self) (by decide)
      exact isPrefixOf?_eq_none_iff.mpr fun h => hc (List.cons_prefix_cons.mp h).1.symm
  have hmarker : after? ['+', 'b', 'u', 'i', 'l', 'd']
      (trimStart (gap ++ (['+', 'b', 'u', 'i', 'l', 'd'] ++ trimEnd body))) =
        some (trimEnd body) := by
    rw [List.cons_append, trimStart_append_cons hplus, trimStart_of_blank hgap]
    rfl
  have hline : lineOf (trim (plusBuildLine [] gap body)) =
      lineOfComment (gap ++ (['+', 'b', 'u', 'i', 'l', 'd'] ++ trimEnd body)) := by
    rw [trim_plusBuildLine]
    rfl
  rw [hline, lineOfComment, hnoGo]
  simp only [hmarker, endsWord_trimEnd hbody, if_true]

/-- **A `+build` line is one to the scanner**, with the text behind its marker. -/
theorem kindOf_plusBuildLine (hstart : LineStart inBlock start) (hgap : ∀ c ∈ gap, isBlank c = true)
    (hbody : endsWord body = true) :
    kindOf inBlock (plusBuildLine start gap body) = some (.plusBuild (trimEnd body)) :=
  (hstart.kindOf _).trans (congrArg some (lineOf_plusBuild hgap hbody))

/-- Where the reader of imports stands when the block comment is closed that is open, if one is. -/
def closedPlace : ImportPlace → ImportPlace
  | .inBlock group => placeOf group
  | place => place

/-- To the reader of imports a `+build` line is a comment like others. -/
theorem step_plusBuildLine {place : ImportPlace} (gap body : List Char)
    (hstart : LineStart (Place.imports place).isOpen start) :
    step place (trim (plusBuildLine start gap body)) = .go (closedPlace place) := by
  have hparts : plusBuildLine start gap body = start ++ plusBuildLine [] gap body := rfl
  cases place with
  | inBlock group =>
    cases hstart with
    | closing inside before hclosed hbefore =>
      refine step_inBlock_closing ?_
      rw [hparts, List.append_assoc, trim_closed]
      exact List.infix_append' _ _ _
  | outside =>
    cases hstart with
    | blank _ hindent =>
      rw [hparts, trim_append_of_blank hindent, trim_plusBuildLine]
      rfl
  | inGroup =>
    cases hstart with
    | blank _ hindent =>
      rw [hparts, trim_append_of_blank hindent, trim_plusBuildLine]
      rfl

end PlusBuildLine

/-- **The reader of imports does not tell such lines apart.** -/
theorem Relined.scanImports_eq {place : Place} {here : ImportPlace}
    (h : Relined place rest others) (hplace : place = .imports here) :
    scanImports here others = scanImports here rest := by
  induction h generalizing here with
  | done place => rfl
  | kept place raw rest others h ih =>
    subst hplace
    cases hstep : step here (trim raw) with
    | found => rw [scanImports, scanImports, hstep]
    | «over» => rw [scanImports, scanImports, hstep]
    | go next =>
      rw [scanImports_go hstep, scanImports_go hstep]
      refine ih ?_
      simp only [Place.next, hstep]
  | replaced place start gap body other rest others hstart hgap hbody hother h ih =>
    subst hplace
    have hstep := step_plusBuildLine gap body hstart
    rw [scanImports_go hstep, scanImports_go (step_plusBuildLine gap other hstart)]
    refine ih ?_
    simp only [Place.next, hstep]
  | dropped place indent gap body rest others hclosed hindent hgap hbody h ih =>
    subst hplace
    have hstart : LineStart (Place.imports here).isOpen indent := by
      rw [hclosed]
      exact .blank indent hindent
    -- no block comment is open here, so the line leaves the reader where it is
    have hsame : closedPlace here = here := by
      cases here with
      | inBlock group => cases hclosed
      | _ => rfl
    have hstep := step_plusBuildLine gap body hstart
    rw [hsame] at hstep
    rw [scanImports_go hstep]
    exact ih rfl
  | behind rest others => cases hplace

theorem next_kind (h : kindOf inBlock raw = some kind) (hcode : ∀ text, kind ≠ .code text) :
    (Place.header inBlock).next raw = .header (kind = .opensBlock) := by
  simp only [Place.next, h]
  cases kind with
  | code text => exact absurd rfl (hcode text)
  | _ => rfl

/-- Two headers say the same but for their `+build` lines. -/
structure SameHeader (inBlock : Bool) (raws others : List (List Char)) : Prop where
  goBuilds : goBuilds (kinds inBlock others) = goBuilds (kinds inBlock raws)
  conclude : ∀ constraint, conclude constraint (firstCode inBlock others) =
    conclude constraint (firstCode inBlock raws)

namespace SameHeader

theorem swallowed (hkind : kindOf inBlock raw = none) (h : SameHeader true rest others) :
    SameHeader inBlock (raw :: rest) (raw :: others) where
  goBuilds := by
    rw [kinds, kinds, hkind]
    exact h.goBuilds
  conclude := by
    rw [firstCode, firstCode, hkind]
    exact h.conclude

theorem kept (hkind : kindOf inBlock raw = some kind) (hcode : ∀ text, kind ≠ .code text)
    (h : SameHeader (kind = .opensBlock) rest others) :
    SameHeader inBlock (raw :: rest) (raw :: others) where
  goBuilds := by
    have hrest := h.goBuilds
    unfold Header.goBuilds at hrest ⊢
    rw [(kinds_kind hkind hcode _).1, (kinds_kind hkind hcode _).1, List.filterMap_cons,
      List.filterMap_cons, hrest]
  conclude := by
    rw [(kinds_kind hkind hcode _).2, (kinds_kind hkind hcode _).2]
    exact h.conclude

/-- The line of code decides whether the lines behind it are read. -/
theorem code {text : List Char} (hkind : kindOf inBlock raw = some (.code text))
    (himports : packageName text ≠ none → scanImports .outside others = scanImports .outside rest) :
    SameHeader inBlock (raw :: rest) (raw :: others) where
  goBuilds := by
    rw [kinds, kinds, hkind]
  conclude constraint := by
    rw [firstCode, firstCode, hkind]
    simp only [Header.conclude]
    cases hname : packageName text with
    | none => rfl
    | some name => rw [himports (by simp [hname])]

theorem plusBuild {old new body other : List Char}
    (hold : kindOf inBlock old = some (.plusBuild body))
    (hnew : kindOf inBlock new = some (.plusBuild other)) (h : SameHeader false rest others) :
    SameHeader inBlock (old :: rest) (new :: others) where
  goBuilds := by
    rw [kinds, kinds, hold, hnew]
    exact h.goBuilds
  conclude := by
    rw [firstCode, firstCode, hold, hnew]
    exact h.conclude

theorem dropped {old body : List Char} (hold : kindOf false old = some (.plusBuild body))
    (h : SameHeader false rest others) : SameHeader false (old :: rest) others where
  goBuilds := by
    rw [kinds, hold]
    exact h.goBuilds
  conclude := by
    rw [firstCode, hold]
    exact h.conclude

end SameHeader

theorem next_plusBuild {body : List Char} (h : kindOf inBlock raw = some (.plusBuild body)) :
    (Place.header inBlock).next raw = .header false := by
  simp only [Place.next, h]

/-- **Such lines have the same `//go:build` lines in front of the same line of code.** -/
theorem Relined.sameHeader {place : Place} (h : Relined place raws others)
    (hplace : place = .header inBlock) : SameHeader inBlock raws others := by
  induction h generalizing inBlock with
  | done place => exact ⟨rfl, fun _ => rfl⟩
  | kept place raw rest others h ih =>
    subst hplace
    cases hkind : kindOf inBlock raw with
    | none =>
      refine .swallowed hkind (ih ?_)
      simp only [Place.next, hkind]
    | some kind =>
      by_cases hcode : ∃ text, kind = .code text
      · obtain ⟨text, rfl⟩ := hcode
        refine .code hkind fun hname => h.scanImports_eq ?_
        simp [Place.next, hkind, Option.isSome_iff_ne_none.mpr hname]
      · have hcode : ∀ text, kind ≠ .code text := fun text h => hcode ⟨text, h⟩
        exact .kept hkind hcode (ih (next_kind hkind hcode))
  | replaced place start gap body other rest others hstart hgap hbody hother h ih =>
    subst hplace
    have hstart : LineStart inBlock start := hstart
    have hold := kindOf_plusBuildLine hstart hgap hbody
    exact .plusBuild hold (kindOf_plusBuildLine hstart hgap hother) (ih (next_plusBuild hold))
  | dropped place indent gap body rest others hclosed hindent hgap hbody h ih =>
    subst hplace
    obtain rfl : inBlock = false := hclosed
    exact .dropped (kindOf_plusBuildLine (.blank indent hindent) hgap hbody) (ih rfl)
  | behind rest others => cases hplace

/-! ## 6. Sources -/

variable {source other : List Char}

/-- **Beside a `//go:build` line it makes no difference what `+build` lines say**, but whether the
    scanner comes to one that it cannot read. -/
theorem scan_eq_iff (hgo : HasGoBuild source)
    (h : Relined (.header false) (lines source) (lines other)) :
    scan other = scan source ↔ failure other = failure source := by
  obtain ⟨hgoBuilds, hconclude⟩ := h.sameHeader rfl
  have hother : HasGoBuild other := by
    rw [hasGoBuild_iff] at hgo ⊢
    rwa [hgoBuilds]
  rw [scan_of_hasGoBuild hgo, scan_of_hasGoBuild hother, hgoBuilds]
  simp only [hconclude]
  -- what `//go:build` lines give is never taken for an error of a `+build` line
  have hnever : ∀ {e}, ofOlderLine e = true →
      (chosen none (goBuilds (kinds false (lines source)))).map
        (fun constraint => conclude constraint (firstCode false (lines source))) ≠ .error e := by
    intro e he heq
    cases hchosen : chosen none (goBuilds (kinds false (lines source))) with
    | error e' =>
      rw [hchosen] at heq
      obtain rfl := Except.error.inj heq
      rw [not_ofOlderLine_of_chosen hchosen] at he
      cases he
    | ok last =>
      rw [hchosen] at heq
      cases heq
  cases hsource : failure source with
  | none =>
    cases hfails : failure other with
    | none => exact iff_of_true rfl rfl
    | some e =>
      exact iff_of_false (fun heq => hnever (ofOlderLine_of_failure hfails) heq.symm)
        (Option.some_ne_none e)
  | some e =>
    cases hfails : failure other with
    | none =>
      exact iff_of_false (hnever (ofOlderLine_of_failure hsource)) (Option.some_ne_none e).symm
    | some e' => exact ⟨fun heq => congrArg some (Except.error.inj heq),
        fun heq => congrArg Except.error (Option.some.inj heq)⟩

/-- A source with `+build` lines on both sides of its `//go:build` line, behind a block comment and
    among its imports, and one with other texts behind their markers. -/
def olderSource : List Char :=
  ("// +build b,c d\n/*\n*/ //\t+build !e\n//go:build a\n//+build f\npackage p\n" ++
    "import (\n\t// +build g\n\"C\"\n)\n").toList

@[inherit_doc olderSource]
def newerSource : List Char :=
  ("// +build b\n/*\n*/ //\t+build c,!d\te\n//go:build a\npackage p\n" ++
    "import (\n\t// +build !!\n\"C\"\n)\n").toList

theorem relined_olderSource :
    Relined (.header false) (lines olderSource) (lines newerSource) := by
  have holder : lines olderSource = [plusBuildLine [] [' '] " b,c d".toList, "/*".toList,
      plusBuildLine ([] ++ ['*', '/'] ++ [' ']) ['\t'] " !e".toList, "//go:build a".toList,
      plusBuildLine [] [] " f".toList, "package p".toList, "import (".toList,
      plusBuildLine ['\t'] [' '] " g".toList, "\"C\"".toList, ")".toList] := by
    decide +kernel
  have hnewer : lines newerSource = [plusBuildLine [] [' '] " b".toList, "/*".toList,
      plusBuildLine ([] ++ ['*', '/'] ++ [' ']) ['\t'] " c,!d\te".toList, "//go:build a".toList,
      "package p".toList, "import (".toList, plusBuildLine ['\t'] [' '] " !!".toList,
      "\"C\"".toList, ")".toList] := by
    decide +kernel
  have hblank {text : List Char} (h : text.all isBlank = true) : ∀ c ∈ text, isBlank c = true :=
    List.all_eq_true.mp h
  rw [holder, hnewer]
  refine .replaced _ _ _ _ _ _ _ (.blank _ (hblank rfl)) (hblank rfl) rfl rfl ?_
  refine .kept _ _ _ _ ?_
  refine .replaced _ _ _ _ _ _ _ (.closing _ _ (by decide) (hblank rfl)) (hblank rfl) rfl rfl ?_
  refine .kept _ _ _ _ ?_
  refine .dropped _ _ _ _ _ _ rfl (hblank rfl) (hblank rfl) rfl ?_
  refine .kept _ _ _ _ (.kept _ _ _ _ ?_)
  refine .replaced _ _ _ _ _ _ _ (.blank _ (hblank rfl)) (hblank rfl) rfl rfl ?_
  exact .kept _ _ _ _ (.kept _ _ _ _ (.done _))

theorem hasGoBuild_olderSource : HasGoBuild olderSource :=
  ⟨" a".toList, by decide +kernel⟩

theorem scan_eq_iff_olderSource :
    HasGoBuild olderSource ∧ Relined (.header false) (lines olderSource) (lines newerSource) ∧
      (scan newerSource = scan olderSource ↔ failure newerSource = failure olderSource) ∧
      scan newerSource = scan olderSource := by
  have hsame := scan_eq_iff hasGoBuild_olderSource relined_olderSource
  have hfailure : failure newerSource = failure olderSource := by decide +kernel
  exact ⟨hasGoBuild_olderSource, relined_olderSource, hsame, hsame.mpr hfailure⟩

/-- A `+build` line that cannot be read makes the scanner fail, and without it the scanner does not
    fail, though a `//go:build` line stands above it. -/
theorem not_scan_eq_malformed :
    ¬ ∀ source other : List Char, HasGoBuild source →
      Relined (.header false) (lines source) (lines other) → scan other = scan source := by
  intro hall
  have hgo : HasGoBuild "//go:build a\n// +build !!\npackage p\n".toList :=
    ⟨" a".toList, by decide +kernel⟩
  have hlines : lines "//go:build a\n// +build !!\npackage p\n".toList =
      ["//go:build a".toList, plusBuildLine [] [' '] " !!".toList, "package p".toList] := by
    decide +kernel
  have hothers : lines "//go:build a\npackage p\n".toList =
      ["//go:build a".toList, "package p".toList] := by
    decide +kernel
  have hrelined : Relined (.header false)
      (lines "//go:build a\n// +build !!\npackage p\n".toList)
      (lines "//go:build a\npackage p\n".toList) := by
    rw [hlines, hothers]
    refine .kept _ _ _ _ (.dropped _ _ _ _ _ _ rfl (List.all_eq_true.mp (by decide))
      (List.all_eq_true.mp (by decide)) rfl ?_)
    exact .kept _ _ _ _ (.done _)
  exact absurd (hall _ _ hgo hrelined) (by decide +kernel)

end TestScout.Header
