import TestScout.Proofs.GoSource.DeclaredLines
import TestScout.Proofs.GoSource.Outermost

/-!
# What a lookup answers

A lookup fails only where its query cannot be read or its source cannot. Otherwise it answers in one
of three ways: with the name of a function, with the refusal of a line that the source does not
have, or with the position back, where no function is. Which of them it is depends on the line and
on the tree of the source alone, the column is only repeated. The tree is the one that the parser
gives, for clean sources and for broken ones. Main statements:

* `containingFunction_cases`: the three outcomes of a lookup in a source, and when each comes up;
* `lookupFunction_eq_error_iff`: a query fails exactly where it or its source cannot be read, with
  the failure of the reading;
* `lookupFunction_outcomes`: every other query is answered in exactly one of the three ways.
-/

namespace TestScout

open GoSource

section Lookup

variable {parser : Parser} {source : String} {root : Node}

/-! ## 1. Looking a line up -/

/-- How many lines a source has. -/
def sourceLines (source : String) : Nat :=
  (LineIndex.ofBytes source.toUTF8.toList).lineCount

/-- The start of a line of a source stands in a named declaration of its tree, its end included. -/
def InDeclaration (root : Node) (source : String) (line : Nat) : Prop :=
  ∃ place address node, (LineIndex.ofBytes source.toUTF8.toList).startOfLine line = some place ∧
    root.at? address = some node ∧ node.Holds place

theorem containingFunction_of_outside {line : Nat} (hparse : parser.parse source = .ok root)
    (h : line = 0 ∨ sourceLines source < line) (path : Path) (column : Nat) :
    containingFunction parser path source line column =
      .error (.invalidLine (.outside line (sourceLines source))) := by
  rw [containingFunction, hparse]
  simp only [LineIndex.locate_of_outside h]
  rfl

/-- A name that a node declares is not empty. -/
theorem GoSource.Node.ne_empty_of_name {node : Node} {name : String} (h : node.name = some name) :
    name ≠ "" :=
  of_decide_eq_true (Option.filter_eq_some_iff.mp h).2

/-- **The three outcomes of a lookup in a source**, and when each comes up. -/
theorem containingFunction_cases (hparse : parser.parse source = .ok root) (path : Path)
    (line column : Nat) :
    ((line = 0 ∨ sourceLines source < line) ∧ containingFunction parser path source line column =
        .error (.invalidLine (.outside line (sourceLines source)))) ∨
      ((1 ≤ line ∧ line ≤ sourceLines source) ∧ InDeclaration root source line ∧
        ∃ name, name ≠ "" ∧ containingFunction parser path source line column = .ok name) ∨
      ((1 ≤ line ∧ line ≤ sourceLines source) ∧ ¬ InDeclaration root source line ∧
        containingFunction parser path source line column =
          .error (.noFunction path line column)) := by
  rcases LineIndex.locate_cases (LineIndex.ofBytes source.toUTF8.toList) line with
    ⟨houtside, -⟩ | ⟨hline, place, hplace, -⟩
  · exact Or.inl ⟨houtside, containingFunction_of_outside hparse houtside path column⟩
  · refine Or.inr ?_
    rw [containingFunction_of_startOfLine hparse hplace]
    cases hfound : root.enclosing place with
    | some name =>
      obtain ⟨address, node, hnode, hholds, hname⟩ := Node.exists_of_enclosing hfound
      exact Or.inl ⟨hline, ⟨place, address, node, hplace, hnode, hholds⟩, name,
        Node.ne_empty_of_name hname, rfl⟩
    | none =>
      refine Or.inr ⟨hline, ?_, rfl⟩
      intro hin
      obtain ⟨start, address, node, hstart, hnode, hholds⟩ := hin
      obtain rfl : place = start := Option.some.inj (hplace.symm.trans hstart)
      exact Node.enclosing_eq_none_iff.mp hfound address node hnode hholds

/-- A declaration below a node of an error is found as well. -/
example :
    containingFunction ⟨none, fun _ => some Node.brokenTree⟩ ⟨"a.go"⟩ ")" 1 1 = .ok "A" := by
  have hstart : (LineIndex.ofBytes ")".toUTF8.toList).startOfLine 1 = some 0 := by
    rw [ByteOrder.toUTF8_toList]
    cbv
  have hfound : Node.brokenTree.enclosing 0 = some "A" := by
    rw [Node.enclosing, Node.firstEnclosing_eq]
    decide
  rw [containingFunction_of_startOfLine rfl hstart, hfound]

/-! ## 2. Answers -/

/-- Exactly one of three statements holds. -/
def ExactlyOne (first second third : Prop) : Prop :=
  (first ∧ ¬ second ∧ ¬ third) ∨ (¬ first ∧ second ∧ ¬ third) ∨ (¬ first ∧ ¬ second ∧ third)

/-- The wording for a line that a source does not have. -/
def outsideText (source : String) (line : Nat) : String :=
  "invalid line number " ++ toString line ++ " (should be between 1 and " ++
    toString (sourceLines source) ++ ")"

/-- The wording for a position outside every function. -/
def missText (query : PositionQuery) : String :=
  "no containing function at: " ++ query.path.text ++ ":" ++ toString query.line ++ ":" ++
    toString query.column

/-- A text goes on with its first character, whatever is written behind it. -/
theorem head?_append_of_head? {text : String} {c : Char} (h : text.toList.head? = some c)
    (more : String) : (text ++ more).toList.head? = some c := by
  rw [String.toList_append, List.head?_append, h, Option.some_or]

theorem head?_outsideText (source : String) (line : Nat) :
    (outsideText source line).toList.head? = some 'i' := by
  have hword : "invalid line number ".toList.head? = some 'i' := by decide
  unfold outsideText
  iterate 4 refine head?_append_of_head? ?_ _
  exact hword

theorem head?_missText (query : PositionQuery) : (missText query).toList.head? = some 'n' := by
  have hword : "no containing function at: ".toList.head? = some 'n' := by decide
  unfold missText
  iterate 5 refine head?_append_of_head? ?_ _
  exact hword

/-- The two refusals are told apart by their first letters. -/
theorem outsideText_ne_missText (source : String) (line : Nat) (query : PositionQuery) :
    outsideText source line ≠ missText query := by
  intro hsame
  have hletter := head?_outsideText source line
  rw [hsame, head?_missText] at hletter
  exact absurd (Option.some.inj hletter) (by decide)

namespace FunctionAnswer

/-- The answer is the name of a function, and nothing is missing. -/
def Names (answer : FunctionAnswer) : Prop :=
  answer.name ≠ "" ∧ answer.missing = none

/-- The answer has no name, and says why. -/
def Says (answer : FunctionAnswer) (text : String) : Prop :=
  answer.name = "" ∧ answer.missing.map Failure.message = some text

theorem names_of_ok {name : String} (h : name ≠ "") : (of (.ok name)).Names := ⟨h, rfl⟩

theorem not_says_of_ok (name text : String) : ¬ (of (.ok name)).Says text :=
  fun h => Option.some_ne_none text h.2.symm

theorem not_names_of_error (failure : Failure) : ¬ (of (.error failure)).Names := fun h => h.1 rfl

theorem says_of_error_iff {failure : Failure} {text : String} :
    (of (.error failure)).Says text ↔ failure.message = text :=
  ⟨fun h => Option.some.inj h.2, fun h => ⟨rfl, congrArg some h⟩⟩

/-- What an answer to a query has to be, given the source and its tree: one of three, each exactly
    when it should be, and never that a line of the source has no start, nor that there is no
    tree. -/
structure IsFor (answer : FunctionAnswer) (query : PositionQuery) (source : String)
    (root : Node) : Prop where
  one : ExactlyOne answer.Names (answer.Says (outsideText source query.line))
    (answer.Says (missText query))
  names_iff : answer.Names ↔
    (1 ≤ query.line ∧ query.line ≤ sourceLines source) ∧ InDeclaration root source query.line
  outside_iff : answer.Says (outsideText source query.line) ↔
    query.line = 0 ∨ sourceLines source < query.line
  misses_iff : answer.Says (missText query) ↔
    (1 ≤ query.line ∧ query.line ≤ sourceLines source) ∧ ¬ InDeclaration root source query.line
  located : ∀ line, answer.missing ≠ some (.invalidLine (.noStart line))
  parsed : ∀ path cause, answer.missing ≠ some (.unparsed path cause)

end FunctionAnswer

open FunctionAnswer in
/-- **A lookup gives the answer for its query.** -/
theorem isFor_containingFunction (hparse : parser.parse source = .ok root)
    (query : PositionQuery) :
    (FunctionAnswer.of (containingFunction parser query.path source query.line
      query.column)).IsFor query source root := by
  have htexts : outsideText source query.line ≠ missText query := outsideText_ne_missText _ _ _
  rcases containingFunction_cases hparse query.path query.line query.column with
    ⟨houtside, heq⟩ | ⟨hline, hin, name, hname, heq⟩ | ⟨hline, hin, heq⟩
  · rw [heq]
    have hsays : (of (.error (.invalidLine (.outside query.line (sourceLines source))))).Says
        (outsideText source query.line) := says_of_error_iff.mpr rfl
    have hmisses : ¬ (of (.error (.invalidLine (.outside query.line (sourceLines source))))).Says
        (missText query) := fun h => htexts (says_of_error_iff.mp h)
    exact {
      one := Or.inr (Or.inl ⟨not_names_of_error _, hsays, hmisses⟩)
      names_iff := iff_of_false (not_names_of_error _) (by omega)
      outside_iff := iff_of_true hsays houtside
      misses_iff := iff_of_false hmisses (by omega)
      located := fun line h => absurd h (by simp [of])
      parsed := fun path cause h => absurd h (by simp [of]) }
  · rw [heq]
    exact {
      one := Or.inl ⟨names_of_ok hname, not_says_of_ok _ _, not_says_of_ok _ _⟩
      names_iff := iff_of_true (names_of_ok hname) ⟨hline, hin⟩
      outside_iff := iff_of_false (not_says_of_ok _ _) (by omega)
      misses_iff := iff_of_false (not_says_of_ok _ _) fun h => h.2 hin
      located := fun line h => absurd h (by simp [of])
      parsed := fun path cause h => absurd h (by simp [of]) }
  · rw [heq]
    have hsays : ¬ (of (.error (.noFunction query.path query.line query.column))).Says
        (outsideText source query.line) := fun h => htexts (says_of_error_iff.mp h).symm
    have hmisses : (of (.error (.noFunction query.path query.line query.column))).Says
        (missText query) := says_of_error_iff.mpr rfl
    exact {
      one := Or.inr (Or.inr ⟨not_names_of_error _, hsays, hmisses⟩)
      names_iff := iff_of_false (not_names_of_error _) fun h => hin h.2
      outside_iff := iff_of_false hsays (by omega)
      misses_iff := iff_of_true hmisses ⟨hline, hin⟩
      located := fun line h => absurd h (by simp [of])
      parsed := fun path cause h => absurd h (by simp [of]) }

/-! ## 3. Queries -/

/-- The ways in which a query fails, and what comes of it otherwise. -/
theorem lookupFunction_cases (parser : Parser) (tree : FileTree) (env : BuildEnv) (text : String) :
    (∃ cause, PositionQuery.read text.toList = .error cause ∧
        lookupFunction parser tree env text = .error (.query cause)) ∨
      (∃ query failure, PositionQuery.read text.toList = .ok query ∧
        env.effectiveSource tree query.path = .error failure ∧
        lookupFunction parser tree env text = .error failure) ∨
      ∃ query source, PositionQuery.read text.toList = .ok query ∧
        env.effectiveSource tree query.path = .ok source ∧ lookupFunction parser tree env text =
          .ok (.of (containingFunction parser query.path source query.line query.column)) := by
  unfold lookupFunction
  cases hquery : PositionQuery.read text.toList with
  | error cause => exact Or.inl ⟨cause, rfl, rfl⟩
  | ok query =>
    cases hsource : env.effectiveSource tree query.path with
    | error failure => exact Or.inr (Or.inl ⟨query, failure, rfl, hsource, by simp only [hsource]⟩)
    | ok source => exact Or.inr (Or.inr ⟨query, source, rfl, hsource, by simp only [hsource]⟩)

/-- **A query fails exactly where it or its source cannot be read**, with the failure of the
    reading. -/
theorem lookupFunction_eq_error_iff {tree : FileTree} {env : BuildEnv} {text : String}
    {failure : Failure} :
    lookupFunction parser tree env text = .error failure ↔
      (∃ cause, PositionQuery.read text.toList = .error cause ∧ failure = .query cause) ∨
      ∃ query, PositionQuery.read text.toList = .ok query ∧
        env.effectiveSource tree query.path = .error failure := by
  rcases lookupFunction_cases parser tree env text with
    ⟨cause, hquery, heq⟩ | ⟨query, found, hquery, hsource, heq⟩ |
    ⟨query, source, hquery, hsource, heq⟩
  · rw [heq, hquery]
    simp [eq_comm]
  · rw [heq, hquery]
    simp [hsource]
  · rw [heq, hquery]
    simp [hsource]

/-- **A query that cannot be read and one whose source cannot be read are the only failures; every
    other query is answered in exactly one of three ways**: with a name exactly where the start of
    the line stands in a named declaration of the source's tree, with the refusal of a line exactly
    where the source does not have it, and with the position exactly in all other cases. -/
theorem lookupFunction_outcomes (hparser : parser.AlwaysParses) (tree : FileTree) (env : BuildEnv)
    (text : String) :
    (∀ failure, lookupFunction parser tree env text = .error failure ↔
      (∃ cause, PositionQuery.read text.toList = .error cause ∧ failure = .query cause) ∨
      ∃ query, PositionQuery.read text.toList = .ok query ∧
        env.effectiveSource tree query.path = .error failure) ∧
    ((∃ failure, lookupFunction parser tree env text = .error failure) ∨
      ∃ query source root answer, PositionQuery.read text.toList = .ok query ∧
        env.effectiveSource tree query.path = .ok source ∧ parser.parse source = .ok root ∧
        lookupFunction parser tree env text = .ok answer ∧ answer.IsFor query source root) := by
  refine ⟨fun failure => lookupFunction_eq_error_iff, ?_⟩
  rcases lookupFunction_cases parser tree env text with
    ⟨cause, -, heq⟩ | ⟨query, failure, -, -, heq⟩ | ⟨query, source, hquery, hsource, heq⟩
  · exact Or.inl ⟨.query cause, heq⟩
  · exact Or.inl ⟨failure, heq⟩
  · obtain ⟨root, hparse⟩ := Parser.exists_parse hparser source
    exact Or.inr ⟨query, source, root, _, hquery, hsource, hparse, heq,
      isFor_containingFunction hparse query⟩

end Lookup

/-- A source with a function whose header is broken. -/
def unfinishedSource : String := "package p\n\nfunc A() \x7b\n\treturn\n\x7d\n\nfunc B( \x7b\n"

/-- Its tree, line ends left out. -/
def unfinishedTree : Node :=
  let part := Node.cut unfinishedSource
  part "source_file" 0 43 none
    [.packageClause unfinishedSource 0 "p",
      .functionWith unfinishedSource 11 31 "A"
        [part "return_statement" 23 29 none [part "return" 23 29 none []],
          part "\x7d" 30 31 none []],
      part "ERROR" 33 42 none
        [part "func" 33 37 none [], part "identifier" 38 39 none [], part "(" 39 40 none [],
          part "\x7b" 41 42 none []]]

theorem lookupFunction_outcomes_unfinishedSource :
    let parser := Parser.ofTable [(unfinishedSource, unfinishedTree)]
    let tree : FileTree := ⟨[(["p"], .directory), (["p", "a.go"], .file ⟨#[]⟩)], []⟩
    let env := { BuildEnv.ofVariables .built (fun _ => none) .standard with
      overlay := some ⟨[(⟨"/p/a.go"⟩, unfinishedSource)]⟩ }
    parser.AlwaysParses ∧
      (∀ failure, lookupFunction parser tree env "/p/a.go:4:1" = .error failure ↔
        (∃ cause, PositionQuery.read "/p/a.go:4:1".toList = .error cause ∧
          failure = .query cause) ∨
        ∃ query, PositionQuery.read "/p/a.go:4:1".toList = .ok query ∧
          env.effectiveSource tree query.path = .error failure) ∧
      ∃ answer, lookupFunction parser tree env "/p/a.go:4:1" = .ok answer ∧
        answer.IsFor ⟨⟨"/p/a.go"⟩, 4, 1⟩ unfinishedSource unfinishedTree ∧ answer.Names := by
  intro parser tree env
  have hparser : parser.AlwaysParses := Parser.alwaysParses_ofTable _
  have hquery : PositionQuery.read "/p/a.go:4:1".toList = .ok ⟨⟨"/p/a.go"⟩, 4, 1⟩ := by
    decide +kernel
  have hsource : env.effectiveSource tree ⟨"/p/a.go"⟩ = .ok unfinishedSource := by decide +kernel
  obtain ⟨hfailures, houtcome⟩ := lookupFunction_outcomes hparser tree env "/p/a.go:4:1"
  refine ⟨hparser, hfailures, ?_⟩
  rcases houtcome with ⟨failure, hfailure⟩ |
    ⟨query, source, root, answer, hread, heffective, hparse, hanswer, hfor⟩
  · obtain ⟨cause, hcause, -⟩ | ⟨query, hread, herror⟩ := (hfailures failure).mp hfailure
    · rw [hquery] at hcause
      cases hcause
    · obtain rfl := Except.ok.inj (hquery.symm.trans hread)
      rw [hsource] at herror
      cases herror
  · obtain rfl := Except.ok.inj (hquery.symm.trans hread)
    obtain rfl := Except.ok.inj (hsource.symm.trans heffective)
    obtain rfl : unfinishedTree = root :=
      Except.ok.inj ((Parser.parse_ofTable (by simp)).symm.trans hparse)
    have hindex : LineIndex.ofBytes unfinishedSource.toUTF8.toList =
        ⟨[0, 10, 11, 22, 30, 32, 33]⟩ := by
      rw [ByteOrder.toUTF8_toList]
      cbv
    have hin : InDeclaration unfinishedTree unfinishedSource 4 := by
      unfold InDeclaration
      rw [hindex]
      exact ⟨22, [1], _, rfl, rfl, by decide +kernel, by decide +kernel, by decide +kernel,
        by decide +kernel⟩
    have hline : 4 ≤ sourceLines unfinishedSource := by
      unfold sourceLines
      rw [hindex]
      decide
    exact ⟨answer, hanswer, hfor, hfor.names_iff.mpr ⟨⟨by decide, hline⟩, hin⟩⟩

end TestScout
