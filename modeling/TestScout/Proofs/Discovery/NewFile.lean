import TestScout.Proofs.Discovery.Scan
import TestScout.Proofs.GoSource.Placed
import TestScout.Proofs.Package.Agreement
import TestScout.Proofs.Package.SetAside

/-!
# Reports with one more file

A file that is set aside is not scanned, and the files that are scanned keep clear of it, so a
report is the same with it and without. Only the root of the project is searched by paths that need
not denote anything, and a path that led to where the file now stands finds it there. Main
statements:

* `ProjectRoot.askedInVain`, `ProjectRoot.find_withFile`: what the search for the project asks for
  in vain, and that nothing else matters;
* `answers_withFile`: with one more file that is set aside, packages, failures and reports are what
  they were;
* `noticed_linkTree`: links that led to where the file now stands change a failure and a root.
-/

namespace TestScout

variable {tree : FileTree} {directory : Location} {name : String}

/-! ## 1. Existing places -/

namespace FileTree

/-- **Nothing that exists lies below a path that misses a name.** -/
theorem WellFormed.startsWith_of_absent (htree : tree.WellFormed) (hnames : tree.WellNamed)
    {path : Path} {location : Location} (h : tree.Holds location)
    (habsent : tree.locate path = .ok (.absent directory name)) :
    (pathOf location).startsWith path = false := by
  refine Bool.eq_false_iff.mpr fun hstarts => ?_
  obtain ⟨above, habove, hcomponents⟩ := (Path.startsWith_iff.mp hstarts).exists_place
    (hnames.plain_of_holds h) (Path.components_ne_nil (walk_of_locate habsent).1)
  cases htree.spot_of_locate hcomponents (htree.holds_of_prefix habove h) habsent

/-- Nor below a place where nothing is. -/
theorem WellFormed.startsWith_of_vacant (htree : tree.WellFormed) (hnames : tree.WellNamed)
    {location : Location} (h : tree.Holds location) (hvacant : tree.Vacant directory name)
    (hplain : PlainName name) :
    (pathOf location).startsWith (pathOf (directory ++ [name])) = false := by
  refine Bool.eq_false_iff.mpr fun hstarts => ?_
  have hdirectory : tree.Holds directory := ⟨.directory, hvacant.isDirectory, by simp⟩
  have hall : ∀ n ∈ directory ++ [name], PlainName n := by
    intro n hn
    rcases List.mem_append.mp hn with hn | hn
    · exact hnames.plain_of_holds hdirectory n hn
    · exact List.mem_singleton.mp hn ▸ hplain
  have hfront := (Path.above_pathOf_iff (hnames.plain_of_holds h) hall).mp
    (Path.startsWith_iff.mp hstarts)
  obtain ⟨entry, hentry, -⟩ := htree.holds_of_prefix hfront h
  rw [hvacant.isFree] at hentry
  cases hentry

/-! ## 2. Asking about paths -/

theorem canonical_withFile (h : tree.Vacant directory name) (k : Nat) (content : ByteArray)
    {path : Path} (hpath : tree.locate path ≠ .ok (.absent directory name)) :
    (tree.withFile k directory name content).canonical path = tree.canonical path := by
  unfold canonical
  rcases resolve_withFile_of_ne h k content hpath with hsame | ⟨hbefore, hafter⟩
  · rw [hsame]
  · rw [hbefore, hafter]

theorem isFile_withFile (htree : tree.WellFormed) (h : tree.Vacant directory name)
    (k : Nat) (content : ByteArray) {path : Path}
    (hpath : tree.locate path ≠ .ok (.absent directory name)) :
    (tree.withFile k directory name content).isFile path = tree.isFile path := by
  unfold isFile stat
  rcases resolve_withFile_of_ne h k content hpath with hsame | ⟨hbefore, hafter⟩
  · rw [hsame]
    cases hresolve : tree.resolve path with
    | error cause => rfl
    | ok place =>
      obtain ⟨entry, hentry⟩ := htree.entry?_of_resolve hresolve
      simp only [hentry, entry?_withFile_of_some h k content hentry]
  · rw [hbefore, hafter]

/-- A path that comes to lead to the new file led nowhere. -/
theorem canonical_of_absent {path : Path}
    (hpath : tree.locate path = .ok (.absent directory name)) : tree.canonical path = path := by
  unfold canonical resolve
  rw [hpath]

theorem canonical_withFile_of_absent (h : tree.Vacant directory name) (k : Nat)
    (content : ByteArray) {path : Path} (hpath : tree.locate path = .ok (.absent directory name)) :
    (tree.withFile k directory name content).canonical path = path ∨
      (tree.withFile k directory name content).canonical path = pathOf (directory ++ [name]) := by
  have hnoticed := noticed_locate h k content path
  rw [hpath] at hnoticed
  unfold canonical resolve
  generalize (tree.withFile k directory name content).locate path = outcome at hnoticed ⊢
  cases hnoticed with
  | same => exact Or.inl rfl
  | found => exact Or.inr rfl

end FileTree

/-! ## 3. The root of the project -/

namespace ProjectRoot

/-- The paths on which the root of a project hangs if they come to denote something: those that are
    asked for in vain. Source directories count only where the search gets to them, and not for a
    directory whose clean path denotes something: it lies in none that denotes nothing. -/
def askedInVain (tree : FileTree) (env : BuildEnv) (dir : Path) : List Path :=
  match Path.absolute? tree.currentPath dir with
  | none => []
  | some absolute =>
    let start := tree.canonical absolute
    let without := (ancestors start).takeWhile fun above => !tree.isFile (above.child moduleFile)
    absolute :: without.map (·.child moduleFile) ++
      if (moduleRoot tree start).isSome ∨ (tree.resolve absolute).isOk then [] else sourceRoots env

section Root

variable (htree : tree.WellFormed) (h : tree.Vacant directory name) (k : Nat) (content : ByteArray)

include htree h

/-- The nearest module is the same, if none of the nearer directories comes to hold a module
    file. -/
theorem moduleRoot_withFile {start : Path}
    (hwithout : ∀ above ∈ (ancestors start).takeWhile fun above =>
        !tree.isFile (above.child moduleFile),
      tree.locate (above.child moduleFile) ≠ .ok (.absent directory name)) :
    moduleRoot (tree.withFile k directory name content) start = moduleRoot tree start := by
  refine find?_of_takeWhile (fun above habove => ?_) fun above _ hfile => ?_
  · exact FileTree.isFile_withFile htree h k content (hwithout above habove)
  · rw [FileTree.isFile_withFile htree h k content, hfile]
    obtain ⟨place, -, -, hplace, -⟩ := FileTree.exists_resolve_of_isFile hfile
    rw [FileTree.locate_of_resolve hplace]
    simp

/-- What exists lies in the same source directory as before. -/
theorem sourceRoot_withFile (hnames : tree.WellNamed) (hplain : PlainName name) (env : BuildEnv)
    {location : Location} (hholds : tree.Holds location) :
    sourceRoot (tree.withFile k directory name content) env (FileTree.pathOf location) =
      sourceRoot tree env (FileTree.pathOf location) := by
  refine find?_map_congr fun root _ => ?_
  by_cases habsent : tree.locate root = .ok (.absent directory name)
  · have hroot := htree.startsWith_of_absent hnames hholds habsent
    have hplace := htree.startsWith_of_vacant hnames hholds h hplain
    refine Or.inr ⟨?_, ?_⟩
    · rcases FileTree.canonical_withFile_of_absent h k content habsent with heq | heq
      · rw [heq]
        exact hroot
      · rw [heq]
        exact hplace
    · rw [FileTree.canonical_of_absent habsent]
      exact hroot
  · exact Or.inl (FileTree.canonical_withFile h k content habsent)

/-- **Where no path that was asked for in vain leads to the place of a new file, the root of the
    project is the same.** -/
theorem find_withFile (hnames : tree.WellNamed) (hplain : PlainName name) {env : BuildEnv}
    {dir : Path}
    (hasked : ∀ path ∈ askedInVain tree env dir,
      tree.locate path ≠ .ok (.absent directory name)) :
    find (tree.withFile k directory name content) env dir = find tree env dir := by
  have hcurrent : (tree.withFile k directory name content).currentPath = tree.currentPath :=
    congrArg FileTree.pathOf FileTree.current_withFile
  unfold askedInVain at hasked
  unfold find
  rw [hcurrent]
  cases habsolute : Path.absolute? tree.currentPath dir with
  | none => rfl
  | some absolute =>
    simp only [habsolute, List.cons_append, List.mem_cons, List.mem_append, List.mem_map] at hasked
    have hstart := FileTree.canonical_withFile h k content (hasked absolute (Or.inl rfl))
    have hmodule := moduleRoot_withFile htree h k content fun above habove =>
      hasked _ (Or.inr (Or.inl ⟨above, habove, rfl⟩))
    simp only [hstart, hmodule]
    cases hfound : moduleRoot tree (tree.canonical absolute) with
    | some root => rfl
    | none =>
      have hsource : sourceRoot (tree.withFile k directory name content) env
          (tree.canonical absolute) = sourceRoot tree env (tree.canonical absolute) := by
        cases hresolve : tree.resolve absolute with
        | ok location =>
          have hcanonical : tree.canonical absolute = FileTree.pathOf location := by
            unfold FileTree.canonical
            rw [hresolve]
          rw [hcanonical]
          exact sourceRoot_withFile htree h k content hnames hplain env
            (htree.ends_of_locate (FileTree.locate_of_resolve hresolve))
        | error cause =>
          refine find?_map_congr fun root hroot => Or.inl ?_
          refine FileTree.canonical_withFile h k content (hasked root (Or.inr (Or.inr ?_)))
          rw [if_neg (by simp [hfound, hresolve, Except.isOk, Except.toBool])]
          exact hroot
      rw [hsource]

end Root

end ProjectRoot

/-! ## 4. Reports -/

namespace Discovery

open Package
open GoSource (Parser)

variable {parser : Parser} {host : Host} {env base : BuildEnv} {dir : Path} {k : Nat}
  {content : ByteArray}

/-- Files whose paths keep clear of a new file are scanned alike. -/
theorem scanFiles_withFile (htree : tree.WellFormed) (h : tree.Vacant directory name)
    (k : Nat) (content : ByteArray) {files : List Path}
    (hfiles : ∀ file ∈ files, tree.KeepsClear directory name file) :
    scanFiles parser (tree.withFile k directory name content) env files =
      scanFiles parser tree env files := by
  have hone (file : Path) (hfile : file ∈ files) :
      scanFile parser (tree.withFile k directory name content) env file =
        scanFile parser tree env file := by
    unfold scanFile
    rw [BuildEnv.effectiveSource_withFile htree h k content env (hfiles file hfile)]
  rw [scanFiles_eq_merge, scanFiles_eq_merge]
  exact congrArg merge (List.map_congr_left hone)

section Answers

variable (htree : tree.WellFormed) (hnames : tree.WellNamed)
  (hdir : tree.resolve dir = .ok directory) (h : tree.Vacant directory name)
  (hextension : Path.extension name = some "go")
  (haside : SetAside (tree.withFile k directory name content) env dir name)

include htree hnames hdir h hextension haside

/-- **The report is the same**, but for the root of the project. -/
theorem discover_withFile {report : DiscoveryReport}
    (hreport : discover parser host tree env base dir = .ok report) :
    discover parser host (tree.withFile k directory name content) env base dir =
      .ok { report with
        root := reportedRoot (tree.withFile k directory name content) env dir } := by
  obtain ⟨package, found, hpackage, hfound, rfl⟩ := discover_eq_ok hreport
  obtain ⟨later, hlater, hrelated⟩ :=
    ofDirectory_withFile htree hnames h hdir hextension haside hpackage
  have hfields : later.name = package.name ∧ later.testFiles = package.testFiles := by
    rcases hrelated with rfl | ⟨before, after, -, rfl⟩
    · exact ⟨rfl, rfl⟩
    · exact ⟨rfl, rfl⟩
  have hclear : ∀ file ∈ testPaths dir package, tree.KeepsClear directory name file := by
    intro file hfile
    obtain ⟨fileName, hmem, rfl⟩ := List.mem_map.mp hfile
    obtain ⟨-, -, names, last, hlist, hread, rfl⟩ := ofDirectory_eq_ok hpackage
    have hlisted : fileName ∈ names :=
      (mem_names_of_readAll hread hmem).resolve_left List.not_mem_nil
    exact FileTree.keepsClear_of_listFiles h hdir hnames hlist hlisted
  have hpaths : testPaths dir later = testPaths dir package := by
    unfold testPaths
    rw [hfields.2]
  rw [discover_of_ofDirectory hlater, hpaths, scanFiles_withFile htree h k content hclear, hfound]
  unfold reportOf
  rw [hfields.1, hfields.2]
  rfl

/-- **A file that is set aside changes no answer.** A directory that has a package has it still, the
    file at most among those that are ignored. One that has none fails as it did, if it had sources
    and an entry that it cannot be listed for does not notice the file. A report on it is the same,
    its root too, if no path that was asked for in vain leads to the place of the file. -/
theorem answers_withFile (parser : Parser) (host : Host) (base : BuildEnv)
    (hplain : PlainName name) :
    (∀ package, ofDirectory tree env dir = .ok package →
      ∃ later, ofDirectory (tree.withFile k directory name content) env dir = .ok later ∧
        (later = package ∨ AlsoIgnores name package later)) ∧
    (∀ failure, ofDirectory tree env dir = .error failure →
      failure ≠ .importing (.noSources dir) →
      (∀ cause met, failure = .unlistable dir cause →
        tree.stumble? dir directory (tree.metBelow directory) = some met →
          tree.MetKeepsClear directory name dir met) →
      ofDirectory (tree.withFile k directory name content) env dir = .error failure) ∧
    ∀ report, discover parser host tree env base dir = .ok report →
      discover parser host (tree.withFile k directory name content) env base dir =
        .ok { report with root := reportedRoot (tree.withFile k directory name content) env dir } ∧
      ((∀ path ∈ ProjectRoot.askedInVain tree env dir,
          tree.locate path ≠ .ok (.absent directory name)) →
        discover parser host (tree.withFile k directory name content) env base dir =
          .ok report) := by
  refine ⟨fun package hpackage => ?_, fun failure hfailure hsources hclear => ?_,
    fun report hreport => ?_⟩
  · exact ofDirectory_withFile htree hnames h hdir hextension haside hpackage
  · exact ofDirectory_withFile_error htree hnames h hdir hextension haside hfailure hsources hclear
  · have hlater := discover_withFile htree hnames hdir h hextension haside hreport
    refine ⟨hlater, fun hasked => ?_⟩
    have hroot : reportedRoot (tree.withFile k directory name content) env dir = report.root := by
      obtain ⟨package, found, -, -, rfl⟩ := discover_eq_ok hreport
      unfold reportedRoot
      rw [ProjectRoot.find_withFile htree h k content hnames hplain hasked]
      rfl
    rw [hlater, hroot]

end Answers

/-- Links that lead to names that their directories do not hold: one where a module file would
    stand, and a source. -/
def linkTree : FileTree :=
  ⟨[(["go.mod"], .link ⟨"p/n.go"⟩),
    (["p"], .directory),
    (["p", "a.go"], .file "package p\n".toUTF8),
    (["q"], .directory),
    (["q", "a.go"], .link ⟨"n.go"⟩)], []⟩

theorem wellFormed_linkTree : linkTree.WellFormed where
  distinct := by decide
  inside := by decide
  current := by decide

/-- What a listing of the second directory fails with. -/
def deadLink : Failure :=
  .unlistable ⟨"/q"⟩ (.access ⟨"/q/a.go"⟩ .notFound)

theorem ofDirectory_linkTree : ofDirectory linkTree hostEnv ⟨"/q"⟩ = .error deadLink := by
  have hdir : linkTree.resolve ⟨"/q"⟩ = .ok ["q"] := by decide +kernel
  exact ofDirectory_of_filesAmong_error (by decide +kernel) hdir (by decide +kernel)
    (by decide +kernel)

/-- A source that is not built. -/
def unbuilt : ByteArray := "//go:build ignore\n\npackage main\n".toUTF8

theorem answers_withFile_mixedTree :
    let parser := Parser.ofClauses ["lib", "lib_test"]
    (∃ later, ofDirectory (mixedTree.withFile 4 ["lib"] "new.go" unbuilt) hostEnv ⟨"/lib"⟩ =
        .ok later ∧ (later = mixedPackage ∨ AlsoIgnores "new.go" mixedPackage later)) ∧
      (∃ report, discover parser .built mixedTree hostEnv hostEnv ⟨"/lib"⟩ = .ok report ∧
        discover parser .built (mixedTree.withFile 4 ["lib"] "new.go" unbuilt) hostEnv hostEnv
          ⟨"/lib"⟩ = .ok report) ∧
      ofDirectory (linkTree.withFile 0 ["q"] "m.go" unbuilt) hostEnv ⟨"/q"⟩ = .error deadLink := by
  intro parser
  have hlib : mixedTree.resolve ⟨"/lib"⟩ = .ok ["lib"] := by decide +kernel
  have haside : SetAside (mixedTree.withFile 4 ["lib"] "new.go" unbuilt) hostEnv ⟨"/lib"⟩
      "new.go" := by decide +kernel
  obtain ⟨hpackage, -, hreport⟩ := answers_withFile wellFormed_mixedTree (by decide +kernel) hlib
    (by decide +kernel) (by decide +kernel) haside parser .built hostEnv (by decide)
  have hscan : scanFiles parser mixedTree hostEnv (testPaths ⟨"/lib"⟩ mixedPackage) = .ok [] := by
    decide +kernel
  have hdiscover : discover parser .built mixedTree hostEnv hostEnv ⟨"/lib"⟩ =
      .ok (reportOf .built mixedTree hostEnv hostEnv ⟨"/lib"⟩ mixedPackage []) := by
    rw [discover_of_ofDirectory ofDirectory_mixedTree, hscan]
    rfl
  have hasked : ∀ path ∈ ProjectRoot.askedInVain mixedTree hostEnv ⟨"/lib"⟩,
      mixedTree.locate path ≠ .ok (.absent ["lib"] "new.go") := by decide +kernel
  have hq : linkTree.resolve ⟨"/q"⟩ = .ok ["q"] := by decide +kernel
  have hvacant : linkTree.Vacant ["q"] "m.go" := by decide +kernel
  have haside' : SetAside (linkTree.withFile 0 ["q"] "m.go" unbuilt) hostEnv ⟨"/q"⟩ "m.go" := by
    decide +kernel
  obtain ⟨-, hfailure, -⟩ := answers_withFile wellFormed_linkTree (by decide +kernel) hq hvacant
    (by decide +kernel) haside' parser .built hostEnv (by decide)
  -- the link in the directory leads to another name
  have hstumble : linkTree.stumble? ⟨"/q"⟩ ["q"] (linkTree.metBelow ["q"]) =
      some (.named "a.go") := by decide +kernel
  have hclear : ∀ cause met, deadLink = .unlistable ⟨"/q"⟩ cause →
      linkTree.stumble? ⟨"/q"⟩ ["q"] (linkTree.metBelow ["q"]) = some met →
        linkTree.MetKeepsClear ["q"] "m.go" ⟨"/q"⟩ met := by
    intro cause met hcause hmet
    obtain rfl := Option.some.inj (hstumble.symm.trans hmet)
    exact FileTree.keepsClear_of_locate hvacant (by decide +kernel) (by decide +kernel)
  exact ⟨hpackage _ ofDirectory_mixedTree, ⟨_, hdiscover, (hreport _ hdiscover).2 hasked⟩,
    hfailure _ ofDirectory_linkTree (by decide) hclear⟩

/-- **Links notice the file.** One that becomes a module file changes the root of a report, one that
    becomes a source changes a failure. -/
theorem noticed_linkTree :
    let parser := Parser.ofClauses ["p"]
    (linkTree.WellFormed ∧ linkTree.WellNamed ∧ linkTree.Vacant ["p"] "n.go" ∧
        linkTree.Vacant ["q"] "n.go") ∧
      (SetAside (linkTree.withFile 5 ["p"] "n.go" unbuilt) hostEnv ⟨"/p"⟩ "n.go" ∧
        ∃ report, discover parser .built linkTree hostEnv hostEnv ⟨"/p"⟩ = .ok report ∧
          report.root = ⟨"/p"⟩ ∧
          discover parser .built (linkTree.withFile 5 ["p"] "n.go" unbuilt) hostEnv hostEnv
            ⟨"/p"⟩ = .ok { report with root := ⟨"/"⟩ }) ∧
      SetAside (linkTree.withFile 5 ["q"] "n.go" unbuilt) hostEnv ⟨"/q"⟩ "n.go" ∧
        ofDirectory linkTree hostEnv ⟨"/q"⟩ = .error deadLink ∧
        ofDirectory (linkTree.withFile 5 ["q"] "n.go" unbuilt) hostEnv ⟨"/q"⟩ =
          .error (.importing (.allExcluded ⟨"/q"⟩)) := by
  intro parser
  have hvacant : linkTree.Vacant ["p"] "n.go" ∧ linkTree.Vacant ["q"] "n.go" := by decide +kernel
  refine ⟨⟨wellFormed_linkTree, by decide +kernel, hvacant⟩, ⟨by decide +kernel, ?_⟩,
    by decide +kernel, ofDirectory_linkTree, ?_⟩
  · have hp : linkTree.resolve ⟨"/p"⟩ = .ok ["p"] := by decide +kernel
    have hbefore : ofDirectory linkTree hostEnv ⟨"/p"⟩ =
        .ok ⟨"p", ⟨"/p"⟩, ["a.go"], [], [], []⟩ := by
      have hmet : linkTree.filesAmong ⟨"/p"⟩ ["p"] (linkTree.metBelow ["p"]) = .ok ["a.go"] := by
        decide +kernel
      rw [ofDirectory_of_sorted (by decide +kernel) hp (by decide +kernel) hmet rfl
        (by decide +kernel)]
      decide +kernel
    have hafter : ofDirectory (linkTree.withFile 5 ["p"] "n.go" unbuilt) hostEnv ⟨"/p"⟩ =
        .ok ⟨"p", ⟨"/p"⟩, ["a.go"], [], [], ["n.go"]⟩ := by
      have hmet : (linkTree.withFile 5 ["p"] "n.go" unbuilt).filesAmong ⟨"/p"⟩ ["p"]
          ((linkTree.withFile 5 ["p"] "n.go" unbuilt).metBelow ["p"]) =
            .ok ["a.go", "n.go"] := by decide +kernel
      rw [ofDirectory_of_sorted (by decide +kernel)
        (FileTree.resolve_withFile hvacant.1 5 unbuilt hp) (by decide +kernel) hmet rfl
        (by decide +kernel)]
      decide +kernel
    have hroot : reportedRoot linkTree hostEnv ⟨"/p"⟩ = ⟨"/p"⟩ ∧
        reportedRoot (linkTree.withFile 5 ["p"] "n.go" unbuilt) hostEnv ⟨"/p"⟩ = ⟨"/"⟩ := by
      decide +kernel
    refine ⟨_, discover_of_testFiles_eq_nil hbefore rfl, hroot.1, ?_⟩
    rw [discover_of_testFiles_eq_nil hafter rfl, ← hroot.2]
    rfl
  · have hq : linkTree.resolve ⟨"/q"⟩ = .ok ["q"] := by decide +kernel
    have hmet : (linkTree.withFile 5 ["q"] "n.go" unbuilt).filesAmong ⟨"/q"⟩ ["q"]
        ((linkTree.withFile 5 ["q"] "n.go" unbuilt).metBelow ["q"]) =
          .ok ["a.go", "n.go"] := by decide +kernel
    rw [ofDirectory_of_sorted (by decide +kernel)
      (FileTree.resolve_withFile hvacant.2 5 unbuilt hq) (by decide +kernel) hmet rfl
      (by decide +kernel)]
    decide +kernel

end Discovery

end TestScout
