import TestScout.Proofs.BuildEnv.Resolution
import TestScout.Proofs.Discovery.Scan
import TestScout.Proofs.GoSource.Placed
import TestScout.Proofs.Package.Agreement

/-!
# A file's own tests are listed

The environment that is found for a test file builds the file again when the package of its
directory is read, so that nothing the file declares is missing from the report. The file is met
twice on different ways: first by its path, and then by its name in the listing of its directory.
Main statements:

* `mem_testPaths_of_resolveFor`: the file is among the test files of the package;
* `mem_bucketOf_of_resolveFor`: its tests are in the report.
-/

namespace TestScout

/-- The name of a test file has the extension of sources. -/
theorem Package.extension_of_isTestName {name : String} (h : isTestName name = true) :
    Path.extension name = some "go" := by
  obtain ⟨front, hfront⟩ := List.isSuffixOf_iff_suffix.mp h
  have hreverse : name.toList.reverse =
      'o' :: 'g' :: '.' :: 't' :: 's' :: 'e' :: 't' :: '_' :: front.reverse := by
    rw [← hfront]
    simp [testEnding]
  have hne : name ≠ ".." := by
    rintro rfl
    simp at hreverse
  unfold Path.extension
  rw [if_neg hne]
  simp [hreverse]

namespace Discovery

open FileTree (pathOf)
open GoSource (Node Parser)

/-- **A test file for which an environment was found is among the test files of its package.** -/
theorem mem_testPaths_of_resolveFor {tree : FileTree} {env found : BuildEnv} {file parent : Path}
    {name : String} {package : Package} (habsolute : file.isAbsolute = true)
    (hclean : file.clean = file) (hfile : tree.isFile file = true)
    (hname : file.fileName = some name) (htest : Package.isTestName name = true)
    (hhidden : Package.isHiddenName name = false)
    (hdoc : ∀ source header, env.effectiveSource tree file = .ok source →
      Header.scan source.toList = .ok header →
      header.package ≠ some Package.documentationName)
    (hfound : env.resolveFor tree file = .ok found) (hparent : file.parent = some parent)
    (hpackage : Package.ofDirectory tree found parent = .ok package) :
    file ∈ testPaths parent package := by
  obtain ⟨above, hplain, rfl⟩ := Path.exists_pathOf_of_clean habsolute hclean hname
  rw [Path.parent_pathOf hplain] at hparent
  obtain rfl := Option.some.inj hparent
  obtain ⟨own, source, header, fit, hown, hsource, hheader, hfit, henv⟩ :=
    BuildEnv.resolveFor_eq_ok_iff.mp hfound
  rw [hname] at hown
  obtain rfl := Option.some.inj hown
  have hfits := BuildEnv.matchesFile_of_fitting hfit
  have hbuilds : found.matchesFile name header = true := by
    rw [henv]
    exact hfits
  -- The way over the directory meets the file under its name, with the same source.
  obtain ⟨hdir, -, names, last, hnames, -, -⟩ := Package.ofDirectory_eq_ok hpackage
  have hlisted : name ∈ names :=
    FileTree.mem_listFiles_of_isFile hplain hfile (Package.extension_of_isTestName htest) hdir
      hnames
  have hread : Package.readHeader tree found ((pathOf above).child name) = .ok header := by
    rw [Path.child_pathOf hplain]
    refine Package.readHeader_eq_ok_iff.mpr ⟨source, ?_, hheader⟩
    rw [BuildEnv.effectiveSource_of_resolveFor hfound, hsource]
  have hmem : name ∈ package.testFiles :=
    Package.mem_testFiles_of_ofDirectory hpackage hnames hlisted hhidden htest hread
      hbuilds (hdoc source header hsource hheader)
  exact List.mem_map.mpr ⟨name, hmem, Path.child_pathOf hplain⟩

/-- **The tests of a file are in the report on its directory**, for the environment that was found
    for the file. -/
theorem mem_bucketOf_of_resolveFor {parser : Parser} {host : Host} {tree : FileTree}
    {env base found : BuildEnv} {file parent : Path} {name : String} {report : DiscoveryReport}
    (habsolute : file.isAbsolute = true) (hclean : file.clean = file)
    (hfile : tree.isFile file = true) (hname : file.fileName = some name)
    (htest : Package.isTestName name = true) (hhidden : Package.isHiddenName name = false)
    (hdoc : ∀ source header, env.effectiveSource tree file = .ok source →
      Header.scan source.toList = .ok header →
      header.package ≠ some Package.documentationName)
    (hfound : env.resolveFor tree file = .ok found) (hparent : file.parent = some parent)
    (hreport : discover parser host tree found base parent = .ok report) :
    ∃ source root, env.effectiveSource tree file = .ok source ∧ parser.parse source = .ok root ∧
      ∀ declaration ∈ root.declarations, ∀ category : Category,
        category.word.toList <+: declaration.name.toList →
          (⟨declaration.name, file, declaration.line, declaration.doc⟩ : Found) ∈
            report.bucketOf category := by
  obtain ⟨package, all, hpackage, hscan, rfl⟩ := discover_eq_ok hreport
  have hmem := mem_testPaths_of_resolveFor habsolute hclean hfile hname htest hhidden hdoc hfound
    hparent hpackage
  obtain ⟨part, hpart, hall⟩ := exists_scanFile_of_scanFiles hscan hmem
  obtain ⟨source, root, hsource, hparse, -, rfl⟩ := scanFile_eq_ok_iff.mp hpart
  refine ⟨source, root, ?_, hparse, fun declaration hdeclaration category hcategory => ?_⟩
  · rw [← BuildEnv.effectiveSource_of_resolveFor hfound, hsource]
  · rw [bucketOf_reportOf, mem_bucket]
    exact hall _ (mem_filterMap_classified hdeclaration hcategory)

/-- A directory with the given sources. -/
def sourcesTree (sources : List (String × String)) : FileTree :=
  ⟨(["p"], .directory) ::
    sources.map fun named => (["p", named.1], .file named.2.toUTF8), []⟩

/-- A source for another architecture, with two tests that are not in the order of their names. -/
def armTests : String :=
  "//go:build arm64\n\npackage p\n\nfunc TestB() \x7b\x7d\n\nfunc TestA() \x7b\x7d\n"

/-- Its tree, line ends left out. -/
def armTestsTree : Node :=
  .cut armTests "source_file" 0 62 none
    [.cut armTests "comment" 0 16 none [], .packageClause armTests 18 "p",
      .emptyFunction armTests 29 44 "TestB", .emptyFunction armTests 46 61 "TestA"]

/-- A source with one test. -/
def plainTest : String := "package p\n\nfunc TestA() \x7b\x7d\n"

/-- Its tree, line ends left out. -/
def plainTestTree : Node :=
  .cut plainTest "source_file" 0 27 none
    [.packageClause plainTest 0 "p", .emptyFunction plainTest 11 26 "TestA"]

/-- A file of the host and one that the host does not build. -/
def twinTree : FileTree :=
  sourcesTree [("a_test.go", armTests), ("b_test.go", plainTest)]

/-- A parser that knows both sources. -/
def twinParser : Parser :=
  .ofTable [(armTests, armTestsTree), (plainTest, plainTestTree)]

/-- The environment that is found for the file that the host does not build. -/
def armEnv : BuildEnv :=
  { Package.hostEnv with goarch := "arm64", dir := some ⟨"/p"⟩ }

/-- The package of the two files. -/
def twinPackage : Package :=
  ⟨"p", ⟨"/p"⟩, [], ["a_test.go", "b_test.go"], [], []⟩

theorem ofDirectory_twinTree : Package.ofDirectory twinTree armEnv ⟨"/p"⟩ = .ok twinPackage := by
  have hresolve : twinTree.resolve ⟨"/p"⟩ = .ok ["p"] := by decide +kernel
  have hentry : twinTree.entry? ["p"] = some .directory := by decide +kernel
  have hfound : twinTree.filesAmong ⟨"/p"⟩ ["p"] (twinTree.metBelow ["p"]) =
      .ok ["a_test.go", "b_test.go"] := by decide +kernel
  rw [Package.ofDirectory_of_sorted (by decide +kernel) hresolve hentry hfound rfl
    (by decide +kernel)]
  decide +kernel

/-- What is found in the two files. -/
def twinFound : List (Category × Found) := [
  (.test, ⟨"TestB", ⟨"/p/a_test.go"⟩, 5, ""⟩), (.test, ⟨"TestA", ⟨"/p/a_test.go"⟩, 7, ""⟩),
  (.test, ⟨"TestA", ⟨"/p/b_test.go"⟩, 3, ""⟩)]

theorem scanFiles_twinTree :
    scanFiles twinParser twinTree armEnv (testPaths ⟨"/p"⟩ twinPackage) = .ok twinFound := by
  decide +kernel

/-- The header of the file that the host does not build. -/
def armTestsHeader : Header := ⟨some (.tag "arm64"), some "p", none, false⟩

/-- The search leaves the architecture of the host for the one that the file asks for. -/
theorem resolveFor_twinTree :
    Package.hostEnv.resolveFor twinTree ⟨"/p/a_test.go"⟩ = .ok armEnv := by
  -- The combinations are made in the order of their cost, so sorting leaves them as they are.
  have hsorted : (BuildEnv.combinations
      (Package.hostEnv.dimensions "a_test.go" armTestsHeader)).Pairwise
        fun x y => decide (x.cost ≤ y.cost) = true := by decide +kernel
  have hfit : Package.hostEnv.fitting "a_test.go" armTestsHeader =
      some { Package.hostEnv with goarch := "arm64" } := by
    unfold BuildEnv.fitting BuildEnv.candidates
    rw [List.mergeSort_of_pairwise hsorted]
    decide +kernel
  exact BuildEnv.resolveFor_eq_ok_iff.mpr ⟨"a_test.go", armTests, armTestsHeader, _,
    by decide +kernel, by decide +kernel, by decide +kernel, hfit, by decide +kernel⟩

theorem mem_bucketOf_twinTree :
    Package.hostEnv.goarch = "amd64" ∧ armEnv.goarch = "arm64" ∧
      Package.hostEnv.resolveFor twinTree ⟨"/p/a_test.go"⟩ = .ok armEnv ∧
      ∃ report, discover twinParser .built twinTree armEnv Package.hostEnv ⟨"/p"⟩ = .ok report ∧
        (⟨"TestA", ⟨"/p/a_test.go"⟩, 7, ""⟩ : Found) ∈ report.bucketOf .test := by
  have hreport : discover twinParser .built twinTree armEnv Package.hostEnv ⟨"/p"⟩ =
      .ok (reportOf .built twinTree armEnv Package.hostEnv ⟨"/p"⟩ twinPackage twinFound) := by
    rw [discover_of_ofDirectory ofDirectory_twinTree, scanFiles_twinTree]
    rfl
  have hname : Path.fileName ⟨"/p/a_test.go"⟩ = some "a_test.go" := by decide +kernel
  have hsource : Package.hostEnv.effectiveSource twinTree ⟨"/p/a_test.go"⟩ = .ok armTests := by
    decide +kernel
  have hheader : Header.scan armTests.toList = .ok armTestsHeader := by decide +kernel
  have hdoc : ∀ source header,
      Package.hostEnv.effectiveSource twinTree ⟨"/p/a_test.go"⟩ = .ok source →
      Header.scan source.toList = .ok header →
      header.package ≠ some Package.documentationName := by
    intro source header h h'
    rw [hsource] at h
    obtain rfl := Except.ok.inj h
    rw [hheader] at h'
    obtain rfl := Except.ok.inj h'
    decide
  obtain ⟨source, root, hown, hparse, htests⟩ := mem_bucketOf_of_resolveFor (by decide +kernel)
    (by decide +kernel) (by decide +kernel) hname (by decide) (by decide) hdoc resolveFor_twinTree
    (by decide +kernel) hreport
  rw [hsource] at hown
  obtain rfl := Except.ok.inj hown
  have hknown : twinParser.parse armTests = .ok armTestsTree := Parser.parse_ofTable (by simp)
  obtain rfl := Except.ok.inj (hparse.symm.trans hknown)
  exact ⟨by decide +kernel, rfl, resolveFor_twinTree, _, hreport,
    htests ⟨"TestA", ⟨46, 6⟩, ⟨61, 6⟩, ""⟩ (by decide +kernel) .test (by decide +kernel)⟩

end Discovery

end TestScout
