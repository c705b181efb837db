import TestScout.Proofs.Header.Imports
import TestScout.Proofs.Package.Reading

/-!
# The sources of a package agree on its name

A package is named by the first of its sources that is built, and a test in a package of its own
stands for the name of that package without `_test`. A test that declares just `_test` stands for
the empty name, which is also the name of a package that has none yet: such a test agrees with
everything that comes after it. Main statements:

* `Declares`: what a file's source in effect declares;
* `Agreement`, `agreement_of_addSource`, `agreement_of_readAll`: what holds while a directory is
  read;
* `agrees_iff_of_ofDirectory`: the files agree on the name, up to the tests that declare `_test`;
* `not_agrees_namelessTree`: which such a test need not.
-/

namespace TestScout.Package

variable {tree : FileTree} {env : BuildEnv}

/-! ## 1. Declarations -/

/-- The source of a file that is in effect declares a package. -/
def Declares (tree : FileTree) (env : BuildEnv) (path : Path) (declared : String) : Prop :=
  ∃ source header, env.effectiveSource tree path = .ok source ∧
    Header.scan source.toList = .ok header ∧ header.package = some declared

theorem declares_of_readHeader {path : Path} {header : Header} {declared : String}
    (h : readHeader tree env path = .ok header) (hpackage : header.package = some declared) :
    Declares tree env path declared := by
  obtain ⟨source, hsource, hheader⟩ := readHeader_eq_ok_iff.mp h
  exact ⟨source, header, hsource, hheader, hpackage⟩

/-- A file declares one package. -/
theorem Declares.unique {path : Path} {declared other : String}
    (h : Declares tree env path declared) (h' : Declares tree env path other) :
    declared = other := by
  obtain ⟨source, header, hsource, hheader, hpackage⟩ := h
  obtain ⟨source', header', hsource', hheader', hpackage'⟩ := h'
  obtain rfl := Except.ok.inj (hsource.symm.trans hsource')
  obtain rfl := Except.ok.inj (hheader.symm.trans hheader')
  exact Option.some.inj (hpackage.symm.trans hpackage')

theorem Declares.ne_empty {path : Path} {declared : String}
    (h : Declares tree env path declared) : declared ≠ "" := by
  obtain ⟨source, header, -, hheader, hpackage⟩ := h
  exact Header.ne_empty_of_scan hheader hpackage

/-! ## 2. Roles -/

theorem append_of_withoutTest? {declared inner : String} (h : withoutTest? declared = some inner) :
    declared = inner ++ "_test" := by
  unfold withoutTest? at h
  split at h
  · rename_i hends
    obtain ⟨front, hfront⟩ := List.isSuffixOf_iff_suffix.mp hends
    obtain rfl := Option.some.inj h
    have hlength : declared.length - testEnding.length = front.length := by
      rw [← String.length_toList, ← hfront, List.length_append, Nat.add_sub_cancel]
    rw [hlength, ← String.toList_inj, String.toList_append, String.toList_ofList, ← hfront,
      List.take_left]
    rfl
  · cases h

/-- What a source has to declare to stand for a name. -/
def Role.spelling (role : Role) : String :=
  if role.isOuter then role.declared ++ "_test" else role.declared

/-- A source stands for what it declares. -/
theorem spelling_roleOf (known fileName declared : String) :
    (roleOf known fileName declared).spelling = declared := by
  unfold roleOf
  split
  · split
    · rename_i inner hinner
      exact (append_of_withoutTest? hinner).symm
    · rfl
  · rfl

/-- Only tests are in the package of their own. -/
theorem isTestName_of_isOuter {known fileName declared : String}
    (h : (roleOf known fileName declared).isOuter = true) : isTestName fileName = true := by
  unfold roleOf at h
  split at h
  · rename_i htest
    exact (Bool.and_eq_true_iff.mp htest).1
  · cases h

/-! ## 3. While a directory is read -/

/-- The files of a package agree on its name, but among the tests in a package of their own those
    that were read first may declare `_test`. -/
structure Agreement (tree : FileTree) (env : BuildEnv) (package : Package) : Prop where
  sources : ∀ fileName ∈ package.sources,
    Declares tree env (package.dir.child fileName) package.name
  tests : ∀ fileName ∈ package.tests, Declares tree env (package.dir.child fileName) package.name
  outerTests : ∃ early late, package.outerTests = early ++ late ∧
    (∀ fileName ∈ early, Declares tree env (package.dir.child fileName) "_test") ∧
      ∀ fileName ∈ late, Declares tree env (package.dir.child fileName) (package.name ++ "_test")

theorem agreement_start (dir : Path) : Agreement tree env (Reading.start dir).package where
  sources := by simp [Reading.start]
  tests := by simp [Reading.start]
  outerTests := ⟨[], [], rfl, by simp, by simp⟩

/-- A package without a name may get any: its files are tests that declare `_test`. -/
theorem Agreement.rename {package : Package} (h : Agreement tree env package)
    (hunnamed : package.name = "") (name : String) :
    Agreement tree env { package with name := name } := by
  obtain ⟨early, late, houter, hearly, hlate⟩ := h.outerTests
  refine ⟨fun fileName hmem => ?_, fun fileName hmem => ?_, early ++ late, [], ?_, ?_, by simp⟩
  · exact absurd hunnamed (h.sources fileName hmem).ne_empty
  · exact absurd hunnamed (h.tests fileName hmem).ne_empty
  · rw [List.append_nil]
    exact houter
  · intro fileName hmem
    rcases List.mem_append.mp hmem with hmem | hmem
    · exact hearly fileName hmem
    · have hdeclares := hlate fileName hmem
      rw [hunnamed] at hdeclares
      exact hdeclares

/-- A source that stands for the name may be added. -/
theorem Agreement.addFile {package : Package} (h : Agreement tree env package) {fileName : String}
    {role : Role} (hname : role.declared = package.name)
    (hdeclares : Declares tree env (package.dir.child fileName) role.spelling) :
    Agreement tree env (package.addFile fileName role.isOuter) := by
  have hadd : ∀ {names : List String} {declared : String},
      (∀ name ∈ names, Declares tree env (package.dir.child name) declared) →
      Declares tree env (package.dir.child fileName) declared →
      ∀ name ∈ names ++ [fileName], Declares tree env (package.dir.child name) declared := by
    intro names declared hnames hfile name hmem
    rcases List.mem_append.mp hmem with hmem | hmem
    · exact hnames name hmem
    · rw [List.mem_singleton.mp hmem]
      exact hfile
  unfold Role.spelling at hdeclares
  rw [hname] at hdeclares
  unfold Package.addFile
  cases hrole : role.isOuter with
  | true =>
    rw [hrole] at hdeclares
    obtain ⟨early, late, houter, hearly, hlate⟩ := h.outerTests
    refine ⟨h.sources, h.tests, early, late ++ [fileName], ?_, hearly, hadd hlate hdeclares⟩
    simp [houter]
  | false =>
    rw [hrole] at hdeclares
    cases htest : isTestName fileName with
    | true => exact ⟨h.sources, hadd h.tests hdeclares, h.outerTests⟩
    | false => exact ⟨hadd h.sources hdeclares, h.tests, h.outerTests⟩

/-- **Reading one source keeps the agreement.** -/
theorem agreement_of_addSource {state next : Reading} {fileName : String} {header : Header}
    (hnext : Reading.addSource env state fileName header = .ok next)
    (hheader : readHeader tree env (state.package.dir.child fileName) = .ok header)
    (h : Agreement tree env state.package) :
    Agreement tree env next.package := by
  rcases addSource_eq_ok hnext with ⟨-, rfl⟩ | ⟨-, declared, hdeclared, -, hagrees, hpackage, -⟩
  · exact ⟨h.sources, h.tests, h.outerTests⟩
  · have hdeclares : Declares tree env (state.package.dir.child fileName)
        (roleOf state.package.name fileName declared).spelling := by
      rw [spelling_roleOf]
      exact declares_of_readHeader hheader hdeclared
    rw [hpackage]
    rcases hagrees with hunnamed | hsame
    · exact (h.rename hunnamed _).addFile rfl hdeclares
    · unfold withSource
      rw [hsame]
      exact h.addFile hsame hdeclares

/-- **Reading a directory keeps the agreement.** -/
theorem agreement_of_readAll {state last : Reading} {names : List String}
    (h : Agreement tree env state.package) (hread : readAll tree env state names = .ok last) :
    Agreement tree env last.package := by
  induction names generalizing state with
  | nil =>
    obtain rfl := Except.ok.inj hread
    exact h
  | cons fileName rest ih =>
    rcases readAll_cons_eq_ok hread with ⟨-, hrest⟩ | ⟨-, header, next, hheader, hnext, hrest⟩
    · exact ih h hrest
    · exact ih (agreement_of_addSource hnext hheader h) hrest

/-! ## 4. Packages -/

/-- The files of a package agree on its name: the library sources and the tests inside it declare
    it, and the tests in a package of their own declare it with `_test` behind it. -/
structure Agrees (tree : FileTree) (env : BuildEnv) (package : Package) : Prop where
  named : package.name ≠ ""
  sources : ∀ fileName ∈ package.sources,
    Declares tree env (package.dir.child fileName) package.name
  tests : ∀ fileName ∈ package.tests, Declares tree env (package.dir.child fileName) package.name
  outerTests : ∀ fileName ∈ package.outerTests,
    Declares tree env (package.dir.child fileName) (package.name ++ "_test")

theorem append_ne_test {name : String} (h : name ≠ "") : name ++ "_test" ≠ "_test" := by
  intro hsame
  have hlength := congrArg String.length hsame
  rw [String.length_append, Nat.add_eq_right] at hlength
  exact h (String.length_eq_zero_iff.mp hlength)

/-- **The files of a package that was read agree on its name**, up to the tests that stand for no
    name: they agree exactly if there are none of these. -/
theorem agrees_iff_of_ofDirectory {dir : Path} {package : Package}
    (h : ofDirectory tree env dir = .ok package) :
    package.dir = dir ∧ package.name ≠ "" ∧ Agreement tree env package ∧
      (Agrees tree env package ↔
        ∀ fileName ∈ package.outerTests, ¬ Declares tree env (dir.child fileName) "_test") := by
  obtain ⟨-, hnamed, names, last, -, hread, rfl⟩ := ofDirectory_eq_ok h
  have hdir : last.package.dir = dir := (extends_of_readAll hread).dir
  have hagreement : Agreement tree env last.package :=
    agreement_of_readAll (agreement_start dir) hread
  refine ⟨hdir, hnamed, hagreement, fun hagrees fileName hmem htest => ?_, fun hnone => ?_⟩
  · have hdeclares := hagrees.outerTests fileName hmem
    rw [hdir] at hdeclares
    exact append_ne_test hnamed (hdeclares.unique htest)
  · obtain ⟨early, late, houter, hearly, hlate⟩ := hagreement.outerTests
    refine ⟨hnamed, hagreement.sources, hagreement.tests, fun fileName hmem => ?_⟩
    rw [houter] at hmem
    rcases List.mem_append.mp hmem with hmem | hmem
    · refine absurd (hearly fileName hmem) ?_
      rw [hdir]
      exact hnone fileName (houter ▸ List.mem_append_left _ hmem)
    · exact hlate fileName hmem

/-- The environment of the host. -/
def hostEnv : BuildEnv :=
  BuildEnv.ofVariables .built (fun _ => none) Settings.standard

/-- A directory with sources of every kind, and one whose name is no text. -/
def mixedTree : FileTree :=
  ⟨[(["lib"], .directory),
    (["lib", "_skip.go"], .file "package other\n".toUTF8),
    (["lib", "api_test.go"], .file "package lib_test\n".toUTF8),
    (["lib", "doc.go"], .file "//go:build ignore\n\npackage main\n".toUTF8),
    (["lib", "lib.go"], .file "package lib\n".toUTF8),
    (["lib", "lib_test.go"], .file "package lib\n".toUTF8),
    (["lib", "link.go"], .link ⟨"lib.go"⟩),
    (["lib", "notes.txt"], .file "package none\n".toUTF8),
    (.nameless ["lib"] "\uFFFD.go", .file "package none\n".toUTF8)], []⟩

/-- The package of these sources. -/
def mixedPackage : Package :=
  ⟨"lib", ⟨"/lib"⟩, ["lib.go", "link.go"], ["lib_test.go"], ["api_test.go"], ["doc.go"]⟩

theorem ofDirectory_mixedTree : ofDirectory mixedTree hostEnv ⟨"/lib"⟩ = .ok mixedPackage := by
  let found := ["_skip.go", "api_test.go", "doc.go", "lib.go", "lib_test.go", "link.go",
    "notes.txt"]
  have hresolve : mixedTree.resolve ⟨"/lib"⟩ = .ok ["lib"] := by decide +kernel
  have hentry : mixedTree.entry? ["lib"] = some .directory := by decide +kernel
  have hfound : mixedTree.filesAmong ⟨"/lib"⟩ ["lib"] (mixedTree.metBelow ["lib"]) =
      .ok found := by decide +kernel
  rw [ofDirectory_of_sorted (by decide +kernel) hresolve hentry hfound rfl (by decide +kernel)]
  decide +kernel

theorem agrees_iff_of_ofDirectory_mixedTree :
    ofDirectory mixedTree hostEnv ⟨"/lib"⟩ = .ok mixedPackage ∧
      Agrees mixedTree hostEnv mixedPackage := by
  obtain ⟨-, -, -, hiff⟩ := agrees_iff_of_ofDirectory ofDirectory_mixedTree
  refine ⟨ofDirectory_mixedTree, hiff.mpr fun fileName hmem htest => ?_⟩
  obtain rfl := List.mem_singleton.mp hmem
  have hheader : readHeader mixedTree hostEnv ((⟨"/lib"⟩ : Path).child "api_test.go") =
      .ok ⟨none, some "lib_test", none, false⟩ := by decide +kernel
  exact absurd (htest.unique (declares_of_readHeader hheader rfl)) (by decide)

/-- A test that declares `_test`, beside a source of another package. -/
def namelessTree : FileTree :=
  ⟨[(["p"], .directory), (["p", "a_test.go"], .file "package _test\n".toUTF8),
    (["p", "b.go"], .file "package foo\n".toUTF8)], []⟩

/-- The package that is read there. -/
def namelessPackage : Package :=
  ⟨"foo", ⟨"/p"⟩, ["b.go"], [], ["a_test.go"], []⟩

/-- **A test that declares `_test` is taken for one of any package**, if it is read first. -/
theorem not_agrees_namelessTree :
    ofDirectory namelessTree hostEnv ⟨"/p"⟩ = .ok namelessPackage ∧
      Declares namelessTree hostEnv ⟨"/p/a_test.go"⟩ "_test" ∧
        ¬ Agrees namelessTree hostEnv namelessPackage := by
  have hresolve : namelessTree.resolve ⟨"/p"⟩ = .ok ["p"] := by decide +kernel
  have hentry : namelessTree.entry? ["p"] = some .directory := by decide +kernel
  have hfound : namelessTree.filesAmong ⟨"/p"⟩ ["p"] (namelessTree.metBelow ["p"]) =
      .ok ["a_test.go", "b.go"] := by decide +kernel
  have hheader : readHeader namelessTree hostEnv ⟨"/p/a_test.go"⟩ =
      .ok ⟨none, some "_test", none, false⟩ := by decide +kernel
  have hchild : (⟨"/p"⟩ : Path).child "a_test.go" = ⟨"/p/a_test.go"⟩ := by decide +kernel
  have hdeclares : Declares namelessTree hostEnv ⟨"/p/a_test.go"⟩ "_test" :=
    declares_of_readHeader hheader rfl
  refine ⟨?_, hdeclares, fun hagrees => ?_⟩
  · rw [ofDirectory_of_sorted (by decide +kernel) hresolve hentry hfound rfl (by decide +kernel)]
    decide +kernel
  · have hfoo : Declares namelessTree hostEnv ((⟨"/p"⟩ : Path).child "a_test.go") "foo_test" :=
      hagrees.outerTests "a_test.go" List.mem_cons_self
    rw [hchild] at hfoo
    exact absurd (hfoo.unique hdeclares) (by decide)

end TestScout.Package
