import Mathlib.Data.List.Infix
import TestScout.Package
import TestScout.Proofs.FileTree.Regular

/-!
# Reading a package file by file

Reading one source either sets it aside or puts it into one of the lists of the package, which then
has the name that the source stands for. No list ever loses a file. Main statements:

* `addSource_eq_ok`: what reading one source does;
* `Extends`, `extends_of_readAll`: what is read stays read;
* `mem_testFiles_of_ofDirectory`: a test that is listed, built and not only documentation is among
  the test files of the package.
-/

namespace TestScout.Package

/-! ## 1. One source -/

/-- The header of a file is that of its source in effect. -/
theorem readHeader_eq_ok_iff {tree : FileTree} {env : BuildEnv} {path : Path} {header : Header} :
    readHeader tree env path = .ok header ↔
      ∃ source, env.effectiveSource tree path = .ok source ∧
        Header.scan source.toList = .ok header := by
  unfold readHeader
  cases env.effectiveSource tree path with
  | error failure => simp
  | ok source => cases hheader : Header.scan source.toList <;> simp [hheader]

/-- The package with a source in it that stands for a name. -/
def withSource (package : Package) (fileName : String) (role : Role) : Package :=
  ({ package with name := role.declared }).addFile fileName role.isOuter

/-- A source can be added where it names the package or agrees with the name. -/
theorem agree_eq_ok {state next : Reading} {fileName declared : String}
    (h : state.agree fileName declared = .ok next) :
    (state.package.name = "" ∨ declared = state.package.name) ∧
      next.package = { state.package with name := declared } ∧
        next.sawSource = state.sawSource := by
  unfold Reading.agree at h
  split at h
  · rename_i hunnamed
    obtain rfl := Except.ok.inj h
    exact ⟨Or.inl hunnamed, rfl, rfl⟩
  · split at h
    · simp at h
    · rename_i hsame
      obtain rfl := Except.ok.inj h
      have hdeclared : declared = state.package.name := by simpa using hsame
      exact ⟨Or.inr hdeclared, by rw [hdeclared], rfl⟩

/-- **Reading a source sets it aside or puts it into the package.** It is set aside if it is not
    built or only documents. -/
theorem addSource_eq_ok {env : BuildEnv} {state next : Reading} {fileName : String}
    {header : Header} (h : Reading.addSource env state fileName header = .ok next) :
    (env.matchesFile fileName header = false ∨ header.package = some documentationName) ∧
        next = state.ignore fileName ∨
      env.matchesFile fileName header = true ∧
        ∃ declared, header.package = some declared ∧ declared ≠ documentationName ∧
          (state.package.name = "" ∨
            (roleOf state.package.name fileName declared).declared = state.package.name) ∧
          next.package = state.package.withSource fileName
            (roleOf state.package.name fileName declared) ∧
          next.sawSource = state.sawSource := by
  unfold Reading.addSource at h
  cases hmatches : env.matchesFile fileName header with
  | false =>
    rw [hmatches] at h
    exact Or.inl ⟨Or.inl rfl, (Except.ok.inj h).symm⟩
  | true =>
    rw [hmatches] at h
    cases hpackage : header.package with
    | none => simp [hpackage] at h
    | some declared =>
      simp only [Bool.not_true, Bool.false_eq_true, if_false, hpackage] at h
      split at h
      · rename_i hdoc
        exact Or.inl ⟨Or.inr (by rw [hdoc]), (Except.ok.inj h).symm⟩
      · rename_i hdoc
        split at h
        · simp at h
        · rename_i named hnamed
          obtain rfl := Except.ok.inj h
          obtain ⟨hagrees, hfields, hsaw⟩ := agree_eq_ok hnamed
          refine Or.inr ⟨rfl, declared, rfl, hdoc, hagrees, ?_, hsaw⟩
          simp only [hfields]
          rfl

/-! ## 2. What is read stays read -/

/-- A package later in the reading of a directory: the lists have only grown. -/
structure Extends (earlier later : Package) : Prop where
  dir : later.dir = earlier.dir
  sources : earlier.sources <+: later.sources
  tests : earlier.tests <+: later.tests
  outerTests : earlier.outerTests <+: later.outerTests
  ignored : earlier.ignored <+: later.ignored

theorem extends_refl (package : Package) : package.Extends package where
  dir := rfl
  sources := List.prefix_refl _
  tests := List.prefix_refl _
  outerTests := List.prefix_refl _
  ignored := List.prefix_refl _

theorem extends_trans {x y z : Package} (h : x.Extends y) (h' : y.Extends z) : x.Extends z where
  dir := h'.dir.trans h.dir
  sources := h.sources.trans h'.sources
  tests := h.tests.trans h'.tests
  outerTests := h.outerTests.trans h'.outerTests
  ignored := h.ignored.trans h'.ignored

theorem extends_withSource (package : Package) (fileName : String) (role : Role) :
    package.Extends (package.withSource fileName role) := by
  unfold withSource addFile
  split
  · exact ⟨rfl, List.prefix_refl _, List.prefix_refl _, List.prefix_append _ _,
      List.prefix_refl _⟩
  · split
    · exact ⟨rfl, List.prefix_refl _, List.prefix_append _ _, List.prefix_refl _,
        List.prefix_refl _⟩
    · exact ⟨rfl, List.prefix_append _ _, List.prefix_refl _, List.prefix_refl _,
        List.prefix_refl _⟩

theorem extends_of_addSource {env : BuildEnv} {state next : Reading} {fileName : String}
    {header : Header} (h : Reading.addSource env state fileName header = .ok next) :
    state.package.Extends next.package := by
  rcases addSource_eq_ok h with ⟨-, rfl⟩ | ⟨-, declared, -, -, -, hpackage, -⟩
  · exact ⟨rfl, List.prefix_refl _, List.prefix_refl _, List.prefix_refl _,
      List.prefix_append _ _⟩
  · rw [hpackage]
    exact extends_withSource _ _ _

/-- What one name contributes. -/
theorem readAll_cons_eq_ok {tree : FileTree} {env : BuildEnv} {state last : Reading}
    {fileName : String} {rest : List String}
    (h : readAll tree env state (fileName :: rest) = .ok last) :
    isHiddenName fileName = true ∧ readAll tree env state rest = .ok last ∨
      isHiddenName fileName = false ∧ ∃ header next,
        readHeader tree env (state.package.dir.child fileName) = .ok header ∧
        Reading.addSource env { state with sawSource := true } fileName header = .ok next ∧
        readAll tree env next rest = .ok last := by
  rw [readAll] at h
  cases hhidden : isHiddenName fileName with
  | true =>
    rw [hhidden] at h
    exact Or.inl ⟨rfl, h⟩
  | false =>
    rw [hhidden, if_neg (by decide)] at h
    cases hheader : readHeader tree env (state.package.dir.child fileName) with
    | error failure => simp [hheader] at h
    | ok header =>
      cases hnext : Reading.addSource env { state with sawSource := true } fileName header with
      | error failure => simp [hheader, hnext] at h
      | ok next =>
        simp only [hheader, hnext] at h
        exact Or.inr ⟨rfl, header, next, rfl, hnext, h⟩

/-- **What is read stays read.** -/
theorem extends_of_readAll {tree : FileTree} {env : BuildEnv} {state last : Reading}
    {names : List String} (h : readAll tree env state names = .ok last) :
    state.package.Extends last.package := by
  induction names generalizing state with
  | nil =>
    obtain rfl := Except.ok.inj h
    exact extends_refl _
  | cons fileName rest ih =>
    rcases readAll_cons_eq_ok h with ⟨-, hrest⟩ | ⟨-, header, next, -, hnext, hrest⟩
    · exact ih hrest
    · have hone := extends_of_addSource hnext
      exact extends_trans hone (ih hrest)

/-! ## 3. Tests -/

theorem mem_testFiles_of_extends {earlier later : Package} (h : earlier.Extends later)
    {fileName : String} (hmem : fileName ∈ earlier.testFiles) : fileName ∈ later.testFiles := by
  rcases List.mem_append.mp hmem with htest | houter
  · exact List.mem_append_left _ (h.tests.subset htest)
  · exact List.mem_append_right _ (h.outerTests.subset houter)

theorem mem_testFiles_withSource (package : Package) {fileName : String} (role : Role)
    (htest : isTestName fileName = true) :
    fileName ∈ (package.withSource fileName role).testFiles := by
  unfold withSource addFile testFiles
  cases role.isOuter <;> simp [htest]

/-- A test that is built and not only documentation is among the test files that are read. -/
theorem mem_testFiles_of_readAll {tree : FileTree} {env : BuildEnv} {state last : Reading}
    {names : List String} {fileName : String} {header : Header}
    (h : readAll tree env state names = .ok last) (hmem : fileName ∈ names)
    (hhidden : isHiddenName fileName = false) (htest : isTestName fileName = true)
    (hheader : readHeader tree env (state.package.dir.child fileName) = .ok header)
    (hmatches : env.matchesFile fileName header = true)
    (hdoc : header.package ≠ some documentationName) : fileName ∈ last.package.testFiles := by
  induction names generalizing state with
  | nil => exact absurd hmem List.not_mem_nil
  | cons first rest ih =>
    rcases List.mem_cons.mp hmem with rfl | hrest
    · rcases readAll_cons_eq_ok h with ⟨hyes, -⟩ | ⟨-, read, next, hread, hnext, hlast⟩
      · rw [hhidden] at hyes
        exact absurd hyes (by decide)
      · rw [hheader] at hread
        obtain rfl := Except.ok.inj hread
        refine mem_testFiles_of_extends (extends_of_readAll hlast) ?_
        rcases addSource_eq_ok hnext with ⟨hnot | hnot, -⟩ | ⟨-, declared, -, -, -, hpackage, -⟩
        · rw [hmatches] at hnot
          exact absurd hnot (by decide)
        · exact absurd hnot hdoc
        · rw [hpackage]
          exact mem_testFiles_withSource _ _ htest
    · rcases readAll_cons_eq_ok h with ⟨-, hlast⟩ | ⟨-, read, next, -, hnext, hlast⟩
      · exact ih hlast hrest hheader
      · refine ih hlast hrest ?_
        rw [(extends_of_addSource hnext).dir]
        exact hheader

/-- Adding a source adds no other test. -/
theorem of_mem_testFiles_withSource {package : Package} {fileName name : String} {role : Role}
    (h : name ∈ (package.withSource fileName role).testFiles) :
    name ∈ package.testFiles ∨ name = fileName := by
  unfold withSource addFile testFiles at h
  unfold testFiles
  split at h
  · simpa [or_assoc] using h
  · split at h
    · simp only [List.mem_append, List.mem_singleton] at h ⊢
      tauto
    · exact Or.inl h

/-- A test file of what was read is among the names that were to be read. -/
theorem mem_names_of_readAll {tree : FileTree} {env : BuildEnv} {state last : Reading}
    {names : List String} (h : readAll tree env state names = .ok last) {name : String}
    (hmem : name ∈ last.package.testFiles) : name ∈ state.package.testFiles ∨ name ∈ names := by
  induction names generalizing state with
  | nil =>
    obtain rfl := Except.ok.inj h
    exact Or.inl hmem
  | cons fileName rest ih =>
    rcases readAll_cons_eq_ok h with ⟨-, hrest⟩ | ⟨-, header, next, -, hnext, hrest⟩
    · exact (ih hrest).imp id (List.mem_cons_of_mem _)
    · rcases ih hrest with hin | hin
      · rcases addSource_eq_ok hnext with ⟨-, rfl⟩ | ⟨-, declared, -, -, -, hpackage, -⟩
        · exact Or.inl hin
        · rw [hpackage] at hin
          rcases of_mem_testFiles_withSource hin with hbefore | rfl
          · exact Or.inl hbefore
          · exact Or.inr List.mem_cons_self
      · exact Or.inr (List.mem_cons_of_mem _ hin)

/-- How a directory's package comes about. -/
theorem ofDirectory_eq_ok {tree : FileTree} {env : BuildEnv} {dir : Path} {package : Package}
    (h : ofDirectory tree env dir = .ok package) :
    tree.isDirectory dir = true ∧ package.name ≠ "" ∧
      ∃ names last, tree.listFiles dir (some "go") = .ok names ∧
        readAll tree env (.start dir) names = .ok last ∧ package = last.package := by
  unfold ofDirectory at h
  cases hdir : tree.isDirectory dir with
  | false => simp [hdir] at h
  | true =>
    rw [hdir] at h
    cases hnames : tree.listFiles dir (some "go") with
    | error cause => simp [hnames] at h
    | ok names =>
      cases hlast : readAll tree env (.start dir) names with
      | error failure => simp [hnames, hlast] at h
      | ok last =>
        simp only [Bool.not_true, Bool.false_eq_true, if_false, hnames, hlast] at h
        unfold Reading.finish at h
        split at h
        · rename_i hnamed
          obtain rfl := Except.ok.inj h
          exact ⟨rfl, hnamed, names, last, rfl, hlast, rfl⟩
        · split at h <;> simp at h

/-- A directory whose path stands for the standard input is taken for one without sources. -/
theorem ofDirectory_of_isStandardInput {tree : FileTree} {env : BuildEnv} {dir : Path}
    (hinput : dir.isStandardInput = true) (hdir : tree.isDirectory dir = true) :
    ofDirectory tree env dir = .error (.importing (.noSources dir)) := by
  unfold ofDirectory FileTree.listFiles
  rw [hdir, hinput]
  rfl

/-- A package is that of a directory. -/
theorem isStandardInput_of_ofDirectory {tree : FileTree} {env : BuildEnv} {dir : Path}
    {package : Package} (h : ofDirectory tree env dir = .ok package) :
    dir.isStandardInput = false := by
  refine Bool.eq_false_iff.mpr fun hinput => ?_
  rw [ofDirectory_of_isStandardInput hinput (ofDirectory_eq_ok h).1] at h
  cases h

section Listed

variable {tree : FileTree} {env : BuildEnv} {dir : Path} {directory : Location}

theorem ofDirectory_of_resolve (hdir : tree.resolve dir = .ok directory)
    (hentry : tree.entry? directory = some .directory) :
    ofDirectory tree env dir =
      match tree.listFiles dir (some "go") with
      | .error cause => .error (.unlistable dir cause)
      | .ok names =>
        match readAll tree env (.start dir) names with
        | .error failure => .error failure
        | .ok state => state.finish := by
  have hdirectory : tree.isDirectory dir = true :=
    FileTree.isDirectory_iff.mpr ⟨directory, hdir, hentry⟩
  unfold ofDirectory
  rw [hdirectory]
  rfl

/-- The answer for a directory whose files are met in the order of their names. -/
theorem ofDirectory_of_sorted {found names : List String}
    (hinput : dir.isStandardInput = false) (hdir : tree.resolve dir = .ok directory)
    (hentry : tree.entry? directory = some .directory)
    (hfound : tree.filesAmong dir directory (tree.metBelow directory) = .ok found)
    (hnames : found.filter (FileTree.hasExtension (some "go")) = names)
    (hsorted : names.Pairwise fun x y => decide (x ≤ y) = true) :
    ofDirectory tree env dir =
      match readAll tree env (.start dir) names with
      | .error failure => .error failure
      | .ok state => state.finish := by
  rw [ofDirectory_of_resolve hdir hentry,
    FileTree.listFiles_of_sorted hinput hdir hentry hfound hnames hsorted]

/-- The answer for a directory that cannot be listed. -/
theorem ofDirectory_of_filesAmong_error {cause : ListError}
    (hinput : dir.isStandardInput = false) (hdir : tree.resolve dir = .ok directory)
    (hentry : tree.entry? directory = some .directory)
    (hfailed : tree.filesAmong dir directory (tree.metBelow directory) = .error cause) :
    ofDirectory tree env dir = .error (.unlistable dir cause) := by
  rw [ofDirectory_of_resolve hdir hentry, FileTree.listFiles_eq_map "go" hinput hdir hentry,
    hfailed]
  rfl

end Listed

/-- **A test that is listed, built and not only documentation is among the test files.** -/
theorem mem_testFiles_of_ofDirectory {tree : FileTree} {env : BuildEnv} {dir : Path}
    {package : Package} {names : List String} {fileName : String} {header : Header}
    (h : ofDirectory tree env dir = .ok package)
    (hnames : tree.listFiles dir (some "go") = .ok names) (hmem : fileName ∈ names)
    (hhidden : isHiddenName fileName = false) (htest : isTestName fileName = true)
    (hheader : readHeader tree env (dir.child fileName) = .ok header)
    (hmatches : env.matchesFile fileName header = true)
    (hdoc : header.package ≠ some documentationName) : fileName ∈ package.testFiles := by
  obtain ⟨-, -, listed, last, hlisted, hread, rfl⟩ := ofDirectory_eq_ok h
  rw [hnames] at hlisted
  obtain rfl := Except.ok.inj hlisted
  exact mem_testFiles_of_readAll hread hmem hhidden htest hheader hmatches hdoc

end TestScout.Package
