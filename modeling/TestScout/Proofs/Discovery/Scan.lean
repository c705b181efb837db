import TestScout.Discovery

/-!
# Scanning the files of a package

A scan is what the scans of the single files say, put together in the order of the files: the first
failure, or all that was found. Main statements:

* `of?_eq_some_iff`: a name belongs to the category whose word it begins with;
* `scanFile_eq_ok_iff`, `scanFile_eq_error_iff`: what is found in one file, and why nothing is;
* `scanFiles_eq_merge`, `merge_eq_ok_iff`, `merge_append_error`: what is found in several;
* `discover_of_ofDirectory`: the report on a package says what the scan of its test files says.
-/

namespace TestScout

/-! ## 1. Categories -/

/-- The words of the categories differ in their first characters. -/
theorem Category.eq_of_head?_word {x y : Category}
    (h : x.word.toList.head? = y.word.toList.head?) : x = y := by
  revert h
  cases x <;> cases y <;> decide

theorem Category.head?_of_word {category : Category} {name : List Char}
    (h : category.word.toList <+: name) : name.head? = category.word.toList.head? := by
  obtain ⟨rest, rfl⟩ := h
  cases category <;> rfl

/-- **A name belongs to the category whose word it begins with**, and to no other. -/
theorem Category.of?_eq_some_iff {name : String} {category : Category} :
    Category.of? name = some category ↔ category.word.toList <+: name.toList := by
  have hword : ∀ other, Category.of? name = some other → other.word.toList <+: name.toList := by
    intro other h
    have htrue := List.find?_some h
    exact List.isPrefixOf_iff_prefix.mp htrue
  refine ⟨hword category, fun h => ?_⟩
  have hsome : (Category.of? name).isSome = true := by
    unfold Category.of?
    rw [List.find?_isSome]
    exact ⟨category, by cases category <;> decide, List.isPrefixOf_iff_prefix.mpr h⟩
  obtain ⟨other, hother⟩ := Option.isSome_iff_exists.mp hsome
  have hhead : other.word.toList.head? = category.word.toList.head? :=
    (head?_of_word (hword other hother)).symm.trans (head?_of_word h)
  rw [hother, eq_of_head?_word hhead]

/-- What a report lists in a category. -/
def DiscoveryReport.bucketOf (report : DiscoveryReport) : Category → List Found
  | .test => report.tests
  | .benchmark => report.benchmarks
  | .sample => report.samples
  | .fuzz => report.fuzzTests

namespace Discovery

open GoSource (Declaration Node ParseError Parser SyntaxError)

/-! ## 2. One file -/

/-- What the scan of a file says. -/
abbrev Scanned := Except Failure (List (Category × Found))

/-- **What is found in one file, and when.** -/
theorem scanFile_eq_ok_iff {parser : Parser} {tree : FileTree} {env : BuildEnv} {file : Path}
    {found : List (Category × Found)} :
    scanFile parser tree env file = .ok found ↔
      ∃ source root, env.effectiveSource tree file = .ok source ∧
        parser.parse source = .ok root ∧ root.syntaxErrors = [] ∧
        found = root.declarations.filterMap (classified file) := by
  unfold scanFile Node.ensureClean
  cases hsource : env.effectiveSource tree file with
  | error failure => simp
  | ok source =>
    simp only [Except.ok.injEq, exists_and_left, exists_eq_left']
    cases hparse : parser.parse source with
    | error cause => simp
    | ok root =>
      simp only [Except.ok.injEq, exists_eq_left']
      cases herrors : root.syntaxErrors with
      | nil => simp only [List.head?_nil, Except.ok.injEq, true_and, eq_comm]
      | cons error others => simp

/-- Why a file is not scanned: it cannot be read, it has no tree, or its tree holds errors, of which
    the first one is told. -/
inductive FailsWith (parser : Parser) (tree : FileTree) (env : BuildEnv) (file : Path) :
    Failure → Prop where
  | unread (failure : Failure) (hsource : env.effectiveSource tree file = .error failure) :
      FailsWith parser tree env file failure
  | unparsed (source : String) (cause : ParseError)
      (hsource : env.effectiveSource tree file = .ok source)
      (hparse : parser.parse source = .error cause) :
      FailsWith parser tree env file (.unparsed file cause)
  | malformed (source : String) (root : Node) (error : SyntaxError) (others : List SyntaxError)
      (hsource : env.effectiveSource tree file = .ok source)
      (hparse : parser.parse source = .ok root) (herrors : root.syntaxErrors = error :: others) :
      FailsWith parser tree env file (.malformed file error)

/-- **Why nothing is found in one file.** -/
theorem scanFile_eq_error_iff {parser : Parser} {tree : FileTree} {env : BuildEnv} {file : Path}
    {failure : Failure} :
    scanFile parser tree env file = .error failure ↔ FailsWith parser tree env file failure := by
  constructor
  · intro h
    unfold scanFile Node.ensureClean at h
    cases hsource : env.effectiveSource tree file with
    | error cause =>
      simp only [hsource, Except.error.injEq] at h
      exact h ▸ .unread cause hsource
    | ok source =>
      cases hparse : parser.parse source with
      | error cause =>
        simp only [hsource, hparse, Except.error.injEq] at h
        exact h ▸ .unparsed source cause hsource hparse
      | ok root =>
        cases herrors : root.syntaxErrors with
        | nil => simp [hsource, hparse, herrors] at h
        | cons error others =>
          simp only [hsource, hparse, herrors, List.head?_cons, Except.error.injEq] at h
          exact h ▸ .malformed source root error others hsource hparse herrors
  · intro h
    unfold scanFile Node.ensureClean
    cases h with
    | unread _ hsource => simp only [hsource]
    | unparsed source cause hsource hparse => simp only [hsource, hparse]
    | malformed source root error others hsource hparse herrors =>
      simp only [hsource, hparse, herrors, List.head?_cons]

/-- A declaration whose name begins with the word of a category is found in it. -/
theorem mem_filterMap_classified {file : Path} {declarations : List Declaration}
    {declaration : Declaration} {category : Category}
    (h : declaration ∈ declarations)
    (hcategory : category.word.toList <+: declaration.name.toList) :
    (category, (⟨declaration.name, file, declaration.line, declaration.doc⟩ : Found)) ∈
      declarations.filterMap (classified file) := by
  refine List.mem_filterMap.mpr ⟨declaration, h, ?_⟩
  unfold classified
  rw [Category.of?_eq_some_iff.mpr hcategory]
  rfl

/-! ## 3. Several files -/

/-- What the scans of several files say together: the first failure, or all that was found. -/
def merge : List Scanned → Scanned
  | [] => .ok []
  | .error failure :: _ => .error failure
  | .ok found :: rest =>
    match merge rest with
    | .error failure => .error failure
    | .ok others => .ok (found ++ others)

theorem scanFiles_eq_merge (parser : Parser) (tree : FileTree) (env : BuildEnv)
    (files : List Path) :
    scanFiles parser tree env files = merge (files.map (scanFile parser tree env)) := by
  induction files with
  | nil => rfl
  | cons file rest ih =>
    rw [scanFiles, List.map_cons, ih]
    cases scanFile parser tree env file with
    | error failure => rfl
    | ok found => rfl

/-- **All that was found, if no file fails.** -/
theorem merge_eq_ok_iff {results : List Scanned} {found : List (Category × Found)} :
    merge results = .ok found ↔
      ∃ parts : List (List (Category × Found)),
        results = parts.map .ok ∧ found = parts.flatten := by
  induction results generalizing found with
  | nil =>
    constructor
    · intro h
      exact ⟨[], rfl, (Except.ok.inj h).symm⟩
    · rintro ⟨parts, hparts, rfl⟩
      obtain rfl := List.map_eq_nil_iff.mp hparts.symm
      rfl
  | cons result rest ih =>
    cases result with
    | error failure =>
      refine iff_of_false (by simp [merge]) ?_
      rintro ⟨parts, hparts, -⟩
      cases parts <;> simp at hparts
    | ok here =>
      cases hrest : merge rest with
      | error failure =>
        refine iff_of_false (by simp [merge, hrest]) ?_
        rintro ⟨parts, hparts, -⟩
        cases parts with
        | nil => simp at hparts
        | cons part others =>
          obtain ⟨-, hothers⟩ := List.cons.inj hparts
          rw [ih.mpr ⟨others, hothers, rfl⟩] at hrest
          simp at hrest
      | ok there =>
        obtain ⟨parts, hparts, hthere⟩ := ih.mp hrest
        simp only [merge, hrest, Except.ok.injEq]
        constructor
        · rintro rfl
          exact ⟨here :: parts, by rw [List.map_cons, hparts], by rw [List.flatten_cons, hthere]⟩
        · rintro ⟨others, hothers, rfl⟩
          cases others with
          | nil => simp at hothers
          | cons part more =>
            obtain ⟨hpart, hmore⟩ := List.cons.inj hothers
            obtain rfl := Except.ok.inj hpart
            have hagain := ih.mpr ⟨more, hmore, rfl⟩
            rw [hrest] at hagain
            rw [List.flatten_cons, Except.ok.inj hagain]

/-- **The first failure, if one fails.** -/
theorem merge_append_error {before : List Scanned} {failure : Failure} (rest : List Scanned)
    (hbefore : ∀ result ∈ before, ∃ found, result = .ok found) :
    merge (before ++ .error failure :: rest) = .error failure := by
  induction before with
  | nil => rfl
  | cons result others ih =>
    obtain ⟨found, rfl⟩ := hbefore result List.mem_cons_self
    rw [List.cons_append, merge, ih fun r hr => hbefore r (List.mem_cons_of_mem _ hr)]

/-- A scan of several files that succeeds has found what each of them holds. -/
theorem exists_scanFile_of_scanFiles {parser : Parser} {tree : FileTree} {env : BuildEnv}
    {files : List Path} {found : List (Category × Found)}
    (h : scanFiles parser tree env files = .ok found) {file : Path} (hfile : file ∈ files) :
    ∃ part, scanFile parser tree env file = .ok part ∧ ∀ one ∈ part, one ∈ found := by
  rw [scanFiles_eq_merge] at h
  obtain ⟨parts, hparts, rfl⟩ := merge_eq_ok_iff.mp h
  have hmem : scanFile parser tree env file ∈ parts.map .ok := hparts ▸ List.mem_map_of_mem hfile
  obtain ⟨part, hpart, hscan⟩ := List.mem_map.mp hmem
  exact ⟨part, hscan.symm, fun one hone => List.mem_flatten.mpr ⟨part, hpart, hone⟩⟩

/-! ## 4. Reports -/

/-- A category's part of a report holds what was found in the category. -/
theorem mem_bucket {found : List (Category × Found)} {category : Category} {one : Found} :
    one ∈ bucket found category ↔ (category, one) ∈ found := by
  unfold bucket
  simp only [List.mem_mergeSort, List.mem_map, List.mem_filter, decide_eq_true_eq]
  constructor
  · rintro ⟨⟨c, f⟩, ⟨hmem, rfl⟩, rfl⟩
    exact hmem
  · intro hmem
    exact ⟨(category, one), ⟨hmem, rfl⟩, rfl⟩

/-- The report on a package in whose test files this was found. -/
def reportOf (host : Host) (tree : FileTree) (env base : BuildEnv) (dir : Path)
    (package : Package) (found : List (Category × Found)) : DiscoveryReport where
  packageName := package.name
  root := reportedRoot tree env dir
  difference := if package.testFiles.isEmpty then none else some (.between host base env)
  tests := bucket found .test
  benchmarks := bucket found .benchmark
  samples := bucket found .sample
  fuzzTests := bucket found .fuzz

theorem bucketOf_reportOf (host : Host) (tree : FileTree) (env base : BuildEnv) (dir : Path)
    (package : Package) (found : List (Category × Found)) (category : Category) :
    (reportOf host tree env base dir package found).bucketOf category = bucket found category := by
  cases category <;> rfl

/-- The files that are scanned for the package in a directory. -/
def testPaths (dir : Path) (package : Package) : List Path :=
  package.testFiles.map dir.child

section Reports

variable {parser : Parser} {host : Host} {tree : FileTree} {env base : BuildEnv} {dir : Path}
  {package : Package}

/-- **The report on a package says what the scan of its test files says.** -/
theorem discover_of_ofDirectory (h : Package.ofDirectory tree env dir = .ok package) :
    discover parser host tree env base dir =
      (scanFiles parser tree env (testPaths dir package)).map
        (reportOf host tree env base dir package) := by
  unfold discover testPaths
  rw [h]
  simp only
  cases scanFiles parser tree env (package.testFiles.map dir.child) <;> rfl

/-- The report on a package without test files. -/
theorem discover_of_testFiles_eq_nil (h : Package.ofDirectory tree env dir = .ok package)
    (hnone : package.testFiles = []) :
    discover parser host tree env base dir = .ok (reportOf host tree env base dir package []) := by
  rw [discover_of_ofDirectory h]
  unfold testPaths
  rw [hnone]
  rfl

/-- How a report comes about. -/
theorem discover_eq_ok {report : DiscoveryReport}
    (h : discover parser host tree env base dir = .ok report) :
    ∃ package found, Package.ofDirectory tree env dir = .ok package ∧
      scanFiles parser tree env (testPaths dir package) = .ok found ∧
      report = reportOf host tree env base dir package found := by
  cases hpackage : Package.ofDirectory tree env dir with
  | error failure => simp [discover, hpackage] at h
  | ok package =>
    rw [discover_of_ofDirectory hpackage] at h
    cases hfound : scanFiles parser tree env (testPaths dir package) with
    | error failure =>
      rw [hfound] at h
      exact absurd h (by simp [Except.map])
    | ok found =>
      rw [hfound] at h
      exact ⟨package, found, rfl, hfound, (Except.ok.inj h).symm⟩

end Reports

end Discovery

end TestScout
