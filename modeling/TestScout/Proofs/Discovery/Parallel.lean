import TestScout.Proofs.Discovery.OwnTests
import TestScout.Proofs.Text.ByteOrder

/-!
# Discovery whatever file is scanned first

The test files of a package may be scanned side by side. Every scan puts its result in the place of
its file, and the places are read in order when all scans have ended, so that the order in which
they end does not show. Main statements:

* `faithful_of_reached`: whatever has been put in a place so far is what the scan of its file says;
* `collected_of_ended`: in the end the places hold the results in the order of the files;
* `isStableSort_bucket`: each category is sorted by the bytes of the names, and stably;
* `discover_reference`: so discovery loses, repeats and misfiles nothing, and its failure is that of
  the first file that fails.
-/

namespace TestScout.Discovery

open GoSource (Node Parser)

/-! ## 1. Scans side by side -/

/-- The places for the results of several scans, empty for scans that have not ended. -/
abbrev Places := List (Option Scanned)

section Scans

variable {parser : Parser} {tree : FileTree} {env : BuildEnv} {files : List Path}

/-- One scan ends, whichever it is, and its result is put in the place of its file. -/
inductive ScanStep (parser : Parser) (tree : FileTree) (env : BuildEnv) (files : List Path) :
    Places → Places → Prop where
  | ends (places : Places) (i : Nat) (file : Path) (hfile : files[i]? = some file)
      (hopen : places[i]? = some none) :
      ScanStep parser tree env files places (places.set i (some (scanFile parser tree env file)))

/-- What the places may look like after some scans have ended. -/
inductive Reached (parser : Parser) (tree : FileTree) (env : BuildEnv) (files : List Path) :
    Places → Prop where
  | start : Reached parser tree env files (files.map fun _ => none)
  | step (places next : Places) (h : Reached parser tree env files places)
      (hstep : ScanStep parser tree env files places next) : Reached parser tree env files next

/-- Whether all scans have ended. -/
def Ended (places : Places) : Prop :=
  ∀ place ∈ places, place.isSome = true

/-- How many scans have not ended. -/
def running (places : Places) : Nat :=
  places.countP Option.isNone

/-- What is in a place is what the scan of its file says. -/
structure Faithful (parser : Parser) (tree : FileTree) (env : BuildEnv) (files : List Path)
    (places : Places) : Prop where
  length : places.length = files.length
  result : ∀ (i : Nat) (file : Path) (result : Scanned), files[i]? = some file →
    places[i]? = some (some result) → result = scanFile parser tree env file

theorem faithful_start : Faithful parser tree env files (files.map fun _ => none) where
  length := by rw [List.length_map]
  result i file result _ h := by
    rw [List.getElem?_map] at h
    cases hi : files[i]? <;> simp [hi] at h

/-- A scan that ends spoils no place. -/
theorem faithful_step {places next : Places} (h : Faithful parser tree env files places)
    (hstep : ScanStep parser tree env files places next) : Faithful parser tree env files next := by
  cases hstep with
  | ends i file hfile hopen =>
    refine ⟨by rw [List.length_set, h.length], fun j other result hother hresult => ?_⟩
    rw [List.getElem?_set] at hresult
    by_cases hij : i = j
    · subst hij
      rw [hfile] at hother
      obtain rfl := Option.some.inj hother
      obtain ⟨hlt, -⟩ := List.getElem?_eq_some_iff.mp hopen
      simpa [hlt, eq_comm] using hresult
    · rw [if_neg hij] at hresult
      exact h.result j other result hother hresult

/-- **Whatever has been put in a place is what the scan of its file says.** -/
theorem faithful_of_reached {places : Places} (h : Reached parser tree env files places) :
    Faithful parser tree env files places := by
  induction h with
  | start => exact faithful_start
  | step places next _ hstep ih => exact faithful_step ih hstep

/-- The results in the places, in order. -/
def collected (places : Places) : List Scanned :=
  places.filterMap id

/-- **In the end the places hold the results in the order of the files.** -/
theorem collected_of_ended {places : Places} (h : Reached parser tree env files places)
    (hended : Ended places) : collected places = files.map (scanFile parser tree env) := by
  have hfaithful := faithful_of_reached h
  have hplaces : places = (files.map (scanFile parser tree env)).map some := by
    refine List.ext_getElem (by simp [hfaithful.length]) fun i hi hi' => ?_
    have hfile : i < files.length := hfaithful.length ▸ hi
    obtain ⟨result, hresult⟩ := Option.isSome_iff_exists.mp (hended _ (List.getElem_mem hi))
    have hget : places[i]? = some (some result) := by rw [List.getElem?_eq_getElem hi, hresult]
    rw [hresult, hfaithful.result i files[i] result (List.getElem?_eq_getElem hfile) hget]
    simp
  unfold collected
  rw [hplaces, List.filterMap_map]
  exact List.filterMap_some

/-- While not all scans have ended, another one can end. -/
theorem exists_step {places : Places} (h : Reached parser tree env files places)
    (hopen : ¬ Ended places) : ∃ next, ScanStep parser tree env files places next := by
  unfold Ended at hopen
  push Not at hopen
  obtain ⟨place, hmem, hnone⟩ := hopen
  obtain ⟨i, hi, rfl⟩ := List.getElem_of_mem hmem
  have hfile : i < files.length := (faithful_of_reached h).length ▸ hi
  have hget : places[i]? = some none := by
    rw [List.getElem?_eq_getElem hi]
    simpa using hnone
  exact ⟨_, .ends places i files[i] (List.getElem?_eq_getElem hfile) hget⟩

/-- Every step is the end of one scan. -/
theorem running_of_step {places next : Places}
    (hstep : ScanStep parser tree env files places next) :
    running next + 1 = running places := by
  cases hstep with
  | ends i file hfile hopen =>
    obtain ⟨hlt, hnone⟩ := List.getElem?_eq_some_iff.mp hopen
    have hpos : 0 < places.countP Option.isNone := by
      rw [List.countP_pos_iff]
      exact ⟨none, hnone ▸ List.getElem_mem hlt, rfl⟩
    unfold running
    rw [List.countP_set hlt, hnone]
    simp only [Option.isNone_none, Option.isNone_some, if_true, Bool.false_eq_true, if_false]
    omega

/-- **However far the scans are, they can all end.** -/
theorem exists_ended {places : Places} (h : Reached parser tree env files places) :
    ∃ last, Reached parser tree env files last ∧ Ended last := by
  induction hn : running places generalizing places with
  | zero =>
    refine ⟨places, h, fun place hmem => ?_⟩
    have hnone := List.countP_eq_zero.mp hn place hmem
    cases place with
    | none => exact absurd rfl hnone
    | some result => rfl
  | succ n ih =>
    by_cases hended : Ended places
    · exact ⟨places, h, hended⟩
    · obtain ⟨next, hstep⟩ := exists_step h hended
      have hfewer := running_of_step hstep
      exact ih (.step places next h hstep) (by omega)

end Scans

/-! ## 2. Sorting -/

/-- One list is another one sorted by the bytes of the names, equal names in the order in which they
    stood. -/
structure IsStableSort (original sorted : List Found) : Prop where
  perm : sorted.Perm original
  ordered : sorted.Pairwise fun x y => ByteOrder.bytes x.name ≤ ByteOrder.bytes y.name
  stable : ∀ name, sorted.filter (·.name = name) = original.filter (·.name = name)

/-- **Each category is sorted by the bytes of the names, and stably.** -/
theorem isStableSort_bucket (found : List (Category × Found)) (category : Category) :
    IsStableSort ((found.filter (·.1 = category)).map (·.2)) (bucket found category) := by
  let original := (found.filter (·.1 = category)).map (·.2)
  let le : Found → Found → Bool := fun x y => x.name ≤ y.name
  have htrans : ∀ x y z : Found, le x y → le y z → le x z := by
    intro x y z hxy hyz
    simp only [le, decide_eq_true_eq] at hxy hyz ⊢
    exact String.le_trans hxy hyz
  have htotal : ∀ x y : Found, le x y || le y x := by
    intro x y
    simp only [le, Bool.or_eq_true, decide_eq_true_eq]
    exact String.le_total x.name y.name
  have hperm : (original.mergeSort le).Perm original := List.mergeSort_perm original le
  refine ⟨hperm, ?_, fun name => ?_⟩
  · refine (List.pairwise_mergeSort htrans htotal original).imp fun {x y} h => ?_
    simp only [le, decide_eq_true_eq] at h
    exact ByteOrder.le_iff_bytes_le.mp h
  · -- The entries of one name are sorted as they stand, so sorting keeps them in this order.
    have hnames : ∀ x ∈ original.filter (·.name = name), x.name = name := by
      intro x hx
      simpa using (List.mem_filter.mp hx).2
    have hpairwise : (original.filter (·.name = name)).Pairwise fun x y => le x y = true := by
      refine List.pairwise_of_forall_mem_list fun x hx y hy => ?_
      simp only [le, decide_eq_true_eq, hnames x hx, hnames y hy]
      exact String.le_refl name
    have hsublist : (original.filter (·.name = name)).Sublist (original.mergeSort le) :=
      List.sublist_mergeSort htrans htotal hpairwise List.filter_sublist
    have hfilter := hsublist.filter (·.name = name)
    simp only [List.filter_filter, Bool.and_self] at hfilter
    exact (hfilter.eq_of_length (hperm.filter _).length_eq.symm).symm

/-! ## 3. The reference -/

section Reference

variable {parser : Parser} {host : Host} {tree : FileTree} {env : BuildEnv}

/-- Whether a file can be read and has a tree without errors. -/
def IsClean (parser : Parser) (tree : FileTree) (env : BuildEnv) (file : Path) : Prop :=
  ∃ source root, env.effectiveSource tree file = .ok source ∧ parser.parse source = .ok root ∧
    root.syntaxErrors = []

/-- The test functions that a file declares, in the order of the source, with their categories. -/
def declaredIn (parser : Parser) (tree : FileTree) (env : BuildEnv) (file : Path) :
    List (Category × Found) :=
  match env.effectiveSource tree file with
  | .error _ => []
  | .ok source =>
    match parser.parse source with
    | .error _ => []
    | .ok root => root.declarations.filterMap (classified file)

/-- The test functions of a category that several files declare, in the order of the files. -/
def declaredOf (parser : Parser) (tree : FileTree) (env : BuildEnv) (files : List Path)
    (category : Category) : List Found :=
  ((files.flatMap (declaredIn parser tree env)).filter (·.1 = category)).map (·.2)

/-- A clean file is scanned to what it declares. -/
theorem scanFile_of_isClean {file : Path} (h : IsClean parser tree env file) :
    scanFile parser tree env file = .ok (declaredIn parser tree env file) := by
  obtain ⟨source, root, hsource, hparse, hclean⟩ := h
  refine scanFile_eq_ok_iff.mpr ⟨source, root, hsource, hparse, hclean, ?_⟩
  unfold declaredIn
  simp only [hsource, hparse]

/-- **A file that is not clean fails**, and no other file does. -/
theorem exists_failsWith_iff {file : Path} :
    (∃ failure, FailsWith parser tree env file failure) ↔ ¬ IsClean parser tree env file := by
  simp only [← scanFile_eq_error_iff]
  constructor
  · intro h hclean
    obtain ⟨failure, hfailure⟩ := h
    rw [scanFile_of_isClean hclean] at hfailure
    cases hfailure
  · intro h
    cases hscan : scanFile parser tree env file with
    | error failure => exact ⟨failure, rfl⟩
    | ok found =>
      obtain ⟨source, root, hsource, hparse, hclean, -⟩ := scanFile_eq_ok_iff.mp hscan
      exact absurd ⟨source, root, hsource, hparse, hclean⟩ h

/-- Clean files are scanned to what they declare. -/
theorem scanFiles_of_isClean {files : List Path}
    (h : ∀ file ∈ files, IsClean parser tree env file) :
    scanFiles parser tree env files = .ok (files.flatMap (declaredIn parser tree env)) := by
  rw [scanFiles_eq_merge]
  refine merge_eq_ok_iff.mpr ⟨files.map (declaredIn parser tree env), ?_, List.flatMap_def⟩
  rw [List.map_map]
  exact List.map_congr_left fun file hfile => scanFile_of_isClean (h file hfile)

/-- Behind clean files the first one that fails decides. -/
theorem scanFiles_of_failsWith {before : List Path} {file : Path} {failure : Failure}
    (behind : List Path) (hbefore : ∀ earlier ∈ before, IsClean parser tree env earlier)
    (hfile : FailsWith parser tree env file failure) :
    scanFiles parser tree env (before ++ file :: behind) = .error failure := by
  rw [scanFiles_eq_merge, List.map_append, List.map_cons, scanFile_eq_error_iff.mpr hfile]
  refine merge_append_error _ fun result hresult => ?_
  obtain ⟨earlier, hearlier, rfl⟩ := List.mem_map.mp hresult
  exact ⟨_, scanFile_of_isClean (hbefore earlier hearlier)⟩

/-- Of files that are not all clean one is the first that is not. -/
theorem exists_first_not_isClean {files : List Path}
    (h : ¬ ∀ file ∈ files, IsClean parser tree env file) :
    ∃ before file behind, files = before ++ file :: behind ∧
      (∀ earlier ∈ before, IsClean parser tree env earlier) ∧ ¬ IsClean parser tree env file := by
  classical
  push Not at h
  obtain ⟨one, hone, hnot⟩ := h
  have hfind : (files.find? fun file => decide (¬ IsClean parser tree env file)).isSome = true := by
    rw [List.find?_isSome]
    exact ⟨one, hone, decide_eq_true hnot⟩
  obtain ⟨file, hfile⟩ := Option.isSome_iff_exists.mp hfind
  obtain ⟨hfails, before, behind, hfiles, hbefore⟩ := List.find?_eq_some_iff_append.mp hfile
  refine ⟨before, file, behind, hfiles, fun earlier hearlier => ?_, of_decide_eq_true hfails⟩
  simpa using hbefore earlier hearlier

/-- There is only one such file. -/
theorem eq_of_first_not_isClean {before behind before' behind' : List Path} {file file' : Path}
    (h : before ++ file :: behind = before' ++ file' :: behind')
    (hbefore : ∀ earlier ∈ before, IsClean parser tree env earlier)
    (hfile : ¬ IsClean parser tree env file)
    (hbefore' : ∀ earlier ∈ before', IsClean parser tree env earlier)
    (hfile' : ¬ IsClean parser tree env file') : file = file' := by
  classical
  have hfirst : (before ++ file :: behind).find?
      (fun file => decide (¬ IsClean parser tree env file)) = some file :=
    List.find?_eq_some_iff_append.mpr
      ⟨decide_eq_true hfile, before, behind, rfl, by simpa using hbefore⟩
  have hfirst' : (before' ++ file' :: behind').find?
      (fun file => decide (¬ IsClean parser tree env file)) = some file' :=
    List.find?_eq_some_iff_append.mpr
      ⟨decide_eq_true hfile', before', behind', rfl, by simpa using hbefore'⟩
  rw [h] at hfirst
  exact Option.some.inj (hfirst.symm.trans hfirst')

/-- The report that is put together from the places when all scans have ended. -/
def reportFrom (host : Host) (tree : FileTree) (env base : BuildEnv) (dir : Path)
    (package : Package) (places : Places) : Except Failure DiscoveryReport :=
  (merge (collected places)).map (reportOf host tree env base dir package)

/-- **Discovery loses, repeats and misfiles nothing, and its failure is that of the first file that
    fails**, whatever scan ends first: that the file cannot be read, that it has no tree, or the
    first error in its tree. -/
theorem discover_reference {dir : Path} {package : Package} (parser : Parser) (host : Host)
    (base : BuildEnv) (hpackage : Package.ofDirectory tree env dir = .ok package) :
    ((∃ places, Reached parser tree env (testPaths dir package) places ∧ Ended places) ∧
        ∀ places, Reached parser tree env (testPaths dir package) places → Ended places →
          reportFrom host tree env base dir package places =
            discover parser host tree env base dir) ∧
      ((∀ file ∈ testPaths dir package, IsClean parser tree env file) →
        ∃ report, discover parser host tree env base dir = .ok report ∧
          (∀ category, IsStableSort
            (declaredOf parser tree env (testPaths dir package) category)
            (report.bucketOf category)) ∧
          (report.difference.isSome = true ↔ package.testFiles ≠ [])) ∧
      ((¬ ∀ file ∈ testPaths dir package, IsClean parser tree env file) →
        ∃ before file failure behind, testPaths dir package = before ++ file :: behind ∧
          (∀ earlier ∈ before, IsClean parser tree env earlier) ∧
          FailsWith parser tree env file failure ∧
          discover parser host tree env base dir = .error failure) := by
  refine ⟨⟨exists_ended .start, fun places hreached hended => ?_⟩, fun hclean => ?_,
    fun hsome => ?_⟩
  · unfold reportFrom
    rw [collected_of_ended hreached hended, ← scanFiles_eq_merge,
      discover_of_ofDirectory hpackage]
  · refine ⟨_, by rw [discover_of_ofDirectory hpackage, scanFiles_of_isClean hclean]; rfl,
      fun category => ?_, ?_⟩
    · rw [bucketOf_reportOf]
      exact isStableSort_bucket _ category
    · unfold reportOf
      cases htests : package.testFiles <;> simp
  · obtain ⟨before, file, behind, hfiles, hbefore, hnot⟩ := exists_first_not_isClean hsome
    obtain ⟨failure, hfailure⟩ := exists_failsWith_iff.mpr hnot
    refine ⟨before, file, failure, behind, hfiles, hbefore, hfailure, ?_⟩
    rw [discover_of_ofDirectory hpackage, hfiles, scanFiles_of_failsWith behind hbefore hfailure]
    rfl

end Reference

/-- A source that ends before its function does. -/
def openTest : String := "package p\n\nfunc TestB() \x7b\n"

/-- Its tree, line ends left out, with a node for the brace that is missing. -/
def openTestTree : Node :=
  let label := (Node.cut openTest "\x7d" 25 25 none []).label
  let missing : Node := .mk { label with isMissing := true, hasError := true } []
  .cut openTest "source_file" 0 26 none
    [.packageClause openTest 0 "p", .functionWith openTest 11 25 "TestB" [missing]]

/-- A source that is not one of Go. -/
def strayTest : String := "package p\n\n)\n"

/-- Its tree, line ends left out. -/
def strayTestTree : Node :=
  .cut strayTest "source_file" 0 13 none
    [.packageClause strayTest 0 "p",
      .cut strayTest "ERROR" 11 12 none [.cut strayTest ")" 11 12 none []]]

/-- A clean file and two that are not. -/
def tornTree : FileTree :=
  sourcesTree [("a_test.go", plainTest), ("b_test.go", openTest), ("c_test.go", strayTest)]

/-- The package of the three files. -/
def tornPackage : Package :=
  ⟨"p", ⟨"/p"⟩, [], ["a_test.go", "b_test.go", "c_test.go"], [], []⟩

/-- A parser that knows their sources. -/
def tornParser : Parser :=
  .ofTable [(plainTest, plainTestTree), (openTest, openTestTree), (strayTest, strayTestTree)]

theorem ofDirectory_tornTree :
    Package.ofDirectory tornTree Package.hostEnv ⟨"/p"⟩ = .ok tornPackage := by
  have hresolve : tornTree.resolve ⟨"/p"⟩ = .ok ["p"] := by decide +kernel
  have hentry : tornTree.entry? ["p"] = some .directory := by decide +kernel
  have hfound : tornTree.filesAmong ⟨"/p"⟩ ["p"] (tornTree.metBelow ["p"]) =
      .ok ["a_test.go", "b_test.go", "c_test.go"] := by decide +kernel
  rw [Package.ofDirectory_of_sorted (by decide +kernel) hresolve hentry hfound rfl
    (by decide +kernel)]
  decide +kernel

/-- Two clean files give a report, and of three files the second one's error is told, though the
    third one has an error as well. -/
theorem discover_reference_twinTree :
    (∃ report, discover twinParser .built twinTree armEnv Package.hostEnv ⟨"/p"⟩ = .ok report ∧
        IsStableSort [⟨"TestB", ⟨"/p/a_test.go"⟩, 5, ""⟩, ⟨"TestA", ⟨"/p/a_test.go"⟩, 7, ""⟩,
          ⟨"TestA", ⟨"/p/b_test.go"⟩, 3, ""⟩] report.tests ∧
        report.difference.isSome = true) ∧
      discover tornParser .built tornTree Package.hostEnv Package.hostEnv ⟨"/p"⟩ =
        .error (.malformed ⟨"/p/b_test.go"⟩ ⟨3, 15, "missing \x7d"⟩) := by
  refine ⟨?_, ?_⟩
  · obtain ⟨-, hclean, -⟩ :=
      discover_reference twinParser .built Package.hostEnv ofDirectory_twinTree
    have hall : ∀ file ∈ testPaths ⟨"/p"⟩ twinPackage,
        IsClean twinParser twinTree armEnv file := by
      intro file hfile
      obtain ⟨part, hpart, -⟩ := exists_scanFile_of_scanFiles scanFiles_twinTree hfile
      obtain ⟨source, root, hsource, hparse, herrors, -⟩ := scanFile_eq_ok_iff.mp hpart
      exact ⟨source, root, hsource, hparse, herrors⟩
    obtain ⟨report, hreport, hsorted, hdifference⟩ := hclean hall
    have hdeclared : declaredOf twinParser twinTree armEnv (testPaths ⟨"/p"⟩ twinPackage) .test =
        [⟨"TestB", ⟨"/p/a_test.go"⟩, 5, ""⟩, ⟨"TestA", ⟨"/p/a_test.go"⟩, 7, ""⟩,
          ⟨"TestA", ⟨"/p/b_test.go"⟩, 3, ""⟩] := by decide +kernel
    have htests := hsorted .test
    rw [hdeclared] at htests
    exact ⟨report, hreport, htests, hdifference.mpr (by decide)⟩
  · obtain ⟨-, -, hfails⟩ :=
      discover_reference tornParser .built Package.hostEnv ofDirectory_tornTree
    have hopen : FailsWith tornParser tornTree Package.hostEnv ⟨"/p/b_test.go"⟩
        (.malformed ⟨"/p/b_test.go"⟩ ⟨3, 15, "missing \x7d"⟩) :=
      scanFile_eq_error_iff.mp (by decide +kernel)
    have hnot : ¬ IsClean tornParser tornTree Package.hostEnv ⟨"/p/b_test.go"⟩ :=
      exists_failsWith_iff.mp ⟨_, hopen⟩
    have hpaths : testPaths ⟨"/p"⟩ tornPackage =
        [⟨"/p/a_test.go"⟩, ⟨"/p/b_test.go"⟩, ⟨"/p/c_test.go"⟩] := by decide +kernel
    have hplain : IsClean tornParser tornTree Package.hostEnv ⟨"/p/a_test.go"⟩ :=
      ⟨plainTest, plainTestTree, by decide +kernel, Parser.parse_ofTable (by simp),
        by decide +kernel⟩
    rw [hpaths] at hfails
    obtain ⟨before, file, failure, behind, hfiles, hbefore, hfile, hdiscover⟩ :=
      hfails fun hall => hnot (hall _ (by decide))
    -- the file that decides is the second one, and it fails in one way only
    have hsecond : [⟨"/p/a_test.go"⟩] ++ ⟨"/p/b_test.go"⟩ :: [⟨"/p/c_test.go"⟩] =
        before ++ file :: behind := hfiles
    obtain rfl := eq_of_first_not_isClean hsecond (List.forall_mem_singleton.mpr hplain) hnot
      hbefore (exists_failsWith_iff.mp ⟨_, hfile⟩)
    rw [← scanFile_eq_error_iff] at hopen hfile
    rw [hdiscover, Except.error.inj (hfile.symm.trans hopen)]

end TestScout.Discovery
