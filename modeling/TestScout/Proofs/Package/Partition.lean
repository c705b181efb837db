import TestScout.Proofs.FileTree.Regular
import TestScout.Proofs.Package.Agreement

/-!
# A package's lists share the sources of its directory

Every source of a directory that is not hidden is read once and put behind one of the four lists of
the package. The reading keeps a log of these decisions in the order of the listing; each list is
the part of the log that has its place, so order, disjointness and completeness are facts about the
log. Main statements:

* `Place`, `listAt`: the four lists by one index;
* `Logged`, `logged_of_addSource`, `exists_log_of_readAll`: a package comes from a log;
* `partition_of_ofDirectory`: what the lists of a package hold.
-/

namespace TestScout.Package

variable {tree : FileTree} {env : BuildEnv}

/-! ## 1. Places -/

/-- A list of a package. -/
inductive Place where
  | source
  | test
  | outerTest
  | ignored
deriving DecidableEq

/-- The files of a package at a place. -/
def listAt (package : Package) : Place → List String
  | .source => package.sources
  | .test => package.tests
  | .outerTest => package.outerTests
  | .ignored => package.ignored

/-- The place of a built source. -/
def placeOf (fileName : String) (role : Role) : Place :=
  if role.isOuter then .outerTest else if isTestName fileName then .test else .source

theorem listAt_withSource (package : Package) (fileName : String) (role : Role) (place : Place) :
    (package.withSource fileName role).listAt place =
      if placeOf fileName role = place then package.listAt place ++ [fileName]
      else package.listAt place := by
  unfold withSource addFile placeOf
  cases role.isOuter <;> cases isTestName fileName <;> cases place <;> rfl

theorem listAt_ignore (state : Reading) (fileName : String) (place : Place) :
    (state.ignore fileName).package.listAt place =
      if Place.ignored = place then state.package.listAt place ++ [fileName]
      else state.package.listAt place := by
  cases place <;> rfl

theorem isTestName_iff {fileName : String} :
    isTestName fileName = true ↔ "_test.go".toList <:+ fileName.toList :=
  List.isSuffixOf_iff_suffix

/-- The reasons for the place of a file: what the environment does not build and what only
    documents is set aside, and of the rest the files that are no tests are the library. -/
def Belongs (tree : FileTree) (env : BuildEnv) (dir : Path) (fileName : String) (place : Place) :
    Prop :=
  ∃ header, readHeader tree env (dir.child fileName) = .ok header ∧
    (place = .ignored ↔
      env.matchesFile fileName header = false ∨ header.package = some "documentation") ∧
    (place ≠ .ignored → (place = .source ↔ ¬ "_test.go".toList <:+ fileName.toList))

theorem belongs_ignored {dir : Path} {fileName : String} {header : Header}
    (hheader : readHeader tree env (dir.child fileName) = .ok header)
    (hreason : env.matchesFile fileName header = false ∨
      header.package = some documentationName) : Belongs tree env dir fileName .ignored :=
  ⟨header, hheader, ⟨fun _ => hreason, fun _ => rfl⟩, fun hne => absurd rfl hne⟩

theorem belongs_placeOf {dir : Path} {fileName declared : String} {header : Header}
    (known : String) (hheader : readHeader tree env (dir.child fileName) = .ok header)
    (hmatches : env.matchesFile fileName header = true)
    (hdeclared : header.package = some declared) (hdoc : declared ≠ documentationName) :
    Belongs tree env dir fileName (placeOf fileName (roleOf known fileName declared)) := by
  have houter : (roleOf known fileName declared).isOuter = true → isTestName fileName = true :=
    isTestName_of_isOuter
  refine ⟨header, hheader, ⟨fun hplace => ?_, ?_⟩, fun _ => ?_⟩
  · unfold placeOf at hplace
    split at hplace
    · cases hplace
    · split at hplace <;> cases hplace
  · rintro (hnot | hdocuments)
    · rw [hmatches] at hnot
      cases hnot
    · rw [hdeclared] at hdocuments
      exact absurd (Option.some.inj hdocuments) hdoc
  · rw [← isTestName_iff]
    unfold placeOf
    cases hrole : (roleOf known fileName declared).isOuter with
    | true => simp [houter hrole]
    | false => cases isTestName fileName <;> simp

/-! ## 2. The log -/

/-- A package comes from a log of decisions: each of its lists is the part of the log with its
    place, and every decision has its reason. -/
structure Logged (tree : FileTree) (env : BuildEnv) (log : List (String × Place))
    (package : Package) : Prop where
  lists : ∀ place, package.listAt place = (log.filter (·.2 = place)).map (·.1)
  reasons : ∀ entry ∈ log, Belongs tree env package.dir entry.1 entry.2

theorem logged_start (dir : Path) : Logged tree env [] (Reading.start dir).package where
  lists place := by cases place <;> rfl
  reasons := by simp

/-- One decision more. -/
theorem Logged.concat {log : List (String × Place)} {package next : Package} {fileName : String}
    {place : Place} (h : Logged tree env log package) (hdir : next.dir = package.dir)
    (hlists : ∀ other, next.listAt other =
      if place = other then package.listAt other ++ [fileName] else package.listAt other)
    (hreason : Belongs tree env package.dir fileName place) :
    Logged tree env (log ++ [(fileName, place)]) next where
  lists other := by
    rw [hlists, h.lists, List.filter_append, List.map_append]
    by_cases hother : place = other
    · simp [hother]
    · simp [hother]
  reasons entry hmem := by
    rw [hdir]
    rcases List.mem_append.mp hmem with hmem | hmem
    · exact h.reasons entry hmem
    · rw [List.mem_singleton.mp hmem]
      exact hreason

/-- **Reading one source adds one decision to the log.** -/
theorem logged_of_addSource {log : List (String × Place)} {state next : Reading}
    {fileName : String} {header : Header}
    (hnext : Reading.addSource env state fileName header = .ok next)
    (hheader : readHeader tree env (state.package.dir.child fileName) = .ok header)
    (h : Logged tree env log state.package) :
    ∃ place, Logged tree env (log ++ [(fileName, place)]) next.package := by
  have hdir : next.package.dir = state.package.dir := (extends_of_addSource hnext).dir
  rcases addSource_eq_ok hnext with ⟨hreason, rfl⟩ |
    ⟨hmatches, declared, hdeclared, hdoc, -, hpackage, -⟩
  · exact ⟨_, h.concat hdir (listAt_ignore state fileName) (belongs_ignored hheader hreason)⟩
  · have hreason := belongs_placeOf state.package.name hheader hmatches hdeclared hdoc
    refine ⟨_, h.concat hdir (fun place => ?_) hreason⟩
    rw [hpackage]
    exact listAt_withSource _ _ _ place

/-- **Reading a directory logs one decision for each source that is not hidden**, in the order of
    the listing. -/
theorem exists_log_of_readAll {log : List (String × Place)} {state last : Reading}
    {names : List String} (hread : readAll tree env state names = .ok last)
    (h : Logged tree env log state.package) :
    ∃ more, more.map (·.1) = names.filter (!isHiddenName ·) ∧
      Logged tree env (log ++ more) last.package := by
  induction names generalizing log state with
  | nil =>
    obtain rfl := Except.ok.inj hread
    exact ⟨[], rfl, by rwa [List.append_nil]⟩
  | cons fileName rest ih =>
    rcases readAll_cons_eq_ok hread with ⟨hhidden, hrest⟩ |
      ⟨hhidden, header, next, hheader, hnext, hrest⟩
    · obtain ⟨more, hmore, hlogged⟩ := ih hrest h
      exact ⟨more, by simpa [hhidden] using hmore, hlogged⟩
    · obtain ⟨place, hone⟩ := logged_of_addSource hnext hheader h
      obtain ⟨more, hmore, hlogged⟩ := ih hrest hone
      refine ⟨(fileName, place) :: more, by simpa [hhidden] using hmore, ?_⟩
      rwa [List.append_assoc] at hlogged

theorem Logged.mem_listAt_iff {log : List (String × Place)} {package : Package}
    (h : Logged tree env log package) {name : String} {place : Place} :
    name ∈ package.listAt place ↔ (name, place) ∈ log := by
  rw [h.lists, List.mem_map]
  constructor
  · rintro ⟨entry, hmem, rfl⟩
    obtain ⟨hentry, hplace⟩ := List.mem_filter.mp hmem
    rwa [← of_decide_eq_true hplace]
  · intro hmem
    exact ⟨(name, place), List.mem_filter.mpr ⟨hmem, by simp⟩, rfl⟩

theorem Logged.sublist_listAt {log : List (String × Place)} {package : Package}
    (h : Logged tree env log package) (place : Place) :
    (package.listAt place).Sublist (log.map (·.1)) := by
  rw [h.lists]
  exact List.filter_sublist.map _

/-! ## 3. Packages -/

/-- The lists of a package are strictly in the order of the bytes, share no file, and hold the
    sources of the directory that are not hidden, each for its reason. -/
structure Partition (tree : FileTree) (env : BuildEnv) (dir : Path) (package : Package) : Prop where
  ascending : ∀ place,
    (package.listAt place).Pairwise fun x y => ByteOrder.bytes x < ByteOrder.bytes y
  disjoint : ∀ name place other,
    name ∈ package.listAt place → name ∈ package.listAt other → place = other
  covers : ∀ name, (∃ place, name ∈ package.listAt place) ↔
    tree.HoldsFile dir name ∧ Path.extension name = some "go" ∧
      name.toList.head? ≠ some '_' ∧ name.toList.head? ≠ some '.'
  belongs : ∀ place, ∀ name ∈ package.listAt place, Belongs tree env dir name place

theorem isHiddenName_eq_false_iff {name : String} : isHiddenName name = false ↔
    name.toList.head? ≠ some '_' ∧ name.toList.head? ≠ some '.' := by
  unfold isHiddenName
  simp

/-- **The lists of a package share the sources of its directory.** -/
theorem partition_of_ofDirectory (htree : tree.WellFormed) {dir : Path} {package : Package}
    (h : ofDirectory tree env dir = .ok package) : Partition tree env dir package := by
  have hinput := isStandardInput_of_ofDirectory h
  obtain ⟨hdir, -, names, last, hnames, hread, rfl⟩ := ofDirectory_eq_ok h
  obtain ⟨log, hlog, hlogged⟩ := exists_log_of_readAll hread (logged_start dir)
  rw [List.nil_append] at hlogged
  have hascending : (log.map (·.1)).Pairwise fun x y =>
      ByteOrder.bytes x < ByteOrder.bytes y := by
    rw [hlog]
    exact (FileTree.ascending_listFiles htree hinput hdir hnames).sublist List.filter_sublist
  have hdistinct : (log.map (·.1)).Nodup := by
    refine hascending.imp ?_
    rintro name _ hlt rfl
    exact List.lt_irrefl _ hlt
  refine ⟨fun place => hascending.sublist (hlogged.sublist_listAt place), ?_, fun name => ?_, ?_⟩
  · intro name place other hplace hother
    have hsame := List.inj_on_of_nodup_map hdistinct (hlogged.mem_listAt_iff.mp hplace)
      (hlogged.mem_listAt_iff.mp hother) rfl
    exact congrArg Prod.snd hsame
  · have hsomewhere : (∃ place, name ∈ last.package.listAt place) ↔ name ∈ log.map (·.1) := by
      simp only [hlogged.mem_listAt_iff, List.mem_map, Prod.exists, exists_and_right,
        exists_eq_right]
    rw [hsomewhere, hlog, List.mem_filter, FileTree.mem_listFiles_iff htree hinput hdir hnames,
      Bool.not_eq_true', isHiddenName_eq_false_iff, and_assoc]
  · intro place name hmem
    have hreason := hlogged.reasons _ (hlogged.mem_listAt_iff.mp hmem)
    rwa [(extends_of_readAll hread).dir] at hreason

theorem wellFormed_mixedTree : mixedTree.WellFormed where
  distinct := by decide
  inside := by decide
  current := by decide

theorem partition_of_ofDirectory_mixedTree :
    mixedTree.WellFormed ∧ ofDirectory mixedTree hostEnv ⟨"/lib"⟩ = .ok mixedPackage ∧
      Partition mixedTree hostEnv ⟨"/lib"⟩ mixedPackage :=
  ⟨wellFormed_mixedTree, ofDirectory_mixedTree,
    partition_of_ofDirectory wellFormed_mixedTree ofDirectory_mixedTree⟩

end TestScout.Package
