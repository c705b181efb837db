import TestScout.Proofs.FileTree.NewFile
import TestScout.Proofs.Package.Partition

/-!
# A source that is set aside

A hidden file, a file that is not built and a file that only documents do not belong to the package
of their directory. So a directory is read alike with such a file in it and without: two readings go
side by side, the second of which has set one more file aside, and neither the package nor the
failure they end in tells them apart. Main statements:

* `effectiveSource_withFile`: a new file does not change the sources of paths that keep clear of it;
* `SetAside`: a file that does not belong to the package of its directory;
* `AlsoRead`, `likewise_addSource`, `Kept.likewise_readAll`: two readings side by side;
* `ofDirectory_withFile`, `ofDirectory_withFile_error`: with one more file that is set aside the
  package is the same, but that it may list the file as ignored, and so is the failure.
-/

namespace TestScout

variable {tree : FileTree} {directory : Location} {name : String}

/-! ## 1. Sources in effect -/

/-- **A path that keeps clear of a new file gives the same source.** -/
theorem BuildEnv.effectiveSource_withFile (htree : tree.WellFormed)
    (h : tree.Vacant directory name) (k : Nat) (content : ByteArray) (env : BuildEnv) {path : Path}
    (hpath : tree.KeepsClear directory name path) :
    env.effectiveSource (tree.withFile k directory name content) path =
      env.effectiveSource tree path := by
  have hsame (other : Path) :
      sameFile (tree.withFile k directory name content) path other = sameFile tree path other := by
    unfold sameFile
    rw [FileTree.denoteSame_withFile htree h k content hpath]
  unfold effectiveSource Overlay.lookup Overlay.aliasContent? SourceText.read
  simp only [hsame, FileTree.stat_withFile htree h k content hpath]

namespace Package

theorem readHeader_withFile (htree : tree.WellFormed) (h : tree.Vacant directory name)
    (k : Nat) (content : ByteArray) (env : BuildEnv) {path : Path}
    (hpath : tree.KeepsClear directory name path) :
    readHeader (tree.withFile k directory name content) env path = readHeader tree env path := by
  unfold readHeader
  rw [BuildEnv.effectiveSource_withFile htree h k content env hpath]

/-! ## 2. Two readings side by side -/

/-- Two outcomes that are the same failure, or results of which something holds. -/
inductive Likewise {α β : Type} (holds : α → β → Prop) :
    Except Failure α → Except Failure β → Prop where
  | failed (failure : Failure) : Likewise holds (.error failure) (.error failure)
  | done {x : α} {y : β} (h : holds x y) : Likewise holds (.ok x) (.ok y)

theorem Likewise.imp {α β : Type} {holds also : α → β → Prop} {x : Except Failure α}
    {y : Except Failure β} (h : Likewise holds x y) (himp : ∀ a b, holds a b → also a b) :
    Likewise also x y := by
  cases h with
  | failed failure => exact .failed failure
  | done hholds => exact .done (himp _ _ hholds)

/-- The second package is the first one with one more file that is ignored. -/
def AlsoIgnores (name : String) (package other : Package) : Prop :=
  ∃ before after, package.ignored = before ++ after ∧
    other = { package with ignored := before ++ name :: after }

/-- The second reading is the first one, but that it has set one more file aside. -/
structure AlsoRead (name : String) (state other : Reading) : Prop where
  package : AlsoIgnores name state.package other.package
  namedBy : other.namedBy = state.namedBy
  sawSource : other.sawSource = true

variable {env : BuildEnv} {state other : Reading}

theorem alsoRead_ignore (state : Reading) (name : String) :
    AlsoRead name state { state.ignore name with sawSource := true } :=
  ⟨⟨state.package.ignored, [], (List.append_nil _).symm, rfl⟩, rfl, rfl⟩

theorem AlsoRead.ignore (h : AlsoRead name state other) (fileName : String) :
    AlsoRead name (state.ignore fileName) (other.ignore fileName) := by
  obtain ⟨⟨before, after, hignored, hpackage⟩, hnamed, hsaw⟩ := h
  refine ⟨⟨before, after ++ [fileName], ?_, ?_⟩, hnamed, hsaw⟩
  · simp [Reading.ignore, hignored]
  · simp [Reading.ignore, hpackage]

theorem AlsoRead.agree (h : AlsoRead name state other) (fileName declared : String) :
    Likewise (AlsoRead name) (state.agree fileName declared) (other.agree fileName declared) := by
  obtain ⟨⟨before, after, hignored, hpackage⟩, hnamed, hsaw⟩ := h
  unfold Reading.agree
  rw [hpackage, hnamed]
  dsimp only
  split
  · exact .done ⟨⟨before, after, hignored, rfl⟩, rfl, hsaw⟩
  · split
    · exact .failed _
    · exact .done ⟨⟨before, after, hignored, hpackage⟩, hnamed, hsaw⟩

theorem AlsoRead.addFile (h : AlsoRead name state other) (fileName : String) (isOuter : Bool) :
    AlsoRead name { state with package := state.package.addFile fileName isOuter }
      { other with package := other.package.addFile fileName isOuter } := by
  obtain ⟨⟨before, after, hignored, hpackage⟩, hnamed, hsaw⟩ := h
  refine ⟨?_, hnamed, hsaw⟩
  rw [hpackage]
  unfold Package.addFile
  split
  · exact ⟨before, after, hignored, rfl⟩
  · split
    · exact ⟨before, after, hignored, rfl⟩
    · exact ⟨before, after, hignored, rfl⟩

/-- **Both readings take one source alike.** -/
theorem likewise_addSource (h : AlsoRead name state other) (fileName : String) (header : Header) :
    Likewise (AlsoRead name) (Reading.addSource env state fileName header)
      (Reading.addSource env other fileName header) := by
  obtain ⟨before, after, -, hpackage⟩ := h.package
  have hname : other.package.name = state.package.name := by rw [hpackage]
  have hdir : other.package.dir = state.package.dir := by rw [hpackage]
  unfold Reading.addSource
  rw [hname, hdir]
  split
  · exact .done (h.ignore fileName)
  · split
    · exact .failed _
    · rename_i declared hdeclared
      split
      · exact .done (h.ignore fileName)
      · have hagree := h.agree fileName (roleOf state.package.name fileName declared).declared
        dsimp only
        generalize state.agree fileName _ = one at hagree ⊢
        generalize other.agree fileName _ = two at hagree ⊢
        cases hagree with
        | failed failure => exact .failed failure
        | done hnext => exact .done (hnext.addFile fileName _)

theorem readAll_append (tree : FileTree) (env : BuildEnv) (state : Reading)
    (before after : List String) :
    readAll tree env state (before ++ after) =
      match readAll tree env state before with
      | .error failure => .error failure
      | .ok middle => readAll tree env middle after := by
  induction before generalizing state with
  | nil => rfl
  | cons fileName rest ih =>
    rw [List.cons_append, readAll, readAll]
    split
    · exact ih state
    · cases readHeader tree env (state.package.dir.child fileName) with
      | error failure => rfl
      | ok header =>
        dsimp only
        cases Reading.addSource env { state with sawSource := true } fileName header with
        | error failure => rfl
        | ok next => exact ih next

/-- A relation between two readings of a directory that every source keeps. -/
structure Kept (env : BuildEnv) (holds : Reading → Reading → Prop) : Prop where
  dir : ∀ {state other}, holds state other → other.package.dir = state.package.dir
  addSource : ∀ {state other}, holds state other → ∀ fileName header,
    Likewise holds (Reading.addSource env { state with sawSource := true } fileName header)
      (Reading.addSource env { other with sawSource := true } fileName header)

theorem kept_eq : Kept env fun state other => other = state where
  dir := by
    rintro state other rfl
    rfl
  addSource := by
    rintro state other rfl fileName header
    cases Reading.addSource env { other with sawSource := true } fileName header with
    | error failure => exact .failed failure
    | ok next => exact .done rfl

theorem kept_alsoRead : Kept env (AlsoRead name) where
  dir := by
    rintro state other h
    obtain ⟨before, after, -, hpackage⟩ := h.package
    rw [hpackage]
  addSource := by
    intro state other h fileName header
    have hsaw : AlsoRead name { state with sawSource := true } { other with sawSource := true } :=
      ⟨h.package, h.namedBy, rfl⟩
    exact likewise_addSource hsaw fileName header

/-- **Both readings take several sources alike**, if these have the same headers in both trees. -/
theorem Kept.likewise_readAll {holds : Reading → Reading → Prop} (hkept : Kept env holds)
    {later : FileTree} {dir : Path} {names : List String}
    (hheaders : ∀ fileName ∈ names,
      readHeader later env (dir.child fileName) = readHeader tree env (dir.child fileName))
    (hdir : state.package.dir = dir) (h : holds state other) :
    Likewise holds (readAll tree env state names) (readAll later env other names) := by
  induction names generalizing state other with
  | nil => exact .done h
  | cons fileName rest ih =>
    have hrest : ∀ next ∈ rest,
        readHeader later env (dir.child next) = readHeader tree env (dir.child next) :=
      fun next hnext => hheaders next (List.mem_cons_of_mem _ hnext)
    rw [readAll, readAll, hkept.dir h, hdir, hheaders fileName List.mem_cons_self]
    split
    · exact ih hrest hdir h
    · cases readHeader tree env (dir.child fileName) with
      | error failure => exact .failed failure
      | ok header =>
        have hadd := hkept.addSource h fileName header
        dsimp only
        generalize hone : Reading.addSource env { state with sawSource := true } fileName header =
          one at hadd ⊢
        generalize Reading.addSource env { other with sawSource := true } fileName header =
          two at hadd ⊢
        cases hadd with
        | failed failure => exact .failed failure
        | done hnext => exact ih hrest ((extends_of_addSource hone).dir.trans hdir) hnext

/-! ## 3. One more file -/

/-- A file that does not belong to the package of its directory: it is hidden, or its header can be
    read and it is not built or only documents. -/
def SetAside (tree : FileTree) (env : BuildEnv) (dir : Path) (name : String) : Prop :=
  isHiddenName name = true ∨
    ∃ header, readHeader tree env (dir.child name) = .ok header ∧
      (env.matchesFile name header = false ∨ header.package = some documentationName)

instance (tree : FileTree) (env : BuildEnv) (dir : Path) (name : String) :
    Decidable (SetAside tree env dir name) :=
  decidable_of_iff (isHiddenName name = true ∨
    ∃ header ∈ (readHeader tree env (dir.child name)).toOption,
      env.matchesFile name header = false ∨ header.package = some documentationName) <| by
    unfold SetAside
    cases readHeader tree env (dir.child name) <;> simp [Except.toOption]

/-- Reading a file that is set aside. -/
theorem readAll_cons_of_setAside {dir : Path} (h : SetAside tree env dir name)
    (hdir : state.package.dir = dir) (rest : List String) :
    ∃ next, (next = state ∨ AlsoRead name state next) ∧
      readAll tree env state (name :: rest) = readAll tree env next rest := by
  rw [readAll, hdir]
  rcases h with hhidden | ⟨header, hheader, hreason⟩
  · exact ⟨state, Or.inl rfl, by rw [if_pos hhidden]⟩
  · cases hhidden : isHiddenName name with
    | true => exact ⟨state, Or.inl rfl, rfl⟩
    | false =>
      have hadd : Reading.addSource env { state with sawSource := true } name header =
          .ok ({ state with sawSource := true }.ignore name) := by
        unfold Reading.addSource
        rcases hreason with hexcluded | hdocumentation
        · rw [hexcluded]
          rfl
        · simp [hdocumentation]
      refine ⟨_, Or.inr (alsoRead_ignore state name), ?_⟩
      rw [if_neg (by decide), hheader]
      simp only [hadd]
      rfl

/-- **A directory is read alike** with a file that is set aside and without. -/
theorem likewise_readAll_insert {later : FileTree} {dir : Path} {before after : List String}
    (haside : SetAside later env dir name)
    (hheaders : ∀ fileName ∈ before ++ after,
      readHeader later env (dir.child fileName) = readHeader tree env (dir.child fileName)) :
    Likewise (fun state other => other = state ∨ AlsoRead name state other)
      (readAll tree env (.start dir) (before ++ after))
      (readAll later env (.start dir) (before ++ name :: after)) := by
  have hbefore : Likewise (fun state other => other = state)
      (readAll tree env (.start dir) before) (readAll later env (.start dir) before) :=
    kept_eq.likewise_readAll
      (fun fileName hmem => hheaders fileName (List.mem_append_left _ hmem)) rfl rfl
  have hafter : ∀ fileName ∈ after,
      readHeader later env (dir.child fileName) = readHeader tree env (dir.child fileName) :=
    fun fileName hmem => hheaders fileName (List.mem_append_right _ hmem)
  rw [readAll_append, readAll_append]
  generalize hmiddle : readAll tree env (.start dir) before = one at hbefore ⊢
  generalize readAll later env (.start dir) before = two at hbefore ⊢
  cases hbefore with
  | failed failure => exact .failed failure
  | done hsame =>
    subst hsame
    have hdir := (extends_of_readAll hmiddle).dir
    obtain ⟨next, hnext, hread⟩ := readAll_cons_of_setAside haside hdir after
    dsimp only
    rw [hread]
    rcases hnext with rfl | hnext
    · exact (kept_eq.likewise_readAll hafter hdir rfl).imp fun _ _ => Or.inl
    · exact (kept_alsoRead.likewise_readAll hafter hdir hnext).imp fun _ _ => Or.inr

/-- The package, or the failure, that two such readings end in. -/
theorem finish_of_related (h : other = state ∨ AlsoRead name state other) :
    (∀ package, state.finish = .ok package →
      ∃ later, other.finish = .ok later ∧
        (later = package ∨ AlsoIgnores name package later)) ∧
      ∀ failure, state.finish = .error failure →
        failure ≠ .importing (.noSources state.package.dir) → other.finish = .error failure := by
  rcases h with rfl | h
  · exact ⟨fun package hpackage => ⟨package, hpackage, Or.inl rfl⟩, fun _ hfailure _ => hfailure⟩
  · obtain ⟨before, after, hignored, hpackage⟩ := h.package
    have hname : other.package.name = state.package.name := by rw [hpackage]
    have hdir : other.package.dir = state.package.dir := by rw [hpackage]
    have hsome : other.package.ignored ≠ [] := by
      rw [hpackage]
      simp
    unfold Reading.finish
    rw [hname, hdir]
    by_cases hnamed : state.package.name = ""
    · refine ⟨fun package hok => ?_, fun failure hfailure hother => ?_⟩
      · rw [if_neg (not_not.mpr hnamed)] at hok
        split at hok <;> cases hok
      · rw [if_neg (not_not.mpr hnamed)] at hfailure ⊢
        rw [if_pos ⟨h.sawSource, hsome⟩]
        split at hfailure
        · exact hfailure
        · exact absurd (Except.error.inj hfailure).symm hother
    · refine ⟨fun package hok => ?_, fun failure hfailure => ?_⟩
      · rw [if_pos hnamed] at hok ⊢
        obtain rfl := Except.ok.inj hok
        exact ⟨other.package, rfl, Or.inr h.package⟩
      · rw [if_pos hnamed] at hfailure
        cases hfailure

/-! ## 4. Packages -/

section Directory

variable (htree : tree.WellFormed) (hnames : tree.WellNamed) (h : tree.Vacant directory name)
  {dir : Path} (hdir : tree.resolve dir = .ok directory)
  (hextension : Path.extension name = some "go") {k : Nat} {content : ByteArray}
  (haside : SetAside (tree.withFile k directory name content) env dir name)

include htree hnames h hdir hextension haside

/-- A directory that can be listed, with one more file. -/
theorem likewise_of_listFiles {names : List String} (hinput : dir.isStandardInput = false)
    (hlist : tree.listFiles dir (some "go") = .ok names) :
    ∃ later, (tree.withFile k directory name content).listFiles dir (some "go") = .ok later ∧
      Likewise (fun state other => other = state ∨ AlsoRead name state other)
        (readAll tree env (.start dir) names)
        (readAll (tree.withFile k directory name content) env (.start dir) later) := by
  obtain ⟨before, after, rfl, hlater⟩ :=
    FileTree.listFiles_withFile h hdir htree hinput hextension hlist k content
  refine ⟨_, hlater, likewise_readAll_insert haside fun fileName hmem => ?_⟩
  exact readHeader_withFile htree h k content env
    (FileTree.keepsClear_of_listFiles h hdir hnames hlist hmem)

/-- **The package is the same**, but that it may list the new file as ignored. -/
theorem ofDirectory_withFile {package : Package}
    (hpackage : ofDirectory tree env dir = .ok package) :
    ∃ later, ofDirectory (tree.withFile k directory name content) env dir = .ok later ∧
      (later = package ∨ AlsoIgnores name package later) := by
  have hinput := isStandardInput_of_ofDirectory hpackage
  rw [ofDirectory_of_resolve hdir h.isDirectory] at hpackage
  rw [ofDirectory_of_resolve (FileTree.resolve_withFile h k content hdir)
    (FileTree.entry?_withFile_of_some h k content h.isDirectory)]
  cases hlist : tree.listFiles dir (some "go") with
  | error cause => simp [hlist] at hpackage
  | ok names =>
    obtain ⟨later, hlater, hread⟩ :=
      likewise_of_listFiles htree hnames h hdir hextension haside hinput hlist
    rw [hlist] at hpackage
    rw [hlater]
    dsimp only at hpackage ⊢
    generalize readAll tree env (.start dir) names = one at hread hpackage
    generalize readAll (tree.withFile k directory name content) env (.start dir) later = two
      at hread ⊢
    cases hread with
    | failed failure => cases hpackage
    | done hlast => exact (finish_of_related hlast).1 package hpackage

/-- **The failure is the same**, where the directory has sources and an entry that it cannot be
    listed for keeps clear of the new file. -/
theorem ofDirectory_withFile_error {failure : Failure}
    (hfailure : ofDirectory tree env dir = .error failure)
    (hsources : failure ≠ .importing (.noSources dir))
    (hclear : ∀ cause met, failure = .unlistable dir cause →
      tree.stumble? dir directory (tree.metBelow directory) = some met →
        tree.MetKeepsClear directory name dir met) :
    ofDirectory (tree.withFile k directory name content) env dir = .error failure := by
  have hinput : dir.isStandardInput = false := by
    refine Bool.eq_false_iff.mpr fun hinput => hsources ?_
    rw [ofDirectory_of_isStandardInput hinput
      (FileTree.isDirectory_iff.mpr ⟨directory, hdir, h.isDirectory⟩)] at hfailure
    exact (Except.error.inj hfailure).symm
  rw [ofDirectory_of_resolve hdir h.isDirectory] at hfailure
  rw [ofDirectory_of_resolve (FileTree.resolve_withFile h k content hdir)
    (FileTree.entry?_withFile_of_some h k content h.isDirectory)]
  cases hlist : tree.listFiles dir (some "go") with
  | error cause =>
    rw [hlist] at hfailure
    obtain rfl : Failure.unlistable dir cause = failure := Except.error.inj hfailure
    rw [FileTree.listFiles_withFile_error h hdir htree hinput hlist
      fun met => hclear cause met rfl]
  | ok names =>
    obtain ⟨later, hlater, hread⟩ :=
      likewise_of_listFiles htree hnames h hdir hextension haside hinput hlist
    rw [hlist] at hfailure
    rw [hlater]
    dsimp only at hfailure ⊢
    generalize hone : readAll tree env (.start dir) names = one at hread hfailure
    generalize readAll (tree.withFile k directory name content) env (.start dir) later = two
      at hread ⊢
    cases hread with
    | failed failure => exact hfailure
    | done hlast =>
      refine (finish_of_related hlast).2 failure hfailure ?_
      rw [(extends_of_readAll hone).dir]
      exact hsources

end Directory

end Package

end TestScout
