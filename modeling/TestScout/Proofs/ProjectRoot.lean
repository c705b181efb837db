import TestScout.Proofs.FileTree.WellFormed

/-!
# Project roots

The search for the root of a project starts at the canonical form of a clean path, or at the clean
path where it denotes nothing, and goes up. Both are paths of names, so that what lies above the
start is what has fewer of its names. From a directory on the way the search starts at the directory
itself, unless a link leads away from it, and comes to the same end. Main statements:

* `exists_start`: where the search starts;
* `moduleRoot_cases`, `sourceRoot_eq_some_iff`: the nearest module, and the first source directory;
* `findFrom_eq_iff`: what the root of a project is;
* `RootOf.between`: it is the root from every place on the way too;
* `find_nearest_stable`: both together;
* `find_detourTree`: where the clean path denotes nothing, a link on the way leads elsewhere.
-/

namespace TestScout

open FileTree (pathOf)

namespace ProjectRoot

open TestScout.Path (Above)

variable {tree : FileTree} {env : BuildEnv} {location place : Location}

/-! ## 1. The nearest module -/

/-- A directory holds a module file. -/
def HoldsModule (tree : FileTree) (place : Location) : Prop :=
  tree.isFile ((pathOf place).child moduleFile) = true

/-- The deepest place on the way to a location that holds a module file. -/
structure IsNearest (tree : FileTree) (location place : Location) : Prop where
  above : place <+: location
  holds : HoldsModule tree place
  deepest : ∀ other, other <+: location → HoldsModule tree other → other <+: place

theorem IsNearest.unique {other : Location} (h : IsNearest tree location place)
    (h' : IsNearest tree location other) : place = other :=
  (h'.deepest place h.above h.holds).eq_of_length_le
    (h.deepest other h'.above h'.holds).length_le

/-- What lies above a path of names is found from its components. -/
theorem ancestors_pathOf (hplain : ∀ name ∈ location, PlainName name) :
    ancestors (pathOf location) = ascend (.root :: location.map .name).reverse := by
  unfold ancestors
  rw [Path.components_pathOf hplain]
  cases hreverse : (Component.root :: location.map .name).reverse with
  | nil => simp at hreverse
  | cons last above =>
    have hwhole : (last :: above).reverse = .root :: location.map .name := by
      rw [← hreverse, List.reverse_reverse]
    rw [ascend, List.drop_succ_cons, List.drop_zero, hwhole]
    rfl

/-- **Above a path stands what stands above the path without its last name.** -/
theorem ancestors_concat {name : String} (hplain : ∀ n ∈ location ++ [name], PlainName n) :
    ancestors (pathOf (location ++ [name])) =
      pathOf (location ++ [name]) :: ancestors (pathOf location) := by
  have hlocation : ∀ n ∈ location, PlainName n := fun n hn =>
    hplain n (List.mem_append_left _ hn)
  have hreverse : (Component.root :: (location ++ [name]).map .name).reverse =
      .name name :: (Component.root :: location.map .name).reverse := by simp
  have hwhole : (Component.name name :: (Component.root :: location.map .name).reverse).reverse =
      .root :: (location ++ [name]).map .name := by simp
  rw [ancestors_pathOf hplain, hreverse, ascend, hwhole, ancestors_pathOf hlocation]
  rfl

/-- **The module that is found is the nearest one**, and none is found only if there is none. -/
theorem moduleRoot_cases (tree : FileTree) (hplain : ∀ name ∈ location, PlainName name) :
    (∃ place, moduleRoot tree (pathOf location) = some (pathOf place) ∧
      IsNearest tree location place) ∨
    moduleRoot tree (pathOf location) = none ∧
      ∀ place, place <+: location → ¬ HoldsModule tree place := by
  induction location using List.reverseRecOn with
  | nil =>
    have hroot : ancestors (pathOf []) = [pathOf []] := by decide
    unfold moduleRoot
    rw [hroot]
    by_cases hholds : HoldsModule tree []
    · exact Or.inl ⟨[], by simp [show tree.isFile _ = true from hholds],
        List.prefix_rfl, hholds, fun other h _ => h⟩
    · refine Or.inr ⟨by simpa [HoldsModule] using hholds, fun place hplace => ?_⟩
      rwa [List.prefix_nil.mp hplace]
  | append_singleton above name ih =>
    have habove : ∀ n ∈ above, PlainName n := fun n hn => hplain n (List.mem_append_left _ hn)
    unfold moduleRoot
    rw [ancestors_concat hplain, List.find?_cons]
    by_cases hholds : HoldsModule tree (above ++ [name])
    · rw [show tree.isFile _ = true from hholds]
      exact Or.inl ⟨above ++ [name], rfl, List.prefix_rfl, hholds, fun other h _ => h⟩
    · rw [show tree.isFile _ = false from Bool.not_eq_true _ ▸ hholds]
      -- only the place itself is nearer than what is found above it
      rcases ih habove with ⟨place, hfound, hnearest⟩ | ⟨hnone, hnever⟩
      · refine Or.inl ⟨place, hfound, hnearest.above.trans (List.prefix_append _ _),
          hnearest.holds, fun other hother hmodule => ?_⟩
        rcases List.prefix_concat_iff.mp hother with rfl | hother
        · exact absurd hmodule hholds
        · exact hnearest.deepest other hother hmodule
      · refine Or.inr ⟨hnone, fun place hplace => ?_⟩
        rcases List.prefix_concat_iff.mp hplace with rfl | hplace
        · exact hholds
        · exact hnever place hplace

/-! ## 2. The first source directory -/

/-- The directories of sources outside modules, the toolchain's first. Empty ones do not count. -/
def sourceDirectories (env : BuildEnv) : List String :=
  (env.goroot :: (env.gopath.toList.splitOn ':').map String.ofList).filter (· ≠ "")

/-- The canonical `src` in such a directory. -/
def sourceOf (tree : FileTree) (directory : String) : Path :=
  tree.canonical (Path.child ⟨directory⟩ "src")

theorem map_sourceRoots (tree : FileTree) (env : BuildEnv) :
    (sourceRoots env).map tree.canonical = (sourceDirectories env).map (sourceOf tree) := by
  unfold sourceRoots sourceDirectories
  rw [List.map_map, List.filter_cons]
  by_cases hroot : env.goroot = ""
  · rw [if_pos hroot, if_neg (by simpa using hroot), List.nil_append]
    rfl
  · rw [if_neg hroot, if_pos (by simpa using hroot), List.singleton_append]
    rfl

/-- **The source directory that is found is the first one above the start.** -/
theorem sourceRoot_eq_some_iff {start root : Path} :
    sourceRoot tree env start = some root ↔ ∃ before directory after,
      sourceDirectories env = before ++ directory :: after ∧
        (∀ other ∈ before, ¬ (sourceOf tree other).Above start) ∧
        (sourceOf tree directory).Above start ∧ root = sourceOf tree directory := by
  unfold sourceRoot
  rw [map_sourceRoots, List.find?_map, Option.map_eq_some_iff]
  simp only [List.find?_eq_some_iff_append, Function.comp_apply, Path.startsWith_iff,
    Bool.not_eq_true', ← Bool.not_eq_true]
  constructor
  · intro h
    obtain ⟨directory, ⟨habove, before, after, hsplit, hbefore⟩, rfl⟩ := h
    exact ⟨before, directory, after, hsplit, hbefore, habove, rfl⟩
  · intro h
    obtain ⟨before, directory, after, hsplit, hbefore, habove, rfl⟩ := h
    exact ⟨directory, ⟨habove, before, after, hsplit, hbefore⟩, rfl⟩

theorem sourceRoot_eq_none_iff {start : Path} :
    sourceRoot tree env start = none ↔
      ∀ directory ∈ sourceDirectories env, ¬ (sourceOf tree directory).Above start := by
  unfold sourceRoot
  rw [map_sourceRoots, List.find?_eq_none]
  simp only [List.mem_map, forall_exists_index, and_imp, forall_apply_eq_imp_iff₂,
    Path.startsWith_iff]

/-! ## 3. The root of a project -/

/-- What the root of the project of a location is: the nearest module; where there is none, the
    first source directory above the location; and there is no root where there is neither. -/
inductive RootOf (tree : FileTree) (env : BuildEnv) (location : Location) :
    Except Failure Path → Prop where
  | module {place : Location} (nearest : IsNearest tree location place) :
      RootOf tree env location (.ok (pathOf place))
  | source {before after : List String} {directory : String}
      (noModule : ∀ place, place <+: location → ¬ HoldsModule tree place)
      (split : sourceDirectories env = before ++ directory :: after)
      (first : ∀ other ∈ before, ¬ (sourceOf tree other).Above (pathOf location))
      (above : (sourceOf tree directory).Above (pathOf location)) :
      RootOf tree env location (.ok (sourceOf tree directory))
  | none (noModule : ∀ place, place <+: location → ¬ HoldsModule tree place)
      (noSource : ∀ directory ∈ sourceDirectories env,
        ¬ (sourceOf tree directory).Above (pathOf location)) :
      RootOf tree env location (.error (.noProjectRoot (pathOf location)))

/-- The answer of a search that starts at a path. -/
def findFrom (tree : FileTree) (env : BuildEnv) (start : Path) : Except Failure Path :=
  match (moduleRoot tree start).or (sourceRoot tree env start) with
  | some root => .ok root
  | none => .error (.noProjectRoot start)

/-- **A search answers with the root of the project and with nothing else.** -/
theorem findFrom_eq_iff (hplain : ∀ name ∈ location, PlainName name)
    {answer : Except Failure Path} :
    findFrom tree env (pathOf location) = answer ↔ RootOf tree env location answer := by
  unfold findFrom
  rcases moduleRoot_cases tree hplain with ⟨place, hfound, hnearest⟩ | ⟨hnone, hnever⟩
  · rw [hfound]
    constructor
    · intro h
      rw [← h]
      exact .module hnearest
    · intro h
      cases h with
      | module nearest => rw [hnearest.unique nearest]; rfl
      | source noModule _ _ _ => exact absurd hnearest.holds (noModule place hnearest.above)
      | none noModule _ => exact absurd hnearest.holds (noModule place hnearest.above)
  · rw [hnone, Option.none_or]
    constructor
    · intro h
      cases hsource : sourceRoot tree env (pathOf location) with
      | none =>
        rw [hsource] at h
        rw [← h]
        exact .none hnever (sourceRoot_eq_none_iff.mp hsource)
      | some root =>
        rw [hsource] at h
        obtain ⟨before, directory, after, hsplit, hfirst, habove, rfl⟩ :=
          sourceRoot_eq_some_iff.mp hsource
        rw [← h]
        exact .source hnever hsplit hfirst habove
    · intro h
      cases h with
      | module nearest => exact absurd nearest.holds (hnever _ nearest.above)
      | source _ hsplit hfirst habove =>
        rw [sourceRoot_eq_some_iff.mpr ⟨_, _, _, hsplit, hfirst, habove, rfl⟩]
      | none _ hnoSource => rw [sourceRoot_eq_none_iff.mpr hnoSource]

/-- **The root of a project is the root of every place between it and where the search started.** -/
theorem RootOf.between {root : Path} (h : RootOf tree env location (.ok root))
    (hplain : ∀ name ∈ location, PlainName name) (hplace : place <+: location)
    (hroot : root.Above (pathOf place)) : RootOf tree env place (.ok root) := by
  have hplain' : ∀ name ∈ place, PlainName name := fun name hname =>
    hplain name (hplace.subset hname)
  have habove : (pathOf place).Above (pathOf location) :=
    (Path.above_pathOf_iff hplain hplain').mpr hplace
  cases h with
  | @module nearest hnearest =>
    have hnames : ∀ name ∈ nearest, PlainName name := fun name hname =>
      hplain name (hnearest.above.subset hname)
    exact .module ⟨(Path.above_pathOf_iff hplain' hnames).mp hroot, hnearest.holds,
      fun other hother => hnearest.deepest other (hother.trans hplace)⟩
  | source noModule split first _ =>
    exact .source (fun other hother => noModule other (hother.trans hplace)) split
      (fun other hother h => first other hother (List.IsPrefix.trans h habove)) hroot

/-- The root of a project is some path. -/
theorem RootOf.components_ne_nil {root : Path} (h : RootOf tree env location (.ok root)) :
    root.components ≠ [] := by
  cases h with
  | module nearest => exact Path.components_pathOf_ne_nil _
  | @source before after directory _ split _ _ =>
    have hdirectory : directory ≠ "" := by
      have hmem : directory ∈ sourceDirectories env := by
        rw [split]
        exact List.mem_append_right _ List.mem_cons_self
      simpa using (List.mem_filter.mp hmem).2
    have hchild : (Path.child ⟨directory⟩ "src").text ≠ "" :=
      Path.child_ne_empty hdirectory (by decide)
    unfold sourceOf FileTree.canonical
    cases tree.resolve (Path.child ⟨directory⟩ "src") with
    | ok place => exact Path.components_pathOf_ne_nil place
    | error cause => exact Path.components_ne_nil hchild

/-- The root of a project is the start of the search or lies above it. -/
theorem RootOf.above {root : Path} (h : RootOf tree env location (.ok root))
    (hplain : ∀ name ∈ location, PlainName name) : root.Above (pathOf location) := by
  cases h with
  | @module place nearest =>
    have hnames : ∀ name ∈ place, PlainName name := fun name hname =>
      hplain name (nearest.above.subset hname)
    exact (Path.above_pathOf_iff hplain hnames).mpr nearest.above
  | source _ _ _ above => exact above

/-! ## 4. Where the search starts -/

/-- The absolute clean form of a path. -/
def absoluteClean (tree : FileTree) (dir : Path) : Path :=
  (tree.currentPath.join dir).clean

/-- Where the search for the project of a directory starts. -/
def startOf (tree : FileTree) (dir : Path) : Path :=
  tree.canonical (absoluteClean tree dir)

theorem find_eq_findFrom {dir : Path} (hdir : dir.text ≠ "") :
    find tree env dir = findFrom tree env (startOf tree dir) := by
  have habsolute : Path.absolute? tree.currentPath dir = some (absoluteClean tree dir) :=
    if_neg hdir
  have hstart : startOf tree dir = tree.canonical (absoluteClean tree dir) := rfl
  cases hfound :
      (moduleRoot tree (startOf tree dir)).or (sourceRoot tree env (startOf tree dir)) with
  | some root => simp only [find, findFrom, habsolute, ← hstart, hfound]
  | none => simp only [find, findFrom, habsolute, ← hstart, hfound]

/-- What is seen from the current directory is absolute. -/
theorem isAbsolute_join_currentPath (tree : FileTree) (dir : Path) :
    (tree.currentPath.join dir).isAbsolute = true := by
  have hcurrent : tree.currentPath.isAbsolute = true := Path.isAbsolute_pathOf tree.current
  cases hdir : dir.isAbsolute with
  | true =>
    unfold Path.join
    rw [if_pos (Or.inl hdir)]
    exact hdir
  | false =>
    have hne : tree.currentPath.text ≠ "" :=
      Path.text_ne_empty (Path.components_pathOf_ne_nil tree.current)
    rw [(Path.pieces_join hne hdir).1]
    exact hcurrent

/-- **The search starts at a path of names**: at what the clean path denotes, or else at the clean
    path itself. -/
theorem exists_start (htree : tree.WellFormed) (hnames : tree.WellNamed) (dir : Path) :
    ∃ location : Location, (∀ name ∈ location, PlainName name) ∧
      startOf tree dir = pathOf location ∧
      ((tree.resolve (absoluteClean tree dir)).isOk = true → tree.Holds location) := by
  unfold startOf FileTree.canonical
  cases hresolve : tree.resolve (absoluteClean tree dir) with
  | ok location =>
    have hholds : tree.Holds location := htree.ends_of_locate (FileTree.locate_of_resolve hresolve)
    exact ⟨location, hnames.plain_of_holds hholds, rfl, fun _ => hholds⟩
  | error cause =>
    obtain ⟨location, hplain, hclean⟩ := Path.clean_eq_pathOf (isAbsolute_join_currentPath tree dir)
    exact ⟨location, hplain, hclean, fun hok => Bool.noConfusion hok⟩

/-- From a path of names that is its own canonical form the search starts there. -/
theorem startOf_of_components {path : Path} (hpath : path.components = .root :: place.map .name)
    (hself : tree.canonical path.clean = path.clean) : startOf tree path = pathOf place := by
  have habsolute : path.isAbsolute = true := (Path.filterMap_pieces_of_components hpath).1
  have hjoin : tree.currentPath.join path = path := if_pos (Or.inl habsolute)
  unfold startOf absoluteClean
  rw [hjoin, hself]
  exact Path.clean_of_components hpath

/-! ## 5. Roots are stable -/

section Between

variable {root between : Path} (hplain : ∀ name ∈ location, PlainName name)
  (hbelow : between.Above (pathOf location))

include hplain hbelow

/-- No link leads away from what lies above something that exists. -/
theorem canonical_clean_of_above (htree : tree.WellFormed) (hholds : tree.Holds location)
    (hne : between.components ≠ []) : tree.canonical between.clean = between.clean := by
  obtain ⟨place, hplace, hcomponents⟩ := hbelow.exists_place hplain hne
  rw [Path.clean_of_components hcomponents]
  exact htree.canonical_pathOf (fun name hname => hplain name (hplace.subset hname))
    (htree.holds_of_prefix hplace hholds)

/-- **From a place between the root and the start the search finds the root again**, if no link
    leads away from there. -/
theorem RootOf.find_between (h : RootOf tree env location (.ok root)) (habove : root.Above between)
    (hself : tree.canonical between.clean = between.clean) :
    find tree env between = .ok root := by
  have hne : between.components ≠ [] := habove.ne_nil h.components_ne_nil
  obtain ⟨place, hplace, hcomponents⟩ := hbelow.exists_place hplain hne
  have hplain' : ∀ name ∈ place, PlainName name := fun name hname =>
    hplain name (hplace.subset hname)
  have hroot : root.Above (pathOf place) := by
    unfold Above at habove ⊢
    rwa [Path.components_pathOf hplain', ← hcomponents]
  rw [find_eq_findFrom (Path.text_ne_empty hne), startOf_of_components hcomponents hself]
  exact (findFrom_eq_iff hplain').mpr (h.between hplain hplace hroot)

end Between

/-- **The root of a project is the nearest module, or else the first source directory, and it is the
    root of all that lies between it and the start of the search**, if no link leads away from
    there. Where the clean path denotes something, none does. -/
theorem find_nearest_stable (htree : tree.WellFormed) (hnames : tree.WellNamed) (env : BuildEnv)
    {dir : Path} (hdir : dir.text ≠ "") :
    ∃ location : Location, (∀ name ∈ location, PlainName name) ∧
      startOf tree dir = pathOf location ∧
      (∀ answer, find tree env dir = answer ↔ RootOf tree env location answer) ∧
      ∀ root, find tree env dir = .ok root →
        (∀ between : Path, root.Above between → between.Above (startOf tree dir) →
          tree.canonical between.clean = between.clean → find tree env between = .ok root) ∧
        ((tree.resolve (absoluteClean tree dir)).isOk = true →
          (∀ between : Path, root.Above between → between.Above (startOf tree dir) →
            find tree env between = .ok root) ∧
          find tree env root = .ok root) := by
  obtain ⟨location, hplain, hstart, hexists⟩ := exists_start htree hnames dir
  have hanswer (answer : Except Failure Path) :
      find tree env dir = answer ↔ RootOf tree env location answer := by
    rw [find_eq_findFrom hdir, hstart]
    exact findFrom_eq_iff hplain
  refine ⟨location, hplain, hstart, hanswer, fun root hfound => ?_⟩
  have hroot : RootOf tree env location (.ok root) := (hanswer _).mp hfound
  rw [hstart]
  refine ⟨fun between habove hbelow hself => hroot.find_between hplain hbelow habove hself,
    fun hok => ?_⟩
  have hbetween (between : Path) (habove : root.Above between)
      (hbelow : between.Above (pathOf location)) : find tree env between = .ok root :=
    hroot.find_between hplain hbelow habove (canonical_clean_of_above hplain hbelow htree
      (hexists hok) (habove.ne_nil hroot.components_ne_nil))
  exact ⟨hbetween, hbetween root (List.prefix_refl _) (hroot.above hplain)⟩

/-- Sources in a directory of their own, with a module among them, and a link to them. -/
def sourceTree : FileTree :=
  ⟨[(["home"], .directory),
    (["home", "src"], .directory),
    (["home", "src", "lib"], .directory),
    (["home", "src", "mod"], .directory),
    (["home", "src", "mod", "go.mod"], .file "module m\n".toUTF8),
    (["home", "src", "mod", "sub"], .directory),
    (["work"], .link ⟨"home/src"⟩)], ["home"]⟩

theorem wellFormed_sourceTree : sourceTree.WellFormed where
  distinct := by decide
  inside := by decide
  current := by decide

/-- An environment in which these sources come last, behind directories that do not exist. -/
def sourceEnv : BuildEnv :=
  { BuildEnv.ofVariables .built (fun _ => none) Settings.standard with
    goroot := "/go"
    gopath := ":/none:/work/.." }

/-- A module among the sources is a project of its own, and what is beside it is none. -/
theorem find_nearest_stable_sourceTree :
    (find sourceTree sourceEnv ⟨"/work/mod/sub"⟩ = .ok ⟨"/home/src/mod"⟩ ∧
      find sourceTree sourceEnv ⟨"/home/src/mod"⟩ = .ok ⟨"/home/src/mod"⟩) ∧
    find sourceTree sourceEnv ⟨"src/lib/."⟩ = .ok ⟨"/home/src"⟩ ∧
      ∀ between : Path, Above ⟨"/home/src"⟩ between → between.Above ⟨"/home/src/lib"⟩ →
        find sourceTree sourceEnv between = .ok ⟨"/home/src"⟩ := by
  have hnames : sourceTree.WellNamed := by decide +kernel
  have hmodule : find sourceTree sourceEnv ⟨"/work/mod/sub"⟩ = .ok ⟨"/home/src/mod"⟩ := by
    decide +kernel
  have hsource : find sourceTree sourceEnv ⟨"src/lib/."⟩ = .ok ⟨"/home/src"⟩ := by decide +kernel
  have hstart : startOf sourceTree ⟨"src/lib/."⟩ = ⟨"/home/src/lib"⟩ := by decide +kernel
  have hmoduleDir : (⟨"/work/mod/sub"⟩ : Path).text ≠ "" := by decide
  have hsourceDir : (⟨"src/lib/."⟩ : Path).text ≠ "" := by decide
  obtain ⟨-, -, -, -, hinModule⟩ :=
    find_nearest_stable wellFormed_sourceTree hnames sourceEnv hmoduleDir
  obtain ⟨-, -, -, -, hinSource⟩ :=
    find_nearest_stable wellFormed_sourceTree hnames sourceEnv hsourceDir
  rw [hstart] at hinSource
  exact ⟨⟨hmodule, ((hinModule _ hmodule).2 (by decide +kernel)).2⟩, hsource,
    ((hinSource _ hsource).2 (by decide +kernel)).1⟩

/-- A link `l` leads beside a directory `k/x`. Where the link stands there is another `k`: a link to
    a module, without an `x` in it. -/
def detourTree : FileTree :=
  ⟨[(["k"], .link ⟨"q"⟩),
    (["l"], .link ⟨"o/sub"⟩),
    (["o"], .directory),
    (["o", "k"], .directory),
    (["o", "k", "x"], .directory),
    (["o", "sub"], .directory),
    (["q"], .directory),
    (["q", "go.mod"], .file "module m\n".toUTF8)], []⟩

/-- **Where the clean path denotes nothing, the root that is found need not be its own.** The path
    denotes a directory, and its clean form, in which the link is gone, denotes none. So the search
    starts at the clean form and finds the link `/k` above it; from there it follows the link. -/
theorem find_detourTree :
    (detourTree.WellFormed ∧ detourTree.WellNamed) ∧
      detourTree.resolve ⟨"l/../k/x"⟩ = .ok ["o", "k", "x"] ∧
      detourTree.isDirectory ⟨"l/../k/x"⟩ = true ∧
      startOf detourTree ⟨"l/../k/x"⟩ = ⟨"/k/x"⟩ ∧
      find detourTree sourceEnv ⟨"l/../k/x"⟩ = .ok ⟨"/k"⟩ ∧
      detourTree.isDirectory ⟨"/k"⟩ = true ∧ Above ⟨"/k"⟩ ⟨"/k/x"⟩ ∧
      find detourTree sourceEnv ⟨"/k"⟩ = .ok ⟨"/q"⟩ :=
  ⟨⟨⟨by decide, by decide, by decide⟩, by decide +kernel⟩, by decide +kernel⟩

end ProjectRoot

end TestScout
