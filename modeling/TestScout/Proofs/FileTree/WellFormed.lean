import Mathlib.Data.List.Induction
import Mathlib.Data.List.Nodup
import TestScout.Proofs.FileTree.Contents

/-!
# Well-formed trees

A tree is a list of entries, which could hold a location twice, or one below a file. The trees of
real files do neither. Where they are walked, a walk ends at a link only if it was to create one;
and they stay so under everything that changes a tree. Main statements:

* `WellFormed`: a tree has each location once, and in a directory;
* `Holds`, `WellFormed.holds_of_prefix`: what exists, and the directories on the way to it;
* `WellFormed.spot_of_locate`, `WellFormed.canonical_pathOf`: a path with the names of something
  that exists leads there;
* `Ends`, `WellFormed.ends_of_locate`: where a path may lead;
* `WellFormed.ne_link_of_resolve`: what a path denotes is no link;
* `WellFormed.put`, `WellFormed.write`, `WellFormed.createDirectories`: changes keep a tree
  well-formed.
-/

namespace TestScout.FileTree

/-- Each location stands once in the tree and lies in a directory, and the current one is a
    directory. -/
structure WellFormed (tree : FileTree) : Prop where
  distinct : tree.locations.Nodup
  inside : ∀ location ∈ tree.locations, tree.entry? location.dropLast = some .directory
  current : tree.entry? tree.current = some .directory

variable {tree : FileTree}

theorem entry?_root (tree : FileTree) : tree.entry? [] = some .directory :=
  if_pos rfl

/-- What stands in the tree lies in a directory. -/
theorem WellFormed.entry?_dropLast (htree : tree.WellFormed) {location : Location} {entry : Entry}
    (h : tree.entry? location = some entry) :
    tree.entry? location.dropLast = some .directory := by
  by_cases hroot : location = []
  · rw [hroot]
    exact tree.entry?_root
  · exact htree.inside _ (mem_locations hroot h)

/-! ## 1. What exists -/

/-- What lies below something lies below a directory. -/
theorem WellFormed.entry?_of_append (htree : tree.WellFormed) {above below : Location}
    {entry : Entry} (hbelow : below ≠ []) (h : tree.entry? (above ++ below) = some entry) :
    tree.entry? above = some .directory := by
  induction below using List.reverseRecOn generalizing entry with
  | nil => exact absurd rfl hbelow
  | append_singleton front last ih =>
    have hparent := htree.entry?_dropLast h
    rw [← List.append_assoc, List.dropLast_concat] at hparent
    by_cases hfront : front = []
    · rwa [hfront, List.append_nil] at hparent
    · exact ih hfront hparent

/-- Something exists in the tree that is no link. -/
def Holds (tree : FileTree) (location : Location) : Prop :=
  ∃ entry, tree.entry? location = some entry ∧ ∀ target, entry ≠ .link target

theorem WellFormed.holds_of_prefix (htree : tree.WellFormed) {above location : Location}
    (hfront : above <+: location) (h : tree.Holds location) : tree.Holds above := by
  obtain ⟨below, rfl⟩ := hfront
  obtain ⟨entry, hentry, hlink⟩ := h
  by_cases hbelow : below = []
  · rw [hbelow, List.append_nil] at hentry
    exact ⟨entry, hentry, hlink⟩
  · refine ⟨.directory, htree.entry?_of_append hbelow hentry, fun target hdirectory => ?_⟩
    cases hdirectory

/-- The names on the way to something that exists are plain. -/
theorem WellNamed.plain_of_holds (hnames : tree.WellNamed) {location : Location}
    (h : tree.Holds location) : ∀ n ∈ location, PlainName n := by
  intro n hn
  obtain ⟨entry, hentry, -⟩ := h
  exact hnames _ (mem_locations (List.ne_nil_of_mem hn) hentry) n hn

/-- What a piece of a path asks for, and which component it is. -/
theorem stepOf_cases (piece : List Char) :
    stepOf piece = .stay ∧ Path.innerComponent piece = none ∨
      stepOf piece = .up ∧ Path.innerComponent piece = some .up ∨
      ∃ name, stepOf piece = .into name ∧ Path.innerComponent piece = some (.name name) := by
  unfold stepOf Path.innerComponent
  split
  · exact Or.inl ⟨rfl, rfl⟩
  · split
    · exact Or.inr (Or.inl ⟨rfl, rfl⟩)
    · exact Or.inr (Or.inr ⟨_, rfl, rfl⟩)

/-- A walk by the names of something that exists ends there, if it ends anywhere. -/
theorem WellFormed.spot_of_walkWith (htree : tree.WellFormed)
    {follow : Location → List Step → Except FileError Spot} {pieces : List (List Char)}
    {place names : Location} {spot : Spot}
    (hnames : pieces.filterMap Path.innerComponent = names.map .name)
    (h : tree.Holds (place ++ names))
    (hspot : tree.walkWith follow place (pieces.map stepOf) = .ok spot) :
    spot = .present (place ++ names) := by
  induction pieces generalizing place names with
  | nil =>
    obtain rfl : names = [] := List.map_eq_nil_iff.mp hnames.symm
    rw [List.map_nil, walkWith] at hspot
    rw [List.append_nil]
    exact (Except.ok.inj hspot).symm
  | cons piece rest ih =>
    rw [List.map_cons] at hspot
    by_cases hplace : tree.entry? place = some .directory
    · rcases stepOf_cases piece with ⟨hstep, hpiece⟩ | ⟨hstep, hpiece⟩ | ⟨next, hstep, hpiece⟩
      · rw [List.filterMap_cons_none hpiece] at hnames
        rw [hstep, walkWith, hplace] at hspot
        exact ih hnames h hspot
      · rw [List.filterMap_cons_some hpiece] at hnames
        cases names <;> simp at hnames
      · rw [List.filterMap_cons_some hpiece] at hnames
        cases names with
        | nil => simp at hnames
        | cons first others =>
          obtain ⟨hnext, hothers⟩ := List.cons.inj hnames
          obtain rfl : next = first := Component.name.inj hnext
          rw [List.append_cons] at h ⊢
          obtain ⟨there, hthere, hlink⟩ := htree.holds_of_prefix (List.prefix_append _ _) h
          rw [hstep, walkWith, hplace] at hspot
          dsimp only at hspot
          split at hspot
          · cases hspot
          · rw [hthere] at hspot
            cases there with
            | file content => exact ih hothers h hspot
            | directory => exact ih hothers h hspot
            | shared number content => exact ih hothers h hspot
            | link target => exact absurd rfl (hlink target)
    · rw [walkWith_of_not_directory hplace] at hspot
      cases hspot

/-- **An absolute path with the components of something that exists leads there**, if it leads
    anywhere. -/
theorem WellFormed.spot_of_locate (htree : tree.WellFormed) {path : Path} {location : Location}
    {spot : Spot} (hpath : path.components = .root :: location.map .name)
    (h : tree.Holds location) (hspot : tree.locate path = .ok spot) :
    spot = .present location := by
  obtain ⟨habsolute, hnames⟩ := Path.filterMap_pieces_of_components hpath
  obtain ⟨-, hwalk⟩ := walk_of_locate hspot
  rw [if_pos habsolute] at hwalk
  have hends (follow : Location → List Step → Except FileError Spot)
      (hwith : tree.walkWith follow [] (stepsOf path) = .ok spot) : spot = .present location :=
    htree.spot_of_walkWith hnames (show tree.Holds ([] ++ location) from h) hwith
  exact hends _ hwalk

/-- **The path of something that exists is its own canonical form**, even where it is too long to be
    followed. -/
theorem WellFormed.canonical_pathOf (htree : tree.WellFormed) {location : Location}
    (hplain : ∀ name ∈ location, PlainName name) (h : tree.Holds location) :
    tree.canonical (pathOf location) = pathOf location := by
  unfold canonical
  split
  · rename_i place hplace
    have hspot := htree.spot_of_locate (Path.components_pathOf hplain) h (locate_of_resolve hplace)
    rw [Spot.present.inj hspot]
  · rfl

/-! ## 2. Where paths lead -/

/-- A place where a walk may end: at something that is no link, or at a name that a directory does
    not hold. -/
def Ends (tree : FileTree) : Spot → Prop
  | .present place => ∃ entry, tree.entry? place = some entry ∧ ∀ target, entry ≠ .link target
  | .absent directory name =>
    tree.entry? directory = some .directory ∧ tree.entry? (directory ++ [name]) = none

theorem ends_of_directory {location : Location} (h : tree.entry? location = some .directory) :
    tree.Ends (.present location) := by
  refine ⟨.directory, h, fun target hlink => ?_⟩
  cases hlink

/-- A walk from where it may end ends so, if it does where it follows a link. -/
theorem WellFormed.ends_of_walkWith (htree : tree.WellFormed)
    {follow : Location → List Step → Except FileError Spot}
    (hfollow : ∀ start steps spot, tree.entry? start = some .directory →
      follow start steps = .ok spot → tree.Ends spot)
    {location : Location} {steps : List Step} {spot : Spot}
    (hstart : tree.Ends (.present location))
    (h : tree.walkWith follow location steps = .ok spot) : tree.Ends spot := by
  induction steps generalizing location with
  | nil =>
    rw [walkWith] at h
    obtain rfl := Except.ok.inj h
    exact hstart
  | cons step steps ih =>
    by_cases hdir : tree.entry? location = some .directory
    · cases step with
      | stay =>
        rw [walkWith, hdir] at h
        exact ih hstart h
      | up =>
        rw [walkWith, hdir] at h
        exact ih (ends_of_directory (htree.entry?_dropLast hdir)) h
      | into name =>
        rw [walkWith, hdir] at h
        simp only at h
        split at h
        · simp at h
        · cases hbelow : tree.entry? (location ++ [name]) with
          | none =>
            rw [hbelow] at h
            simp only at h
            split at h
            · obtain rfl := Except.ok.inj h
              exact ⟨hdir, hbelow⟩
            · cases h
          | some below =>
            rw [hbelow] at h
            cases below with
            | file content => exact ih ⟨_, hbelow, by simp⟩ h
            | directory => exact ih (ends_of_directory hbelow) h
            | shared number content => exact ih ⟨_, hbelow, by simp⟩ h
            | link target =>
              refine hfollow _ _ _ ?_ h
              split
              · exact tree.entry?_root
              · exact hdir
    · rw [walkWith.eq_def] at h
      simp only at h
      cases h

theorem WellFormed.ends_of_walk (htree : tree.WellFormed) {links : Nat} {location : Location}
    {steps : List Step} {spot : Spot} (hstart : tree.entry? location = some .directory)
    (h : tree.walk links location steps = .ok spot) : tree.Ends spot := by
  induction links generalizing location steps spot with
  | zero =>
    exact htree.ends_of_walkWith (fun _ _ _ _ hnone => by simp at hnone)
      (ends_of_directory hstart) h
  | succ links ih =>
    exact htree.ends_of_walkWith (fun _ _ _ hdir hwalk => ih hdir hwalk)
      (ends_of_directory hstart) h

/-- **A path leads to something that is no link, or to a name that a directory does not hold.** -/
theorem WellFormed.ends_of_locate (htree : tree.WellFormed) {path : Path} {spot : Spot}
    (h : tree.locate path = .ok spot) : tree.Ends spot := by
  have hstart : tree.entry? (if path.isAbsolute then [] else tree.current) =
      some .directory := by
    split
    · exact tree.entry?_root
    · exact htree.current
  exact htree.ends_of_walk hstart (walk_of_locate h).2

/-- What a path denotes is no link. -/
theorem WellFormed.ne_link_of_resolve (htree : tree.WellFormed) {path : Path} {location : Location}
    (h : tree.resolve path = .ok location) :
    ∀ target, tree.entry? location ≠ some (.link target) := by
  obtain ⟨entry, hentry, hlink⟩ := htree.ends_of_locate (locate_of_resolve h)
  intro target hthere
  rw [hentry] at hthere
  exact hlink target (Option.some.inj hthere)

/-- What a path denotes stands in the tree. -/
theorem WellFormed.entry?_of_resolve (htree : tree.WellFormed) {path : Path} {location : Location}
    (h : tree.resolve path = .ok location) : ∃ entry, tree.entry? location = some entry := by
  obtain ⟨entry, hentry, -⟩ := htree.ends_of_locate (locate_of_resolve h)
  exact ⟨entry, hentry⟩

/-- Nor is what a link in a directory leads to missing. -/
theorem WellFormed.entry?_of_follow (htree : tree.WellFormed) {directory place : Location}
    {target : Path} (hdir : tree.entry? directory = some .directory)
    (h : tree.follow directory target = .ok place) : ∃ entry, tree.entry? place = some entry := by
  have hstart : tree.entry? (if target.isAbsolute then [] else directory) = some .directory := by
    split
    · exact tree.entry?_root
    · exact hdir
  unfold follow at h
  split at h
  · cases h
  · rename_i spot hspot
    obtain rfl := Except.ok.inj h
    obtain ⟨entry, hentry, -⟩ := htree.ends_of_walk hstart hspot
    exact ⟨entry, hentry⟩
  · cases h

/-! ## 3. Changes -/

/-- New contents keep a tree well-formed. -/
theorem WellFormed.of_alike {other : FileTree} (htree : tree.WellFormed)
    (halike : tree.Alike other) : other.WellFormed := by
  have hdirectory : ∀ location, tree.entry? location = some .directory →
      other.entry? location = some .directory := by
    intro location hdir
    have hkind := halike.kinds location
    rw [hdir] at hkind
    generalize other.entry? location = there at hkind ⊢
    cases hkind
    rfl
  refine ⟨?_, fun location hlocation => hdirectory _ ?_, ?_⟩
  · rw [halike.locations]
    exact htree.distinct
  · rw [halike.locations] at hlocation
    exact htree.inside location hlocation
  · rw [halike.current]
    exact hdirectory _ htree.current

/-- **An entry may be put in a directory**, but only a directory in place of one. -/
theorem WellFormed.put (htree : tree.WellFormed) {location : Location} {entry : Entry}
    (hne : location ≠ []) (hparent : tree.entry? location.dropLast = some .directory)
    (hkeeps : tree.entry? location = some .directory → entry = .directory) :
    (tree.put location entry).WellFormed := by
  have hdirectory : ∀ place, tree.entry? place = some .directory →
      entry? (tree.put location entry) place = some .directory := by
    intro place hdir
    rw [entry_put hne]
    split
    · rename_i hplace
      rw [hplace] at hdir
      rw [hkeeps hdir]
    · exact hdir
  refine ⟨?_, fun new hnew => hdirectory _ ?_, ?_⟩
  · rw [locations_put]
    split
    · exact htree.distinct
    · rename_i hnew
      rw [← List.concat_eq_append]
      exact htree.distinct.concat hnew
  · rw [locations_put] at hnew
    have hcases : new = location ∨ new ∈ tree.locations := by
      split at hnew
      · exact Or.inr hnew
      · rcases List.mem_append.mp hnew with hin | hin
        · exact Or.inr hin
        · exact Or.inl (List.mem_singleton.mp hin)
    rcases hcases with hhere | hold
    · rw [hhere]
      exact hparent
    · exact htree.inside new hold
  · have hcurrent : (tree.put location entry).current = tree.current := by
      unfold FileTree.put
      split <;> rfl
    rw [hcurrent]
    exact hdirectory _ htree.current

theorem WellFormed.put_absent (htree : tree.WellFormed) {path : Path} {directory : Location}
    {name : String} (h : tree.locate path = .ok (.absent directory name)) (entry : Entry) :
    (tree.put (directory ++ [name]) entry).WellFormed := by
  obtain ⟨hdir, hnone⟩ := htree.ends_of_locate h
  refine htree.put (by simp) (by rw [List.dropLast_concat]; exact hdir) fun hthere => ?_
  rw [hnone] at hthere
  cases hthere

/-- **Writing a file keeps a tree well-formed.** -/
theorem WellFormed.write (htree : tree.WellFormed) {path : Path} {content : ByteArray}
    {written : FileTree} (h : tree.write path content = .ok written) : written.WellFormed := by
  unfold FileTree.write at h
  split at h
  · cases h
  · rename_i hlocate
    obtain rfl := Except.ok.inj h
    exact htree.put_absent hlocate _
  · rename_i location hlocate
    split at h
    · rename_i old hfile
      obtain rfl := Except.ok.inj h
      have hne : location ≠ [] := by
        rintro rfl
        rw [entry?_root] at hfile
        cases hfile
      exact htree.of_alike (alike_put content hne hfile)
    · rename_i number old hshared
      obtain rfl := Except.ok.inj h
      exact htree.of_alike (alike_refill tree number content)
    · cases h

theorem WellFormed.createDirectory (htree : tree.WellFormed) {path : Path} {made : FileTree}
    (h : tree.createDirectory path = .ok made) : made.WellFormed := by
  unfold FileTree.createDirectory at h
  split at h
  · obtain rfl := Except.ok.inj h
    exact htree
  · split at h
    · cases h
    · rename_i hlocate
      obtain rfl := Except.ok.inj h
      exact htree.put_absent hlocate _
    · cases h

/-- **Making directories keeps a tree well-formed.** -/
theorem WellFormed.createDirectories (htree : tree.WellFormed) {path : Path} {made : FileTree}
    (h : tree.createDirectories path = .ok made) : made.WellFormed := by
  have hfold : ∀ (dirs : List Path) (start : FileTree), start.WellFormed →
      (dirs.foldl (fun tree dir => (tree.createDirectory dir).toOption.getD tree)
        start).WellFormed := by
    intro dirs
    induction dirs with
    | nil => exact fun start hstart => hstart
    | cons dir dirs ih =>
      intro start hstart
      have hnext : ((start.createDirectory dir).toOption.getD start).WellFormed := by
        cases hone : start.createDirectory dir with
        | error e => exact hstart
        | ok next => exact hstart.createDirectory hone
      exact ih _ hnext
  exact (hfold _ tree htree).createDirectory h

end TestScout.FileTree
