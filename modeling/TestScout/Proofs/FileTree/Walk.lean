import Mathlib.Data.List.Basic
import TestScout.FileTree.Listing
import TestScout.Proofs.Path.Names

/-!
# A file is listed in its directory

A walk to a file goes through the directory of the file, and goes on from there as if it had started
there, with the links that are left. So what the path of a file denotes is what the listing of the
directory finds under the name. Main statements:

* `walk_append`: a walk through a directory goes on from that directory;
* `fileName_of_resolve`: a path ends in the name of what it denotes, unless a link leads there;
* `isFileBelow_of_isFile`: a path that denotes a file ends in a name under which its directory holds
  a file;
* `mem_filesAmong`: a listing finds the names of files, and nothing else;
* `mem_listFiles_of_isFile`: a file is listed in its directory;
* `WellNamed.plain_of_listFiles`: in a tree of plain names only such names are listed.
-/

namespace TestScout.FileTree

/-! ## 1. Walks in two parts -/

/-- A walk that goes on from a place to another one goes on from a directory. -/
theorem entry?_of_walkWith {tree : FileTree}
    {follow : Location → List Step → Except FileError Spot} {location place : Location}
    {step : Step} {rest : List Step}
    (h : tree.walkWith follow location (step :: rest) = .ok (.present place)) :
    tree.entry? location = some .directory := by
  rw [walkWith.eq_def] at h
  simp only at h
  split at h
  · assumption
  · simp at h

/-- A walk goes on from a directory only. -/
theorem walkWith_of_not_directory {tree : FileTree}
    {follow : Location → List Step → Except FileError Spot} {place : Location}
    (h : tree.entry? place ≠ some .directory) (step : Step) (rest : List Step) :
    tree.walkWith follow place (step :: rest) = .error .notDirectory := by
  rw [walkWith.eq_def]
  dsimp only
  split
  · rename_i hdir
    exact absurd hdir h
  · rfl

/-- What holds of the rest of a walk from a directory holds of a walk that first leads there, if it
    holds where the first part follows a link. -/
theorem walkWith_append {tree : FileTree} {follow : Location → List Step → Except FileError Spot}
    {P : Except FileError Spot → Prop} {location directory : Location} {steps more : List Step}
    (hfollow : ∀ place path, follow place path = .ok (.present directory) →
      P (follow place (path ++ more)))
    (hrest : P (tree.walkWith follow directory more))
    (h : tree.walkWith follow location steps = .ok (.present directory)) :
    P (tree.walkWith follow location (steps ++ more)) := by
  induction steps generalizing location with
  | nil =>
    rw [walkWith] at h
    injection h with h
    injection h with h
    subst h
    exact hrest
  | cons step steps ih =>
    have hdir := entry?_of_walkWith h
    rw [List.cons_append]
    cases step with
    | stay =>
      rw [walkWith, hdir] at h ⊢
      exact ih h
    | up =>
      rw [walkWith, hdir] at h ⊢
      exact ih h
    | into name =>
      rw [walkWith, hdir] at h ⊢
      simp only at h ⊢
      split at h
      · simp at h
      · rename_i hshort
        rw [if_neg hshort]
        cases hbelow : tree.entry? (location ++ [name]) with
        | none =>
          rw [hbelow] at h
          simp only at h
          split at h <;> simp at h
        | some below =>
          rw [hbelow] at h
          cases below with
          | file content => exact ih h
          | directory => exact ih h
          | shared number content => exact ih h
          | link target =>
            simp only at h ⊢
            rw [← List.append_assoc]
            exact hfollow _ _ h

/-- **A walk through a directory goes on from that directory**, with the links that are left. -/
theorem walk_append {tree : FileTree} {links : Nat} {location directory : Location}
    {steps : List Step} (more : List Step)
    (h : tree.walk links location steps = .ok (.present directory)) :
    ∃ fewer ≤ links, tree.walk links location (steps ++ more) = tree.walk fewer directory more := by
  induction links generalizing location steps with
  | zero =>
    refine walkWith_append (P := fun r => ∃ fewer ≤ 0, r = tree.walk fewer directory more)
      ?_ ?_ h
    · intro place path h
      simp at h
    · exact ⟨0, Nat.le_refl 0, rfl⟩
  | succ links ih =>
    refine walkWith_append
      (P := fun r => ∃ fewer ≤ links + 1, r = tree.walk fewer directory more) ?_ ?_ h
    · intro place path h
      obtain ⟨fewer, hfewer, hwalk⟩ := ih h
      exact ⟨fewer, Nat.le_succ_of_le hfewer, hwalk⟩
    · exact ⟨links + 1, Nat.le_refl _, rfl⟩

/-- A walk that goes on has led to a place before, if it has where it follows a link. -/
theorem exists_walkWith_of_append {tree : FileTree}
    {follow : Location → List Step → Except FileError Spot} {location place : Location}
    {steps more : List Step} (hmore : more ≠ [])
    (hfollow : ∀ start path, follow start (path ++ more) = .ok (.present place) →
      ∃ directory, follow start path = .ok (.present directory))
    (h : tree.walkWith follow location (steps ++ more) = .ok (.present place)) :
    ∃ directory, tree.walkWith follow location steps = .ok (.present directory) := by
  induction steps generalizing location with
  | nil => exact ⟨location, by rw [walkWith]⟩
  | cons step steps ih =>
    rw [List.cons_append] at h
    have hdir := entry?_of_walkWith h
    cases step with
    | stay =>
      rw [walkWith, hdir] at h ⊢
      exact ih h
    | up =>
      rw [walkWith, hdir] at h ⊢
      exact ih h
    | into name =>
      rw [walkWith, hdir] at h ⊢
      simp only at h ⊢
      split at h
      · simp at h
      · rename_i hshort
        rw [if_neg hshort]
        cases hbelow : tree.entry? (location ++ [name]) with
        | none =>
          rw [hbelow] at h
          simp [hmore] at h
        | some below =>
          rw [hbelow] at h
          cases below with
          | file content => exact ih h
          | directory => exact ih h
          | shared number content => exact ih h
          | link target =>
            simp only at h ⊢
            rw [← List.append_assoc] at h
            exact hfollow _ _ h

theorem exists_walk_of_append {tree : FileTree} {links : Nat} {location place : Location}
    {steps more : List Step} (hmore : more ≠ [])
    (h : tree.walk links location (steps ++ more) = .ok (.present place)) :
    ∃ directory, tree.walk links location steps = .ok (.present directory) := by
  induction links generalizing location steps with
  | zero => exact exists_walkWith_of_append hmore (fun start path hnot => by simp at hnot) h
  | succ links ih => exact exists_walkWith_of_append hmore (fun start path hwalk => ih hwalk) h

/-- A walk by one name ends at the entry of that name, or follows it where it is a link. -/
theorem of_walk_into {tree : FileTree} {links : Nat} {directory location : Location} {name : String}
    (h : tree.walk links directory [.into name] = .ok (.present location)) :
    (∃ target, tree.entry? (directory ++ [name]) = some (.link target)) ∨
      location = directory ++ [name] := by
  have hwith : ∃ follow, tree.walkWith follow directory [.into name] = .ok (.present location) := by
    cases links <;> exact ⟨_, h⟩
  obtain ⟨follow, h⟩ := hwith
  have hdir := entry?_of_walkWith h
  rw [walkWith, hdir] at h
  simp only at h
  split at h
  · simp at h
  · cases hbelow : tree.entry? (directory ++ [name]) with
    | none => simp [hbelow] at h
    | some below =>
      rw [hbelow] at h
      cases below with
      | link target => exact Or.inl ⟨target, rfl⟩
      | file content =>
        simp only [walkWith, Except.ok.injEq, Spot.present.injEq] at h
        exact Or.inr h.symm
      | shared number content =>
        simp only [walkWith, Except.ok.injEq, Spot.present.injEq] at h
        exact Or.inr h.symm
      | directory =>
        simp only [walkWith, Except.ok.injEq, Spot.present.injEq] at h
        exact Or.inr h.symm

/-! ## 2. Paths of locations -/

theorem stepOf_of_plain {name : String} (h : PlainName name) : stepOf name.toList = .into name := by
  unfold stepOf
  rw [if_neg (not_or.mpr ⟨h.nonempty, h.notHere⟩), if_neg h.notUp, String.ofList_toList]

/-- The names of a path are the steps to take, behind steps that stay at the root. -/
theorem walk_stepsOf_pathOf {tree : FileTree} (links : Nat) {location : Location}
    (hplain : ∀ name ∈ location, PlainName name) :
    tree.walk links [] (stepsOf (pathOf location)) = tree.walk links [] (location.map .into) := by
  have hroot : tree.entry? [] = some .directory := if_pos rfl
  have hstay : ∀ steps, tree.walk links [] (.stay :: steps) = tree.walk links [] steps := by
    intro steps
    cases links with
    | zero => rw [walk, walkWith, hroot]
    | succ links => rw [walk, walkWith, hroot]
  cases location with
  | nil =>
    have hsteps : stepsOf (pathOf []) = [.stay, .stay] := by decide
    rw [hsteps, hstay, hstay]
    rfl
  | cons name rest =>
    have hsteps : stepsOf (pathOf (name :: rest)) = .stay :: (name :: rest).map .into := by
      unfold stepsOf
      rw [Path.pieces_pathOf (List.cons_ne_nil _ _) hplain, List.map_cons, List.map_map]
      congr 1
      exact List.map_congr_left fun n hn => stepOf_of_plain (hplain n hn)
    rw [hsteps, hstay]

/-- How a path that leads somewhere is followed. -/
theorem walk_of_locate {tree : FileTree} {path : Path} {spot : Spot}
    (h : tree.locate path = .ok spot) :
    path.text ≠ "" ∧
      tree.walk linkLimit (if path.isAbsolute then [] else tree.current) (stepsOf path) =
        .ok spot := by
  unfold locate at h
  split at h
  · simp at h
  · rename_i hempty
    split at h
    · simp at h
    · split at h
      · simp at h
      · exact ⟨hempty, h⟩

theorem locate_of_resolve {tree : FileTree} {path : Path} {location : Location}
    (h : tree.resolve path = .ok location) : tree.locate path = .ok (.present location) := by
  unfold resolve at h
  split at h
  · simp at h
  · rename_i spot hspot
    obtain rfl := Except.ok.inj h
    exact hspot
  · simp at h

/-- What such a path denotes is where its names lead. -/
theorem walk_of_resolve {tree : FileTree} {location place : Location}
    (hplain : ∀ name ∈ location, PlainName name) (h : tree.resolve (pathOf location) = .ok place) :
    tree.walk linkLimit [] (location.map .into) = .ok (.present place) := by
  obtain ⟨-, hwalk⟩ := walk_of_locate (locate_of_resolve h)
  rwa [Path.isAbsolute_pathOf, if_pos rfl, walk_stepsOf_pathOf linkLimit hplain] at hwalk

/-- **A path ends in the name of the location that it denotes**, unless a link leads there. -/
theorem fileName_of_resolve {tree : FileTree} {path : Path} {location : Location}
    (hpath : path.CleanAbsolute) (h : tree.resolve path = .ok location)
    (hlinks : ∀ directory name target fewer,
      tree.entry? (directory ++ [name]) = some (.link target) →
        tree.walk fewer directory [.into name] ≠ .ok (.present location)) :
    path.fileName = location.getLast? := by
  obtain ⟨names, hplain, rfl⟩ := Path.cleanAbsolute_iff.mp hpath
  have hwalk := walk_of_resolve hplain h
  rcases List.eq_nil_or_concat' names with rfl | ⟨above, name, rfl⟩
  · have hroot : location = [] := by
      have hstart : tree.walk linkLimit [] [] = .ok (.present []) := rfl
      rw [List.map_nil, hstart] at hwalk
      exact (Spot.present.inj (Except.ok.inj hwalk)).symm
    rw [hroot]
    decide
  · rw [List.map_append, List.map_singleton] at hwalk
    obtain ⟨directory, habove⟩ := exists_walk_of_append (List.cons_ne_nil _ _) hwalk
    obtain ⟨fewer, -, hrest⟩ := walk_append [.into name] habove
    rw [hrest] at hwalk
    rcases of_walk_into hwalk with ⟨target, hlink⟩ | rfl
    · exact absurd hwalk (hlinks directory name target fewer hlink)
    · rw [Path.fileName_pathOf hplain, List.getLast?_concat]

theorem exists_resolve_of_isFile {tree : FileTree} {path : Path} (h : tree.isFile path = true) :
    ∃ location entry content, tree.resolve path = .ok location ∧
      tree.entry? location = some entry ∧ entry.opened = .file content := by
  unfold isFile stat at h
  cases hresolve : tree.resolve path with
  | error e => simp [hresolve] at h
  | ok location =>
    cases hentry : tree.entry? location with
    | none => simp [hresolve, hentry] at h
    | some entry =>
      simp only [hresolve, hentry] at h
      split at h
      · rename_i content hopened
        exact ⟨location, entry, content, rfl, hentry, Except.ok.inj hopened⟩
      · exact absurd h (by decide)

/-! ## 3. Listings -/

/-- What stands at a location below the root is one of the entries. -/
theorem mem_entries {tree : FileTree} {location : Location} {entry : Entry} (hne : location ≠ [])
    (h : tree.entry? location = some entry) : (.named location, entry) ∈ tree.entries := by
  unfold entry? at h
  rw [if_neg hne] at h
  obtain ⟨before, behind, hentries, -⟩ := List.lookup_eq_some_iff.mp h
  rw [hentries]
  exact List.mem_append_right _ List.mem_cons_self

theorem mem_locations_iff {tree : FileTree} {location : Location} :
    location ∈ tree.locations ↔ ∃ entry, (.named location, entry) ∈ tree.entries := by
  unfold locations
  rw [List.mem_filterMap]
  constructor
  · intro h
    obtain ⟨⟨slot, entry⟩, hentry, hlocation⟩ := h
    cases slot with
    | named place =>
      obtain rfl : place = location := Option.some.inj hlocation
      exact ⟨entry, hentry⟩
    | nameless directory shown => cases hlocation
  · intro h
    obtain ⟨entry, hentry⟩ := h
    exact ⟨_, hentry, rfl⟩

theorem mem_locations {tree : FileTree} {location : Location} {entry : Entry} (hne : location ≠ [])
    (h : tree.entry? location = some entry) : location ∈ tree.locations :=
  mem_locations_iff.mpr ⟨entry, mem_entries hne h⟩

/-- What is met under a name stands directly below the location. -/
theorem metBelow?_eq_named_iff {location : Location} {entry : Slot × Entry} {name : String} :
    metBelow? location entry = some (.named name) ↔ entry.1 = .named (location ++ [name]) := by
  obtain ⟨slot, entry⟩ := entry
  unfold metBelow?
  cases slot with
  | nameless directory shown =>
    dsimp only
    split <;> simp
  | named place =>
    simp only [Slot.named.injEq]
    constructor
    · intro h
      split at h
      · rename_i found hfound
        obtain rfl : found = name := Met.named.inj (Option.some.inj h)
        exact (List.isPrefixOf?_eq_some_iff_append_eq.mp hfound).symm
      · cases h
    · intro h
      rw [List.isPrefixOf?_eq_some_iff_append_eq.mpr h.symm]

/-- What stands below a location is met there. -/
theorem mem_metBelow {tree : FileTree} {location : Location} {name : String} {entry : Entry}
    (h : tree.entry? (location ++ [name]) = some entry) : .named name ∈ tree.metBelow location := by
  have hmem : (.named (location ++ [name]), entry) ∈ tree.entries := mem_entries (by simp) h
  exact List.mem_filterMap.mpr ⟨_, hmem, metBelow?_eq_named_iff.mpr rfl⟩

/-- No name is taken of a thing whose name is no text. -/
theorem eq_none_of_taken_nameless {tree : FileTree} {dir : Path} {location : Location}
    {shown : String} {target : Option Path} {name? : Option String}
    (h : tree.taken dir location (.nameless shown target) = .ok name?) : name? = none := by
  cases target with
  | none => exact (Except.ok.inj h).symm
  | some target =>
    rw [taken] at h
    cases hleads : tree.leadsToFile dir location (dir.child shown)
        (tree.follow location target) with
    | error e => simp [hleads, Except.map] at h
    | ok isFile =>
      rw [hleads] at h
      exact (Except.ok.inj h).symm

/-- The name that is taken is that of a file. -/
theorem mem_of_taken {tree : FileTree} {dir : Path} {location : Location} {met : Met}
    {name? : Option String} (h : tree.taken dir location met = .ok name?) {name : String} :
    name ∈ name?.toList ↔ met = .named name ∧ tree.isFileBelow dir location name = .ok true := by
  cases met with
  | named other =>
    rw [taken] at h
    cases hfile : tree.isFileBelow dir location other with
    | error e => simp [hfile, Except.map] at h
    | ok isFile =>
      rw [hfile] at h
      obtain rfl := Except.ok.inj h
      rw [Met.named.injEq]
      constructor
      · intro hmem
        cases isFile with
        | true =>
          obtain rfl : name = other := List.mem_singleton.mp hmem
          exact ⟨rfl, hfile⟩
        | false => exact absurd hmem List.not_mem_nil
      · intro hname
        obtain ⟨rfl, hname⟩ := hname
        obtain rfl := Except.ok.inj (hfile.symm.trans hname)
        exact List.mem_singleton.mpr rfl
  | nameless shown target =>
    rw [eq_none_of_taken_nameless h]
    simp

/-- What a listing takes from one thing and then from the rest. -/
theorem filesAmong_cons_eq_ok {tree : FileTree} {dir : Path} {location : Location} {met : Met}
    {rest : List Met} {found : List String}
    (h : tree.filesAmong dir location (met :: rest) = .ok found) :
    ∃ name? others, tree.taken dir location met = .ok name? ∧
      tree.filesAmong dir location rest = .ok others ∧ found = name?.toList ++ others := by
  rw [filesAmong] at h
  cases htaken : tree.taken dir location met with
  | error e => simp [htaken] at h
  | ok name? =>
    cases hrest : tree.filesAmong dir location rest with
    | error e => simp [htaken, hrest] at h
    | ok others =>
      simp only [htaken, hrest, Except.ok.injEq] at h
      exact ⟨name?, others, rfl, rfl, h.symm⟩

/-- **A listing finds the names of files, and nothing else.** -/
theorem mem_filesAmong {tree : FileTree} {dir : Path} {location : Location}
    {met : List Met} {found : List String} (h : tree.filesAmong dir location met = .ok found)
    {name : String} :
    name ∈ found ↔ .named name ∈ met ∧ tree.isFileBelow dir location name = .ok true := by
  induction met generalizing found with
  | nil =>
    obtain rfl := Except.ok.inj h
    simp
  | cons first rest ih =>
    obtain ⟨name?, others, htaken, hrest, rfl⟩ := filesAmong_cons_eq_ok h
    rw [List.mem_append, mem_of_taken htaken, ih hrest, List.mem_cons, or_and_right, eq_comm]

/-- **A path that denotes a file ends in a name under which its directory holds a file.** -/
theorem isFileBelow_of_isFile {tree : FileTree} {above directory : Location} {name : String}
    (hplain : ∀ n ∈ above ++ [name], PlainName n)
    (hfile : tree.isFile (pathOf (above ++ [name])) = true)
    (hdir : tree.resolve (pathOf above) = .ok directory) :
    .named name ∈ tree.metBelow directory ∧
      tree.isFileBelow (pathOf above) directory name = .ok true := by
  obtain ⟨location, entry, content, hresolve, hentry, hopened⟩ := exists_resolve_of_isFile hfile
  have hwalk := walk_of_resolve hplain hresolve
  have habove := walk_of_resolve (fun n hn => hplain n (List.mem_append_left _ hn)) hdir
  obtain ⟨fewer, -, hrest⟩ := walk_append [.into name] habove
  rw [List.map_append, List.map_singleton, hrest] at hwalk
  rcases of_walk_into hwalk with ⟨target, hlink⟩ | rfl
  · refine ⟨mem_metBelow hlink, ?_⟩
    simp only [isFileBelow, hlink, Path.child_pathOf hplain, hresolve, leadsToFile, hentry]
    cases entry with
    | file content => rfl
    | shared number content => rfl
    | directory => cases hopened
    | link target => cases hopened
  · refine ⟨mem_metBelow hentry, ?_⟩
    simp only [isFileBelow, hentry]
    cases entry with
    | file content => rfl
    | shared number content => rfl
    | directory => cases hopened
    | link target => cases hopened

theorem isDirectory_iff {tree : FileTree} {path : Path} :
    tree.isDirectory path = true ↔
      ∃ location, tree.resolve path = .ok location ∧
        tree.entry? location = some .directory := by
  unfold isDirectory stat
  cases tree.resolve path with
  | error cause => simp
  | ok location =>
    cases hentry : tree.entry? location with
    | none => simp [hentry]
    | some entry => cases entry <;> simp [hentry, Entry.opened]

/-- The path of a location does not stand for the standard input. -/
theorem isStandardInput_pathOf {location : Location} (hplain : ∀ n ∈ location, PlainName n) :
    (pathOf location).isStandardInput = false := by
  refine Bool.eq_false_iff.mpr fun hsame => ?_
  have hinput : Path.components ⟨"-"⟩ = [.name "-"] := by decide
  have hcomponents := Path.same_iff.mp hsame
  rw [hinput, Path.components_pathOf hplain] at hcomponents
  cases hcomponents

/-- The listing of a directory has the files that it takes, in order. -/
theorem listFiles_eq_map {tree : FileTree} {dir : Path} {location : Location} (extension : String)
    (hinput : dir.isStandardInput = false) (hresolve : tree.resolve dir = .ok location)
    (hentry : tree.entry? location = some .directory) :
    tree.listFiles dir (some extension) =
      (tree.filesAmong dir location (tree.metBelow location)).map fun found =>
        (found.filter (hasExtension (some extension))).mergeSort := by
  unfold listFiles
  rw [hinput]
  simp only [Bool.false_eq_true, if_false, hresolve, hentry]
  cases tree.filesAmong dir location (tree.metBelow location) <;> rfl

/-- How the listing of a directory comes about. -/
theorem listFiles_eq_ok {tree : FileTree} {dir : Path} {extension : String} {names : List String}
    (hinput : dir.isStandardInput = false) (hdir : tree.isDirectory dir = true)
    (h : tree.listFiles dir (some extension) = .ok names) :
    ∃ location found, tree.resolve dir = .ok location ∧
      tree.filesAmong dir location (tree.metBelow location) = .ok found ∧
      names = (found.filter (hasExtension (some extension))).mergeSort := by
  obtain ⟨location, hresolve, hentry⟩ := isDirectory_iff.mp hdir
  rw [listFiles_eq_map extension hinput hresolve hentry] at h
  cases hfound : tree.filesAmong dir location (tree.metBelow location) with
  | error e => simp [hfound, Except.map] at h
  | ok found =>
    rw [hfound] at h
    exact ⟨location, found, hresolve, hfound, (Except.ok.inj h).symm⟩

theorem hasExtension_iff {extension name : String} :
    hasExtension (some extension) name = true ↔ Path.extension name = some extension := by
  simp [hasExtension]

/-- **A file is listed in its directory.** -/
theorem mem_listFiles_of_isFile {tree : FileTree} {above : Location} {name extension : String}
    {names : List String} (hplain : ∀ n ∈ above ++ [name], PlainName n)
    (hfile : tree.isFile (pathOf (above ++ [name])) = true)
    (hextension : Path.extension name = some extension)
    (hdir : tree.isDirectory (pathOf above) = true)
    (h : tree.listFiles (pathOf above) (some extension) = .ok names) : name ∈ names := by
  have hinput := isStandardInput_pathOf fun n hn => hplain n (List.mem_append_left _ hn)
  obtain ⟨directory, found, hresolve, hfound, rfl⟩ := listFiles_eq_ok hinput hdir h
  rw [List.mem_mergeSort, List.mem_filter, mem_filesAmong hfound, hasExtension_iff]
  exact ⟨isFileBelow_of_isFile hplain hfile hresolve, hextension⟩

/-! ## 4. Names in a tree -/

/-- The names in a file tree that are texts are names. -/
def WellNamed (tree : FileTree) : Prop :=
  ∀ location ∈ tree.locations, ∀ name ∈ location, PlainName name

instance (tree : FileTree) : Decidable tree.WellNamed :=
  inferInstanceAs (Decidable (∀ location ∈ tree.locations, ∀ name ∈ location, PlainName name))

/-- What is met under a name stands at a location. -/
theorem mem_locations_of_mem_metBelow {tree : FileTree} {location : Location} {name : String}
    (h : .named name ∈ tree.metBelow location) : location ++ [name] ∈ tree.locations := by
  obtain ⟨⟨slot, entry⟩, hentry, hmet⟩ := List.mem_filterMap.mp h
  obtain rfl : slot = .named (location ++ [name]) := metBelow?_eq_named_iff.mp hmet
  exact mem_locations_iff.mpr ⟨entry, hentry⟩

/-- Only names are listed. -/
theorem WellNamed.plain_of_listFiles {tree : FileTree} (h : tree.WellNamed) {dir : Path}
    {extension : Option String} {names : List String}
    (hlist : tree.listFiles dir extension = .ok names) : ∀ name ∈ names, PlainName name := by
  intro name hname
  unfold listFiles at hlist
  split at hlist
  · obtain rfl := Except.ok.inj hlist
    exact absurd hname List.not_mem_nil
  · split at hlist
    · simp at hlist
    · rename_i location hresolve
      split at hlist
      · split at hlist
        · simp at hlist
        · rename_i found hfound
          obtain rfl := Except.ok.inj hlist
          have hmem : name ∈ found := (List.mem_filter.mp (List.mem_mergeSort.mp hname)).1
          have hmet := ((mem_filesAmong hfound).mp hmem).1
          exact h _ (mem_locations_of_mem_metBelow hmet) name (by simp)
      · obtain rfl := Except.ok.inj hlist
        exact absurd hname List.not_mem_nil

end TestScout.FileTree
