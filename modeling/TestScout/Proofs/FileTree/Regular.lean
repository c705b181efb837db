import TestScout.Proofs.FileTree.WellFormed
import TestScout.Proofs.Lists
import TestScout.Proofs.Text.ByteOrder

/-!
# The regular files of a directory

The listing of a directory holds each of its regular files once, in the order of their names, and
nothing else. A link counts as a file where the path of its name leads to one. Main statements:

* `HoldsFile`: a directory holds a regular file under a name;
* `mem_listFiles_iff`: the listing holds the names of regular files;
* `ascending_listFiles`: its names strictly ascend, as their bytes do.
-/

namespace TestScout.FileTree

/-! ## 1. What a directory holds -/

/-- The directory at a path holds a regular file under a name: the file itself, or a link where the
    path of the name denotes one. -/
def HoldsFile (tree : FileTree) (dir : Path) (name : String) : Prop :=
  ∃ location entry, tree.resolve dir = .ok location ∧
    tree.entry? (location ++ [name]) = some entry ∧
      ((∃ content, entry.opened = .file content) ∨
        (∃ target, entry = .link target) ∧ tree.isFile (dir.child name) = true)

/-- What a link denotes is a file where its path denotes one. -/
theorem WellFormed.isFileBelow_link {tree : FileTree} (htree : tree.WellFormed) {dir : Path}
    {location : Location} {name : String} {target : Path}
    (h : tree.entry? (location ++ [name]) = some (.link target)) :
    tree.isFileBelow dir location name = .ok true ↔ tree.isFile (dir.child name) = true := by
  unfold isFileBelow isFile stat
  simp only [h]
  cases hresolve : tree.resolve (dir.child name) with
  | error cause => simp [leadsToFile]
  | ok place =>
    unfold leadsToFile
    cases hplace : tree.entry? place with
    | none => simp [hplace]
    | some entry =>
      cases entry with
      | file content => simp [hplace, Entry.opened]
      | shared number content => simp [hplace, Entry.opened]
      | link target => exact absurd hplace (htree.ne_link_of_resolve hresolve target)
      | directory => simp [hplace, Entry.opened, apply_ite (· = Except.ok true)]

theorem WellFormed.isFileBelow_iff {tree : FileTree} (htree : tree.WellFormed) {dir : Path}
    {location : Location} {name : String} (hdir : tree.resolve dir = .ok location) :
    tree.isFileBelow dir location name = .ok true ↔ tree.HoldsFile dir name := by
  have hholds : tree.HoldsFile dir name ↔ ∃ entry, tree.entry? (location ++ [name]) = some entry ∧
      ((∃ content, entry.opened = .file content) ∨
        (∃ target, entry = .link target) ∧ tree.isFile (dir.child name) = true) := by
    unfold HoldsFile
    simp only [hdir, Except.ok.injEq, exists_and_left, exists_eq_left']
  rw [hholds]
  cases hentry : tree.entry? (location ++ [name]) with
  | none => simp [isFileBelow, hentry]
  | some entry =>
    cases entry with
    | file content => simp [isFileBelow, hentry, Entry.opened]
    | shared number content => simp [isFileBelow, hentry, Entry.opened]
    | directory => simp [isFileBelow, hentry, Entry.opened]
    | link target =>
      rw [htree.isFileBelow_link hentry]
      simp [Entry.opened]

/-! ## 2. Listings -/

/-- **A listing holds the names of the regular files with the extension.** -/
theorem mem_listFiles_iff {tree : FileTree} (htree : tree.WellFormed) {dir : Path}
    {extension name : String} {names : List String} (hinput : dir.isStandardInput = false)
    (hdir : tree.isDirectory dir = true)
    (h : tree.listFiles dir (some extension) = .ok names) :
    name ∈ names ↔ tree.HoldsFile dir name ∧ Path.extension name = some extension := by
  obtain ⟨location, found, hresolve, hfound, rfl⟩ := listFiles_eq_ok hinput hdir h
  rw [List.mem_mergeSort, List.mem_filter, hasExtension_iff, mem_filesAmong hfound,
    htree.isFileBelow_iff hresolve]
  refine and_congr_left fun _ => and_iff_right_of_imp fun hholds => ?_
  obtain ⟨place, entry, hplace, hentry, -⟩ := hholds
  obtain rfl := Except.ok.inj (hresolve.symm.trans hplace)
  exact mem_metBelow hentry

/-- The name of what is met, if it is a text. -/
def Met.name? : Met → Option String
  | .named name => some name
  | .nameless .. => none

/-- What a listing takes is the name of what it meets. -/
theorem sublist_of_taken {tree : FileTree} {dir : Path} {location : Location} {met : Met}
    {name? : Option String} (h : tree.taken dir location met = .ok name?) :
    name?.toList.Sublist met.name?.toList := by
  cases htaken : name? with
  | none => exact List.nil_sublist _
  | some name =>
    rw [htaken] at h
    obtain ⟨rfl, -⟩ := (mem_of_taken h).mp (List.mem_singleton.mpr rfl)
    exact List.Sublist.refl _

theorem sublist_of_filesAmong {tree : FileTree} {dir : Path} {location : Location}
    {met : List Met} {found : List String} (h : tree.filesAmong dir location met = .ok found) :
    found.Sublist (met.filterMap Met.name?) := by
  induction met generalizing found with
  | nil =>
    obtain rfl := Except.ok.inj h
    exact List.Sublist.refl _
  | cons first rest ih =>
    obtain ⟨name?, others, htaken, hrest, rfl⟩ := filesAmong_cons_eq_ok h
    have hsplit : (first :: rest).filterMap Met.name? =
        first.name?.toList ++ rest.filterMap Met.name? := by
      cases first <;> rfl
    rw [hsplit]
    exact (sublist_of_taken htaken).append (ih hrest)

/-- No name is met twice below a location. -/
theorem WellFormed.nodup_metBelow {tree : FileTree} (htree : tree.WellFormed)
    (location : Location) : ((tree.metBelow location).filterMap Met.name?).Nodup := by
  have hnames : (tree.metBelow location).filterMap Met.name? = tree.locations.filterMap fun place =>
      (metBelow? location (.named place, .directory)).bind Met.name? := by
    unfold metBelow locations
    rw [List.filterMap_filterMap, List.filterMap_filterMap]
    refine List.filterMap_congr fun entry _ => ?_
    obtain ⟨slot, entry⟩ := entry
    cases slot with
    | named place => rfl
    | nameless directory shown =>
      unfold metBelow?
      dsimp only
      split <;> rfl
  have hplace {place : Location} {name : String}
      (h : name ∈ (metBelow? location (.named place, .directory)).bind Met.name?) :
      place = location ++ [name] := by
    obtain ⟨met, hmet, hname⟩ := Option.bind_eq_some_iff.mp h
    cases met with
    | nameless shown target => cases hname
    | named other =>
      obtain rfl : other = name := Option.some.inj hname
      exact Slot.named.inj (metBelow?_eq_named_iff.mp hmet)
  rw [hnames]
  exact htree.distinct.filterMap fun place other name hone htwo =>
    (hplace hone).trans (hplace htwo).symm

/-- The listing of a directory whose files are met in the order of their names. -/
theorem listFiles_of_sorted {tree : FileTree} {dir : Path} {location : Location}
    {extension : String} {found names : List String} (hinput : dir.isStandardInput = false)
    (hresolve : tree.resolve dir = .ok location)
    (hentry : tree.entry? location = some .directory)
    (hfound : tree.filesAmong dir location (tree.metBelow location) = .ok found)
    (hnames : found.filter (hasExtension (some extension)) = names)
    (hsorted : names.Pairwise fun x y => decide (x ≤ y) = true) :
    tree.listFiles dir (some extension) = .ok names := by
  rw [listFiles_eq_map extension hinput hresolve hentry, hfound]
  show Except.ok (found.filter _).mergeSort = _
  rw [hnames, List.mergeSort_of_pairwise hsorted]

/-- **The names of a listing strictly ascend, as their bytes do.** -/
theorem ascending_listFiles {tree : FileTree} (htree : tree.WellFormed) {dir : Path}
    {extension : String} {names : List String} (hinput : dir.isStandardInput = false)
    (hdir : tree.isDirectory dir = true)
    (h : tree.listFiles dir (some extension) = .ok names) :
    names.Pairwise fun x y => ByteOrder.bytes x < ByteOrder.bytes y := by
  obtain ⟨location, found, -, hfound, rfl⟩ := listFiles_eq_ok hinput hdir h
  have hdistinct : (found.filter (hasExtension (some extension))).mergeSort.Nodup := by
    rw [(List.mergeSort_perm _ _).nodup_iff]
    exact ((htree.nodup_metBelow location).sublist (sublist_of_filesAmong hfound)).filter _
  refine ((pairwise_mergeSort_le _).and hdistinct).imp ?_
  rintro x y ⟨hle, hne⟩
  exact ByteOrder.lt_iff_bytes_lt.mp (Std.lt_of_le_of_ne hle hne)

end TestScout.FileTree
